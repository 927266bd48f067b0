import InfraScan.Proofs.Framework
import InfraScan.Proofs.Manifest
import InfraScan.Proofs.Survey

/-!
# Images of manifests and their place

The body of a manifest document is written by whoever writes the manifest, and may define the
attributes that say where a vertex comes from and what it is.  What the body says about these
does not count: a vertex has the place of its document, and images are reported at that place.

* `ManifestDocument.reserved` — the attributes of a vertex that the body has no say in
* `Graph.ShowsDocument` — what a graph shows of a document
* `ManifestDocument.extraction` — what is found in a document, told without a graph
* `ManifestDocument.Names` — an image that a document names
* `ManifestDocument.mem_extraction_iff` — these are the images that are found
* `manifest_images_located` — images of manifests are those of their documents

### What is load-bearing

The line markers of a vertex are read back as numbers of 64 bits, so a line number beyond that
would be no marker; this is where the length of the text comes in
(`Manifest.Holds.lines_fit`).  Node numbers have 32 bits; a position beyond that shows another
document, but always one of the list (`Manifest.exists_graph_showsDocument`), so images are
located anywhere.
-/

namespace InfraScan

/-! ### Documents as vertices -/

/-- The names of the attributes that say where a vertex comes from and what it is. -/
def Attribute.reserved : List String :=
  [blockType, resourceType, filePath, startLine, endLine]

namespace ManifestDocument

/-- **The reserved attributes of a document's vertex**, in which the body has no say. -/
def reserved (document : ManifestDocument) : List (String × Json) := [
  (Attribute.blockType, .str resourceBlock),
  (Attribute.resourceType, .str document.kind),
  (Attribute.filePath, .str document.filePath),
  (Attribute.startLine, .ofNat document.startLine),
  (Attribute.endLine, .ofNat document.endLine)]

@[simp] theorem map_fst_reserved (document : ManifestDocument) :
    document.reserved.map Prod.fst = Attribute.reserved := rfl

theorem look_reserved_of_free {document : ManifestDocument} {name : String}
    (free : name ∉ Attribute.reserved) : OrderedMap.look name document.reserved = none := by
  rwa [OrderedMap.look_eq_none_iff, map_fst_reserved]

theorem resourceType_toVertex (document : ManifestDocument) (index : Nat) :
    (document.toVertex index).resourceType = some document.kind := by
  simp [toVertex, Vertex.resource]

/-- **The attributes that are shown are the reserved ones, over the body.** -/
theorem get?_synced_toVertex (document : ManifestDocument) (index : Nat) (name : String) :
    (document.toVertex index).synced.get? name =
      (OrderedMap.look name document.reserved).or (document.body.get? name) := by
  simp only [Vertex.synced, resourceType_toVertex, OrderedMap.get?_insert]
  simp only [toVertex, Vertex.resource, OrderedMap.get?_insertAll]
  -- All five are written after the body, and nothing else is.
  by_cases own : name ∈ Attribute.reserved
  · simp only [Attribute.reserved, List.mem_cons, List.not_mem_nil, or_false] at own
    rcases own with rfl | rfl | rfl | rfl | rfl <;> rfl
  · rw [look_reserved_of_free own]
    simp only [Attribute.reserved, List.mem_cons, List.not_mem_nil, or_false, not_or] at own
    simp [OrderedMap.look, own, Ne.symm]

/-- What the body says in a reserved attribute does not count. -/
theorem get?_synced_of_reserved {document : ManifestDocument} {name : String} {value : Json}
    (mem : (name, value) ∈ document.reserved) (index : Nat) :
    (document.toVertex index).synced.get? name = some value := by
  have distinct : (document.reserved.map Prod.fst).Nodup := by
    rw [map_fst_reserved]
    decide
  rw [get?_synced_toVertex, (OrderedMap.look_eq_some_iff distinct).2 mem, Option.some_or]

theorem ne_null_of_reserved {document : ManifestDocument} {name : String} {value : Json}
    (mem : (name, value) ∈ document.reserved) : value ≠ .null := by
  rintro rfl
  simp [reserved, Json.ofNat] at mem

end ManifestDocument

/-- **What a graph shows of a document** at a position: a resource whose type is the kind of
the document, the reserved attributes as the document has them, and everything else as the
body has it. -/
structure Graph.ShowsDocument (graph : Graph) (position : Nat) (document : ManifestDocument) :
    Prop where
  blockType : graph.blockType? position = some resourceBlock
  resourceType : graph.resourceType? position = some document.kind
  reserved : ∀ name value, (name, value) ∈ document.reserved →
    graph.attribute? position name = some value
  attributes : ∃ attributes, graph.attributes? position = some attributes ∧
    ∀ name, attributes.get? name =
      (OrderedMap.look name document.reserved).or (document.body.get? name)

namespace Graph

theorem Shows.showsDocument {graph : Graph} {position index : Nat}
    {document : ManifestDocument} (shown : graph.Shows position (document.toVertex index)) :
    graph.ShowsDocument position document where
  blockType := shown.blockType?
  resourceType := by rw [shown.resourceType?, document.resourceType_toVertex]
  reserved := fun _ _ mem => shown.attribute?_eq_some
    (ManifestDocument.get?_synced_of_reserved mem index)
      (ManifestDocument.ne_null_of_reserved mem)
  attributes := ⟨_, shown.attributes, document.get?_synced_toVertex index⟩

end Graph

namespace Manifest

theorem getElem?_vertices {documents : List ManifestDocument} {position : Nat}
    {document : ManifestDocument} (present : documents[position]? = some document) :
    (vertices documents)[position]? = some (document.toVertex position) := by
  simp [vertices, present]

/-- **A position shows the document in its slot.** -/
theorem graph_showsDocument_of_slot (framework : Framework)
    {documents : List ManifestDocument} {position : Nat} {document : ManifestDocument}
    (present : documents[framework.slot position]? = some document) :
    (graph framework documents).ShowsDocument position document :=
  (Graph.shows_of_slot framework (getElem?_vertices present)).showsDocument

theorem vertices_graph (framework : Framework) (documents : List ManifestDocument) :
    (graph framework documents).vertices = List.range documents.length := by
  rw [graph, Graph.vertices_ofVertices, vertices, List.length_map, List.length_zipIdx]

/-- **Every position that is handed out shows a document.** -/
theorem exists_graph_showsDocument {framework : Framework} {documents : List ManifestDocument}
    {position : Nat} (handedOut : position ∈ (graph framework documents).vertices) :
    ∃ document ∈ documents, (graph framework documents).ShowsDocument position document := by
  rw [vertices_graph, List.mem_range] at handedOut
  have inside := Nat.lt_of_le_of_lt (framework.slot_le position) handedOut
  exact ⟨documents[framework.slot position], List.getElem_mem inside,
    graph_showsDocument_of_slot framework (List.getElem?_eq_getElem inside)⟩

end Manifest

/-! ### What is found in a document -/

namespace ManifestDocument

/-- An image at the place of a document. -/
def imageNamed (document : ManifestDocument) (name : String) : Image :=
  ⟨document.filePath, name, document.startLine, document.endLine,
    PodSpec.resourceId document.filePath document.body⟩

/-- **What is found in a document**, told by its body and its place alone. -/
def extraction (document : ManifestDocument) : Extraction :=
  match PodSpec.path? document.kind with
  | none => .none
  | some path =>
    match PodSpec.lookup? document.body path with
    | none => ⟨[], [.podSpecMissing document.filePath document.kind]⟩
    | some spec => ⟨(PodSpec.imageNames spec).map document.imageNamed, []⟩

/-- No pod specification is looked for in a reserved attribute. -/
theorem free_of_path? {kind name : String} {rest : List String}
    (path : PodSpec.path? kind = some (name :: rest)) : name ∉ Attribute.reserved := by
  have either : name = "spec" ∨ name = "template" := by
    unfold PodSpec.path? at path
    grind
  rcases either with rfl | rfl <;> decide

end ManifestDocument

namespace Graph.ShowsDocument

variable {graph : Graph} {position : Nat} {document : ManifestDocument}

/-- The place that is read off the vertex is that of the document. -/
theorem location? (shown : graph.ShowsDocument position document)
    (startFits : document.startLine < UInt64.size)
    (endFits : document.endLine < UInt64.size) :
    PodSpec.location? graph position =
      some (document.filePath, document.startLine, document.endLine) := by
  have filePath : graph.attribute? position Attribute.filePath =
      some (.str document.filePath) :=
    shown.reserved _ _ (by simp [ManifestDocument.reserved])
  have startLine : graph.attribute? position Attribute.startLine =
      some (.ofNat document.startLine) :=
    shown.reserved _ _ (by simp [ManifestDocument.reserved])
  have endLine : graph.attribute? position Attribute.endLine =
      some (.ofNat document.endLine) :=
    shown.reserved _ _ (by simp [ManifestDocument.reserved])
  simp [PodSpec.location?, PodSpec.marker?, filePath, startLine, endLine,
    Json.nat?_ofNat startFits, Json.nat?_ofNat endFits]

/-- **What is found at a vertex is what is found in its document.** -/
theorem imagesOf (shown : graph.ShowsDocument position document)
    (startFits : document.startLine < UInt64.size)
    (endFits : document.endLine < UInt64.size) :
    PodSpec.imagesOf graph position = document.extraction := by
  obtain ⟨attributes, whole, reads⟩ := shown.attributes
  -- Of the map itself only a name and the pod specification are read, and these are the
  -- body's own.
  have free (name : String) (free : name ∉ Attribute.reserved) :
      attributes.get? name = document.body.get? name := by
    rw [reads, ManifestDocument.look_reserved_of_free free, Option.none_or]
  have sameName : PodSpec.resourceName? attributes = PodSpec.resourceName? document.body := by
    unfold PodSpec.resourceName?
    rw [free "name" (by decide), free "metadata" (by decide)]
  have place := shown.location? startFits endFits
  cases path : PodSpec.path? document.kind with
  | none =>
    simp only [PodSpec.imagesOf, ManifestDocument.extraction, shown.resourceType, path]
  | some names =>
    have sameSpec : PodSpec.lookup? attributes names =
        PodSpec.lookup? document.body names := by
      cases names with
      | nil => rfl
      | cons name rest =>
        rw [PodSpec.lookup?, PodSpec.lookup?, free name (ManifestDocument.free_of_path? path)]
    cases spec : PodSpec.lookup? document.body names <;>
      simp only [PodSpec.imagesOf, ManifestDocument.extraction,
        shown.resourceType, path, whole, place, sameSpec, spec, PodSpec.resourceId, sameName]
    rfl

end Graph.ShowsDocument

/-- **An image that a document names**: it has the place of the document, and one of the
containers in the pod specification of the body has it as its image. -/
structure ManifestDocument.Names (document : ManifestDocument) (image : Image) : Prop where
  filePath : image.filePath = document.filePath
  startLine : image.startLine = document.startLine
  endLine : image.endLine = document.endLine
  relatedResourceId : image.relatedResourceId =
    document.filePath ++ ":" ++ (PodSpec.resourceName? document.body).getD PodSpec.nameless
  inPodSpec : ∃ path spec, PodSpec.path? document.kind = some path ∧
    PodSpec.lookup? document.body path = some spec ∧ image.name ∈ PodSpec.imageNames spec

namespace ManifestDocument

variable {document : ManifestDocument}

/-- **The images that are found are those that the document names.** -/
theorem mem_extraction_iff {image : Image} :
    image ∈ document.extraction.images ↔ document.Names image := by
  unfold extraction
  constructor
  · intro mem
    split at mem
    · cases mem
    · rename_i path atPath
      split at mem
      · cases mem
      · rename_i spec found
        obtain ⟨name, listed, rfl⟩ := List.mem_map.1 mem
        exact ⟨rfl, rfl, rfl, rfl, path, spec, atPath, found, listed⟩
  · intro names
    obtain ⟨path, spec, atPath, found, listed⟩ := names.inPodSpec
    have same : document.imageNamed image.name = image := by
      obtain ⟨filePath, name, startLine, endLine, relatedResourceId⟩ := image
      obtain ⟨rfl, rfl, rfl, rfl, -⟩ := names
      rfl
    simp only [atPath, found]
    exact List.mem_map.2 ⟨image.name, listed, same⟩

/-- A document is never without a place. -/
theorem locationMissing_not_mem_extraction (type : String) :
    .locationMissing type ∉ document.extraction.events := by
  unfold extraction
  split
  · exact List.not_mem_nil
  · split <;> simp

end ManifestDocument

/-- A document that names an image is at a vertex that is read. -/
theorem Graph.ShowsDocument.applies {graph : Graph} {position : Nat}
    {document : ManifestDocument} (shown : graph.ShowsDocument position document)
    {image : Image} (names : document.Names image) :
    Platform.kubernetes.applies graph position = true := by
  obtain ⟨path, -, place, -⟩ := names.inPodSpec
  simp [Platform.applies, Platform.supports, shown.blockType, shown.resourceType,
    PodSpec.supports_of_path? place]

/-- **Images of manifests are those of their documents.**  Whatever text is read by whatever
reader, the following is true of the graph of its documents on either framework.

* There is one vertex for each document, in order.
* A vertex is a resource of the document's kind at the document's place, whatever the body
  says.  (A graph of whole attribute maps numbers its vertices with 32 bits, and has none
  beyond.)
* The documents are those of the text, with ranges in order that lie inside it.
* Every image that any providers report is one that a document names, at the place of that
  document.
* Every image that a document names is reported, if there is a provider at all.
* No resource is ever reported to be without a place. -/
theorem manifest_images_located {reader : String → Except String Json}
    {text filePath : String} (fits : text.length < UInt64.size)
    {documents : List ManifestDocument}
    (parsed : Manifest.parse reader text filePath = .ok documents) (framework : Framework) :
    let graph := Manifest.graph framework documents
    graph.vertices = List.range documents.length ∧
    (∀ position document, documents[position]? = some document →
      (framework = .attributed → position < UInt32.size) →
      graph.ShowsDocument position document) ∧
    (∀ document ∈ documents, Manifest.Holds reader filePath text document ∧
      1 ≤ document.startLine ∧ document.startLine ≤ document.endLine ∧
      document.endLine ≤ (Text.lines text.toList).length) ∧
    ∀ providers : List Platform,
      (∀ image ∈ (Survey.run providers graph).images,
        ∃ document ∈ documents, document.Names image ∧ image.filePath = filePath ∧
          1 ≤ image.startLine ∧ image.startLine ≤ image.endLine) ∧
      (.kubernetes ∈ providers → ∀ position document, documents[position]? = some document →
        (framework = .attributed → position < UInt32.size) →
        ∀ image, document.Names image → image ∈ (Survey.run providers graph).images) ∧
      ∀ type, .locationMissing type ∉ (Survey.run providers graph).events := by
  intro graph
  have holds (document : ManifestDocument) (mem : document ∈ documents) :=
    Manifest.holds_of_mem_parse parsed mem
  have shows (position : Nat) (document : ManifestDocument)
      (present : documents[position]? = some document)
      (inReach : framework = .attributed → position < UInt32.size) :
      graph.ShowsDocument position document := by
    refine Manifest.graph_showsDocument_of_slot framework ?_
    rwa [framework.slot_eq_self inReach]
  have extracts (position : Nat) (document : ManifestDocument) (mem : document ∈ documents)
      (shown : graph.ShowsDocument position document) :
      PodSpec.imagesOf graph position = document.extraction := by
    obtain ⟨startFits, endFits⟩ := (holds document mem).lines_fit fits
    exact shown.imagesOf startFits endFits
  have handedOut := Manifest.vertices_graph framework documents
  refine ⟨handedOut, shows, ?_, fun providers => ⟨?_, ?_, ?_⟩⟩
  · intro document mem
    exact ⟨holds document mem, (holds document mem).bounds⟩
  · intro image mem
    obtain ⟨-, position, handedOut, -, atVertex⟩ := Survey.mem_images_run.1 mem
    obtain ⟨document, present, shown⟩ := Manifest.exists_graph_showsDocument handedOut
    rw [extracts position document present shown] at atVertex
    have names := ManifestDocument.mem_extraction_iff.1 atVertex
    obtain ⟨positive, ordered, -⟩ := (holds document present).bounds
    refine ⟨document, present, names, ?_, ?_, ?_⟩
    · rw [names.filePath, (holds document present).filePath]
    · rwa [names.startLine]
    · rwa [names.startLine, names.endLine]
  · intro asked position document present inReach image names
    have shown := shows position document present inReach
    have given : position ∈ graph.vertices := by
      rw [handedOut, List.mem_range]
      exact (List.getElem?_eq_some_iff.1 present).1
    refine Survey.mem_images_run.2 ⟨asked, position, given, shown.applies names, ?_⟩
    rw [extracts position document (List.mem_of_getElem? present) shown]
    exact ManifestDocument.mem_extraction_iff.2 names
  · intro type mem
    rcases Survey.exists_vertex_of_mem_events mem with ⟨platform, count, same⟩ | atVertex
    · cases same
    · obtain ⟨position, handedOut, atVertex⟩ := atVertex
      obtain ⟨document, present, shown⟩ := Manifest.exists_graph_showsDocument handedOut
      rw [extracts position document present shown] at atVertex
      exact document.locationMissing_not_mem_extraction type atVertex

/-- The text of a pod that claims to be from another place. -/
def spoofedText : String :=
  "#\nkind: Pod\nfile_path_: b\n__startline__: 70\n" ++
    "spec: \x7bcontainers: [\x7bimage: nginx\x7d]\x7d"

/-- The value of `spoofedText`. -/
def spoofedBody : List (String × Json) := [
  ("kind", .str "Pod"), ("file_path_", .str "b"), ("__startline__", .ofNat 70),
  ("spec", .obj [("containers", .arr [.obj [("image", .str "nginx")]])])]

/-- A reader that knows this text only. -/
def spoofedReader (text : String) : Except String Json :=
  if text = spoofedText then .ok (.obj spoofedBody) else .error "unknown text"

/-- The document of `spoofedText`. -/
def spoofedPod : ManifestDocument := ⟨"a", "Pod", 2, 5, OrderedMap.ofList spoofedBody⟩

theorem parse_spoofedText :
    Manifest.parse spoofedReader (spoofedText ++ "\n---\n") "a" = .ok [spoofedPod] := by
  have parts : Manifest.cut (spoofedText ++ "\n---\n").toList =
      [⟨1, Text.lines spoofedText.toList⟩, ⟨7, []⟩] := by
    decide +kernel
  have range : Manifest.Part.range? ⟨1, Text.lines spoofedText.toList⟩ = some (2, 5) := by
    decide +kernel
  have text : Manifest.Part.text ⟨1, Text.lines spoofedText.toList⟩ = spoofedText := by
    decide +kernel
  have given : spoofedReader spoofedText = .ok (.obj spoofedBody) := if_pos rfl
  have first : Manifest.parsePart spoofedReader "a" ⟨1, Text.lines spoofedText.toList⟩ =
      .ok [spoofedPod] := by
    rw [Manifest.parsePart, range]
    simp only [text, given]
    rfl
  rw [Manifest.parse, parts, Manifest.parseParts, first]
  rfl

/-- On either framework the pod is one from its own place, and so is its one image. -/
theorem spoofedPod_located :
    (spoofedText ++ "\n---\n").length < UInt64.size ∧
      Manifest.parse spoofedReader (spoofedText ++ "\n---\n") "a" = .ok [spoofedPod] ∧
      ∀ framework,
        let graph := Manifest.graph framework [spoofedPod]
        graph.ShowsDocument 0 spoofedPod ∧
          (Survey.run [.kubernetes] graph).images.map Image.name = ["nginx"] ∧
          ∀ image ∈ (Survey.run [.kubernetes] graph).images,
            image.filePath = "a" ∧ image.startLine = 2 ∧ image.endLine = 5 := by
  have fits : (spoofedText ++ "\n---\n").length < UInt64.size := by decide +kernel
  refine ⟨fits, parse_spoofedText, fun framework => ?_⟩
  obtain ⟨-, shown, -, surveys⟩ := manifest_images_located fits parse_spoofedText framework
  refine ⟨shown 0 spoofedPod rfl fun _ => by decide, ?_, fun image mem => ?_⟩
  · cases framework <;> decide +kernel
  · obtain ⟨document, present, names, -⟩ := (surveys [.kubernetes]).1 image mem
    obtain rfl := List.mem_singleton.1 present
    exact ⟨names.filePath, names.startLine, names.endLine⟩

end InfraScan
