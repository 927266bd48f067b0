import InfraScan.Command.Run
import InfraScan.Proofs.ManifestImages
import Mathlib.Data.List.Flatten

/-!
# Scanning together and scanning apart

A scan of a folder puts the resources of all its files into one graph.  There a resource has
another position than in a graph of its own file; a resource without a name goes by that
position, and another file may take a name over.  Nothing of this shows in the images: a
resource has the images that it has in a graph of its own, wherever it stands and whatever
stands beside it.

* `Framework.HasRoom` — the number of vertices that a framework can tell apart
* `Vertex.images`, `PodSpec.images_ofVertices` — the images of a graph, vertex by vertex
* `ManifestDocument.images`, `Manifest.images_graph` — the images of resources, one by one
* `Command.documentsAt`, `Command.fst_loadAll` — the resources of several files, file by file
* `Manifest.surveyed` — the images that are reported of a list of resources
* `Command.survey_reports` — what a scan of a folder reports
* `scans_join` — a scan of several files is the scans of each of them put together

### What is load-bearing

A vertex is shown by its attributes alone, in which neither its name nor its position stands
(`ManifestDocument.synced_toVertex`).  So what is found at a position depends on the resource
there and on nothing else.  The names of a graph, which do collide, are not read for images.
-/

namespace InfraScan

/-- **The number of vertices that a framework can tell apart**: node numbers have 32 bits, and
rows may be as many as there are. -/
def Framework.HasRoom (framework : Framework) (count : Nat) : Prop :=
  framework = .attributed → count ≤ UInt32.size

theorem Framework.HasRoom.mono {framework : Framework} {less more : Nat}
    (room : framework.HasRoom more) (fewer : less ≤ more) : framework.HasRoom less :=
  fun attributed => Nat.le_trans fewer (room attributed)

/-! ### Vertices one by one -/

namespace PodSpec

theorem imagesAt_eq_of_shows {a b : Graph} {position other : Nat} {vertex : Vertex}
    (left : a.Shows position vertex) (right : b.Shows other vertex) :
    imagesAt a position = imagesAt b other := by
  unfold imagesAt
  rw [Platform.applies_eq_of_shows _ left right, imagesOf_eq_of_shows left right]

end PodSpec

namespace Vertex

/-- **The images of a vertex**: those that are found when it is alone in a graph. -/
def images (vertex : Vertex) : List Image :=
  PodSpec.imagesAt (Graph.ofVertices .tabular [vertex]) 0

theorem imagesAt_of_shows {graph : Graph} {position : Nat} {vertex : Vertex}
    (shown : graph.Shows position vertex) : PodSpec.imagesAt graph position = vertex.images :=
  PodSpec.imagesAt_eq_of_shows shown (Graph.shows_tabular rfl)

/-- Of a vertex nothing counts but the attributes that are shown. -/
theorem images_eq_of_synced_eq {first second : Vertex} (same : first.synced = second.synced) :
    first.images = second.images := by
  have alone : (Graph.ofVertices .tabular [second]).Shows 0 second := Graph.shows_tabular rfl
  have shown : (Graph.ofVertices .tabular [second]).Shows 0 first := by
    constructor
    · rw [same]
      exact alone.attributes
    · intro α reader ignoresNull name
      rw [same]
      exact alone.reads reader ignoresNull name
  exact (imagesAt_of_shows shown).symm

end Vertex

/-- **The images of a graph are those of its vertices**, in order. -/
theorem PodSpec.images_ofVertices (framework : Framework) {vertices : List Vertex}
    (room : framework.HasRoom vertices.length) :
    (allImages (Graph.ofVertices framework vertices)).images =
      vertices.flatMap Vertex.images := by
  rw [images_allImages, Graph.vertices_ofVertices, List.flatMap_def, List.flatMap_def]
  congr 1
  refine List.ext_getElem (by simp) fun position inside _ => ?_
  rw [List.length_map, List.length_range] at inside
  have present : vertices[framework.slot position]? = some vertices[position] := by
    rw [framework.slot_eq_self fun attributed => Nat.lt_of_lt_of_le inside (room attributed)]
    exact List.getElem?_eq_getElem inside
  rw [List.getElem_map, List.getElem_map, List.getElem_range]
  exact Vertex.imagesAt_of_shows (Graph.shows_of_slot framework present)

/-! ### Resources one by one -/

namespace ManifestDocument

/-- The position of a resource stands in no attribute of its vertex. -/
theorem synced_toVertex (document : ManifestDocument) (index other : Nat) :
    (document.toVertex index).synced = (document.toVertex other).synced := rfl

/-- **The images of a resource**, wherever it stands. -/
def images (document : ManifestDocument) : List Image := (document.toVertex 0).images

theorem images_toVertex (document : ManifestDocument) (index : Nat) :
    (document.toVertex index).images = document.images :=
  Vertex.images_eq_of_synced_eq (document.synced_toVertex index 0)

/-- The images of a resource that are reported to some providers.  Without a provider nobody
looks. -/
def imagesFor (providers : List Platform) (document : ManifestDocument) : List Image :=
  if providers = [] then [] else document.images

theorem imagesFor_of_ne_nil {providers : List Platform} (somebody : providers ≠ []) :
    imagesFor providers = images :=
  funext fun _ => if_neg somebody

end ManifestDocument

/-- **The images of a graph of resources are those of its resources**, in order. -/
theorem Manifest.images_graph (framework : Framework) {documents : List ManifestDocument}
    (room : framework.HasRoom documents.length) :
    (PodSpec.allImages (graph framework documents)).images =
      documents.flatMap ManifestDocument.images := by
  have room' : framework.HasRoom (vertices documents).length := by
    rwa [vertices, List.length_map, List.length_zipIdx]
  rw [graph, PodSpec.images_ofVertices framework room', vertices, List.flatMap_map]
  simp only [ManifestDocument.images_toVertex]
  conv_rhs => rw [← List.zipIdx_map_fst 0 documents, List.flatMap_map]

/-! ### The file of an image -/

theorem PodSpec.exists_location_of_mem_imagesOf {graph : Graph} {position : Nat}
    {image : Image} (mem : image ∈ (imagesOf graph position).images) :
    ∃ startLine endLine, location? graph position =
      some (image.filePath, startLine, endLine) := by
  unfold imagesOf at mem
  split at mem
  · cases mem
  · split at mem
    · split at mem
      · cases mem
      · rename_i filePath startLine endLine located
        split at mem
        · cases mem
        · obtain ⟨name, -, rfl⟩ := List.mem_map.1 mem
          exact ⟨startLine, endLine, located⟩
    · cases mem

/-- **The images of a resource are at the path of its file.** -/
theorem ManifestDocument.filePath_of_mem_images {document : ManifestDocument} {image : Image}
    (mem : image ∈ document.images) : image.filePath = document.filePath := by
  have shown : (Graph.ofVertices .tabular [document.toVertex 0]).ShowsDocument 0 document :=
    (Graph.shows_tabular rfl).showsDocument
  unfold images Vertex.images PodSpec.imagesAt at mem
  split at mem
  · obtain ⟨startLine, endLine, located⟩ := PodSpec.exists_location_of_mem_imagesOf mem
    have written := shown.reserved Attribute.filePath (.str document.filePath)
      (by simp [ManifestDocument.reserved])
    obtain ⟨filePath, read, rest⟩ := Option.bind_eq_some_iff.1 located
    rw [written, Option.bind_some, Json.str?_str] at read
    obtain rfl := Option.some.inj read
    obtain ⟨first, -, rest⟩ := Option.bind_eq_some_iff.1 rest
    obtain ⟨last, -, place⟩ := Option.bind_eq_some_iff.1 rest
    exact (congrArg Prod.fst (Option.some.inj place)).symm
  · cases mem

theorem ManifestDocument.filePath_of_mem_imagesFor {providers : List Platform}
    {document : ManifestDocument} {image : Image}
    (mem : image ∈ document.imagesFor providers) :
    image.filePath = document.filePath := by
  unfold imagesFor at mem
  split at mem
  · cases mem
  · exact filePath_of_mem_images mem

/-! ### Files one by one -/

namespace Command

variable {reader : String → Except String Json} {read : TextReader}

/-- The resources of a file; none when it cannot be read or parsed. -/
def documentsAt (reader : String → Except String Json) (read : TextReader) (path : String) :
    List ManifestDocument :=
  (Manifest.load reader read path).toOption.getD []

/-- **The resources of several files**, file by file. -/
theorem fst_loadAll (reader : String → Except String Json) (read : TextReader)
    (paths : List String) :
    (loadAll reader read paths).1 = paths.flatMap (documentsAt reader read) := by
  show (List.map _ paths).flatMap Prod.fst = _
  rw [List.flatMap_map]
  refine List.flatMap_congr fun path _ => ?_
  unfold documentsAt
  cases Manifest.load reader read path <;> rfl

theorem documentsAt_of_error {path : String} {cause : Fault}
    (failed : Manifest.load reader read path = .error cause) :
    documentsAt reader read path = [] := by
  unfold documentsAt
  rw [failed]
  rfl

/-- The resources of a file have its path. -/
theorem filePath_of_mem_documentsAt {path : String} {document : ManifestDocument}
    (mem : document ∈ documentsAt reader read path) : document.filePath = path := by
  cases loaded : Manifest.load reader read path with
  | error cause =>
    rw [documentsAt_of_error loaded] at mem
    cases mem
  | ok documents =>
    unfold documentsAt at mem
    rw [loaded] at mem
    unfold Manifest.load at loaded
    split at loaded
    · cases loaded
    · exact (Manifest.holds_of_mem_parse loaded mem).filePath

/-- The images of a file among the images of several files: where the file is one of them,
these are its own, however often it is named. -/
theorem firstOccurrences_filter_filePath (reader : String → Except String Json)
    (read : TextReader) (providers : List Platform) {path : String} {paths : List String}
    (named : path ∈ paths) :
    let found := fun file =>
      (documentsAt reader read file).flatMap (ManifestDocument.imagesFor providers)
    firstOccurrences ((paths.flatMap found).filter fun image => image.filePath = path) =
      firstOccurrences (found path) := by
  intro found
  have own (file : String) (image : Image)
      (mem : image ∈ found file) : image.filePath = file := by
    obtain ⟨document, inFile, inDocument⟩ := List.mem_flatMap.1 mem
    rw [ManifestDocument.filePath_of_mem_imagesFor inDocument,
      filePath_of_mem_documentsAt inFile]
  induction paths with
  | nil => cases named
  | cons file rest ih =>
    rw [List.flatMap_cons, List.filter_append]
    by_cases here : file = path
    · subst here
      have all : ∀ image ∈ found file, decide (image.filePath = file) = true :=
        fun image mem => decide_eq_true (own file image mem)
      rw [List.filter_eq_self.2 all]
      -- What other mentions of the file bring in is there already.
      refine firstOccurrences_append_of_subset fun image mem => ?_
      obtain ⟨inRest, same⟩ := List.mem_filter.1 mem
      obtain ⟨other, -, mentioned⟩ := List.mem_flatMap.1 inRest
      have again : other = file :=
        (own other image mentioned).symm.trans (of_decide_eq_true same)
      exact again ▸ mentioned
    · have nothing : (found file).filter (fun image => image.filePath = path) = [] := by
        rw [List.filter_eq_nil_iff]
        intro image mem
        simpa [own file image mem] using here
      have later := (List.mem_cons.1 named).resolve_left (Ne.symm here)
      rw [nothing, List.nil_append, ih later]

end Command

/-! ### Several scans and one -/

namespace Manifest

/-- The images that a survey of resources reports. -/
def surveyed (framework : Framework) (providers : List Platform)
    (documents : List ManifestDocument) : List Image :=
  (Survey.run providers (graph framework documents)).images

theorem vertexCount_graph (framework : Framework) (documents : List ManifestDocument) :
    (graph framework documents).vertexCount = documents.length := by
  have counted := congrArg List.length (vertices_graph framework documents)
  rwa [Graph.vertices, List.length_range, List.length_range] at counted

variable (framework : Framework) (providers : List Platform)

/-- **What is reported of resources** is what is reported of each, once. -/
theorem surveyed_eq {documents : List ManifestDocument}
    (room : framework.HasRoom documents.length) :
    surveyed framework providers documents =
      firstOccurrences (documents.flatMap (ManifestDocument.imagesFor providers)) := by
  rw [surveyed, Survey.images_run, images_graph framework room]
  by_cases nobody : providers = []
  · have nothing : documents.flatMap (ManifestDocument.imagesFor providers) = [] :=
      List.flatMap_eq_nil_iff.2 fun _ _ => if_pos nobody
    rw [if_pos nobody, nothing]
    rfl
  · rw [if_neg nobody, ManifestDocument.imagesFor_of_ne_nil nobody]

/-- **A survey of two lists of resources** is the surveys of either, put together. -/
theorem surveyed_append {first second : List ManifestDocument}
    (room : framework.HasRoom (first ++ second).length) :
    surveyed framework providers (first ++ second) =
      firstOccurrences
        (surveyed framework providers first ++ surveyed framework providers second) := by
  have firstRoom : framework.HasRoom first.length := room.mono (by simp)
  have secondRoom : framework.HasRoom second.length := room.mono (by simp)
  rw [surveyed_eq framework providers room, surveyed_eq framework providers firstRoom,
    surveyed_eq framework providers secondRoom, List.flatMap_append,
    firstOccurrences_append_firstOccurrences]

section Files

variable {reader : String → Except String Json} {read : TextReader} {paths : List String}
  (room : framework.HasRoom (Command.loadAll reader read paths).1.length)

include room

/-- One of several files, surveyed by itself. -/
theorem surveyed_file {path : String} (named : path ∈ paths) :
    surveyed framework providers (Command.loadAll reader read [path]).1 =
      firstOccurrences
        ((Command.documentsAt reader read path).flatMap
          (ManifestDocument.imagesFor providers)) := by
  have part : (Command.loadAll reader read [path]).1.Sublist
      (Command.loadAll reader read paths).1 := by
    rw [Command.fst_loadAll, Command.fst_loadAll]
    exact (List.singleton_sublist.2 named).flatMap _
  rw [surveyed_eq framework providers (room.mono part.length_le), Command.fst_loadAll,
    List.flatMap_singleton]

/-- Several files, surveyed together. -/
theorem surveyed_files :
    surveyed framework providers (Command.loadAll reader read paths).1 =
      firstOccurrences (paths.flatMap fun path =>
        (Command.documentsAt reader read path).flatMap
          (ManifestDocument.imagesFor providers)) := by
  rw [surveyed_eq framework providers room, Command.fst_loadAll, List.flatMap_assoc]

/-- **A survey of several files** is the surveys of each of them, put together. -/
theorem surveyed_files_eq_flatMap :
    surveyed framework providers (Command.loadAll reader read paths).1 =
      firstOccurrences
        (paths.flatMap fun path =>
          surveyed framework providers (Command.loadAll reader read [path]).1) := by
  rw [List.flatMap_congr fun path named => surveyed_file framework providers room named,
    surveyed_files framework providers room, firstOccurrences_flatMap]

/-- **What a survey of several files reports of one of them** is what it would report of it
alone. -/
theorem filter_filePath_surveyed {path : String} (named : path ∈ paths) :
    (surveyed framework providers (Command.loadAll reader read paths).1).filter
        (fun image => image.filePath = path) =
      surveyed framework providers (Command.loadAll reader read [path]).1 := by
  rw [surveyed_files framework providers room, surveyed_file framework providers room named,
    filter_firstOccurrences,
      Command.firstOccurrences_filter_filePath reader read providers named]

end Files

end Manifest

/-- **What the command reports of a folder**: how many resources the files have that were
found there, and the images of these. -/
theorem Command.survey_reports (around : Surroundings) (settings : Settings)
    (palette : Report.Palette) {path : String} (format : String) {paths : List String}
    (found : around.disk.manifestFiles path = .ok paths) (inhabited : paths ≠ []) :
    let documents := (loadAll Yaml.read? around.disk.readText paths).1
    let images := Manifest.surveyed settings.framework Survey.allPlatforms documents
    ∃ events, survey around settings palette path format = .ok
      ⟨if format = valueFormat then
        [(Report.imageReport around.time settings.framework documents.length images).pretty]
      else Report.imageLines palette documents.length images, events⟩ := by
  intro documents images
  have counted : (Manifest.graph settings.framework documents).vertexCount =
      documents.length :=
    Manifest.vertexCount_graph settings.framework documents
  rw [← counted]
  unfold survey
  rw [found]
  simp only [Except.mapError, bind, Except.bind, if_neg inhabited]
  exact ⟨_, rfl⟩

/-- **Scanning together is scanning apart and putting the results together**, on either
framework and for any providers.  (A graph of attribute maps has room for as many vertices as
32 bits can number.)

* The images of two lists of resources together are those of the one and then those of the
  other, each once, whatever kinds, namespaces and names their resources share.
* The images of several files are those of each file by itself, one after another and each
  once.  The images of one file among them are exactly those that it has by itself.  This
  holds for any reader of their documents, and so does what follows next.
* A file that cannot be read or parsed might as well not be there.
* What the command reports of a folder are the images of its files in this sense. -/
theorem scans_join (framework : Framework) :
    (∀ (providers : List Platform) (first second : List ManifestDocument),
      framework.HasRoom (first ++ second).length →
      Manifest.surveyed framework providers (first ++ second) =
        firstOccurrences (Manifest.surveyed framework providers first ++
          Manifest.surveyed framework providers second)) ∧
    (∀ (providers : List Platform) (reader : String → Except String Json) (read : TextReader)
        (paths : List String),
      framework.HasRoom (Command.loadAll reader read paths).1.length →
      Manifest.surveyed framework providers (Command.loadAll reader read paths).1 =
        firstOccurrences (paths.flatMap fun path =>
          Manifest.surveyed framework providers (Command.loadAll reader read [path]).1) ∧
      ∀ path ∈ paths,
        (Manifest.surveyed framework providers (Command.loadAll reader read paths).1).filter
            (fun image => image.filePath = path) =
          Manifest.surveyed framework providers (Command.loadAll reader read [path]).1) ∧
    (∀ (reader : String → Except String Json) (read : TextReader) (before after : List String)
        (path : String) (cause : Fault),
      Manifest.load reader read path = .error cause →
      (Command.loadAll reader read (before ++ path :: after)).1 =
        (Command.loadAll reader read (before ++ after)).1) ∧
    ∀ (around : Command.Surroundings) (settings : Settings) (palette : Report.Palette)
      (path format : String) (paths : List String),
      settings.framework = framework →
      around.disk.manifestFiles path = .ok paths → paths ≠ [] →
      framework.HasRoom (Command.loadAll Yaml.read? around.disk.readText paths).1.length →
      let resources := (Command.loadAll Yaml.read? around.disk.readText paths).1.length
      let images := firstOccurrences (paths.flatMap fun file =>
        Manifest.surveyed framework Survey.allPlatforms
          (Command.loadAll Yaml.read? around.disk.readText [file]).1)
      ∃ events, Command.survey around settings palette path format = .ok
        ⟨if format = Command.valueFormat then
          [(Report.imageReport around.time framework resources images).pretty]
        else Report.imageLines palette resources images, events⟩ := by
  refine ⟨?_, ?_, ?_, ?_⟩
  · intro providers first second room
    exact Manifest.surveyed_append framework providers room
  · intro providers reader read paths room
    refine ⟨Manifest.surveyed_files_eq_flatMap framework providers room, fun path named => ?_⟩
    exact Manifest.filter_filePath_surveyed framework providers room named
  · intro reader read before after path cause failed
    rw [Command.fst_loadAll, Command.fst_loadAll, List.flatMap_append, List.flatMap_append,
      List.flatMap_cons, Command.documentsAt_of_error failed, List.nil_append]
  · intro around settings palette path format paths chosen found inhabited room
      resources images
    subst chosen
    have joined : Manifest.surveyed settings.framework Survey.allPlatforms
        (Command.loadAll Yaml.read? around.disk.readText paths).1 = images :=
      Manifest.surveyed_files_eq_flatMap settings.framework Survey.allPlatforms room
    rw [← joined]
    exact Command.survey_reports around settings palette format found inhabited

/-- A folder with two pods without names, each of which would be the first of its graph if it
stood there alone, and with a file that cannot be parsed. -/
def podFolder : Disk := ⟨.folder [
  ("a.yaml", .file (some
    "kind: Pod\nspec: \x7bcontainers: [\x7bimage: nginx\x7d, \x7bimage: nginx\x7d]\x7d")),
  ("b.yaml", .file (some "kind: Pod\nspec: \x7bcontainers: [\x7bimage: nginx\x7d]\x7d")),
  ("c.yaml", .file (some "kind: [Pod"))], []⟩

/-- The image of the file of a pod in the folder. -/
def podImage (path : String) : Image := ⟨path, "nginx", 1, 2, path ++ ":None"⟩

theorem images_podFolder :
    (Command.documentsAt Yaml.read? podFolder.readText "a.yaml").map ManifestDocument.images =
        [[podImage "a.yaml", podImage "a.yaml"]] ∧
      (Command.documentsAt Yaml.read? podFolder.readText "b.yaml").map
        ManifestDocument.images =
        [[podImage "b.yaml"]] := by
  decide +kernel

theorem load_podFolder : ∃ cause,
    Manifest.load Yaml.read? podFolder.readText "c.yaml" = .error cause := by
  have refused : (Manifest.load Yaml.read? podFolder.readText "c.yaml").toOption.isNone =
      true := by
    decide +kernel
  cases loaded : Manifest.load Yaml.read? podFolder.readText "c.yaml" with
  | error cause => exact ⟨cause, rfl⟩
  | ok documents =>
    rw [loaded] at refused
    cases refused

/-- The file that cannot be parsed changes nothing, and neither of the two pods takes the
image of the other.  The command reports the image of a file once, though two containers have
it. -/
theorem podFolder_joined :
    let scanned :=
      Command.loadAll Yaml.read? podFolder.readText ["a.yaml", "c.yaml", "b.yaml"]
    (∀ framework : Framework, framework.HasRoom scanned.1.length) ∧
      (∃ cause, Manifest.load Yaml.read? podFolder.readText "c.yaml" = .error cause) ∧
      podFolder.manifestFiles "a.yaml" = .ok ["a.yaml"] ∧
      scanned.1 = (Command.loadAll Yaml.read? podFolder.readText ["a.yaml", "b.yaml"]).1 ∧
      ∀ framework,
        Manifest.surveyed framework [.kubernetes] scanned.1 =
          [podImage "a.yaml", podImage "b.yaml"] ∧
        ∃ events, Command.survey ⟨podFolder, fun _ => none, false, ""⟩
          ⟨false, framework, []⟩ ⟨false⟩ "a.yaml" "text" =
            .ok ⟨Report.imageLines ⟨false⟩ 1 [podImage "a.yaml"], events⟩ := by
  obtain ⟨first, second⟩ := images_podFolder
  obtain ⟨cause, failed⟩ := load_podFolder
  have nothing : Command.documentsAt Yaml.read? podFolder.readText "c.yaml" = [] :=
    Command.documentsAt_of_error failed
  have firstCount : (Command.documentsAt Yaml.read? podFolder.readText "a.yaml").length =
      1 := by
    simpa using congrArg List.length first
  have secondCount : (Command.documentsAt Yaml.read? podFolder.readText "b.yaml").length =
      1 := by
    simpa using congrArg List.length second
  have present : podFolder.manifestFiles "a.yaml" = .ok ["a.yaml"] := by decide +kernel
  have alone : (Command.loadAll Yaml.read? podFolder.readText ["a.yaml"]).1.length = 1 := by
    simp [Command.fst_loadAll, firstCount]
  intro scanned
  have together : scanned.1.length = 2 := by
    simp [scanned, Command.fst_loadAll, nothing, firstCount, secondCount]
  have room (framework : Framework) : framework.HasRoom scanned.1.length :=
    fun _ => together ▸ by decide
  have aloneRoom (framework : Framework) :
      framework.HasRoom (Command.loadAll Yaml.read? podFolder.readText ["a.yaml"]).1.length :=
    fun _ => alone ▸ by decide
  refine ⟨room, ⟨cause, failed⟩, present, ?_, fun framework => ⟨?_, ?_⟩⟩
  · exact (scans_join .tabular).2.2.1 _ podFolder.readText ["a.yaml"]
      ["b.yaml"] "c.yaml" cause failed
  · have joined :=
      ((scans_join framework).2.1 [.kubernetes] Yaml.read? podFolder.readText _
        (room framework)).1
    rw [joined, List.flatMap_congr fun path named =>
      Manifest.surveyed_file framework [.kubernetes] (room framework) named]
    rw [ManifestDocument.imagesFor_of_ne_nil (by decide)]
    simp only [List.flatMap_cons, List.flatMap_nil, nothing]
    simp only [List.flatMap_def, first, second]
    decide +kernel
  · obtain ⟨events, reported⟩ :=
      (scans_join framework).2.2.2 ⟨podFolder, fun _ => none, false, ""⟩
      ⟨false, framework, []⟩ ⟨false⟩ "a.yaml" "text" ["a.yaml"] rfl present (by decide)
      (aloneRoom framework)
    have own := Manifest.surveyed_file framework Survey.allPlatforms (aloneRoom framework)
      List.mem_cons_self
    refine ⟨events, reported.trans ?_⟩
    rw [alone, List.flatMap_singleton, own, ManifestDocument.imagesFor_of_ne_nil (by decide),
      List.flatMap_def, first]
    rfl

end InfraScan
