import InfraScan.Proofs.JsonViews
import InfraScan.Proofs.Survey
import InfraScan.Proofs.Text

/-!
# The images of containers

An image is named by a container, the container stands in one of the lists of a pod
specification, and the specification is kept by a vertex at a path that depends on its type.
So an image has an address: the position of the vertex, of the list and of the container.  A
provider goes through all addresses in order, and at each of them finds what the values there
say.

* `addressed` — what is found in the parts of a whole, with its addresses
* `Reading`, `Graph.Reads` — what is read of a vertex, and the vertices of which something is
  read
* `PodSpec.NamedAt` — an image that is named at a place of a pod specification
* `reading?_eq_some_iff`, `imageName?_eq_some_iff` — both are found exactly where they are
* `mem_supportedTypes_iff` — the two tables of resource types are of the same types
* `images_at_addresses` — the images of a graph

### What is load-bearing

A provider picks the vertices that it reads by one table, and reads them by another one.  It
would miss a vertex if the first table lacked a type of the second
(`PodSpec.imagesOf_of_not_applies`).
-/

namespace InfraScan

/-! ### Addresses -/

/-- **What is found in the parts of a whole**, with the address of each finding: the position
of the part, and then the address inside the part. -/
def addressed {α β : Type} (inside : α → List (List Nat × β)) (parts : List α) :
    List (List Nat × β) :=
  parts.zipIdx.flatMap fun part => (inside part.1).map fun found =>
    (part.2 :: found.1, found.2)

section Addressed

variable {α β : Type} {inside : α → List (List Nat × β)} {parts : List α}

/-- **What is at an address** is inside the part at its first position. -/
theorem mem_addressed {address : List Nat} {b : β} :
    (address, b) ∈ addressed inside parts ↔
      ∃ position part rest, parts[position]? = some part ∧ (rest, b) ∈ inside part ∧
        address = position :: rest := by
  simp only [addressed, List.mem_flatMap, List.mem_map]
  constructor
  · rintro ⟨⟨part, position⟩, present, ⟨rest, other⟩, found, same⟩
    obtain ⟨rfl, rfl⟩ := Prod.mk.inj same
    exact ⟨position, part, rest, List.mk_mem_zipIdx_iff_getElem?.1 present, found, rfl⟩
  · rintro ⟨position, part, rest, present, found, rfl⟩
    exact ⟨(part, position), List.mk_mem_zipIdx_iff_getElem?.2 present, (rest, b), found, rfl⟩

/-- **Addresses increase** if they do inside every part. -/
theorem pairwise_addressed
    (increasing : ∀ part ∈ parts, (inside part).Pairwise fun a b => a.1 < b.1) :
    (addressed inside parts).Pairwise fun a b => a.1 < b.1 := by
  have positions : parts.zipIdx.Pairwise fun a b => a.2 < b.2 := by
    apply List.pairwise_map.1
    rw [List.zipIdx_map_snd]
    exact List.pairwise_lt_range' 1
  rw [addressed, List.pairwise_flatMap]
  constructor
  · rintro ⟨part, position⟩ present
    have inPart := increasing part (List.fst_mem_of_mem_zipIdx present)
    exact List.pairwise_map.2 (inPart.imp fun less => List.Lex.cons less)
  · refine positions.imp fun less => ?_
    intro a memA b memB
    obtain ⟨-, -, rfl⟩ := List.mem_map.1 memA
    obtain ⟨-, -, rfl⟩ := List.mem_map.1 memB
    exact List.Lex.rel less

/-- **Without their addresses the findings are those of the parts**, in order. -/
theorem map_snd_addressed :
    (addressed inside parts).map Prod.snd = parts.flatMap fun part =>
      (inside part).map Prod.snd := by
  conv_rhs => rw [← List.zipIdx_map_fst 0 parts, List.flatMap_map]
  simp [addressed, List.map_flatMap, Function.comp_def]

/-- **What is left out may as well be looked at**, if nothing is in it. -/
theorem flatMap_filter_of_nothing {found : α → List β} {chosen others : α → Bool}
    (fewer : ∀ part, chosen part = true → others part = true)
    (nothing : ∀ part, others part = true → chosen part = false → found part = []) :
    (parts.filter chosen).flatMap found = (parts.filter others).flatMap found := by
  induction parts with
  | nil => rfl
  | cons part rest ih =>
    cases taken : chosen part with
    | true =>
      rw [List.filter_cons_of_pos taken, List.filter_cons_of_pos (fewer part taken),
        List.flatMap_cons, List.flatMap_cons, ih]
    | false =>
      rw [List.filter_cons_of_neg (Bool.eq_false_iff.1 taken), ih]
      by_cases other : others part = true
      · rw [List.filter_cons_of_pos other, List.flatMap_cons, nothing part other taken,
          List.nil_append]
      · rw [List.filter_cons_of_neg other]

end Addressed

namespace PodSpec

/-! ### Places of a pod specification -/

/-- **An image that is named at a place of a pod specification**: by a container in one of the
lists, as a text that is not blank.  Blanks around the text do not belong to the name. -/
def NamedAt (spec : Json) (list item : Nat) (name : String) : Prop :=
  ∃ field items container text,
    ["initContainers", "containers", "ephemeralContainers"][list]? = some field ∧
    spec.Leads [field] (.arr items) ∧ items[item]? = some container ∧
    container.Leads ["image"] (.str text) ∧ Text.isBlankText text = false ∧
    name = Text.trimmed text

theorem isEmpty_trimmed (text : String) :
    (Text.trimmed text).isEmpty = Text.isBlankText text := by
  rw [Bool.eq_iff_iff, Text.isBlankText, ← Text.trim_eq_nil_iff, String.isEmpty_iff,
    Text.trimmed, String.ofList_eq_empty_iff]

/-- **A container names an image** exactly when it holds a text that is not blank. -/
theorem imageName?_eq_some_iff {container : Json} {name : String} :
    imageName? container = some name ↔
      ∃ text, container.Leads ["image"] (.str text) ∧ Text.isBlankText text = false ∧
        name = Text.trimmed text := by
  rw [imageName?, Option.bind_eq_some_iff]
  simp only [isEmpty_trimmed, Json.leads_singleton_iff, Option.bind_eq_some_iff,
    Json.str?_eq_some_iff, exists_eq_right]
  refine exists_congr fun text => and_congr_right fun _ => ?_
  cases Text.isBlankText text <;> simp [eq_comm]

/-- The containers in a list of a pod specification. -/
def containersIn (spec : Json) (field : String) : List Json :=
  ((spec.get? field).bind Json.items?).getD []

theorem getElem?_containersIn_eq_some_iff {spec container : Json} {field : String}
    {item : Nat} :
    (containersIn spec field)[item]? = some container ↔
      ∃ items, spec.Leads [field] (.arr items) ∧ items[item]? = some container := by
  have listed {items : List Json} :
      (spec.get? field).bind Json.items? = some items ↔ spec.Leads [field] (.arr items) := by
    simp only [Option.bind_eq_some_iff, Json.items?_eq_some_iff, exists_eq_right,
      Json.leads_singleton_iff]
  rw [containersIn]
  cases given : (spec.get? field).bind Json.items? with
  | none =>
    simp only [Option.getD_none, List.getElem?_nil, reduceCtorEq, false_iff]
    rintro ⟨items, leads, -⟩
    rw [listed.2 leads] at given
    cases given
  | some items =>
    constructor
    · intro present
      exact ⟨items, listed.1 given, present⟩
    · rintro ⟨others, leads, present⟩
      obtain rfl := Option.some.inj (given.symm.trans (listed.2 leads))
      exact present

/-- **The names in a pod specification**, each with the positions of its list and its
container. -/
def addressedNames (spec : Json) : List (List Nat × String) :=
  addressed (fun field =>
    addressed (fun container => ((imageName? container).map ([], ·)).toList)
    (containersIn spec field)) containerFields

theorem mem_addressedNames {spec : Json} {address : List Nat} {name : String} :
    (address, name) ∈ addressedNames spec ↔
      ∃ list item, address = [list, item] ∧ NamedAt spec list item name := by
  simp only [addressedNames, mem_addressed, getElem?_containersIn_eq_some_iff,
    Option.mem_toList, Option.map_eq_some_iff, imageName?_eq_some_iff, NamedAt,
    containerFields]
  constructor
  · rintro ⟨list, field, inner, listed, ⟨item, container, innermost, ⟨items, leads, present⟩,
      ⟨found, ⟨text, held, solid, rfl⟩, same⟩, rfl⟩, rfl⟩
    obtain ⟨rfl, rfl⟩ := Prod.mk.inj same
    exact ⟨list, item, rfl, field, items, container, text, listed, leads, present,
      held, solid, rfl⟩
  · rintro ⟨list, item, rfl, field, items, container, text, listed, leads,
      present, held, solid, rfl⟩
    exact ⟨list, field, [item], listed, ⟨item, container, [], ⟨items, leads, present⟩,
      ⟨_, ⟨text, held, solid, rfl⟩, rfl⟩, rfl⟩, rfl⟩

theorem pairwise_addressedNames (spec : Json) :
    (addressedNames spec).Pairwise fun a b => a.1 < b.1 := by
  apply pairwise_addressed
  intro field _
  apply pairwise_addressed
  intro container _
  cases imageName? container with
  | none => exact List.Pairwise.nil
  | some name => exact List.pairwise_singleton _ _

theorem map_snd_addressedNames (spec : Json) :
    (addressedNames spec).map Prod.snd = imageNames spec := by
  have single (container : Json) :
      ((imageName? container).map (([] : List Nat), ·)).toList.map Prod.snd =
        (imageName? container).toList := by
    cases imageName? container <;> rfl
  rw [addressedNames, map_snd_addressed, imageNames]
  congr 1
  funext field
  rw [map_snd_addressed, List.filterMap_eq_flatMap_toList]
  simp only [single]
  rfl

/-! ### Vertices that are read -/

/-- **What is read of a vertex**: where the resource stands, and the pod specification. -/
structure Reading where
  filePath : String
  startLine : Nat
  endLine : Nat
  attributes : Attributes
  spec : Json

/-- An image at the place of a resource. -/
def Reading.image (reading : Reading) (name : String) : Image :=
  ⟨reading.filePath, name, reading.startLine, reading.endLine,
    resourceId reading.filePath reading.attributes⟩

end PodSpec

/-- The vertex has a line marker: a whole number of 64 bits without a sign. -/
def Graph.HasMarker (graph : Graph) (vertex : Nat) (name : String) (line : Nat) : Prop :=
  graph.attribute? vertex name = some (.ofNat line) ∧ line < UInt64.size

/-- **A vertex of which something is read**: a resource of a supported type, with a path and
two line markers, and with a pod specification where its type keeps it. -/
structure Graph.Reads (graph : Graph) (vertex : Nat) (reading : PodSpec.Reading) : Prop where
  blockType : graph.blockType? vertex = some "resource"
  attributes : graph.attributes? vertex = some reading.attributes
  filePath : graph.attribute? vertex Attribute.filePath = some (.str reading.filePath)
  startLine : graph.HasMarker vertex Attribute.startLine reading.startLine
  endLine : graph.HasMarker vertex Attribute.endLine reading.endLine
  spec : ∃ type path, graph.resourceType? vertex = some type ∧ type ∈ PodSpec.supportedTypes ∧
    PodSpec.path? type = some path ∧ (Json.ofMap reading.attributes).Leads path reading.spec

namespace PodSpec

variable {graph : Graph} {vertex : Nat}

theorem marker?_eq_some_iff {name : String} {line : Nat} :
    marker? graph vertex name = some line ↔ graph.HasMarker vertex name line := by
  rw [marker?, Option.bind_eq_some_iff, Graph.HasMarker]
  simp only [Json.nat?_eq_some_iff]
  constructor
  · rintro ⟨value, held, rfl, fits⟩
    exact ⟨held, fits⟩
  · rintro ⟨held, fits⟩
    exact ⟨_, held, rfl, fits⟩

theorem location?_eq_some_iff {filePath : String} {startLine endLine : Nat} :
    location? graph vertex = some (filePath, startLine, endLine) ↔
      graph.attribute? vertex Attribute.filePath = some (.str filePath) ∧
        graph.HasMarker vertex Attribute.startLine startLine ∧
        graph.HasMarker vertex Attribute.endLine endLine := by
  simp [location?, Option.bind_eq_some_iff, Json.str?_eq_some_iff, marker?_eq_some_iff]

theorem follow_eq_some_iff {value found : Json} {path : List String} :
    follow value path = some found ↔ value.Leads path found := by
  induction path generalizing value with
  | nil =>
    constructor
    · intro same
      obtain rfl := Option.some.inj same
      exact .here value
    · intro leads
      cases leads
      rfl
  | cons name rest ih =>
    rw [follow, Option.bind_eq_some_iff, Json.leads_cons_iff]
    simp only [ih]

/-- **A path into an attribute map** is a path into the object with its entries. -/
theorem lookup?_eq_some_iff {attributes : Attributes} {path : List String} {found : Json}
    (somewhere : path ≠ []) :
    lookup? attributes path = some found ↔ (Json.ofMap attributes).Leads path found := by
  cases path with
  | nil => exact absurd rfl somewhere
  | cons name rest =>
    rw [lookup?, Option.bind_eq_some_iff, Json.leads_cons_iff]
    simp only [follow_eq_some_iff]
    rfl

theorem ne_nil_of_path? {type : String} {path : List String}
    (place : path? type = some path) :
    path ≠ [] := by
  unfold path? at place
  grind

/-- **The two tables are of the same types**: a type is supported exactly when it has a place
for its pod specification. -/
theorem mem_supportedTypes_iff {type : String} :
    type ∈ supportedTypes ↔ (path? type).isSome = true := by
  constructor
  · have all : ∀ type ∈ supportedTypes, (path? type).isSome = true := by decide
    exact all type
  · intro placed
    obtain ⟨path, place⟩ := Option.isSome_iff_exists.1 placed
    exact List.contains_iff_mem.1 (supports_of_path? place)

theorem blockType?_of_applies (applied : Platform.kubernetes.applies graph vertex = true) :
    graph.blockType? vertex = some resourceBlock := by
  simp only [Platform.applies, Bool.and_eq_true, decide_eq_true_eq] at applied
  exact applied.1

/-- Nothing is found at a resource that is left out. -/
theorem imagesOf_of_not_applies (resource : graph.blockType? vertex = some resourceBlock)
    (leftOut : Platform.kubernetes.applies graph vertex = false) :
    imagesOf graph vertex = .none := by
  cases typed : graph.resourceType? vertex with
  | none => simp only [imagesOf, typed]
  | some type =>
    have unsupported : supports type = false := by
      simpa [Platform.applies, Platform.supports, resource, typed] using leftOut
    cases place : path? type with
    | none => simp only [imagesOf, typed, place]
    | some path =>
      rw [supports_of_path? place] at unsupported
      cases unsupported

/-- What is read of a vertex, if anything is. -/
def reading? (graph : Graph) (vertex : Nat) : Option Reading :=
  if Platform.kubernetes.applies graph vertex then do
    let type ← graph.resourceType? vertex
    let path ← path? type
    let attributes ← graph.attributes? vertex
    let place ← location? graph vertex
    let spec ← lookup? attributes path
    some ⟨place.1, place.2.1, place.2.2, attributes, spec⟩
  else none

/-- **Something is read of a vertex** exactly when there is something to read. -/
theorem reading?_eq_some_iff {reading : Reading} :
    reading? graph vertex = some reading ↔ graph.Reads vertex reading := by
  constructor
  · intro read
    unfold reading? at read
    split at read
    · rename_i applied
      obtain ⟨type, typed, read⟩ := Option.bind_eq_some_iff.1 read
      obtain ⟨path, place, read⟩ := Option.bind_eq_some_iff.1 read
      obtain ⟨attributes, whole, read⟩ := Option.bind_eq_some_iff.1 read
      obtain ⟨location, located, read⟩ := Option.bind_eq_some_iff.1 read
      obtain ⟨spec, found, same⟩ := Option.bind_eq_some_iff.1 read
      obtain rfl := Option.some.inj same
      obtain ⟨filePath, startLine, endLine⟩ := location?_eq_some_iff.1 located
      have supported := mem_supportedTypes_iff.2 (Option.isSome_of_eq_some place)
      have leads := (lookup?_eq_some_iff (ne_nil_of_path? place)).1 found
      exact ⟨blockType?_of_applies applied, whole, filePath, startLine, endLine,
        type, path, typed, supported, place, leads⟩
    · cases read
  · intro reads
    obtain ⟨type, path, typed, supported, place, leads⟩ := reads.spec
    have applied : Platform.kubernetes.applies graph vertex = true := by
      simp [Platform.applies, Platform.supports, reads.blockType, typed, supports, supported,
        resourceBlock]
    have located := location?_eq_some_iff.2 ⟨reads.filePath, reads.startLine, reads.endLine⟩
    have found := (lookup?_eq_some_iff (ne_nil_of_path? place)).2 leads
    simp [reading?, applied, typed, place, reads.attributes, located, found]

/-- **The images at a vertex** are the names in what is read of it, at its place. -/
theorem imagesAt_eq (graph : Graph) (vertex : Nat) :
    imagesAt graph vertex =
      (reading? graph vertex).elim [] fun reading =>
        (imageNames reading.spec).map reading.image := by
  unfold imagesAt reading?
  by_cases applied : Platform.kubernetes.applies graph vertex = true
  · rw [if_pos applied, if_pos applied, imagesOf]
    cases graph.resourceType? vertex with
    | none => rfl
    | some type =>
      cases place : path? type with
      | none => simp [place, Extraction.none]
      | some path =>
        cases graph.attributes? vertex with
        | none => simp [place, Extraction.none]
        | some attributes =>
          cases location? graph vertex with
          | none => simp [place]
          | some location =>
            cases found : lookup? attributes path with
            | none => simp [place, found]
            | some spec => simp [place, found, Reading.image]
  · rw [if_neg applied, if_neg applied]
    rfl

/-! ### The images of a graph -/

/-- **The images at a vertex**, each with the positions of its list and its container. -/
def addressedImagesAt (graph : Graph) (vertex : Nat) : List (List Nat × Image) :=
  (reading? graph vertex).elim [] fun reading =>
    (addressedNames reading.spec).map (Prod.map id reading.image)

theorem mem_addressedImagesAt {address : List Nat} {image : Image} :
    (address, image) ∈ addressedImagesAt graph vertex ↔
      ∃ list item reading name, address = [list, item] ∧ graph.Reads vertex reading ∧
        NamedAt reading.spec list item name ∧ image = reading.image name := by
  rw [addressedImagesAt]
  cases read : reading? graph vertex with
  | none =>
    simp only [Option.elim_none, List.not_mem_nil, false_iff]
    rintro ⟨list, item, reading, name, -, reads, -⟩
    rw [reading?_eq_some_iff.2 reads] at read
    cases read
  | some reading =>
    rw [Option.elim_some, List.mem_map]
    constructor
    · rintro ⟨⟨inner, name⟩, named, same⟩
      obtain ⟨rfl, rfl⟩ := Prod.mk.inj same
      obtain ⟨list, item, rfl, there⟩ := mem_addressedNames.1 named
      exact ⟨list, item, reading, name, rfl, reading?_eq_some_iff.1 read, there, rfl⟩
    · rintro ⟨list, item, other, name, rfl, reads, named, rfl⟩
      obtain rfl := Option.some.inj (read.symm.trans (reading?_eq_some_iff.2 reads))
      exact ⟨([list, item], name), mem_addressedNames.2 ⟨list, item, rfl, named⟩, rfl⟩

theorem pairwise_addressedImagesAt (graph : Graph) (vertex : Nat) :
    (addressedImagesAt graph vertex).Pairwise fun a b => a.1 < b.1 := by
  rw [addressedImagesAt]
  cases reading? graph vertex with
  | none => exact List.Pairwise.nil
  | some reading => exact List.pairwise_map.2 (pairwise_addressedNames reading.spec)

theorem map_snd_addressedImagesAt (graph : Graph) (vertex : Nat) :
    (addressedImagesAt graph vertex).map Prod.snd = imagesAt graph vertex := by
  rw [addressedImagesAt, imagesAt_eq]
  cases reading? graph vertex with
  | none => rfl
  | some reading =>
    show ((addressedNames reading.spec).map _).map Prod.snd = (imageNames reading.spec).map _
    rw [← map_snd_addressedNames, List.map_map, List.map_map]
    rfl

/-- **The images of a graph with their addresses.** -/
def addressedImages (graph : Graph) : List (List Nat × Image) :=
  addressed (addressedImagesAt graph) graph.vertices

/-- The vertex at a position is the position. -/
theorem getElem?_vertices_eq_some_iff {position : Nat} :
    graph.vertices[position]? = some vertex ↔
      vertex < graph.vertexCount ∧ position = vertex := by
  rw [Graph.vertices, List.getElem?_eq_some_iff]
  simp only [List.length_range, List.getElem_range, exists_prop]
  constructor
  · rintro ⟨inside, rfl⟩
    exact ⟨inside, rfl⟩
  · rintro ⟨inside, rfl⟩
    exact ⟨inside, rfl⟩

theorem mem_addressedImages {address : List Nat} {image : Image} :
    (address, image) ∈ addressedImages graph ↔
      ∃ vertex list item reading name, address = [vertex, list, item] ∧
        vertex < graph.vertexCount ∧ graph.Reads vertex reading ∧
        NamedAt reading.spec list item name ∧ image = reading.image name := by
  simp only [addressedImages, mem_addressed, mem_addressedImagesAt,
    getElem?_vertices_eq_some_iff]
  constructor
  · rintro ⟨position, vertex, rest, ⟨inside, rfl⟩,
      ⟨list, item, reading, name, rfl, reads, named, rfl⟩, rfl⟩
    exact ⟨position, list, item, reading, name, rfl, inside, reads, named, rfl⟩
  · rintro ⟨vertex, list, item, reading, name, rfl, inside, reads, named, rfl⟩
    exact ⟨vertex, vertex, [list, item], ⟨inside, rfl⟩,
      ⟨list, item, reading, name, rfl, reads, named, rfl⟩, rfl⟩

theorem pairwise_addressedImages (graph : Graph) :
    (addressedImages graph).Pairwise fun a b => a.1 < b.1 := by
  apply pairwise_addressed
  intro vertex _
  exact pairwise_addressedImagesAt graph vertex

theorem map_snd_addressedImages (graph : Graph) :
    (addressedImages graph).map Prod.snd = (allImages graph).images := by
  rw [images_allImages, addressedImages, map_snd_addressed]
  congr 1
  funext vertex
  exact map_snd_addressedImagesAt graph vertex

/-- **No vertex is left out that would be read**: a provider may as well look at all
resources. -/
theorem allImages_eq_concat (graph : Graph) :
    allImages graph = .concat
      ((graph.vertices.filter fun vertex => graph.blockType? vertex = some resourceBlock).map
        (imagesOf graph)) := by
  have each {β : Type} (part : Extraction → List β) (empty : part .none = []) :
      ((readVertices graph).map (imagesOf graph)).flatMap part =
        ((graph.vertices.filter fun vertex =>
          graph.blockType? vertex = some resourceBlock).map
          (imagesOf graph)).flatMap part := by
    rw [readVertices_eq, List.flatMap_map, List.flatMap_map]
    apply flatMap_filter_of_nothing
    · intro vertex applied
      exact decide_eq_true (blockType?_of_applies applied)
    · intro vertex resource leftOut
      rw [imagesOf_of_not_applies (of_decide_eq_true resource) leftOut, empty]
  exact congrArg₂ Extraction.mk (each Extraction.images rfl) (each Extraction.events rfl)

end PodSpec

/-- **Every image that a container names is found, and nothing else.**  Take any graph.

* The images that a provider finds have addresses: the position of the vertex, of the list in
  the pod specification, and of the container in the list.  The addresses increase, so no
  container is looked at twice, and the images come in the order of vertices, lists and
  containers.
* At an address there is an image exactly when the vertex is a resource of a supported type,
  with a path, two line markers and a pod specification where its type keeps it, and the
  container in this list names an image with a text that is not blank.  The image has the
  place of the vertex and the trimmed text.
* A type is supported exactly when it has a place for its pod specification.
* So it makes no difference whether only resources of supported types are looked at, or
  all. -/
theorem images_at_addresses (graph : Graph) :
    (∃ found : List (List Nat × Image),
      (found.Pairwise fun a b => a.1 < b.1) ∧
      (∀ address image, (address, image) ∈ found ↔
        ∃ vertex list item reading name, address = [vertex, list, item] ∧
          vertex < graph.vertexCount ∧ graph.Reads vertex reading ∧
          PodSpec.NamedAt reading.spec list item name ∧ image = reading.image name) ∧
      (PodSpec.allImages graph).images = found.map Prod.snd) ∧
    (∀ type, type ∈ PodSpec.supportedTypes ↔ (PodSpec.path? type).isSome = true) ∧
    PodSpec.allImages graph = .concat
      ((graph.vertices.filter fun vertex => graph.blockType? vertex = some resourceBlock).map
        (PodSpec.imagesOf graph)) :=
  ⟨⟨PodSpec.addressedImages graph, PodSpec.pairwise_addressedImages graph,
      fun _ _ => PodSpec.mem_addressedImages, (PodSpec.map_snd_addressedImages graph).symm⟩,
    fun _ => PodSpec.mem_supportedTypes_iff, PodSpec.allImages_eq_concat graph⟩

/-- Lists and containers of another shape are passed over, and blanks around a name are not
part of it. -/
example :
    PodSpec.imageNames (.obj [("containers", .str "busybox"),
      ("ephemeralContainers", .arr [.str "busybox", .obj [("image", .ofNat 1)],
        .obj [("image", .str " ")], .obj [("image", .str " debug ")]]),
      ("initContainers", .arr [.obj [("image", .str "setup")]])]) = ["setup", "debug"] := by
  decide +kernel

end InfraScan
