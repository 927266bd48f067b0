import InfraScan.Image.Survey
import InfraScan.Proofs.OrderedMap

/-!
# The framework of a graph does not show

Whole attribute maps and columns answer a request for one attribute from different places: a
column holds null for a type that a vertex does not have, and null counts as absent in columns
only.  What is read through a graph is nevertheless the same on both, and this module says
why.

* `foldl_column` — a column that takes one cell from each vertex
* `Graph.Shows` — what a position of a graph shows of a vertex
* `Framework.slot` — where a framework looks a position up
* `Graph.shows_ofVertices` — either framework shows each vertex at its own position
* `Graph.ShowAlike` — two graphs that show the same vertices
* `survey_framework_irrelevant` — images, platforms and events are the same on both frameworks

### What is load-bearing

`Vertex.synced` writes the kind and the type of a vertex into its attributes, or removes a
type left over there, so the map agrees with the columns (`Vertex.get?_synced_blockType`,
`Vertex.get?_synced_resourceType`).  What remains is null against absent, and every reader
takes the two for the same; `Graph.Shows.reads` asks for that and for nothing else of a
reader.
-/

namespace InfraScan

/-! ### The reserved attributes of a vertex -/

namespace Vertex

/-- The kind that is shown is the vertex's own. -/
theorem get?_synced_blockType (vertex : Vertex) :
    vertex.synced.get? Attribute.blockType = some (.str vertex.blockType) := by
  have apart : Attribute.resourceType ≠ Attribute.blockType := by decide
  cases typed : vertex.resourceType <;> simp [synced, typed, apart]

/-- The type that is shown is the vertex's own; a type left over in the raw attributes is
gone. -/
theorem get?_synced_resourceType (vertex : Vertex) :
    vertex.synced.get? Attribute.resourceType = vertex.resourceType.map .str := by
  cases typed : vertex.resourceType <;> simp [synced, typed]

end Vertex

/-! ### Columns -/

/-- **A column that takes one cell from each vertex** ends with the cells of all of them in
order. -/
theorem foldl_column {σ β : Type} (add : σ → Vertex → σ) (column : σ → List β)
    (cell : Vertex → β)
    (grows : ∀ graph vertex, column (add graph vertex) = column graph ++ [cell vertex])
    (vertices : List Vertex) (graph : σ) :
    column (vertices.foldl add graph) = column graph ++ vertices.map cell := by
  induction vertices generalizing graph with
  | nil => simp
  | cons vertex rest ih =>
    rw [List.foldl_cons, ih, grows, List.map_cons, List.append_assoc, List.singleton_append]

namespace AttributedGraph

/-- The graph of attribute maps of a list of vertices. -/
def ofVertices (vertices : List Vertex) : AttributedGraph := vertices.foldl addVertex empty

theorem nodes_ofVertices (vertices : List Vertex) :
    (ofVertices vertices).nodes = vertices.map Vertex.synced :=
  foldl_column addVertex nodes Vertex.synced (fun _ _ => rfl) vertices empty

/-- A number that fits into 32 bits stands for itself. -/
theorem nodeNumber_of_lt {position : Nat} (fits : position < UInt32.size) :
    nodeNumber position = position :=
  Nat.mod_eq_of_lt fits

end AttributedGraph

namespace TabularGraph

/-- The table of a list of vertices. -/
def ofVertices (vertices : List Vertex) : TabularGraph := vertices.foldl addVertex empty

theorem names_ofVertices (vertices : List Vertex) :
    (ofVertices vertices).names = vertices.map Vertex.name :=
  foldl_column addVertex names Vertex.name (fun _ _ => rfl) vertices empty

theorem blockTypes_ofVertices (vertices : List Vertex) :
    (ofVertices vertices).blockTypes = vertices.map fun vertex => .str vertex.blockType :=
  foldl_column addVertex blockTypes _ (fun _ _ => rfl) vertices empty

theorem resourceTypes_ofVertices (vertices : List Vertex) :
    (ofVertices vertices).resourceTypes =
      vertices.map fun vertex => (vertex.resourceType.map Json.str).getD .null :=
  foldl_column addVertex resourceTypes _ (fun _ _ => rfl) vertices empty

theorem attributes_ofVertices (vertices : List Vertex) :
    (ofVertices vertices).attributes = vertices.map Vertex.synced :=
  foldl_column addVertex attributes Vertex.synced (fun _ _ => rfl) vertices empty

end TabularGraph

/-- The slot that a position is looked up in: a node number is cut down to 32 bits, a row is
not. -/
def Framework.slot : Framework → Nat → Nat
  | .attributed, position => AttributedGraph.nodeNumber position
  | .tabular, position => position

namespace Framework

theorem slot_le (framework : Framework) (position : Nat) :
    framework.slot position ≤ position := by
  cases framework with
  | attributed => exact Nat.mod_le position UInt32.size
  | tabular => exact Nat.le_refl position

/-- A slot is its own slot. -/
theorem slot_slot (framework : Framework) (position : Nat) :
    framework.slot (framework.slot position) = framework.slot position := by
  cases framework with
  | attributed => exact Nat.mod_mod position UInt32.size
  | tabular => rfl

/-- A position that fits into 32 bits is its own slot; a row is so at any position. -/
theorem slot_eq_self (framework : Framework) {position : Nat}
    (fits : framework = .attributed → position < UInt32.size) :
    framework.slot position = position := by
  cases framework with
  | attributed => exact AttributedGraph.nodeNumber_of_lt (fits rfl)
  | tabular => rfl

end Framework

/-! ### What a graph shows -/

namespace Graph

theorem ofVertices_attributed (vertices : List Vertex) :
    ofVertices .attributed vertices = .attributed (AttributedGraph.ofVertices vertices) :=
  List.foldl_hom Graph.attributed fun _ _ => rfl

theorem ofVertices_tabular (vertices : List Vertex) :
    ofVertices .tabular vertices = .tabular (TabularGraph.ofVertices vertices) :=
  List.foldl_hom Graph.tabular fun _ _ => rfl

/-- The positions that are handed out are those of the list. -/
theorem vertices_ofVertices (framework : Framework) (vertices : List Vertex) :
    (ofVertices framework vertices).vertices = List.range vertices.length := by
  cases framework with
  | attributed =>
    rw [ofVertices_attributed, Graph.vertices, vertexCount, AttributedGraph.vertexCount,
      AttributedGraph.nodes_ofVertices, List.length_map]
  | tabular =>
    rw [ofVertices_tabular, Graph.vertices, vertexCount, TabularGraph.vertexCount,
      TabularGraph.names_ofVertices, List.length_map]

/-- **What a position of a graph shows of a vertex**: its attributes as a whole, and each
attribute by itself to a reader that takes null for absent. -/
structure Shows (graph : Graph) (position : Nat) (vertex : Vertex) : Prop where
  attributes : graph.attributes? position = some vertex.synced
  reads {α : Type} (reader : Json → Option α) (ignoresNull : reader .null = none)
    (name : String) :
    (graph.attribute? position name).bind reader = (vertex.synced.get? name).bind reader

theorem shows_attributed {vertices : List Vertex} {position : Nat} {vertex : Vertex}
    (present : vertices[AttributedGraph.nodeNumber position]? = some vertex) :
    (ofVertices .attributed vertices).Shows position vertex := by
  have whole : (AttributedGraph.ofVertices vertices).attributes? position =
      some vertex.synced := by
    rw [AttributedGraph.attributes?, AttributedGraph.nodes_ofVertices,
      List.getElem?_map, present, Option.map_some]
  rw [ofVertices_attributed]
  refine ⟨whole, fun reader _ name => ?_⟩
  rw [attribute?, AttributedGraph.attribute?, whole, Option.bind_some]

/-- A reader that takes null for absent does not notice that null is left out. -/
theorem bind_filter_isNull {α : Type} {reader : Json → Option α}
    (ignoresNull : reader .null = none) (value : Option Json) :
    (value.filter fun json => !json.isNull).bind reader = value.bind reader := by
  cases value with
  | none => rfl
  | some json => cases json <;> simp [Option.filter_some, Json.isNull, ignoresNull]

theorem shows_tabular {vertices : List Vertex} {position : Nat} {vertex : Vertex}
    (present : vertices[position]? = some vertex) :
    (ofVertices .tabular vertices).Shows position vertex := by
  rw [ofVertices_tabular]
  constructor
  · rw [attributes?, TabularGraph.attributes?, TabularGraph.attributes_ofVertices,
      List.getElem?_map, present, Option.map_some]
  · intro α reader ignoresNull name
    rw [attribute?, TabularGraph.attribute?, bind_filter_isNull ignoresNull]
    -- Each of the three places that an attribute is kept in agrees with the whole map.
    split
    · subst name
      rw [TabularGraph.blockTypes_ofVertices, List.getElem?_map, present, Option.map_some,
        vertex.get?_synced_blockType]
    · split
      · subst name
        rw [TabularGraph.resourceTypes_ofVertices, List.getElem?_map, present,
          Option.map_some, vertex.get?_synced_resourceType]
        cases vertex.resourceType with
        | none => exact ignoresNull
        | some type => rfl
      · rw [TabularGraph.attributes_ofVertices, List.getElem?_map, present, Option.map_some,
          Option.bind_some]

/-- **Either framework shows a vertex at each position whose slot it is in.** -/
theorem shows_of_slot (framework : Framework) {vertices : List Vertex} {position : Nat}
    {vertex : Vertex} (present : vertices[framework.slot position]? = some vertex) :
    (ofVertices framework vertices).Shows position vertex := by
  cases framework with
  | attributed => exact shows_attributed present
  | tabular => exact shows_tabular present

/-- **Either framework shows each vertex at its own position.** -/
theorem shows_ofVertices (framework : Framework) {vertices : List Vertex}
    (fits : vertices.length < UInt32.size - 1) {position : Nat} {vertex : Vertex}
    (present : vertices[position]? = some vertex) :
    (ofVertices framework vertices).Shows position vertex := by
  have inside : position < UInt32.size :=
    Nat.lt_trans (Nat.lt_trans (List.getElem?_eq_some_iff.1 present).1 fits) (by decide)
  refine shows_of_slot framework ?_
  rwa [framework.slot_eq_self fun _ => inside]

namespace Shows

variable {graph : Graph} {position : Nat} {vertex : Vertex}

theorem blockType? (shown : graph.Shows position vertex) :
    graph.blockType? position = some vertex.blockType := by
  rw [Graph.blockType?, shown.reads Json.str? rfl, vertex.get?_synced_blockType]
  rfl

theorem resourceType? (shown : graph.Shows position vertex) :
    graph.resourceType? position = vertex.resourceType := by
  rw [Graph.resourceType?, shown.reads Json.str? rfl, vertex.get?_synced_resourceType]
  cases vertex.resourceType <;> rfl

/-- An attribute that is not null is shown as it is. -/
theorem attribute?_eq_some (shown : graph.Shows position vertex) {name : String}
    {value : Json} (written : vertex.synced.get? name = some value)
    (present : value ≠ .null) :
    graph.attribute? position name = some value := by
  let reader (found : Json) : Option Json := if found.isNull then none else some found
  have unread : reader value = some value := if_neg (mt Json.isNull_iff.1 present)
  have read := shown.reads reader rfl name
  rw [written, Option.bind_some, unread] at read
  obtain ⟨found, given, kept⟩ := Option.bind_eq_some_iff.1 read
  obtain ⟨-, rfl⟩ : found ≠ .null ∧ found = value := by simpa [reader] using kept
  exact given

end Shows

/-- **Two graphs that show the same vertices** at the same positions. -/
structure ShowAlike (a b : Graph) : Prop where
  vertices : a.vertices = b.vertices
  shown : ∀ position ∈ a.vertices, ∃ vertex, a.Shows position vertex ∧ b.Shows position vertex

theorem showAlike_ofVertices (first second : Framework) {vertices : List Vertex}
    (fits : vertices.length < UInt32.size - 1) :
    (ofVertices first vertices).ShowAlike (ofVertices second vertices) where
  vertices := by rw [vertices_ofVertices, vertices_ofVertices]
  shown := by
    intro position handedOut
    rw [vertices_ofVertices, List.mem_range] at handedOut
    have present := List.getElem?_eq_getElem handedOut
    exact ⟨vertices[position], shows_ofVertices first fits present,
      shows_ofVertices second fits present⟩

end Graph

/-! ### What is read through a graph -/

namespace PodSpec

variable {a b : Graph} {position other : Nat} {vertex : Vertex}

theorem location?_eq_of_shows (left : a.Shows position vertex)
    (right : b.Shows other vertex) :
    location? a position = location? b other := by
  simp only [location?, marker?]
  rw [left.reads Json.str? rfl, right.reads Json.str? rfl, left.reads Json.nat? rfl,
    right.reads Json.nat? rfl, left.reads Json.nat? rfl, right.reads Json.nat? rfl]

/-- **The images of a vertex do not depend on the graph that shows it**, nor on where it
does. -/
theorem imagesOf_eq_of_shows (left : a.Shows position vertex) (right : b.Shows other vertex) :
    imagesOf a position = imagesOf b other := by
  unfold imagesOf
  rw [left.resourceType?, right.resourceType?, left.attributes, right.attributes,
    location?_eq_of_shows left right]

theorem readVertices_eq_of_showAlike (alike : a.ShowAlike b) :
    readVertices a = readVertices b := by
  unfold readVertices
  rw [List.filter_filter, List.filter_filter, ← alike.vertices]
  refine List.filter_congr fun position mem => ?_
  obtain ⟨vertex, left, right⟩ := alike.shown position mem
  rw [left.blockType?, right.blockType?, left.resourceType?, right.resourceType?]

theorem allImages_eq_of_showAlike (alike : a.ShowAlike b) : allImages a = allImages b := by
  unfold allImages
  rw [← readVertices_eq_of_showAlike alike]
  congr 1
  refine List.map_congr_left fun position mem => ?_
  have handedOut := List.mem_of_mem_filter (List.mem_of_mem_filter mem)
  obtain ⟨vertex, left, right⟩ := alike.shown position handedOut
  exact imagesOf_eq_of_shows left right

end PodSpec

theorem Platform.applies_eq_of_shows (platform : Platform) {a b : Graph}
    {position other : Nat} {vertex : Vertex} (left : a.Shows position vertex)
    (right : b.Shows other vertex) :
    platform.applies a position = platform.applies b other := by
  rw [applies, applies, left.blockType?, right.blockType?, left.resourceType?,
    right.resourceType?]

namespace Survey

variable {a b : Graph}

theorem images_eq_of_showAlike (alike : a.ShowAlike b) (platform : Platform) :
    platform.images a = platform.images b := by
  cases platform with
  | kubernetes => exact PodSpec.allImages_eq_of_showAlike alike

theorem applies_eq_of_showAlike (alike : a.ShowAlike b) (platform : Platform)
    {position : Nat} (mem : position ∈ a.vertices) :
    platform.applies a position = platform.applies b position := by
  obtain ⟨vertex, left, right⟩ := alike.shown position mem
  exact platform.applies_eq_of_shows left right

theorem platforms_eq_of_showAlike (alike : a.ShowAlike b) (providers : List Platform) :
    platforms providers a = platforms providers b := by
  refine List.filter_congr fun platform _ => ?_
  rw [← alike.vertices, Bool.eq_iff_iff, List.any_eq_true, List.any_eq_true]
  refine exists_congr fun position => and_congr_right fun mem => ?_
  rw [applies_eq_of_showAlike alike platform mem]

/-- **A survey finds the same in two graphs that show the same vertices.** -/
theorem run_eq_of_showAlike (alike : a.ShowAlike b) (providers : List Platform) :
    run providers a = run providers b := by
  have each : provider a = provider b := by
    funext platform
    unfold provider
    rw [images_eq_of_showAlike alike platform]
  unfold run
  rw [platforms_eq_of_showAlike alike, each]

end Survey

/-- **The framework of a graph does not show.**  Whatever vertices are loaded, as long as
their numbers fit into 32 bits, both frameworks hand out the positions of the list; each
vertex has the same images and events on both, and any providers find the same platforms, the
same images of their own, and the same images and events together. -/
theorem survey_framework_irrelevant (vertices : List Vertex)
    (fits : vertices.length < UInt32.size - 1) :
    let attributed := Graph.ofVertices .attributed vertices
    let tabular := Graph.ofVertices .tabular vertices
    attributed.vertices = List.range vertices.length ∧
    tabular.vertices = List.range vertices.length ∧
    (∀ position ∈ List.range vertices.length,
      PodSpec.imagesOf attributed position = PodSpec.imagesOf tabular position) ∧
    ∀ providers : List Platform,
      Survey.platforms providers attributed = Survey.platforms providers tabular ∧
      (∀ platform ∈ providers, platform.images attributed = platform.images tabular) ∧
      Survey.run providers attributed = Survey.run providers tabular := by
  intro attributed tabular
  have alike : attributed.ShowAlike tabular :=
    Graph.showAlike_ofVertices .attributed .tabular fits
  have handedOut : attributed.vertices = List.range vertices.length :=
    Graph.vertices_ofVertices .attributed vertices
  refine ⟨handedOut, alike.vertices.symm.trans handedOut, ?_, fun providers => ⟨?_, ?_, ?_⟩⟩
  · intro position mem
    rw [← handedOut] at mem
    obtain ⟨vertex, left, right⟩ := alike.shown position mem
    exact PodSpec.imagesOf_eq_of_shows left right
  · exact Survey.platforms_eq_of_showAlike alike providers
  · intro platform _
    exact Survey.images_eq_of_showAlike alike platform
  · exact Survey.run_eq_of_showAlike alike providers

/-- A pod whose reserved attributes are null or of another type, a pod whose path is null, and
a block that is no pod but has a type left over from one. -/
def oddVertices : List Vertex := [
  ⟨"web", "resource", some "Pod", OrderedMap.ofList [
    ("block_type_", .null), ("resource_type", .ofNat 3), ("file_path_", .str "/pod.yaml"),
    ("__startline__", .ofNat 1), ("__endline__", .ofNat 9),
    ("spec", .obj [("containers", .arr [.obj [("image", .str " nginx ")]])])]⟩,
  ⟨"lost", "resource", some "Pod", OrderedMap.ofList [("file_path_", .null)]⟩,
  ⟨"stale", "resource", none, OrderedMap.ofList [("resource_type", .str "Pod")]⟩]

/-- On either framework the odd vertices have one image, and the pod without a path is
reported. -/
theorem survey_oddVertices :
    oddVertices.length < UInt32.size - 1 ∧
      ∀ framework, Survey.run [.kubernetes] (Graph.ofVertices framework oddVertices) =
        ⟨[⟨"/pod.yaml", "nginx", 1, 9, "/pod.yaml:None"⟩],
          [.locationMissing "Pod", .imagesExtracted "kubernetes" 1]⟩ := by
  have fits : oddVertices.length < UInt32.size - 1 := by decide
  have same := ((survey_framework_irrelevant oddVertices fits).2.2.2 [.kubernetes]).2.2
  have onTabular : Survey.run [.kubernetes] (Graph.ofVertices .tabular oddVertices) =
      ⟨[⟨"/pod.yaml", "nginx", 1, 9, "/pod.yaml:None"⟩],
        [.locationMissing "Pod", .imagesExtracted "kubernetes" 1]⟩ := by
    decide +kernel
  refine ⟨fits, fun framework => ?_⟩
  cases framework with
  | attributed => exact same.trans onTabular
  | tabular => exact onTabular

end InfraScan
