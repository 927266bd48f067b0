import InfraScan.Proofs.VertexNumbers

/-!
# Adding a vertex

A graph writes the kind and the type of a vertex into its raw attributes before it takes the
vertex in.  The raw attributes are those of a file and may hold either name with any value.
What they say besides is kept, and nothing of the vertices that are there already is touched.

* `Vertex.Presented` — what attributes are to be shown for a vertex
* `Vertex.presented_synced`, `Vertex.synced_synced` — they are shown, and showing them again
  changes nothing
* `Graph.Extended` — a graph with one vertex more
* `Graph.readsAs_ofParts_concat`, `Graph.extended_ofParts` — adding a vertex to a graph of
  vertices and edges
* `addVertex_extends` — adding a vertex to a graph after any calls

### What is load-bearing

The kind is written before a type that the vertex does not have is removed.  So there is a
last entry to move into the hole, and this entry may be the kind that was just written.
-/

namespace InfraScan

/-! ### The attributes that are shown -/

namespace Vertex

/-- **The attributes that are to be shown for a vertex.**

* The kind and the type are the vertex's own, and there is no type if it has none.
* Everything else is as in the raw attributes, and there is nothing more.
* The names stand in their raw order, with the kind and then the type behind them if they are
  new.
* If the vertex has no type, one that is left over is removed, and the last name moves into
  its place. -/
structure Presented (vertex : Vertex) (shown : Attributes) : Prop where
  blockType : shown.get? Attribute.blockType = some (.str vertex.blockType)
  resourceType : shown.get? Attribute.resourceType = vertex.resourceType.map .str
  others : ∀ name, name ≠ Attribute.blockType → name ≠ Attribute.resourceType →
    shown.get? name = vertex.attributes.get? name
  typedOrder : vertex.resourceType ≠ none →
    shown.keys = OrderedMap.arrived Attribute.resourceType
      (OrderedMap.arrived Attribute.blockType vertex.attributes.keys)
  untypedOrder : vertex.resourceType = none →
    OrderedMap.FilledUp Attribute.resourceType
      (OrderedMap.arrived Attribute.blockType vertex.attributes.keys) shown.keys

variable (vertex : Vertex)

/-- The attributes of a vertex, apart from its kind and its type, are the raw ones. -/
theorem get?_synced_of_ne {name : String} (notKind : name ≠ Attribute.blockType)
    (notType : name ≠ Attribute.resourceType) :
    vertex.synced.get? name = vertex.attributes.get? name := by
  cases typed : vertex.resourceType <;> simp [synced, typed, notKind.symm, notType.symm]

/-- **A graph shows the attributes that are to be shown.** -/
theorem presented_synced : vertex.Presented vertex.synced where
  blockType := vertex.get?_synced_blockType
  resourceType := vertex.get?_synced_resourceType
  others := fun _ notKind notType => vertex.get?_synced_of_ne notKind notType
  typedOrder := by
    intro typed
    obtain ⟨type, named⟩ := Option.ne_none_iff_exists'.1 typed
    simp only [synced, named]
    rw [OrderedMap.keys_insert_eq_arrived, OrderedMap.keys_insert_eq_arrived]
  untypedOrder := by
    intro untyped
    simp only [synced, untyped]
    have filled := (vertex.attributes.insert Attribute.blockType
      (.str vertex.blockType)).keys_swapErase Attribute.resourceType
    rwa [OrderedMap.keys_insert_eq_arrived] at filled

/-- **Attributes that are shown once are shown as they are**: writing the kind and the type
again changes nothing. -/
theorem synced_synced : ({ vertex with attributes := vertex.synced } : Vertex).synced =
    vertex.synced := by
  have kind := vertex.get?_synced_blockType
  have type := vertex.get?_synced_resourceType
  have written : vertex.synced.insert Attribute.blockType (.str vertex.blockType) =
      vertex.synced :=
    OrderedMap.insert_of_get?_eq_some kind
  conv_lhs => rw [synced]
  simp only [written]
  cases typed : vertex.resourceType with
  | some name =>
    rw [typed] at type
    exact OrderedMap.insert_of_get?_eq_some type
  | none =>
    rw [typed] at type
    exact OrderedMap.swapErase_of_get?_eq_none type

end Vertex

/-! ### Graphs with one vertex more -/

namespace Graph

/-- The name of a vertex, which only a graph of columns keeps. -/
def vertexName? : Graph → Nat → Option String
  | .attributed _, _ => none
  | .tabular graph, position => graph.vertexName? position

/-- **A graph with one vertex more.**

* The new vertex has the number of vertices before as its position, and its attributes are
  shown there.
* The other vertices have the positions they had, and read as before.
* The name of the new vertex stands for it, and all other names stand for what they stood for.
* The edges are the same. -/
structure Extended (before after : Graph) (vertex : Vertex) : Prop where
  framework : after.framework = before.framework
  vertices : after.vertices = before.vertices ++ [before.vertexCount]
  placed : ∃ shown, after.attributes? before.vertexCount = some shown ∧ vertex.Presented shown
  others : ∀ position ∈ before.vertices, after.ReadsAs position before position
  resolved : ∀ name, after.vertexNamed? name =
    if vertex.name = name then some before.vertexCount else before.vertexNamed? name
  named : after.framework = .tabular → after.vertexName? before.vertexCount = some vertex.name
  names : ∀ position ∈ before.vertices,
    after.vertexName? position = before.vertexName? position
  edges : after.edges = before.edges

section Parts

variable (framework : Framework) (vertices : List Vertex) (edges : List Edge)

@[simp] theorem framework_ofParts :
    (ofParts framework vertices edges).framework = framework := by
  cases framework <;> rfl

theorem vertices_ofParts :
    (ofParts framework vertices edges).vertices = List.range vertices.length :=
  congrArg List.range (vertexCount_ofParts framework vertices edges)

theorem vertexName?_ofParts_tabular (position : Nat) :
    (ofParts .tabular vertices edges).vertexName? position =
      (vertices[position]?).map Vertex.name := by
  show (TabularGraph.ofVertices vertices).names[position]? = _
  rw [TabularGraph.names_ofVertices, List.getElem?_map]

variable {vertices} {vertex : Vertex} (fits : vertices.length < UInt32.size)

include fits in
/-- The position of the new vertex is its own slot, as are those of the others. -/
theorem slot_of_le_length {position : Nat} (inside : position ≤ vertices.length) :
    framework.slot position = position :=
  framework.slot_eq_self fun _ => Nat.lt_of_le_of_lt inside fits

include fits in
/-- The new vertex is shown at the end. -/
theorem attributes?_ofParts_concat :
    (ofParts framework (vertices ++ [vertex]) edges).attributes? vertices.length =
      some vertex.synced := by
  rw [attributes?_ofParts_slot, slot_of_le_length framework fits (Nat.le_refl _),
    List.getElem?_concat_length, Option.map_some]

include fits in
/-- **The other vertices read as before.** -/
theorem readsAs_ofParts_concat {position : Nat} (inside : position < vertices.length) :
    (ofParts framework (vertices ++ [vertex]) edges).ReadsAs position
      (ofParts framework vertices edges) position := by
  have own := slot_of_le_length framework fits (Nat.le_of_lt inside)
  have kept : (vertices ++ [vertex])[position]? = vertices[position]? :=
    List.getElem?_append_left inside
  apply ReadsAs.of_reads
  · rw [attributes?_ofParts_slot, attributes?_ofParts_slot, own, kept]
  · intro name
    rw [attribute?_ofParts_slot, attribute?_ofParts_slot, own, kept]

include fits in
/-- **Adding a vertex to a graph of vertices and edges** makes it one of one vertex more. -/
theorem extended_ofParts :
    (ofParts framework vertices edges).Extended
      (ofParts framework (vertices ++ [vertex]) edges) vertex where
  framework := by rw [framework_ofParts, framework_ofParts]
  vertices := by
    rw [vertices_ofParts, vertices_ofParts, vertexCount_ofParts, List.length_append,
      List.length_singleton, List.range_succ]
  placed := by
    rw [vertexCount_ofParts]
    exact ⟨_, attributes?_ofParts_concat framework edges fits, vertex.presented_synced⟩
  others := by
    intro position handedOut
    rw [vertices_ofParts, List.mem_range] at handedOut
    exact readsAs_ofParts_concat framework edges fits handedOut
  resolved := by
    intro name
    rw [vertexNamed?_ofParts, vertexNamed?_ofParts, vertexCount_ofParts,
      Vertex.latestNamed?_concat]
  named := by
    rw [framework_ofParts]
    rintro rfl
    rw [vertexCount_ofParts, vertexName?_ofParts_tabular, List.getElem?_concat_length,
      Option.map_some]
  names := by
    intro position handedOut
    rw [vertices_ofParts, List.mem_range] at handedOut
    cases framework with
    | attributed => rfl
    | tabular =>
      rw [vertexName?_ofParts_tabular, vertexName?_ofParts_tabular,
        List.getElem?_append_left handedOut]
  edges := by rw [edges_ofParts, edges_ofParts]

end Parts

end Graph

/-- **Adding a vertex is faithful and touches nothing else.**  Take a graph of either
framework after any calls, with numbers left that fit into 32 bits, and any vertex.

* The call gives back the number of vertices before, and makes the graph one of one vertex
  more (`Graph.Extended`), which shows the attributes of the vertex (`Vertex.Presented`).
* A vertex with the attributes that are shown for it has these attributes shown for it
  again. -/
theorem addVertex_extends (framework : Framework) (calls : List GraphCall) (vertex : Vertex)
    (fits : ((Graph.empty framework).calls calls).2.vertexCount < UInt32.size - 1) :
    let before := ((Graph.empty framework).calls calls).2
    let given := before.call (.addVertex vertex)
    given.1 = .placed before.vertexCount ∧ before.Extended given.2 vertex ∧
      ({ vertex with attributes := vertex.synced } : Vertex).synced = vertex.synced := by
  intro before given
  have closed : before = _ := Graph.snd_calls_empty framework calls
  have room : (GraphCall.added calls).length < UInt32.size := by
    rw [← Graph.vertexCount_calls_empty framework calls]
    exact Nat.lt_of_lt_of_le fits (Nat.sub_le _ _)
  refine ⟨rfl, ?_, vertex.synced_synced⟩
  show before.Extended (before.addVertex vertex) vertex
  rw [closed, Graph.addVertex_ofParts]
  exact Graph.extended_ofParts framework _ room

/-- A block without a type that has one left over, and no kind. -/
def staleModule : Vertex :=
  ⟨"web", "module", none, OrderedMap.ofList [
    ("source", .str "./web"), ("resource_type", .str "Pod"), ("note", .null)]⟩

/-- The kind that is written last takes the place of the type that is left over.  The name of
the block stands for it, and no more for the pod that had it before, whose attributes are as
they were. -/
theorem staleModule_added :
    let before := ((Graph.empty .tabular).calls lonePod).2
    let after := (before.call (.addVertex staleModule)).2
    before.vertexCount < UInt32.size - 1 ∧
      (after.attributes? 1).map (·.toList) = some [
        ("source", .str "./web"), ("block_type_", .str "module"), ("note", .null)] ∧
      after.vertexNamed? "web" = some 1 ∧ after.resourceType? 0 = some "Pod" := by
  intro before after
  have fits : before.vertexCount < UInt32.size - 1 := by decide
  have handedOut : 0 ∈ before.vertices := by decide
  obtain ⟨-, extended, -⟩ := addVertex_extends .tabular lonePod staleModule fits
  refine ⟨fits, rfl, extended.resolved "web", ?_⟩
  rw [(extended.others 0 handedOut).resourceType]
  decide +kernel

end InfraScan
