import InfraScan.Proofs.GraphCalls
import InfraScan.Proofs.NullAttributes

/-!
# Numbers that are no vertex

A graph is asked for vertices by their numbers, and may be asked for a number that it has not
handed out.  A graph of columns has no row there and gives nothing.  A graph of attribute maps
cuts the number down to 32 bits before it looks, so a large number can come out as that of
another vertex.

* `Framework.gives?` — the attribute that a framework gives of a vertex
* `Graph.attributes?_ofParts_slot`, `Graph.attribute?_ofParts_slot` — what is read at any
  number
* `Graph.Unknown`, `Graph.ReadsAs` — a number of which nothing is read, and numbers that read
  alike
* `unknown_numbers_apart_from_wrapped` — every number that was not handed out is of one of
  these kinds
* `wrapped_number_known` — and not every one is unknown

### What is load-bearing

Whatever is read of a number is read from the vertex in one slot (`Framework.slot`), all
attributes and each of them alike.  So a number is unknown if its slot is empty, and is else
read as the number of the slot in every respect.
-/

namespace InfraScan

/-! ### What is read at a number -/

/-- **The attribute that a framework gives of a vertex.**  In columns, null counts as
absent. -/
def Framework.gives? : Framework → Vertex → String → Option Json
  | .attributed, vertex, name => vertex.synced.get? name
  | .tabular, vertex, name => (vertex.synced.get? name).bind Json.present?

namespace Graph

variable (framework : Framework) (vertices : List Vertex) (edges : List Edge)

/-- **All attributes that are read at a number** are those of the vertex in its slot. -/
theorem attributes?_ofParts_slot (number : Nat) :
    (ofParts framework vertices edges).attributes? number =
      (vertices[framework.slot number]?).map Vertex.synced := by
  rw [attributes?_ofParts]
  cases framework with
  | attributed =>
    rw [ofVertices_attributed, attributes?, AttributedGraph.attributes?,
      AttributedGraph.nodes_ofVertices, List.getElem?_map]
    rfl
  | tabular =>
    rw [ofVertices_tabular, attributes?, TabularGraph.attributes?,
      TabularGraph.attributes_ofVertices, List.getElem?_map]
    rfl

/-- Edges are no part of what is shown of an attribute. -/
theorem attribute?_ofParts (number : Nat) (name : String) :
    (ofParts framework vertices edges).attribute? number name =
      (ofVertices framework vertices).attribute? number name := by
  cases framework with
  | attributed =>
    rw [ofVertices_attributed]
    rfl
  | tabular =>
    rw [ofVertices_tabular]
    rfl

/-- **Each attribute that is read at a number** is one of the vertex in its slot. -/
theorem attribute?_ofParts_slot (number : Nat) (name : String) :
    (ofParts framework vertices edges).attribute? number name =
      (vertices[framework.slot number]?).bind (framework.gives? · name) := by
  rw [attribute?_ofParts]
  cases present : vertices[framework.slot number]? with
  | some vertex =>
    have shown := shows_of_slot framework present
    cases framework with
    | attributed => exact attribute?_attributed shown name
    | tabular => exact attribute?_tabular shown name
  | none =>
    cases framework with
    | attributed =>
      have beyond : vertices[AttributedGraph.nodeNumber number]? = none := present
      rw [ofVertices_attributed, attribute?, AttributedGraph.attribute?,
        AttributedGraph.attributes?, AttributedGraph.nodes_ofVertices, List.getElem?_map,
        beyond]
      rfl
    | tabular =>
      -- Beyond the last row, every column is empty.
      have beyond : vertices[number]? = none := present
      rw [ofVertices_tabular, attribute?, TabularGraph.attribute?,
        TabularGraph.blockTypes_ofVertices, TabularGraph.resourceTypes_ofVertices,
        TabularGraph.attributes_ofVertices]
      simp [beyond]

end Graph

/-- **Images depend on what is read**: two numbers that read alike have the same images. -/
theorem PodSpec.imagesOf_congr {a b : Graph} {number other : Nat}
    (attributes : a.attributes? number = b.attributes? other)
    (named : ∀ name, a.attribute? number name = b.attribute? other name) :
    imagesOf a number = imagesOf b other := by
  unfold imagesOf location? marker? Graph.resourceType?
  rw [attributes, named, named, named, named]

/-! ### Unknown numbers, and numbers that read alike -/

namespace Graph

/-- **Nothing is read of a number**: no attributes, no kind and no type, and there are neither
images there nor anything to report. -/
structure Unknown (graph : Graph) (number : Nat) : Prop where
  attributes : graph.attributes? number = none
  named : ∀ name, graph.attribute? number name = none
  default : ∀ name default, graph.attributeOr number name default = default
  blockType : graph.blockType? number = none
  resourceType : graph.resourceType? number = none
  images : PodSpec.imagesOf graph number = .none

/-- **Two numbers read alike**, each in its graph, whatever is asked of them. -/
structure ReadsAs (a : Graph) (number : Nat) (b : Graph) (other : Nat) : Prop where
  attributes : a.attributes? number = b.attributes? other
  named : ∀ name, a.attribute? number name = b.attribute? other name
  default : ∀ name default,
    a.attributeOr number name default = b.attributeOr other name default
  blockType : a.blockType? number = b.blockType? other
  resourceType : a.resourceType? number = b.resourceType? other
  images : PodSpec.imagesOf a number = PodSpec.imagesOf b other

variable {graph : Graph} {number other : Nat}

/-- Whatever is read of a number is read from its attributes, all of them or one by its
name. -/
theorem Unknown.of_reads (attributes : graph.attributes? number = none)
    (named : ∀ name, graph.attribute? number name = none) : graph.Unknown number where
  attributes := attributes
  named := named
  default := by
    intro name default
    rw [attributeOr, named, Option.getD_none]
  blockType := by rw [blockType?, named, Option.bind_none]
  resourceType := by rw [resourceType?, named, Option.bind_none]
  images := by rw [PodSpec.imagesOf, resourceType?, named, Option.bind_none]

theorem ReadsAs.of_reads {a b : Graph}
    (attributes : a.attributes? number = b.attributes? other)
    (named : ∀ name, a.attribute? number name = b.attribute? other name) :
    a.ReadsAs number b other where
  attributes := attributes
  named := named
  default := by
    intro name default
    rw [attributeOr, attributeOr, named]
  blockType := by rw [blockType?, blockType?, named]
  resourceType := by rw [resourceType?, resourceType?, named]
  images := PodSpec.imagesOf_congr attributes named

section Parts

variable (framework : Framework) (vertices : List Vertex) (edges : List Edge) (number : Nat)

/-- **A number is unknown if its slot is empty**, and only then. -/
theorem unknown_ofParts_iff :
    (ofParts framework vertices edges).Unknown number ↔
      vertices.length ≤ framework.slot number := by
  constructor
  · intro unknown
    have nothing := unknown.attributes
    rwa [attributes?_ofParts_slot, Option.map_eq_none_iff,
      List.getElem?_eq_none_iff] at nothing
  · intro beyond
    have empty := List.getElem?_eq_none_iff.2 beyond
    apply Unknown.of_reads
    · rw [attributes?_ofParts_slot, empty, Option.map_none]
    · intro name
      rw [attribute?_ofParts_slot, empty, Option.bind_none]

/-- **Every number reads as that of its slot.** -/
theorem readsAs_slot_ofParts :
    (ofParts framework vertices edges).ReadsAs number (ofParts framework vertices edges)
      (framework.slot number) := by
  have same := framework.slot_slot number
  apply ReadsAs.of_reads
  · rw [attributes?_ofParts_slot, attributes?_ofParts_slot, same]
  · intro name
    rw [attribute?_ofParts_slot, attribute?_ofParts_slot, same]

end Parts

/-- **A graph after calls** is one of vertices and edges. -/
theorem snd_calls_empty (framework : Framework) (calls : List GraphCall) :
    ((empty framework).calls calls).2 =
      ofParts framework (GraphCall.added calls) (GraphCall.linked [] calls) :=
  congrArg Prod.snd (calls_empty framework calls)

theorem vertexCount_calls_empty (framework : Framework) (calls : List GraphCall) :
    ((empty framework).calls calls).2.vertexCount = (GraphCall.added calls).length := by
  rw [snd_calls_empty, vertexCount_ofParts]

end Graph

/-- **A number that was not handed out is unknown, or reads as one that was.**  Take a graph
of either framework after any calls, and a number that is not that of a vertex.

* A graph of columns does not know the number.
* A graph of attribute maps does not know it either, if it fits into 32 bits.
* A larger number is unknown to a graph of attribute maps exactly when its low 32 bits are not
  the number of a vertex.
* If they are, the number reads as that of this vertex. -/
theorem unknown_numbers_apart_from_wrapped (framework : Framework) (calls : List GraphCall)
    (number : Nat) :
    let graph := ((Graph.empty framework).calls calls).2
    graph.vertexCount ≤ number →
      (framework = .tabular → graph.Unknown number) ∧
      (number < UInt32.size → graph.Unknown number) ∧
      (framework = .attributed →
        (graph.Unknown number ↔ graph.vertexCount ≤ number % UInt32.size) ∧
        (number % UInt32.size < graph.vertexCount →
          graph.ReadsAs number graph (number % UInt32.size))) := by
  intro graph notHandedOut
  have closed : graph = _ := Graph.snd_calls_empty framework calls
  have count : graph.vertexCount = _ := Graph.vertexCount_calls_empty framework calls
  have known : graph.Unknown number ↔ graph.vertexCount ≤ framework.slot number := by
    rw [count, closed]
    exact Graph.unknown_ofParts_iff framework _ _ number
  have taken : graph.ReadsAs number graph (framework.slot number) := by
    rw [closed]
    exact Graph.readsAs_slot_ofParts framework _ _ number
  refine ⟨?_, ?_, ?_⟩
  · rintro rfl
    exact known.2 notHandedOut
  · intro fits
    rw [known, framework.slot_eq_self fun _ => fits]
    exact notHandedOut
  · rintro rfl
    exact ⟨known, fun _ => taken⟩

/-- A pod alone. -/
def lonePod : List GraphCall :=
  [.addVertex (.resource "web" (OrderedMap.ofList [
    ("file_path_", .str "/pod.yaml"), ("__startline__", .ofNat 1), ("__endline__", .ofNat 9),
    ("resource_type", .str "Pod"),
    ("spec", .obj [("containers", .arr [.obj [("image", .str "nginx")]])])]))]

/-- The first number beyond 32 bits comes out as that of the pod, with its image, and the next
one as unknown. -/
theorem lonePod_numbers :
    let graph := ((Graph.empty .attributed).calls lonePod).2
    (graph.vertexCount ≤ 4294967296 ∧ graph.ReadsAs 4294967296 graph 0 ∧
      (PodSpec.imagesOf graph 4294967296).images =
        [⟨"/pod.yaml", "nginx", 1, 9, "/pod.yaml:None"⟩]) ∧
    (graph.vertexCount ≤ 4294967297 ∧ graph.Unknown 4294967297) := by
  intro graph
  have beyond : graph.vertexCount ≤ 4294967296 := by decide
  have further : graph.vertexCount ≤ 4294967297 := by decide
  have wrapped :=
    (unknown_numbers_apart_from_wrapped .attributed lonePod 4294967296 beyond).2.2 rfl
  have absent :=
    (unknown_numbers_apart_from_wrapped .attributed lonePod 4294967297 further).2.2 rfl
  have taken : graph.ReadsAs 4294967296 graph 0 := wrapped.2 (by decide)
  refine ⟨⟨beyond, taken, ?_⟩, further, absent.1.2 (by decide)⟩
  rw [taken.images]
  decide +kernel

/-- **Not every number that was not handed out is unknown**, although it is one of 64 bits: a
graph with one vertex gives attributes, a kind, a type and an image for it. -/
theorem wrapped_number_known :
    let graph := ((Graph.empty .attributed).calls lonePod).2
    4294967296 < UInt64.size ∧ graph.vertexCount ≤ 4294967296 ∧
      ¬ graph.attributes? 4294967296 = none ∧
      ¬ (∀ name, graph.attribute? 4294967296 name = none) ∧
      ¬ (∀ name default, graph.attributeOr 4294967296 name default = default) ∧
      ¬ graph.blockType? 4294967296 = none ∧ ¬ graph.resourceType? 4294967296 = none ∧
      ¬ (PodSpec.imagesOf graph 4294967296).images = [] := by
  intro graph
  have kind : graph.blockType? 4294967296 = some "resource" := by decide +kernel
  have type : graph.resourceType? 4294967296 = some "Pod" := by decide +kernel
  have given : graph.attribute? 4294967296 "resource_type" = some (.str "Pod") := rfl
  refine ⟨by decide, by decide, ?_, ?_, ?_, ?_, ?_, by decide +kernel⟩
  · intro nothing
    have unread : graph.attribute? 4294967296 "resource_type" = none := by
      show (graph.attributes? 4294967296).bind (·.get? "resource_type") = none
      rw [nothing, Option.bind_none]
    rw [given] at unread
    cases unread
  · intro nothing
    have unread := nothing "resource_type"
    rw [given] at unread
    cases unread
  · intro nothing
    have fallback := nothing "resource_type" .null
    rw [Graph.attributeOr, given] at fallback
    cases fallback
  · rw [kind]
    exact Option.some_ne_none _
  · rw [type]
    exact Option.some_ne_none _

end InfraScan
