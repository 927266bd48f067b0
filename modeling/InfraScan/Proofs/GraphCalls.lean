import InfraScan.Proofs.Framework
import Mathlib.Data.List.Induction

/-!
# Graphs under calls

A graph is built by calls that add vertices and edges in any order.  A name may be given to
several vertices, and then stands for the last of them, while edges that were added before
keep the ends they had.  What a sequence of calls amounts to can be told from the calls alone;
the graphs of both frameworks are held against that, and so against each other.

* `GraphCall`, `GraphAnswer` — a call and what it gives back
* `Graph.call`, `Graph.calls` — one call on a graph, and several
* `Vertex.latestNamed?` — the position of the last vertex under a name
* `GraphCall.added`, `GraphCall.linked`, `GraphCall.answers` — the vertices, the edges and the
  answers of a sequence of calls, told without a graph
* `Graph.ofParts`, `Graph.calls_ofParts` — the graph of vertices and edges, and what calls
  make of it
* `Graph.Records`, `Graph.InStep` — a graph that has taken down calls, and two graphs that
  agree
* `frameworks_simulate` — graphs of both frameworks agree after any sequence of calls

### What is load-bearing

Names are resolved when an edge is added, and the edge is kept by positions.  So the edges of
a graph depend on the vertices that were there at the time of each (`GraphCall.linked` carries
them along), and the vertices do not depend on the edges at all.  This is why a graph after
calls is a graph of vertices alone with a list of edges put in (`Graph.ofParts`), whatever the
order of the calls was.
-/

namespace InfraScan

/-! ### Calls and their answers -/

/-- A call that adds to a graph. -/
inductive GraphCall where
  | addVertex (vertex : Vertex)
  | addEdge (source target label : String)

/-- What a call gives back: the position of the vertex, or whether the edge was added. -/
inductive GraphAnswer where
  | placed (position : Nat)
  | linked (done : Bool)
  deriving Repr, DecidableEq

/-- The position that an answer hands out. -/
def GraphAnswer.position? : GraphAnswer → Option Nat
  | .placed position => some position
  | .linked _ => none

namespace Graph

/-- **One call on a graph.**  Without an edge to add, the graph stays what it was. -/
def call (graph : Graph) : GraphCall → GraphAnswer × Graph
  | .addVertex vertex => (.placed graph.vertexCount, graph.addVertex vertex)
  | .addEdge source target label =>
    match graph.addEdge? source target label with
    | none => (.linked false, graph)
    | some extended => (.linked true, extended)

/-- Several calls, one after another. -/
def calls (graph : Graph) : List GraphCall → List GraphAnswer × Graph
  | [] => ([], graph)
  | first :: rest =>
    let next := graph.call first
    let later := next.2.calls rest
    (next.1 :: later.1, later.2)

end Graph

/-! ### The last vertex under a name -/

/-- What stands in a list with one more element at its end. -/
theorem getElem?_concat_eq_some_iff {α : Type} {list : List α} {a b : α} {position : Nat} :
    (list ++ [a])[position]? = some b ↔
      list[position]? = some b ∨ position = list.length ∧ a = b := by
  grind

namespace Vertex

/-- **The position of the last vertex under a name.** -/
def latestNamed? (vertices : List Vertex) (name : String) : Option Nat :=
  (vertices.zipIdx.reverse.find? fun entry => entry.1.name = name).map Prod.snd

/-- A vertex that is added takes its name over. -/
theorem latestNamed?_concat (vertices : List Vertex) (vertex : Vertex) (name : String) :
    latestNamed? (vertices ++ [vertex]) name =
      if vertex.name = name then some vertices.length else latestNamed? vertices name := by
  by_cases same : vertex.name = name <;> simp [latestNamed?, List.zipIdx_append, same]

/-- **The last vertex under a name** has the name, and no later one has it. -/
theorem latestNamed?_eq_some_iff {vertices : List Vertex} {name : String} {position : Nat} :
    latestNamed? vertices name = some position ↔
      (∃ vertex, vertices[position]? = some vertex ∧ vertex.name = name) ∧
        ∀ later vertex, position < later → vertices[later]? = some vertex →
          vertex.name ≠ name := by
  induction vertices using List.reverseRecOn with
  | nil => simp [latestNamed?]
  | append_singleton vertices last ih =>
    have atEnd : (vertices ++ [last])[vertices.length]? = some last :=
      getElem?_concat_eq_some_iff.2 (.inr ⟨rfl, rfl⟩)
    rw [latestNamed?_concat]
    by_cases same : last.name = name
    · rw [if_pos same, Option.some.injEq]
      constructor
      · rintro rfl
        refine ⟨⟨last, atEnd, same⟩, fun later other after found => ?_⟩
        -- Nothing stands behind the end of the list.
        have inside := (List.getElem?_eq_some_iff.1 found).1
        rw [List.length_append, List.length_singleton] at inside
        omega
      · rintro ⟨⟨vertex, present, -⟩, latest⟩
        rcases getElem?_concat_eq_some_iff.1 present with earlier | ⟨rfl, -⟩
        · have before := (List.getElem?_eq_some_iff.1 earlier).1
          exact absurd same (latest vertices.length last before atEnd)
        · rfl
    · rw [if_neg same, ih]
      constructor
      · rintro ⟨⟨vertex, present, named⟩, latest⟩
        refine ⟨⟨vertex, getElem?_concat_eq_some_iff.2 (.inl present), named⟩, ?_⟩
        intro later other after found
        rcases getElem?_concat_eq_some_iff.1 found with earlier | ⟨-, rfl⟩
        · exact latest later other after earlier
        · exact same
      · rintro ⟨⟨vertex, present, named⟩, latest⟩
        refine ⟨?_, fun later other after found =>
          latest later other after (getElem?_concat_eq_some_iff.2 (.inl found))⟩
        rcases getElem?_concat_eq_some_iff.1 present with earlier | ⟨-, rfl⟩
        · exact ⟨vertex, earlier, named⟩
        · exact absurd named same

theorem lt_of_latestNamed? {vertices : List Vertex} {name : String} {position : Nat}
    (named : latestNamed? vertices name = some position) : position < vertices.length := by
  obtain ⟨⟨vertex, present, -⟩, -⟩ := latestNamed?_eq_some_iff.1 named
  exact (List.getElem?_eq_some_iff.1 present).1

end Vertex

/-! ### What calls amount to -/

namespace GraphCall

/-- The vertices that calls add, in order. -/
def added : List GraphCall → List Vertex
  | [] => []
  | .addVertex vertex :: rest => vertex :: added rest
  | .addEdge .. :: rest => added rest

/-- The edge between the vertices that two names stand for, if both stand for one. -/
def edge? (vertices : List Vertex) (source target label : String) : Option Edge := do
  let source ← Vertex.latestNamed? vertices source
  let target ← Vertex.latestNamed? vertices target
  some ⟨source, target, label⟩

/-- **The edges that calls add** where the vertices `before` are there to begin with: one for
each call that finds both names, between the vertices that these names stand for at that
time. -/
def linked (before : List Vertex) : List GraphCall → List Edge
  | [] => []
  | .addVertex vertex :: rest => linked (before ++ [vertex]) rest
  | .addEdge source target label :: rest =>
    (edge? before source target label).toList ++ linked before rest

/-- **What calls give back** where the vertices `before` are there to begin with. -/
def answers (before : List Vertex) : List GraphCall → List GraphAnswer
  | [] => []
  | .addVertex vertex :: rest => .placed before.length :: answers (before ++ [vertex]) rest
  | .addEdge source target label :: rest =>
    .linked (edge? before source target label).isSome :: answers before rest

theorem edge?_isSome_iff {vertices : List Vertex} {source target label : String} :
    (edge? vertices source target label).isSome = true ↔
      (Vertex.latestNamed? vertices source).isSome = true ∧
        (Vertex.latestNamed? vertices target).isSome = true := by
  unfold edge?
  cases Vertex.latestNamed? vertices source <;>
    cases Vertex.latestNamed? vertices target <;> simp

/-- An edge is one between vertices that are there. -/
theorem ends_of_edge? {vertices : List Vertex} {source target label : String} {edge : Edge}
    (given : edge? vertices source target label = some edge) :
    edge.source < vertices.length ∧ edge.target < vertices.length := by
  obtain ⟨first, sourceNamed, rest⟩ := Option.bind_eq_some_iff.1 given
  obtain ⟨second, targetNamed, made⟩ := Option.bind_eq_some_iff.1 rest
  obtain rfl := Option.some.inj made
  exact ⟨Vertex.lt_of_latestNamed? sourceNamed, Vertex.lt_of_latestNamed? targetNamed⟩

/-- **Every edge that calls add is one between vertices that are there.** -/
theorem ends_of_mem_linked {calls : List GraphCall} {before : List Vertex} {edge : Edge}
    (mem : edge ∈ linked before calls) :
    edge.source < (before ++ added calls).length ∧
      edge.target < (before ++ added calls).length := by
  induction calls generalizing before with
  | nil => cases mem
  | cons call rest ih =>
    cases call with
    | addVertex vertex =>
      have later := ih mem
      rwa [List.append_assoc] at later
    | addEdge source target label =>
      rcases List.mem_append.1 mem with here | later
      · have ends := ends_of_edge? (Option.mem_toList.1 here)
        have grown : before.length ≤ (before ++ added rest).length := by simp
        exact ⟨Nat.lt_of_lt_of_le ends.1 grown, Nat.lt_of_lt_of_le ends.2 grown⟩
      · exact ih later

/-- **Positions are handed out in order**, without a gap. -/
theorem positions_answers (before : List Vertex) (calls : List GraphCall) :
    (answers before calls).filterMap GraphAnswer.position? =
      List.range' before.length (added calls).length := by
  induction calls generalizing before with
  | nil => rfl
  | cons call rest ih =>
    cases call with
    | addVertex vertex =>
      have later := ih (before ++ [vertex])
      rw [List.length_append, List.length_singleton] at later
      rw [added, List.length_cons, List.range'_succ, ← later]
      rfl
    | addEdge source target label => exact ih before

end GraphCall

/-! ### Graphs of vertices and edges -/

namespace Graph

/-- **The graph of a list of vertices, with a list of edges put in.** -/
def ofParts : Framework → List Vertex → List Edge → Graph
  | .attributed, vertices, edges =>
    .attributed { AttributedGraph.ofVertices vertices with edges }
  | .tabular, vertices, edges => .tabular { TabularGraph.ofVertices vertices with edges }

variable (framework : Framework) (vertices : List Vertex) (edges : List Edge)

theorem empty_eq_ofParts : empty framework = ofParts framework [] [] := by
  cases framework <;> rfl

/-- Edges are no part of what is shown of a vertex. -/
theorem attributes?_ofParts (position : Nat) :
    (ofParts framework vertices edges).attributes? position =
      (ofVertices framework vertices).attributes? position := by
  cases framework with
  | attributed =>
    rw [ofVertices_attributed]
    rfl
  | tabular =>
    rw [ofVertices_tabular]
    rfl

@[simp] theorem vertexCount_ofParts :
    (ofParts framework vertices edges).vertexCount = vertices.length := by
  cases framework with
  | attributed =>
    show (AttributedGraph.ofVertices vertices).nodes.length = vertices.length
    rw [AttributedGraph.nodes_ofVertices, List.length_map]
  | tabular =>
    show (TabularGraph.ofVertices vertices).names.length = vertices.length
    rw [TabularGraph.names_ofVertices, List.length_map]

@[simp] theorem edges_ofParts : (ofParts framework vertices edges).edges = edges := by
  cases framework <;> rfl

theorem addVertex_ofParts (vertex : Vertex) :
    (ofParts framework vertices edges).addVertex vertex =
      ofParts framework (vertices ++ [vertex]) edges := by
  cases framework with
  | attributed =>
    show _ = Graph.attributed { AttributedGraph.ofVertices (vertices ++ [vertex]) with edges }
    rw [AttributedGraph.ofVertices, List.foldl_concat]
    rfl
  | tabular =>
    show _ = Graph.tabular { TabularGraph.ofVertices (vertices ++ [vertex]) with edges }
    rw [TabularGraph.ofVertices, List.foldl_concat]
    rfl

/-- **A name stands for the last vertex under it**, on either framework. -/
theorem vertexNamed?_ofParts (name : String) :
    (ofParts framework vertices edges).vertexNamed? name =
      Vertex.latestNamed? vertices name := by
  induction vertices using List.reverseRecOn with
  | nil => cases framework <;> rfl
  | append_singleton vertices last ih =>
    rw [Vertex.latestNamed?_concat, ← addVertex_ofParts, ← ih,
      ← vertexCount_ofParts framework vertices edges]
    -- Both frameworks write the count of vertices under the name.
    cases framework <;> exact OrderedMap.get?_insert _ _ _ _

/-- **An edge that is added is the one between the vertices that its names stand for.** -/
theorem addEdge?_ofParts (source target label : String) :
    (ofParts framework vertices edges).addEdge? source target label =
      (GraphCall.edge? vertices source target label).map fun edge =>
        ofParts framework vertices (edges ++ [edge]) := by
  have named := vertexNamed?_ofParts framework vertices edges
  unfold GraphCall.edge?
  rw [← named, ← named]
  cases framework with
  | attributed =>
    simp only [ofParts, addEdge?, vertexNamed?, AttributedGraph.addEdge?]
    cases AttributedGraph.vertexNamed? _ source <;>
      cases AttributedGraph.vertexNamed? _ target <;>
      rfl
  | tabular =>
    simp only [ofParts, addEdge?, vertexNamed?, TabularGraph.addEdge?]
    cases TabularGraph.vertexNamed? _ source <;>
      cases TabularGraph.vertexNamed? _ target <;> rfl

/-- **One call on a graph of vertices and edges.** -/
theorem call_ofParts_addEdge (source target label : String) :
    (ofParts framework vertices edges).call (.addEdge source target label) =
      (.linked (GraphCall.edge? vertices source target label).isSome,
        ofParts framework vertices
          (edges ++ (GraphCall.edge? vertices source target label).toList)) := by
  rw [call, addEdge?_ofParts]
  cases GraphCall.edge? vertices source target label with
  | none => simp
  | some edge => simp

/-- **Calls on a graph of vertices and edges** make it the graph of more of both, and what
they give back does not depend on the framework. -/
theorem calls_ofParts (calls : List GraphCall) :
    (ofParts framework vertices edges).calls calls =
      (GraphCall.answers vertices calls,
        ofParts framework (vertices ++ GraphCall.added calls)
          (edges ++ GraphCall.linked vertices calls)) := by
  induction calls generalizing vertices edges with
  | nil => simp [Graph.calls, GraphCall.answers, GraphCall.added, GraphCall.linked]
  | cons first rest ih =>
    cases first with
    | addVertex vertex =>
      have next : (ofParts framework vertices edges).call (.addVertex vertex) =
          (.placed vertices.length, ofParts framework (vertices ++ [vertex]) edges) := by
        rw [call, vertexCount_ofParts, addVertex_ofParts]
      rw [Graph.calls, next, ih, List.append_assoc]
      rfl
    | addEdge source target label =>
      rw [Graph.calls, call_ofParts_addEdge, ih, List.append_assoc]
      rfl

/-- **A graph that has taken down calls.**

* Its vertices are those that the calls added, at the positions 0, 1, 2 and so on.
* Each is shown with its attributes, and in their order.
* A name stands for the last vertex that was added under it, and for none without such a
  vertex.
* Its edges are those that the calls added, in order and each as often as it was added.
* Every edge has vertices of the graph for its ends. -/
structure Records (graph : Graph) (calls : List GraphCall) : Prop where
  vertexCount : graph.vertexCount = (GraphCall.added calls).length
  vertices : graph.vertices = List.range (GraphCall.added calls).length
  attributes : ∀ position vertex, (GraphCall.added calls)[position]? = some vertex →
    graph.attributes? position = some vertex.synced
  names : ∀ name position, graph.vertexNamed? name = some position ↔
    (∃ vertex, (GraphCall.added calls)[position]? = some vertex ∧ vertex.name = name) ∧
      ∀ later vertex, position < later → (GraphCall.added calls)[later]? = some vertex →
        vertex.name ≠ name
  edges : graph.edges = GraphCall.linked [] calls
  ends : ∀ edge ∈ graph.edges, edge.source ∈ graph.vertices ∧ edge.target ∈ graph.vertices

/-- **Two graphs in step**: they have the same vertices with the same attributes, the same
names and the same edges. -/
structure InStep (a b : Graph) : Prop where
  vertexCount : a.vertexCount = b.vertexCount
  vertices : a.vertices = b.vertices
  attributes : ∀ position ∈ a.vertices, a.attributes? position = b.attributes? position
  names : ∀ name, a.vertexNamed? name = b.vertexNamed? name
  edges : a.edges = b.edges

/-- Calls on an empty graph, in closed form. -/
theorem calls_empty (framework : Framework) (calls : List GraphCall) :
    (empty framework).calls calls =
      (GraphCall.answers [] calls,
        ofParts framework (GraphCall.added calls) (GraphCall.linked [] calls)) := by
  rw [empty_eq_ofParts, calls_ofParts, List.nil_append, List.nil_append]

/-- **Either framework takes down calls.** -/
theorem records_ofParts (framework : Framework) {calls : List GraphCall}
    (fits : (GraphCall.added calls).length < UInt32.size - 1) :
    (ofParts framework (GraphCall.added calls)
      (GraphCall.linked [] calls)).Records calls where
  vertexCount := vertexCount_ofParts framework _ _
  vertices := congrArg List.range (vertexCount_ofParts framework _ _)
  attributes := by
    intro position vertex present
    rw [attributes?_ofParts]
    exact (shows_ofVertices framework fits present).attributes
  names := by
    intro name position
    rw [vertexNamed?_ofParts]
    exact Vertex.latestNamed?_eq_some_iff
  edges := edges_ofParts framework _ _
  ends := by
    intro edge mem
    rw [edges_ofParts] at mem
    have ends := GraphCall.ends_of_mem_linked mem
    rw [List.nil_append] at ends
    rw [Graph.vertices, vertexCount_ofParts, List.mem_range, List.mem_range]
    exact ends

/-- Two graphs that have taken down the same calls are in step. -/
theorem Records.inStep {a b : Graph} {calls : List GraphCall} (left : a.Records calls)
    (right : b.Records calls) : a.InStep b where
  vertexCount := left.vertexCount.trans right.vertexCount.symm
  vertices := left.vertices.trans right.vertices.symm
  attributes := by
    intro position handedOut
    rw [left.vertices, List.mem_range] at handedOut
    have present := List.getElem?_eq_getElem handedOut
    rw [left.attributes position _ present, right.attributes position _ present]
  names := by
    intro name
    refine Option.ext fun position => ?_
    rw [left.names, right.names]
  edges := left.edges.trans right.edges.symm

end Graph

/-- **Graphs of both frameworks simulate each other.**  Any sequence of calls may be made on
an empty graph of each, so what is said here is said after every step on the way.

* Both give the same answers: the same positions, 0, 1, 2 and so on for the vertices in the
  order in which they are added, and the same edges are refused.
* The two graphs are in step.
* Either has taken down the calls (`Graph.Records`).
* An edge between two names is added if both stand for a vertex; if it is not added, the graph
  is what it was. -/
theorem frameworks_simulate (calls : List GraphCall)
    (fits : (GraphCall.added calls).length < UInt32.size - 1) :
    let attributed := (Graph.empty .attributed).calls calls
    let tabular := (Graph.empty .tabular).calls calls
    attributed.1 = tabular.1 ∧ attributed.2.InStep tabular.2 ∧
    ∀ framework,
      let answers := ((Graph.empty framework).calls calls).1
      let graph := ((Graph.empty framework).calls calls).2
      answers = GraphCall.answers [] calls ∧
      answers.filterMap GraphAnswer.position? = List.range (GraphCall.added calls).length ∧
      graph.Records calls ∧
      ∀ source target label,
        let next := graph.call (.addEdge source target label)
        (next.1 = .linked true ↔ (graph.vertexNamed? source).isSome = true ∧
          (graph.vertexNamed? target).isSome = true) ∧
        (next.1 ≠ .linked true → next.1 = .linked false ∧ next.2 = graph) := by
  intro attributed tabular
  have closed (framework : Framework) := Graph.calls_empty framework calls
  have recorded (framework : Framework) :
      ((Graph.empty framework).calls calls).2.Records calls := by
    rw [closed]
    exact Graph.records_ofParts framework fits
  refine ⟨?_, (recorded .attributed).inStep (recorded .tabular), fun framework => ?_⟩
  · show ((Graph.empty .attributed).calls calls).1 = ((Graph.empty .tabular).calls calls).1
    rw [closed, closed]
  · intro answers graph
    have positions := GraphCall.positions_answers [] calls
    rw [List.length_nil, ← List.range_eq_range'] at positions
    have given : answers = GraphCall.answers [] calls := congrArg Prod.fst (closed framework)
    have held : graph = _ := congrArg Prod.snd (closed framework)
    refine ⟨given, given ▸ positions, recorded framework, fun source target label => ?_⟩
    intro next
    have made : next = _ := congrArg (Graph.call · (.addEdge source target label)) held
    rw [Graph.call_ofParts_addEdge] at made
    rw [made, held, Graph.vertexNamed?_ofParts, Graph.vertexNamed?_ofParts,
      ← GraphCall.edge?_isSome_iff]
    cases GraphCall.edge? (GraphCall.added calls) source target label <;> simp

/-- Three vertices, two of them under one name, with edges before and after the name is given
away and one to a name that stands for nothing. -/
def rebindingCalls : List GraphCall := [
  .addVertex ⟨"web", "resource", some "Pod", OrderedMap.ofList [("note", .null)]⟩,
  .addVertex ⟨"db", "resource", none, OrderedMap.ofList [("resource_type", .str "Pod")]⟩,
  .addEdge "web" "db" "reads",
  .addVertex ⟨"web", "module", none, ∅⟩,
  .addEdge "web" "db" "reads",
  .addEdge "web" "db" "reads",
  .addEdge "web" "lost" "reads"]

/-- The first edge keeps its end, and the later ones, of which there are two, begin at the
vertex that took the name over. -/
theorem rebindingCalls_recorded :
    (GraphCall.added rebindingCalls).length < UInt32.size - 1 ∧
      ∀ framework,
        let answers := ((Graph.empty framework).calls rebindingCalls).1
        let graph := ((Graph.empty framework).calls rebindingCalls).2
        answers = [.placed 0, .placed 1, .linked true, .placed 2, .linked true, .linked true,
          .linked false] ∧
        graph.edges = [⟨0, 1, "reads"⟩, ⟨2, 1, "reads"⟩, ⟨2, 1, "reads"⟩] ∧
        graph.vertices = [0, 1, 2] ∧ graph.vertexNamed? "web" = some 2 := by
  have fits : (GraphCall.added rebindingCalls).length < UInt32.size - 1 := by decide
  refine ⟨fits, fun framework => ?_⟩
  obtain ⟨given, -, recorded, -⟩ := (frameworks_simulate rebindingCalls fits).2.2 framework
  refine ⟨given.trans (by decide +kernel), recorded.edges.trans (by decide +kernel),
    recorded.vertices.trans (by decide +kernel), ?_⟩
  rw [recorded.names]
  refine ⟨⟨_, rfl, rfl⟩, fun later vertex after present => ?_⟩
  have inside : later < 3 := (List.getElem?_eq_some_iff.1 present).1
  omega

end InfraScan
