import InfraScan.Graph.Vertex

/-!
# Graphs of attribute maps

A directed multigraph whose nodes are whole attribute maps.  Node numbers are words of 32
bits: a larger number is cut down to its low 32 bits before it is looked up.

* `Edge` — a labelled edge between two positions
* `AttributedGraph` — the graph
-/

namespace InfraScan

/-- A labelled edge between two vertices, by position. -/
structure Edge where
  source : Nat
  target : Nat
  label : String
  deriving Repr, DecidableEq

/-- **A multigraph of attribute maps.**  A name belongs to the last vertex that was added
under it. -/
structure AttributedGraph where
  nodes : List Attributes
  names : OrderedMap String Nat
  edges : List Edge

namespace AttributedGraph

/-- The graph without vertices. -/
def empty : AttributedGraph := ⟨[], ∅, []⟩

/-- The number of vertices. -/
def vertexCount (graph : AttributedGraph) : Nat := graph.nodes.length

/-- Add a vertex; its position is the number of vertices before. -/
def addVertex (graph : AttributedGraph) (vertex : Vertex) : AttributedGraph :=
  { graph with
    nodes := graph.nodes ++ [vertex.synced]
    names := graph.names.insert vertex.name graph.nodes.length }

/-- The position that a name stands for. -/
def vertexNamed? (graph : AttributedGraph) (name : String) : Option Nat :=
  graph.names.get? name

/-- Add an edge between two names; none when a name is unknown.  Parallel edges are kept. -/
def addEdge? (graph : AttributedGraph) (source target label : String) :
    Option AttributedGraph := do
  let source ← graph.vertexNamed? source
  let target ← graph.vertexNamed? target
  some { graph with edges := graph.edges ++ [⟨source, target, label⟩] }

/-- The node number that a vertex number comes to. -/
def nodeNumber (vertex : Nat) : Nat := vertex % UInt32.size

/-- The attributes of a vertex. -/
def attributes? (graph : AttributedGraph) (vertex : Nat) : Option Attributes :=
  graph.nodes[nodeNumber vertex]?

/-- One attribute of a vertex. -/
def attribute? (graph : AttributedGraph) (vertex : Nat) (name : String) : Option Json :=
  (graph.attributes? vertex).bind (·.get? name)

end AttributedGraph

end InfraScan
