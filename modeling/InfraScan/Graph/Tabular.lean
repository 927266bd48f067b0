import InfraScan.Graph.Attributed

/-!
# Graphs of columns

A table of vertices: names, kinds and types of resource have columns of their own, and
everything else is read from the attribute map in the last column.  The map carries the kind
and the type as well, so that the whole map of a vertex is the same on both kinds of graph.

* `TabularGraph` — the graph
-/

namespace InfraScan

/-- **A table of vertices** with a list of edges. -/
structure TabularGraph where
  names : List String
  blockTypes : List Json
  resourceTypes : List Json
  attributes : List Attributes
  positions : OrderedMap String Nat
  edges : List Edge

namespace TabularGraph

/-- The graph without vertices. -/
def empty : TabularGraph := ⟨[], [], [], [], ∅, []⟩

/-- The number of vertices. -/
def vertexCount (graph : TabularGraph) : Nat := graph.names.length

/-- Add a vertex; its position is the number of vertices before. -/
def addVertex (graph : TabularGraph) (vertex : Vertex) : TabularGraph :=
  { graph with
    names := graph.names ++ [vertex.name]
    blockTypes := graph.blockTypes ++ [.str vertex.blockType]
    resourceTypes := graph.resourceTypes ++ [(vertex.resourceType.map Json.str).getD .null]
    attributes := graph.attributes ++ [vertex.synced]
    positions := graph.positions.insert vertex.name graph.names.length }

/-- The position that a name stands for. -/
def vertexNamed? (graph : TabularGraph) (name : String) : Option Nat :=
  graph.positions.get? name

/-- The name of a vertex. -/
def vertexName? (graph : TabularGraph) (vertex : Nat) : Option String := graph.names[vertex]?

/-- Add an edge between two names; none when a name is unknown.  Parallel edges are kept. -/
def addEdge? (graph : TabularGraph) (source target label : String) : Option TabularGraph := do
  let source ← graph.vertexNamed? source
  let target ← graph.vertexNamed? target
  some { graph with edges := graph.edges ++ [⟨source, target, label⟩] }

/-- The attributes of a vertex. -/
def attributes? (graph : TabularGraph) (vertex : Nat) : Option Attributes :=
  graph.attributes[vertex]?

/-- One attribute of a vertex.  Kind and type come from their columns, and null counts as
absent. -/
def attribute? (graph : TabularGraph) (vertex : Nat) (name : String) : Option Json :=
  let value :=
    if name = Attribute.blockType then graph.blockTypes[vertex]?
    else if name = Attribute.resourceType then graph.resourceTypes[vertex]?
    else (graph.attributes[vertex]?).bind (·.get? name)
  value.filter fun json => !json.isNull

end TabularGraph

end InfraScan
