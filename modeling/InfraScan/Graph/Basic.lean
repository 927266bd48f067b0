import InfraScan.Graph.Tabular

/-!
# Graphs

A graph of either framework behind one set of operations.  Everything that reads vertices goes
through these operations and does not see which framework holds them.

* `Graph` — a graph of either framework
* `Graph.ofVertices` — the graph of a list of vertices
* `Graph.attribute?`, `Graph.attributes?` — reading a vertex
* `Graph.blockType?`, `Graph.resourceType?` — what a vertex is
-/

namespace InfraScan

/-- **A graph of either framework.** -/
inductive Graph where
  | attributed (graph : AttributedGraph)
  | tabular (graph : TabularGraph)

namespace Graph

/-- The graph without vertices. -/
def empty : Framework → Graph
  | .attributed => .attributed .empty
  | .tabular => .tabular .empty

/-- The framework of a graph. -/
def framework : Graph → Framework
  | .attributed _ => .attributed
  | .tabular _ => .tabular

/-- The number of vertices. -/
def vertexCount : Graph → Nat
  | .attributed graph => graph.vertexCount
  | .tabular graph => graph.vertexCount

/-- The positions of the vertices. -/
def vertices (graph : Graph) : List Nat := List.range graph.vertexCount

/-- Add a vertex; its position is the number of vertices before. -/
def addVertex : Graph → Vertex → Graph
  | .attributed graph, vertex => .attributed (graph.addVertex vertex)
  | .tabular graph, vertex => .tabular (graph.addVertex vertex)

/-- The graph of a list of vertices. -/
def ofVertices (framework : Framework) (vertices : List Vertex) : Graph :=
  vertices.foldl addVertex (empty framework)

/-- Add an edge between two names; none when a name is unknown. -/
def addEdge? : Graph → (source target label : String) → Option Graph
  | .attributed graph, source, target, label =>
    (graph.addEdge? source target label).map .attributed
  | .tabular graph, source, target, label => (graph.addEdge? source target label).map .tabular

/-- The edges in the order in which they were added. -/
def edges : Graph → List Edge
  | .attributed graph => graph.edges
  | .tabular graph => graph.edges

/-- The position that a name stands for. -/
def vertexNamed? : Graph → String → Option Nat
  | .attributed graph, name => graph.vertexNamed? name
  | .tabular graph, name => graph.vertexNamed? name

/-- The attributes of a vertex. -/
def attributes? : Graph → Nat → Option Attributes
  | .attributed graph, vertex => graph.attributes? vertex
  | .tabular graph, vertex => graph.attributes? vertex

/-- One attribute of a vertex. -/
def attribute? : Graph → Nat → String → Option Json
  | .attributed graph, vertex, name => graph.attribute? vertex name
  | .tabular graph, vertex, name => graph.attribute? vertex name

/-- One attribute of a vertex, or a default. -/
def attributeOr (graph : Graph) (vertex : Nat) (name : String) (default : Json) : Json :=
  (graph.attribute? vertex name).getD default

/-- The kind of block that a vertex is. -/
def blockType? (graph : Graph) (vertex : Nat) : Option String :=
  (graph.attribute? vertex Attribute.blockType).bind Json.str?

/-- The type of resource that a vertex is. -/
def resourceType? (graph : Graph) (vertex : Nat) : Option String :=
  (graph.attribute? vertex Attribute.resourceType).bind Json.str?

@[simp] theorem framework_addVertex (graph : Graph) (vertex : Vertex) :
    (graph.addVertex vertex).framework = graph.framework := by
  cases graph <;> rfl

@[simp] theorem vertexCount_empty (framework : Framework) :
    (empty framework).vertexCount = 0 := by
  cases framework <;> rfl

@[simp] theorem vertexCount_addVertex (graph : Graph) (vertex : Vertex) :
    (graph.addVertex vertex).vertexCount = graph.vertexCount + 1 := by
  cases graph <;>
    simp [addVertex, vertexCount, AttributedGraph.addVertex, AttributedGraph.vertexCount,
      TabularGraph.addVertex, TabularGraph.vertexCount]

end Graph

end InfraScan
