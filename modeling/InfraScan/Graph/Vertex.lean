import InfraScan.Json.Basic

/-!
# Vertices

A vertex is one resource with its attributes: the raw body, and reserved attributes that say
where the body comes from and what it is.

* `Framework` — the two ways of holding vertices
* `Vertex` — a vertex before it is added to a graph
* `Vertex.synced` — the attributes that a graph shows for it
-/

namespace InfraScan

/-- The two ways of holding vertices: whole attribute maps, or columns. -/
inductive Framework where
  | attributed
  | tabular
  deriving Repr, DecidableEq, Inhabited

/-- The word for a framework. -/
def Framework.word : Framework → String
  | .attributed => "attributed"
  | .tabular => "tabular"

/-- The attributes of a vertex, in order. -/
abbrev Attributes := OrderedMap String Json

namespace Attribute

/-- The attribute that holds the kind of block. -/
def blockType : String := "block_type_"

/-- The attribute that holds the type of resource. -/
def resourceType : String := "resource_type"

/-- The attribute that holds the path of the file. -/
def filePath : String := "file_path_"

/-- The attribute that holds the first line. -/
def startLine : String := "__startline__"

/-- The attribute that holds the last line. -/
def endLine : String := "__endline__"

end Attribute

/-- The kind of block that images are looked for in. -/
def resourceBlock : String := "resource"

/-- **A vertex before it is added to a graph.** -/
structure Vertex where
  name : String
  blockType : String
  resourceType : Option String
  attributes : Attributes

namespace Vertex

/-- A resource whose type is the one its attributes name, if they name one. -/
def resource (name : String) (attributes : Attributes) : Vertex :=
  ⟨name, resourceBlock, (attributes.get? Attribute.resourceType).bind Json.str?, attributes⟩

/-- **The attributes that a graph shows for a vertex.**  The vertex's own kind and type win
over what the raw attributes say; a type that the vertex does not have is removed by moving
the last attribute into its place. -/
def synced (vertex : Vertex) : Attributes :=
  let typed := vertex.attributes.insert Attribute.blockType (.str vertex.blockType)
  match vertex.resourceType with
  | some type => typed.insert Attribute.resourceType (.str type)
  | none => typed.swapErase Attribute.resourceType

end Vertex

end InfraScan
