import InfraScan.Fault
import InfraScan.Graph.Basic
import InfraScan.Manifest.Cut

/-!
# Manifests

A manifest document is one resource: a mapping that names its kind.  A document of the kind
`List` stands for the resources among its items, and a document without a kind for none.  How
a document is written is a parameter here: a reader takes a text to a value, or says what is
wrong with it.

* `ManifestDocument` — a resource with the place of the document that holds it
* `Manifest.resources` — the resources that a value stands for
* `Manifest.parse` — the resources of a file's text
* `Manifest.load` — the resources of a file
* `ManifestDocument.toVertex`, `Manifest.graph` — resources as vertices of a graph
-/

namespace InfraScan

/-- **A resource with the place of the document that holds it.** -/
structure ManifestDocument where
  filePath : String
  kind : String
  startLine : Nat
  endLine : Nat
  body : Attributes

namespace ManifestDocument

/-- A text in the metadata of a resource. -/
def metadata? (document : ManifestDocument) (name : String) : Option String :=
  ((document.body.get? "metadata").bind (·.get? name)).bind Json.str?

/-- The namespace of a resource that names none. -/
def defaultNamespace : String := "default"

/-- **The name of a resource's vertex**: kind, namespace and name.  A resource without a name
goes by its position. -/
def vertexName (document : ManifestDocument) (index : Nat) : String :=
  document.kind ++ "." ++ (document.metadata? "namespace").getD defaultNamespace ++ "." ++
    (document.metadata? "name").getD ("#" ++ toString index)

/-- **A resource as a vertex.**  Its attributes are its body, over which place and kind are
written. -/
def toVertex (document : ManifestDocument) (index : Nat) : Vertex :=
  .resource (document.vertexName index) (document.body.insertAll [
    (Attribute.filePath, .str document.filePath),
    (Attribute.startLine, .ofNat document.startLine),
    (Attribute.endLine, .ofNat document.endLine),
    (Attribute.resourceType, .str document.kind)])

end ManifestDocument

namespace Manifest

/-- The kind of a document that stands for its items. -/
def listKind : String := "List"

/-- The kind that a mapping names. -/
def kind? (body : Attributes) : Option String := (body.get? "kind").bind Json.str?

/-- The mapping that a value is. -/
def body? (value : Json) : Option Attributes := value.fields?.map OrderedMap.ofList

/-- The mappings that a document of some kind stands for. -/
def bodies (kind : String) (body : Attributes) : List Attributes :=
  if kind = listKind then
    (((body.get? "items").bind Json.items?).getD []).filterMap body?
  else [body]

/-- **The resources that a value stands for**, each with its kind. -/
def resources (value : Json) : List (String × Attributes) :=
  match body? value with
  | none => []
  | some body =>
    match kind? body with
    | none => []
    | some kind => (bodies kind body).filterMap fun item => (kind? item).map (·, item)

/-- The resources of one part of a file.  A part without content is not read. -/
def parsePart (reader : String → Except String Json) (filePath : String) (part : Part) :
    Except Fault (List ManifestDocument) :=
  match part.range? with
  | none => .ok []
  | some (startLine, endLine) =>
    match reader part.text with
    | .error message => .error (@Fault.manifest filePath startLine message)
    | .ok value =>
      .ok ((resources value).map fun found =>
        ⟨filePath, found.1, startLine, endLine, found.2⟩)

/-- The resources of several parts, in order.  The first part that cannot be read is the
fault. -/
def parseParts (reader : String → Except String Json) (filePath : String) :
    List Part → Except Fault (List ManifestDocument)
  | [] => .ok []
  | part :: rest =>
    match parsePart reader filePath part with
    | .error fault => .error fault
    | .ok documents => (parseParts reader filePath rest).map (documents ++ ·)

/-- **The resources of a file's text.** -/
def parse (reader : String → Except String Json) (text filePath : String) :
    Except Fault (List ManifestDocument) :=
  parseParts reader filePath (cut text.toList)

/-- The resources of a file. -/
def load (reader : String → Except String Json) (read : TextReader) (path : String) :
    Except Fault (List ManifestDocument) :=
  match read path with
  | .error cause => .error (.sourceRead path cause)
  | .ok text => parse reader text path

/-- The vertices of resources, each with its position. -/
def vertices (documents : List ManifestDocument) : List Vertex :=
  documents.zipIdx.map fun document => document.1.toVertex document.2

/-- **The graph of resources.** -/
def graph (framework : Framework) (documents : List ManifestDocument) : Graph :=
  .ofVertices framework (vertices documents)

end Manifest

end InfraScan
