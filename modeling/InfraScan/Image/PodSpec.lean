import InfraScan.Event
import InfraScan.Graph.Basic
import InfraScan.Text.Blank

/-!
# Container images of workloads

A workload resource holds a pod specification at a place that depends on its type; the
containers of the specification name images.

* `Image` — an image with the place of the resource that names it
* `PodSpec.path?` — where a resource type keeps its pod specification
* `PodSpec.containerFields` — the lists of containers, in the order in which they are reported
* `PodSpec.imagesOf` — the images of one vertex
* `PodSpec.readVertices` — the vertices that are read in a graph
* `PodSpec.allImages` — the images of all resource vertices of a graph
-/

namespace InfraScan

/-- **An image with the place of the resource that names it.**  Two references to one image
from the same resource are equal. -/
structure Image where
  filePath : String
  name : String
  startLine : Nat
  endLine : Nat
  relatedResourceId : String
  deriving Repr, DecidableEq

/-- An image as a value. -/
def Image.toJson (image : Image) : Json :=
  .obj [
    ("file_path", .str image.filePath),
    ("name", .str image.name),
    ("start_line", .ofNat image.startLine),
    ("end_line", .ofNat image.endLine),
    ("related_resource_id", .str image.relatedResourceId)]

/-- The images found, and the events on the way. -/
structure Extraction where
  images : List Image
  events : List Event
  deriving Repr, DecidableEq

namespace Extraction

/-- Nothing found and nothing reported. -/
def none : Extraction := ⟨[], []⟩

/-- One extraction after another. -/
def append (a b : Extraction) : Extraction := ⟨a.images ++ b.images, a.events ++ b.events⟩

instance : Append Extraction := ⟨append⟩

/-- The extractions of several vertices, one after another. -/
def concat (parts : List Extraction) : Extraction :=
  ⟨parts.flatMap Extraction.images, parts.flatMap Extraction.events⟩

end Extraction

namespace PodSpec

/-- The resource types that have a pod specification. -/
def supportedTypes : List String :=
  ["Pod", "Deployment", "DaemonSet", "StatefulSet", "ReplicaSet",
    "ReplicationController", "Job", "CronJob", "PodTemplate"]

/-- **Where a resource type keeps its pod specification.** -/
def path? (resourceType : String) : Option (List String) :=
  if resourceType = "Pod" then some ["spec"]
  else if resourceType = "PodTemplate" then some ["template", "spec"]
  else if resourceType = "CronJob" then
    some ["spec", "jobTemplate", "spec", "template", "spec"]
  else if resourceType ∈ ["Deployment", "DaemonSet", "StatefulSet", "ReplicaSet",
      "ReplicationController", "Job"] then
    some ["spec", "template", "spec"]
  else none

/-- The lists of containers of a pod specification, in the order in which they are
reported. -/
def containerFields : List String := ["initContainers", "containers", "ephemeralContainers"]

/-- The name that stands for a resource without a name. -/
def nameless : String := "None"

/-- The value at the end of a path of members. -/
def follow : Json → List String → Option Json
  | value, [] => some value
  | value, name :: rest => (value.get? name).bind (follow · rest)

/-- The value at the end of a path of members that starts in an attribute map. -/
def lookup? (attributes : Attributes) : List String → Option Json
  | [] => none
  | name :: rest => (attributes.get? name).bind (follow · rest)

/-- The name of a resource: its attribute `name`, or the one in its metadata when that
attribute is no text.  An empty text is no name. -/
def resourceName? (attributes : Attributes) : Option String :=
  let own := (attributes.get? "name").bind Json.str?
  let inMetadata := ((attributes.get? "metadata").bind (·.get? "name")).bind Json.str?
  (own.or inMetadata).filter fun name => !name.isEmpty

/-- A line marker of a vertex. -/
def marker? (graph : Graph) (vertex : Nat) (name : String) : Option Nat :=
  (graph.attribute? vertex name).bind Json.nat?

/-- The image that a container names: a text that is not blank, trimmed. -/
def imageName? (container : Json) : Option String :=
  ((container.get? "image").bind Json.str?).bind fun text =>
    let name := Text.trimmed text
    if name.isEmpty then none else some name

/-- The images that the containers of a pod specification name, in order. -/
def imageNames (spec : Json) : List String :=
  containerFields.flatMap fun field =>
    (((spec.get? field).bind Json.items?).getD []).filterMap imageName?

/-- The place of a resource: its file and its line range. -/
def location? (graph : Graph) (vertex : Nat) : Option (String × Nat × Nat) := do
  let filePath ← (graph.attribute? vertex Attribute.filePath).bind Json.str?
  let startLine ← marker? graph vertex Attribute.startLine
  let endLine ← marker? graph vertex Attribute.endLine
  some (filePath, startLine, endLine)

/-- The id of the resource that an image belongs to. -/
def resourceId (filePath : String) (attributes : Attributes) : String :=
  filePath ++ ":" ++ (resourceName? attributes).getD nameless

/-- **The images of one vertex.**  A vertex of another type has none; a workload without a
place or without a pod specification has none and is reported. -/
def imagesOf (graph : Graph) (vertex : Nat) : Extraction :=
  match graph.resourceType? vertex with
  | none => .none
  | some resourceType =>
    match path? resourceType, graph.attributes? vertex with
    | some path, some attributes =>
      match location? graph vertex with
      | none => ⟨[], [.locationMissing resourceType]⟩
      | some (filePath, startLine, endLine) =>
        match lookup? attributes path with
        | none => ⟨[], [.podSpecMissing filePath resourceType]⟩
        | some spec =>
          let id := resourceId filePath attributes
          ⟨(imageNames spec).map fun name => ⟨filePath, name, startLine, endLine, id⟩, []⟩
    | _, _ => .none

/-- A resource type has a pod specification. -/
def supports (resourceType : String) : Bool := supportedTypes.contains resourceType

/-- The vertices that are read: the resources, and of these the ones of a supported type. -/
def readVertices (graph : Graph) : List Nat :=
  (graph.vertices.filter fun vertex => graph.blockType? vertex = some resourceBlock).filter
    fun vertex => (graph.resourceType? vertex).any supports

/-- **The images of all resource vertices of a graph**, in vertex order. -/
def allImages (graph : Graph) : Extraction :=
  .concat ((readVertices graph).map (imagesOf graph))

end PodSpec

end InfraScan
