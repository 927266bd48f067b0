import InfraScan.Image.PodSpec

/-!
# Surveys of images

A survey asks the providers that have something to read in a graph, and reports each image
once, in the order in which it was first seen.

* `Platform` — a platform with an image provider
* `Platform.applies` — whether a vertex is one for the provider of a platform
* `firstOccurrences` — a list without repetitions
* `Survey.platforms` — the platforms found in a graph
* `Survey.run` — the images of a graph, and the events
-/

namespace InfraScan

/-- A platform with an image provider. -/
inductive Platform where
  | kubernetes
  deriving Repr, DecidableEq

namespace Platform

/-- The word for a platform. -/
def word : Platform → String
  | .kubernetes => "kubernetes"

/-- The platform's provider knows how to read resources of a type. -/
def supports : Platform → String → Bool
  | .kubernetes => PodSpec.supports

/-- The vertex holds a resource of a type that the platform's provider knows. -/
def applies (platform : Platform) (graph : Graph) (vertex : Nat) : Bool :=
  graph.blockType? vertex = some resourceBlock &&
    (graph.resourceType? vertex).any platform.supports

/-- The images that the platform's provider finds in a graph. -/
def images : Platform → Graph → Extraction
  | .kubernetes => PodSpec.allImages

end Platform

/-- The elements of a list, each where it occurs first. -/
def firstOccurrences [DecidableEq α] : List α → List α
  | [] => []
  | a :: rest => a :: (firstOccurrences rest).filter (· ≠ a)

namespace Survey

/-- The platforms of all providers there are. -/
def allPlatforms : List Platform := [.kubernetes]

/-- **The platforms found in a graph**: those of providers that read at least one vertex. -/
def platforms (providers : List Platform) (graph : Graph) : List Platform :=
  providers.filter fun platform => graph.vertices.any (platform.applies graph)

/-- What one provider finds, with the event that says how much it was. -/
def provider (graph : Graph) (platform : Platform) : Extraction :=
  let found := platform.images graph
  ⟨found.images, found.events ++ [.imagesExtracted platform.word found.images.length]⟩

/-- **The images of a graph**, each once, and the events. -/
def run (providers : List Platform) (graph : Graph) : Extraction :=
  let found := Extraction.concat ((platforms providers graph).map (provider graph))
  ⟨firstOccurrences found.images, found.events⟩

end Survey

example : firstOccurrences [3, 1, 3, 2, 1] = [3, 1, 2] := by decide

end InfraScan
