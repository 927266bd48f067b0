import InfraScan.Fault

/-!
# Events

What an operation has to report besides its result.  Operations return their events in the
order in which they happen; nothing here prints.

* `Event` — one thing worth reporting
* `Event.level`, `Event.message`, `Event.fields` — its parts as they are shown
* `Event.origin` — the part of the program that reports it
-/

namespace InfraScan

/-- How important an event is. -/
inductive Level where
  | warn
  | debug
  deriving Repr, DecidableEq

/-- The word for a level. -/
def Level.word : Level → String
  | .warn => "WARN"
  | .debug => "DEBUG"

/-- **One thing worth reporting.**  `file` is always the rendered key of the file
concerned. -/
inductive Event where
  | blockSkipped (file : String) (block : MalformedBlock)
  | sourceUnavailable (file : String) (cause : Fault)
  | categoryUnregistered (file category : String)
  | categoryEnriched (file category : String) (blocks : Nat)
  | categoryFailed (file category : String) (cause : Fault)
  | enrichmentFailed (cause : Fault)
  | locationMissing (resourceType : String)
  | podSpecMissing (file resourceType : String)
  | imagesExtracted (platform : String) (found : Nat)
  | manifestLoaded (file : String) (documents : Nat)
  | manifestSkipped (file : String) (cause : Fault)
  deriving Repr, DecidableEq

namespace Event

/-- What went wrong is a warning, what went well is only for debugging. -/
def level : Event → Level
  | .blockSkipped .. | .sourceUnavailable .. | .categoryFailed .. | .enrichmentFailed ..
  | .locationMissing .. | .manifestSkipped .. => .warn
  | .categoryUnregistered .. | .categoryEnriched .. | .podSpecMissing .. | .imagesExtracted ..
  | .manifestLoaded .. => .debug

/-- The wording of an event. -/
def message : Event → String
  | .blockSkipped _ block => "Skipping block: " ++ block.message
  | .sourceUnavailable _ cause =>
    "Source text unavailable, emitting line ranges only: " ++ cause.message
  | .categoryUnregistered .. => "No context parser registered, skipping"
  | .categoryEnriched .. => "Enriched category"
  | .categoryFailed _ _ cause => "Failed to enrich category: " ++ cause.message
  | .enrichmentFailed cause => cause.message
  | .locationMissing _ => "Skipping resource without file path or line markers"
  | .podSpecMissing .. => "No pod spec found"
  | .imagesExtracted .. => "Extracted images"
  | .manifestLoaded .. => "Loaded manifest"
  | .manifestSkipped file cause => "Skipping " ++ file ++ ": " ++ cause.message

/-- The named details of an event. -/
def fields : Event → List (String × String)
  | .blockSkipped file _ => [("file", file)]
  | .sourceUnavailable file _ => [("file", file)]
  | .categoryUnregistered file category => [("file", file), ("category", category)]
  | .categoryEnriched file category blocks =>
    [("file", file), ("category", category), ("blocks", toString blocks)]
  | .categoryFailed file category _ => [("file", file), ("category", category)]
  | .enrichmentFailed _ => []
  | .locationMissing resourceType => [("resource_type", resourceType)]
  | .podSpecMissing file resourceType => [("file", file), ("resource_type", resourceType)]
  | .imagesExtracted platform found => [("platform", platform), ("found", toString found)]
  | .manifestLoaded file documents => [("file", file), ("documents", toString documents)]
  | .manifestSkipped .. => []

/-- The part of the program that reports an event, by the name shown in log lines. -/
def origin : Event → String
  | .blockSkipped .. | .sourceUnavailable .. => "resgraph_core::context::parser"
  | .categoryUnregistered .. | .categoryEnriched .. | .categoryFailed .. =>
    "resgraph_core::context::registry"
  | .locationMissing .. | .podSpecMissing .. => "resgraph_core::images::kubernetes"
  | .imagesExtracted .. => "resgraph_core::images::manager"
  | .enrichmentFailed .. | .manifestLoaded .. | .manifestSkipped .. => "resgraph"

end Event

end InfraScan
