import InfraScan.Directive
import InfraScan.Json.Basic

/-!
# Block contexts

What is computed for one block of a configuration file: where it stands, what is written
there, and which checks its comments take off.

* `BlockEntry` — the context of a block
* `BlockContext` — a context with the id of its block
* `BlockEntry.toJson` — the context as a value
-/

namespace InfraScan

/-- **The context of a block**: its line range, the numbered lines of the range, and the
checks taken off in them. -/
structure BlockEntry where
  startLine : Nat
  endLine : Nat
  codeLines : List (Nat × String)
  skippedChecks : List SkippedCheck
  deriving Repr, DecidableEq

/-- A context with the id of its block. -/
structure BlockContext where
  id : String
  entry : BlockEntry
  deriving Repr, DecidableEq

/-- A check taken off, as a value. -/
def SkippedCheck.toJson (check : SkippedCheck) : Json :=
  .obj [("id", .str check.id), ("suppress_comment", (check.comment.map Json.str).getD .null)]

/-- A context as a value. -/
def BlockEntry.toJson (entry : BlockEntry) : Json :=
  .obj [
    ("start_line", .ofNat entry.startLine),
    ("end_line", .ofNat entry.endLine),
    ("code_lines", .arr (entry.codeLines.map fun line => .arr [.ofNat line.1, .str line.2])),
    ("skipped_checks", .arr (entry.skippedChecks.map SkippedCheck.toJson))]

end InfraScan
