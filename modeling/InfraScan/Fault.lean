/-!
# Faults

Everything that can go wrong, as causes.  The wording of a cause is in one function,
`message`, so that no rule of the library depends on a text.

* `ReadFault` — why a file gives no text
* `SettingsFault` — why settings are refused
* `BlockDefect`, `MalformedBlock` — why a raw block has no context
* `DumpFault` — why a text is no definitions dump
* `Fault` — a failed operation
-/

namespace InfraScan

/-- Why a file gives no text. -/
inductive ReadFault where
  | notFound
  | isDirectory
  | notADirectory
  | notText
  deriving Repr, DecidableEq

/-- The wording of a read fault. -/
def ReadFault.message : ReadFault → String
  | .notFound => "No such file or directory (os error 2)"
  | .isDirectory => "Is a directory (os error 21)"
  | .notADirectory => "Not a directory (os error 20)"
  | .notText => "stream did not contain valid UTF-8"

/-- What a file gives at one moment: its text, or the reason why there is none. -/
abbrev TextReader := String → Except ReadFault String

/-- Why settings are refused. -/
inductive SettingsFault where
  | unknownFramework (word : String)
  | invalidBoolean (word name : String)
  | blankMark
  | noMarks
  | unreadable (path : String) (cause : ReadFault)
  | notSettings (message : String)
  | inFile (path : String) (cause : SettingsFault)
  | stated (text : String)
  deriving Repr, DecidableEq

/-- The words put before every settings fault. -/
def SettingsFault.lead : String := "Invalid configuration: "

/-- The wording of a settings fault, without its lead. -/
def SettingsFault.detail : SettingsFault → String
  | .unknownFramework word =>
    "unknown graph framework '" ++ word ++ "' (expected 'attributed' or 'tabular')"
  | .invalidBoolean word name => "invalid boolean '" ++ word ++ "' for " ++ name
  | .blankMark => "skip_directive_prefixes must not contain empty prefixes"
  | .noMarks => "at least one skip directive prefix is required"
  | .unreadable path cause => "failed to read '" ++ path ++ "': " ++ cause.message
  | .notSettings message => message
  | .inFile path cause => "in '" ++ path ++ "': " ++ lead ++ cause.detail
  | .stated text => text

/-- The fault is that a text could not be read as settings at all. -/
def SettingsFault.isSyntax : SettingsFault → Bool
  | .notSettings _ => true
  | .inFile _ cause => cause.isSyntax
  | _ => false

/-- What is wrong with a raw block, or with one entry of it. -/
inductive BlockDefect where
  | notMapping
  | entryNotMapping (entry : String)
  | noMarker (id marker : String)
  | backwards (id : String) (startLine endLine : Nat)
  | stated (reason : String)
  deriving Repr, DecidableEq

/-- The wording of a defect. -/
def BlockDefect.message : BlockDefect → String
  | .notMapping => "block is not a mapping"
  | .entryNotMapping entry => "'" ++ entry ++ "' is not a mapping"
  | .noMarker id marker => "'" ++ id ++ "' has no " ++ marker ++ " marker"
  | .backwards id startLine endLine =>
    "'" ++ id ++ "' ends (" ++ toString endLine ++ ") before it starts (" ++
      toString startLine ++ ")"
  | .stated reason => reason

/-- A defect with the place of the raw block: its category and its position in the list. -/
structure MalformedBlock where
  category : String
  index : Nat
  defect : BlockDefect
  deriving Repr, DecidableEq

/-- The wording of a malformed block. -/
def MalformedBlock.message (block : MalformedBlock) : String :=
  "Malformed block #" ++ toString block.index ++ " in category '" ++
    block.category ++ "': " ++ block.defect.message

/-- Why a text is no definitions dump. -/
inductive DumpFault where
  | notJson
  | wrongShape
  deriving Repr, DecidableEq

/-- The wording of a dump fault. -/
def DumpFault.message : DumpFault → String
  | .notJson => "not a JSON text"
  | .wrongShape => "data did not match any variant of untagged enum OneOrMany"

/-- **A failed operation.**  What is wrong with a manifest is said by the reader of its
documents. -/
inductive Fault where
  | settings (cause : SettingsFault)
  | sourceRead (path : String) (cause : ReadFault)
  | malformedBlock (block : MalformedBlock)
  | enrichmentFailed (key : String) (failures : List (String × String))
  | invalidDefinitions (cause : DumpFault)
  | manifest (filePath : String) (line : Nat) {message : String}
  deriving Repr, DecidableEq

/-- **The wording of a fault.** -/
def Fault.message : Fault → String
  | .settings cause => SettingsFault.lead ++ cause.detail
  | .sourceRead path cause => "Failed to read source file '" ++ path ++ "': " ++ cause.message
  | .malformedBlock block => block.message
  | .enrichmentFailed key failures =>
    "Enrichment failed for '" ++ key ++ "' in all categories: " ++
      "; ".intercalate (failures.map fun failure => failure.1 ++ ": " ++ failure.2)
  | .invalidDefinitions cause => "Invalid definitions input: " ++ cause.message
  | @manifest filePath line message =>
    "Failed to parse manifest '" ++ filePath ++ "' (document starting at line " ++
      toString line ++ "): " ++ message

end InfraScan
