import InfraScan.Settings
import InfraScan.Toml.Reader

/-!
# Settings files

What a settings file says, read from a TOML document.  Fields that are not settings are passed
over; a setting of the wrong type makes the whole file unreadable.

* `Settings.Record.ofToml?` — the settings of a document
* `Settings.Record.read?` — the settings of a text
-/

namespace InfraScan

/-- The framework with exactly this word. -/
def Framework.named? (word : String) : Option Framework :=
  if word = Framework.attributed.word then some .attributed
  else if word = Framework.tabular.word then some .tabular
  else none

namespace Settings

/-- A truth value. -/
def flagOfToml? : Toml.Item → Option Bool
  | .flag b => some b
  | _ => none

/-- A text. -/
def textOfToml? : Toml.Item → Option String
  | .text s => some s
  | _ => none

/-- An array or a table that holds nothing. -/
def holdsNothing : Toml.Item → Bool
  | .array items => items.isEmpty
  | .tables items => items.isEmpty
  | .inline fields => fields.isEmpty
  | .table _ fields => fields.isEmpty
  | _ => false

/-- A framework: its word, or a table with that word for its only key and nothing in it. -/
def frameworkOfToml? (item : Toml.Item) : Option Framework :=
  match item with
  | .text word => Framework.named? word
  | .inline [(word, content)] | .table _ [(word, content)] =>
    if holdsNothing content then Framework.named? word else none
  | _ => none

/-- A list of marks. -/
def marksOfToml? : Toml.Item → Option (List String)
  | .array items => items.mapM textOfToml?
  | _ => none

/-- A field of a record: outer none when it is there but cannot be read. -/
def fieldOfToml? (document : Toml.Item) (name : String) (read : Toml.Item → Option α) :
    Option (Option α) :=
  match document.get? name with
  | none => some none
  | some item => (read item).map some

/-- **The settings of a document.** -/
def Record.ofToml? (document : Toml.Item) : Option Record := do
  some {
    apart := ← fieldOfToml? document "enable_definition_key" flagOfToml?
    framework := ← fieldOfToml? document "graph_framework" frameworkOfToml?
    marks := ← fieldOfToml? document "skip_directive_prefixes" marksOfToml? }

/-- What is said of a text that does not hold settings. -/
def notToml : String := "not a TOML text of settings"

/-- **The settings of a text**, or what is wrong with it. -/
def Record.read? (text : String) : Except String Record :=
  match (Toml.read? text).bind Record.ofToml? with
  | none => .error notToml
  | some record => .ok record

end Settings

end InfraScan
