import InfraScan.Definition.Key
import InfraScan.Directive
import InfraScan.Graph.Vertex
import InfraScan.Text.Blank

/-!
# Settings

The settings of a run come in layers: defaults, a settings file, and two environment
variables.  How a settings file is written is a parameter here: a reader takes a text to a
partial record.

* `Settings` — the settings of a run
* `Settings.Record` — what a settings file says
* `Framework.ofWord`, `flagOfWord` — the words that variables may hold
* `Settings.ofText` — the settings of a text
* `Settings.override` — the variables over the settings
* `Settings.resolve` — all layers
-/

namespace InfraScan

/-- **The settings of a run.**  `apart` keeps the instances of one file apart in the store. -/
structure Settings where
  apart : Bool
  framework : Framework
  marks : List String
  deriving Repr, DecidableEq

/-- What a settings file says; a field that is not there has its default. -/
structure Settings.Record where
  apart : Option Bool
  framework : Option Framework
  marks : Option (List String)
  deriving Repr, DecidableEq

namespace Settings

/-- The settings without any layer. -/
def standard : Settings := ⟨false, .attributed, [DirectiveScanner.defaultMark]⟩

instance : Inhabited Settings := ⟨standard⟩

/-- The file that is used when none is named. -/
def defaultPath : String := ".resgraph/config.toml"

/-- The variable that overrides `apart`. -/
def apartVariable : String := "RESGRAPH_ENABLE_DEFINITION_KEY"

/-- The variable that overrides the framework. -/
def frameworkVariable : String := "RESGRAPH_GRAPH_FRAMEWORK"

/-- The key mode that the settings ask for. -/
def keyMode (settings : Settings) : KeyMode := .ofFlag settings.apart

end Settings

/-! ### Words -/

/-- A value as it is compared with words: trimmed, ASCII letters in lower case. -/
def wordOf (value : String) : String :=
  String.ofList ((Text.trim value.toList).map Char.toLower)

/-- The framework that a value names. -/
def Framework.ofWord (value : String) : Except SettingsFault Framework :=
  let word := wordOf value
  if word ∈ ["attributed", "networkx"] then .ok .attributed
  else if word ∈ ["tabular", "igraph"] then .ok .tabular
  else .error (.unknownFramework word)

/-- The flag that a value of a variable names. -/
def flagOfWord (name value : String) : Except SettingsFault Bool :=
  let word := wordOf value
  if word ∈ ["y", "yes", "t", "true", "on", "1"] then .ok true
  else if word ∈ ["n", "no", "f", "false", "off", "0"] then .ok false
  else .error (.invalidBoolean word name)

namespace Settings

/-! ### Layers -/

/-- A partial record over the defaults. -/
def ofRecord (record : Record) : Settings :=
  ⟨record.apart.getD standard.apart, record.framework.getD standard.framework,
    record.marks.getD standard.marks⟩

/-- **The settings of a text.**  A mark that is blank is refused. -/
def ofText (reader : String → Except String Record) (text : String) :
    Except SettingsFault Settings :=
  match reader text with
  | .error message => .error (.notSettings message)
  | .ok record =>
    let settings := ofRecord record
    if settings.marks.any Text.isBlankText then .error .blankMark else .ok settings

/-- The settings of a file. -/
def load (reader : String → Except String Record) (read : TextReader) (path : String) :
    Except SettingsFault Settings :=
  match read path with
  | .error cause => .error (.unreadable path cause)
  | .ok text => (ofText reader text).mapError (.inFile path)

/-- A variable that is set and not blank. -/
def given? (environment : String → Option String) (name : String) : Option String :=
  (environment name).filter fun value => !Text.isBlankText value

/-- The flag variable over the settings. -/
def overrideApart (environment : String → Option String) (settings : Settings) :
    Except SettingsFault Settings :=
  match given? environment apartVariable with
  | none => .ok settings
  | some value => (flagOfWord apartVariable value).map fun flag =>
    { settings with apart := flag }

/-- The framework variable over the settings. -/
def overrideFramework (environment : String → Option String) (settings : Settings) :
    Except SettingsFault Settings :=
  match given? environment frameworkVariable with
  | none => .ok settings
  | some value => (Framework.ofWord value).map fun framework => { settings with framework }

/-- **The variables over the settings**, and the fault of the first one that does not parse.
What was written before a fault stays. -/
def override (environment : String → Option String) (settings : Settings) :
    Settings × Option SettingsFault :=
  match overrideApart environment settings with
  | .error cause => (settings, some cause)
  | .ok first =>
    match overrideFramework environment first with
    | .error cause => (first, some cause)
    | .ok second => (second, none)

/-- The settings of the file that is used: the named one, else the default one if it is a
regular file, else none. -/
def ofFile (reader : String → Except String Record) (read : TextReader)
    (isFile : String → Bool) (path : Option String) : Except SettingsFault Settings :=
  match path with
  | some path => load reader read path
  | none => if isFile defaultPath then load reader read defaultPath else .ok standard

/-- **All layers**: defaults, file, variables. -/
def resolve (reader : String → Except String Record) (read : TextReader)
    (isFile : String → Bool) (environment : String → Option String) (path : Option String) :
    Except SettingsFault Settings :=
  match ofFile reader read isFile path with
  | .error cause => .error cause
  | .ok settings =>
    match override environment settings with
    | (_, some cause) => .error cause
    | (resolved, none) => .ok resolved

end Settings

end InfraScan
