import InfraScan.Command.Line
import InfraScan.Enrichment
import InfraScan.FileTree.Discovery
import InfraScan.Image.Survey
import InfraScan.Manifest.Document
import InfraScan.Report.Log
import InfraScan.Report.Summary
import InfraScan.Settings.File
import InfraScan.Yaml.Reader

/-!
# Running commands

A command line is run against what surrounds it: a disk, variables, the time, and whether the
output goes to a terminal.  The outcome is a value; nothing here reads or prints.

* `Surroundings` — what a run depends on
* `Outcome` — what a run leaves behind
* `Failure` — why a run fails
* `contexts`, `survey` — the two tasks with results
* `run` — a command line, from words to outcome
-/

namespace InfraScan.Command

/-- **What a run depends on.** -/
structure Surroundings where
  disk : Disk
  environment : String → Option String
  onTerminal : Bool
  time : String

/-- **What a run leaves behind**: its status, and the lines of its output and of its
messages. -/
structure Outcome where
  status : Nat
  output : List String
  messages : List String
  deriving Repr, DecidableEq

/-- **Why a run fails.** -/
inductive Failure where
  | settings (cause : SettingsFault)
  | unreadable (path : String) (cause : ReadFault)
  | unparsed (path : String) (cause : Fault)
  | discovery (cause : DiscoveryFault)
  | noManifests (path : String)
  deriving Repr, DecidableEq

namespace Failure

/-- The wording of a failure. -/
def message : Failure → String
  | .settings cause => (Fault.settings cause).message
  | .unreadable path _ => "Failed to read definitions file: " ++ path
  | .unparsed path _ => "Failed to parse " ++ path
  | .discovery (.missing path) => "Path '" ++ path ++ "' does not exist"
  | .discovery (.badPattern _) => "Failed to read glob pattern"
  | .noManifests path => "No manifest files found at '" ++ path ++ "'"

/-- The cause that is reported with a failure. -/
def cause? : Failure → Option String
  | .unreadable _ cause => some cause.message
  | .unparsed _ cause => some cause.message
  | .discovery (.badPattern fault) => some fault.message
  | _ => none

/-- The lines of a failure. -/
def lines (failure : Failure) : List String :=
  ("Error: " ++ failure.message) ::
    match failure.cause? with
    | none => []
    | some cause => ["", "Caused by:", "    " ++ cause]

end Failure

/-- What a task gives: its output and the events on the way. -/
structure Product where
  output : List String
  events : List Event

/-- A format that stands for a value; every other one stands for lines of text. -/
def valueFormat : String := "json"

/-! ### Contexts -/

/-- The enrichment of several dumps, one after another.  A dump that fails is reported, and
the others are not affected. -/
def enrichAll (registry : Registry) (read : TextReader) (collect : Bool) (dumps : List Dump) :
    ContextStore × List Event :=
  let step (state : ContextStore × SourceCache × List Event) (dump : Dump) :
      ContextStore × SourceCache × List Event :=
    let (store, cache, events) := state
    let done := registry.enrichDump read collect dump store cache
    let failed := match done.result with
      | .ok _ => []
      | .error cause => [Event.enrichmentFailed cause]
    (done.store, done.cache, events ++ done.events ++ failed)
  let (store, _, events) := dumps.foldl step (ContextStore.empty, SourceCache.empty, [])
  (store, events)

/-- **The contexts of a definitions file.**  The paths in it are seen from its own folder. -/
def contexts (around : Surroundings) (settings : Settings) (palette : Report.Palette)
    (path : String) (collect : Bool) (format : String) : Except Failure Product := do
  let read := around.disk.readText
  let text ← (read path).mapError (.unreadable path)
  let dumps ← (Dump.parseAll text).mapError (.unparsed path)
  let base := (Path.parent? path).getD "."
  let scanner ← (DirectiveScanner.ofMarks settings.marks).mapError .settings
  let registry := Registry.standard settings.keyMode scanner
  let (store, events) := enrichAll registry read collect (dumps.map (Dump.seenFrom base))
  .ok ⟨if format = valueFormat then [store.toJson.pretty]
    else Report.contextLines palette store, events⟩

/-! ### Images -/

/-- The resources of several manifest files.  A file that cannot be read is reported and
passed over. -/
def loadAll (reader : String → Except String Json) (read : TextReader) (paths : List String) :
    List ManifestDocument × List Event :=
  let loaded := paths.map fun path =>
    match Manifest.load reader read path with
    | .ok documents => (documents, Event.manifestLoaded path documents.length)
    | .error cause => ([], Event.manifestSkipped path cause)
  (loaded.flatMap Prod.fst, loaded.map Prod.snd)

/-- **The images of the manifests at a path.** -/
def survey (around : Surroundings) (settings : Settings) (palette : Report.Palette)
    (path format : String) : Except Failure Product := do
  let paths ← (around.disk.manifestFiles path).mapError .discovery
  if paths = [] then .error (.noManifests path)
  let (documents, events) := loadAll Yaml.read? around.disk.readText paths
  let graph := Manifest.graph settings.framework documents
  let found := Survey.run Survey.allPlatforms graph
  let output :=
    if format = valueFormat then
      [(Report.imageReport around.time settings.framework graph.vertexCount
        found.images).pretty]
    else Report.imageLines palette graph.vertexCount found.images
  .ok ⟨output, events ++ found.events⟩

/-! ### Texts of the program itself -/

/-- How the program is called. -/
def usageLines : List String := [
  "Usage: " ++ Report.program ++ " [--config PATH] [--log-level LEVEL] COMMAND",
  "",
  "Commands:",
  "  context PATH [--no-skip-comments] [-f FORMAT]  block context for a definitions dump",
  "  images [PATH] [-f FORMAT]                      container images of Kubernetes manifests",
  "  completions SHELL                              completion script for a shell",
  "  help                                           this text"]

/-- The line that names the version. -/
def versionLine : String := Report.program ++ " " ++ Report.version

/-- The words that can be completed. -/
def completedWords : List String := Verb.all.map Verb.word ++ [helpWord]

/-- A script that completes the first word of a command line. -/
def completionScript : Shell → List String
  | .bash => ["complete -W '" ++ " ".intercalate completedWords ++ "' " ++ Report.program]
  | .elvish =>
    ["set edit:completion:arg-completer[" ++ Report.program ++ "] = \x7b|@words| put " ++
      " ".intercalate completedWords ++ " \x7d"]
  | .fish => ["complete -c " ++ Report.program ++ " -f -a '" ++
    " ".intercalate completedWords ++ "'"]
  | .powershell =>
    ["Register-ArgumentCompleter -Native -CommandName " ++ Report.program ++
      " -ScriptBlock \x7b " ++
      ", ".intercalate (completedWords.map fun word => "'" ++ word ++ "'") ++ " \x7d"]
  | .zsh =>
    ["#compdef " ++ Report.program,
     "_arguments '1:command:(" ++ " ".intercalate completedWords ++ ")'"]

/-! ### Runs -/

/-- What a task gives.  Settings are resolved first by the tasks that have any. -/
def perform (around : Surroundings) (invocation : Invocation) : Except Failure Product := do
  let palette : Report.Palette := ⟨Report.wantsColor around.environment around.onTerminal⟩
  let resolved :=
    (Settings.resolve Settings.Record.read? around.disk.readText around.disk.isFile
    around.environment invocation.config).mapError Failure.settings
  match invocation.task with
  | .context path collect format => contexts around (← resolved) palette path collect format
  | .images path format => survey around (← resolved) palette path format
  | .completions shell => .ok ⟨completionScript shell, []⟩

/-- The outcome of an invocation. -/
def outcomeOf (around : Surroundings) (invocation : Invocation) : Outcome :=
  let palette : Report.Palette := ⟨Report.wantsColoredLog around.environment⟩
  let threshold := Report.Threshold.ofWord invocation.logLevel
  match perform around invocation with
  | .error failure => ⟨1, [], failure.lines⟩
  | .ok product => ⟨0, product.output, Report.logLines palette threshold product.events⟩

/-- **A command line, from words to outcome.** -/
def run (around : Surroundings) (words : List String) : Outcome :=
  match Invocation.ofWords words with
  | .ok invocation => outcomeOf around invocation
  | .error .help => ⟨0, usageLines, []⟩
  | .error .version => ⟨0, [versionLine], []⟩
  | .error .usage => ⟨2, [], usageLines⟩

end InfraScan.Command
