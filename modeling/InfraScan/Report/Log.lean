import InfraScan.Event
import InfraScan.Json.Printer
import InfraScan.Report.Style

/-!
# Log lines

Events as lines: level, origin, message and details.  A threshold decides which events are
shown.

* `Threshold` — the least important level that is shown
* `logLine` — an event as a line
* `logLines` — the lines of those events that are shown
-/

namespace InfraScan.Report

/-- **The least important level that is shown.** -/
inductive Threshold where
  | trace
  | debug
  | info
  | warn
  | error
  deriving Repr, DecidableEq

namespace Threshold

/-- The threshold that a word names, in letters of either case; other words mean warnings. -/
def ofWord (word : String) : Threshold :=
  match String.ofList (word.toList.map Char.toLower) with
  | "trace" => .trace
  | "debug" => .debug
  | "info" => .info
  | "error" => .error
  | _ => .warn

/-- Events of a level are shown. -/
def shows : Threshold → Level → Bool
  | .trace, _ | .debug, _ => true
  | .info, .warn | .warn, .warn => true
  | _, _ => false

end Threshold

/-- The style of a level. -/
def levelStyle : Level → Style
  | .warn => .warnLevel
  | .debug => .debugLevel

/-- The word for a level in a column of five. -/
def levelColumn (level : Level) : String :=
  String.ofList (List.replicate (5 - level.word.length) ' ') ++ level.word

/-- A detail as it is written: the platform of an event in quotes, everything else as it
is. -/
def detailText (name value : String) : String :=
  if name = "platform" then Json.quoted value else value

/-- **An event as a line.** -/
def logLine (palette : Palette) (event : Event) : String :=
  let details := event.fields.map fun field =>
    " " ++ palette.paint .italic field.1 ++ palette.paint .dim "=" ++
      detailText field.1 field.2
  palette.paint (levelStyle event.level) (levelColumn event.level) ++ " " ++
    palette.paint .dim event.origin ++ palette.paint .dim ":" ++ " " ++ event.message ++
    String.join details

/-- The lines of those events that are shown. -/
def logLines (palette : Palette) (threshold : Threshold) (events : List Event) :
    List String :=
  (events.filter fun event => threshold.shows event.level).map (logLine palette)

end InfraScan.Report
