/-!
# Text styles

Emphasis on a terminal.  A style is a list of display attributes; text in a style stands
between the sequence that switches the attributes on and the one that switches all of them
off.

* `Style` — display attributes
* `Style.paint` — a text in a style
* `Palette` — whether styles are shown at all
* `wantsColor` — the variables that decide it
-/

namespace InfraScan.Report

/-- **Display attributes**, by their numbers. -/
abbrev Style := List Nat

namespace Style

/-- Bold text. -/
def bold : Style := [1]

/-- Faint text. -/
def dim : Style := [2]

/-- Slanted text. -/
def italic : Style := [3]

/-- Bold text with a line under it. -/
def heading : Style := [1, 4]

/-- Bold text in green. -/
def good : Style := [1, 32]

/-- Bold text in yellow. -/
def caution : Style := [1, 33]

/-- Text in yellow. -/
def warnLevel : Style := [33]

/-- Text in blue. -/
def debugLevel : Style := [34]

/-- Text in cyan. -/
def accent : Style := [36]

/-- The sequence that switches all attributes off. -/
def reset : List Char := ['\x1b', '[', '0', 'm']

/-- The sequence that switches the attributes of a style on. -/
def start (style : Style) : List Char :=
  ['\x1b', '['] ++ (";".intercalate (style.map toString)).toList ++ ['m']

/-- The text with a style switched on again after everything in it that switches styles
off. -/
def resume (style : Style) : (fuel : Nat) → List Char → List Char
  | 0, text => text
  | _, [] => []
  | fuel + 1, c :: rest =>
    if reset.isPrefixOf (c :: rest) then
      reset ++ style.start ++ resume style fuel ((c :: rest).drop reset.length)
    else c :: resume style fuel rest

/-- **A text in a style.** -/
def paint (style : Style) (text : String) : String :=
  String.ofList (style.start ++ resume style (text.length + 1) text.toList ++ reset)

end Style

/-- Whether styles are shown. -/
structure Palette where
  colored : Bool
  deriving Repr, DecidableEq

/-- A text in a style, if styles are shown. -/
def Palette.paint (palette : Palette) (style : Style) (text : String) : String :=
  if palette.colored then style.paint text else text

/-- **Styles are shown** when a variable forces them; else not when another one forbids them;
else on a terminal, unless a third one says otherwise. -/
def wantsColor (environment : String → Option String) (onTerminal : Bool) : Bool :=
  let isOn (name : String) : Option Bool := (environment name).map (· ≠ "0")
  if isOn "CLICOLOR_FORCE" = some true then true
  else if (environment "NO_COLOR").isSome then false
  else (isOn "CLICOLOR").getD true && onTerminal

/-- Log lines are styled unless a variable that is not empty forbids it. -/
def wantsColoredLog (environment : String → Option String) : Bool :=
  (environment "NO_COLOR").all String.isEmpty

end InfraScan.Report
