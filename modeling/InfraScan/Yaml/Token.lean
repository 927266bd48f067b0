import InfraScan.Yaml.Lexeme

/-!
# YAML tokens

The tokens of a YAML text.  Indentation turns into opening and closing tokens of block
collections, and a node turns into a key only when the colon after it is found: the tokens for
the key and for the mapping that it opens are then put in before the node.

* `Token` — the tokens
* `PendingKey` — a place where a key may have begun
* `Scan` — the state of scanning: position, indentation, places of possible keys, tokens so
  far
* `Scan.step?` — one token more
* `Token.ofText?` — the tokens of a text
-/

namespace InfraScan.Yaml

/-- **The tokens of a YAML text.**  The end of the list is the end of the stream. -/
inductive Token where
  | version (major minor : Nat)
  | tagDirective (handle lead : List Char)
  | documentStart
  | documentEnd
  | blockSequenceStart
  | blockMappingStart
  | blockEnd
  | flowSequenceStart
  | flowSequenceEnd
  | flowMappingStart
  | flowMappingEnd
  | blockEntry
  | flowEntry
  | key
  | value
  | anchor (name : List Char)
  | alias (name : List Char)
  | tag (text : TagText)
  | scalar (isPlain : Bool) (text : List Char)
  deriving Repr, DecidableEq

/-- A place where a key may have begun: the number of tokens before it, and its position.  A
required key stands where nothing but a key of the open mapping can stand. -/
structure PendingKey where
  required : Bool
  number : Nat
  index : Nat
  line : Nat
  column : Nat
  deriving Repr

/-- **The state of scanning.**  `keys` holds one place for every open flow collection and one
for the block level, the innermost first; `tokens` holds the latest token first. -/
structure Scan where
  cursor : Cursor
  indent : Int
  indents : List Int
  flow : Nat
  keys : List (Option PendingKey)
  keyAllowed : Bool
  tokens : List Token
  count : Nat

namespace Scan

/-- Before the first character. -/
def start (text : List Char) : Scan := ⟨.start text, -1, [], 0, [none], true, [], 0⟩

/-- One token more at the end. -/
def emit (scan : Scan) (token : Token) : Scan :=
  { scan with tokens := token :: scan.tokens, count := scan.count + 1 }

/-- One token more with `number` tokens before it. -/
def emitAt (scan : Scan) (number : Nat) (token : Token) : Scan :=
  let (later, earlier) := scan.tokens.splitAt (scan.count - number)
  { scan with tokens := later ++ token :: earlier, count := scan.count + 1 }

/-- The position moved. -/
def moveTo (scan : Scan) (cursor : Cursor) : Scan := { scan with cursor }

/-! ### Keys -/

/-- Forget the place of a possible key; a required key must not be forgotten. -/
def dropKey? (scan : Scan) : Option Scan :=
  match scan.keys with
  | some key :: rest => if key.required then none else some { scan with keys := none :: rest }
  | _ => some scan

/-- Note that a key may begin here. -/
def noteKey? (scan : Scan) : Option Scan :=
  if scan.keyAllowed then do
    let cleared ← scan.dropKey?
    let key : PendingKey :=
      ⟨scan.flow = 0 && scan.indent = scan.cursor.column, scan.count, scan.cursor.index,
        scan.cursor.line, scan.cursor.column⟩
    some { cleared with keys := some key :: cleared.keys.drop 1 }
  else some scan

/-- Forget the keys that can no longer be keys: a key ends on its line and within 1024
characters. -/
def forgetStale? (scan : Scan) : Option Scan := do
  let keys ← scan.keys.mapM fun
    | none => some none
    | some key =>
      if key.line < scan.cursor.line || key.index + 1024 < scan.cursor.index then
        if key.required then none else some none
      else some (some key)
  some { scan with keys }

/-! ### Indentation -/

/-- Open a block collection at a column unless one is open there already. -/
def roll (scan : Scan) (column : Nat) (number : Option Nat) (token : Token) : Scan :=
  if scan.flow ≠ 0 || (column : Int) ≤ scan.indent then scan
  else
    let opened :=
      { scan with indents := scan.indent :: scan.indents, indent := column }
    match number with
    | none => opened.emit token
    | some number => opened.emitAt number token

/-- Close block collections until the outermost is at a column or left of it. -/
def unrollTo (column : Int) : List Int → Scan → Scan
  | [], scan => scan
  | outer :: rest, scan =>
    if scan.indent ≤ column then scan
    else unrollTo column rest { scan.emit .blockEnd with indent := outer, indents := rest }

/-- Close the block collections that a column ends; inside flow collections columns do not
count. -/
def unroll (scan : Scan) (column : Int) : Scan :=
  if scan.flow ≠ 0 then scan else unrollTo column scan.indents scan

/-! ### Blanks and comments -/

/-- Forward to the next token, over blanks, comments and line ends.  A line end in a block
allows a key; where a key is allowed, tabs are not skipped.  A byte order mark at the start of
a line is passed over like a space, so it indents its line. -/
def toToken : (fuel : Nat) → Scan → Scan
  | 0, scan => scan
  | fuel + 1, scan =>
    let cursor := scan.cursor
    let cursor := if cursor.column = 0 && cursor.sees '\ufeff' then cursor.skip else cursor
    let tabs := scan.flow ≠ 0 || !scan.keyAllowed
    let cursor := cursor.skipWhile fun c => c = ' ' || (tabs && c = '\t')
    let cursor := if cursor.sees '#' then cursor.skipLine else cursor
    if cursor.atBreak then
      toToken fuel
        { scan with
          cursor := cursor.skipBreak
          keyAllowed := if scan.flow = 0 then true else scan.keyAllowed }
    else scan.moveTo cursor

/-! ### Tokens -/

/-- A directive: its name, its values, and nothing else on the line. -/
def directive? (scan : Scan) : Option Scan := do
  let scan ← (scan.unroll (-1)).dropKey?
  let cursor := scan.cursor.skip
  let name := cursor.taken isAnchorChar
  let cursor := cursor.skipN name.length
  if name = [] || !cursor.spaceAhead 0 then none
  let (token, cursor) ←
    if name = ['Y', 'A', 'M', 'L'] then do
      let (major, cursor) ← versionNumber? (cursor.skipWhile isBlank)
      if !cursor.sees '.' then none
      let (minor, cursor) ← versionNumber? cursor.skip
      some (Token.version major minor, cursor)
    else if name = ['T', 'A', 'G'] then do
      let (text, cursor) ← tagDirective? cursor
      some (Token.tagDirective text.handle text.suffix, cursor)
    else none
  let cursor := cursor.skipWhile isBlank
  let cursor := if cursor.sees '#' then cursor.skipLine else cursor
  if !cursor.atBreak && !cursor.atEnd then none
  some { scan.emit token with cursor := cursor.skipBreak, keyAllowed := false }

/-- A document marker. -/
def marker? (scan : Scan) (token : Token) : Option Scan := do
  let scan ← (scan.unroll (-1)).dropKey?
  some { scan.emit token with cursor := scan.cursor.skipN 3, keyAllowed := false }

/-- The opening indicator of a flow collection. -/
def flowStart? (scan : Scan) (token : Token) : Option Scan := do
  let scan ← scan.noteKey?
  some { scan.emit token with
    cursor := scan.cursor.skip, flow := scan.flow + 1, keys := none :: scan.keys,
    keyAllowed := true }

/-- The closing indicator of a flow collection. -/
def flowEnd? (scan : Scan) (token : Token) : Option Scan := do
  let scan ← scan.dropKey?
  some { scan.emit token with
    cursor := scan.cursor.skip
    flow := scan.flow - 1
    keys := if scan.flow = 0 then scan.keys else scan.keys.drop 1
    keyAllowed := false }

/-- The comma of a flow collection. -/
def flowEntry? (scan : Scan) : Option Scan := do
  let scan ← scan.dropKey?
  some { scan.emit .flowEntry with cursor := scan.cursor.skip, keyAllowed := true }

/-- The dash of a block sequence. -/
def blockEntry? (scan : Scan) : Option Scan := do
  if scan.flow = 0 && !scan.keyAllowed then none
  let scan ← (scan.roll scan.cursor.column none .blockSequenceStart).dropKey?
  some { scan.emit .blockEntry with cursor := scan.cursor.skip, keyAllowed := true }

/-- The question mark of a key. -/
def key? (scan : Scan) : Option Scan := do
  if scan.flow = 0 && !scan.keyAllowed then none
  let scan ← (scan.roll scan.cursor.column none .blockMappingStart).dropKey?
  some { scan.emit .key with cursor := scan.cursor.skip, keyAllowed := scan.flow = 0 }

/-- The colon of a value.  The node noted as a possible key becomes a key. -/
def value? (scan : Scan) : Option Scan :=
  match scan.keys with
  | some key :: rest =>
    let scan := scan.emitAt key.number .key
    let scan := scan.roll key.column (some key.number) .blockMappingStart
    some { scan.emit .value with
      cursor := scan.cursor.skip, keys := none :: rest, keyAllowed := false }
  | _ =>
    if scan.flow = 0 && !scan.keyAllowed then none
    else
      let scan := scan.roll scan.cursor.column none .blockMappingStart
      some { scan.emit .value with cursor := scan.cursor.skip, keyAllowed := scan.flow = 0 }

/-- A token that may begin a key and after which none may begin. -/
def node? (scan : Scan) (read : Scan → Option (Token × Cursor)) : Option Scan := do
  let scan ← scan.noteKey?
  let (token, cursor) ← read scan
  some { scan.emit token with cursor, keyAllowed := false }

/-- A block scalar; a key may begin after it. -/
def blockScalar? (scan : Scan) (literal : Bool) : Option Scan := do
  let scan ← scan.dropKey?
  let (text, cursor) ← block? literal scan.indent scan.cursor
  some { scan.emit (.scalar false text) with cursor, keyAllowed := true }

/-- A plain scalar; a key may begin after it if it passed a line end. -/
def plainScalar? (scan : Scan) : Option Scan := do
  let scan ← scan.noteKey?
  let (text, broken, cursor) ←
    plain? (scan.flow ≠ 0) (scan.indent + 1).toNat scan.cursor
  some { scan.emit (.scalar true text) with cursor, keyAllowed := broken }

/-- The end of the stream closes everything that columns have opened. -/
def finish? (scan : Scan) : Option (List Token) := do
  let scan ← (scan.unroll (-1)).dropKey?
  some scan.tokens.reverse

/-- The characters that cannot begin a plain scalar by themselves. -/
def isIndicator (c : Char) : Bool :=
  ['-', '?', ':', ',', '[', ']', '{', '}', '#', '&', '*', '!', '|', '>', '\'', '"', '%', '@',
    '`'].contains c

/-- **One token more**, or the token's fault. -/
def step? (scan : Scan) (c : Char) : Option Scan :=
  let cursor := scan.cursor
  let inFlow := scan.flow ≠ 0
  let spaceNext := cursor.spaceAhead 1
  if cursor.column = 0 && c = '%' then scan.directive?
  else if cursor.atMarker '-' then scan.marker? .documentStart
  else if cursor.atMarker '.' then scan.marker? .documentEnd
  else if c = '[' then scan.flowStart? .flowSequenceStart
  else if c = '{' then scan.flowStart? .flowMappingStart
  else if c = ']' then scan.flowEnd? .flowSequenceEnd
  else if c = '}' then scan.flowEnd? .flowMappingEnd
  else if c = ',' then scan.flowEntry?
  else if c = '-' && spaceNext then scan.blockEntry?
  else if c = '?' && (inFlow || spaceNext) then scan.key?
  else if c = ':' && (inFlow || spaceNext) then scan.value?
  else if c = '*' then
    scan.node? fun scan => (anchor? scan.cursor).map fun (name, next) => (.alias name, next)
  else if c = '&' then
    scan.node? fun scan => (anchor? scan.cursor).map fun (name, next) => (.anchor name, next)
  else if c = '!' then
    scan.node? fun scan => (tag? inFlow scan.cursor).map fun (text, next) => (.tag text, next)
  else if c = '|' && !inFlow then scan.blockScalar? true
  else if c = '>' && !inFlow then scan.blockScalar? false
  else if c = '\'' then
    scan.node? fun scan =>
      (quoted? true scan.cursor).map fun (text, next) => (.scalar false text, next)
  else if c = '"' then
    scan.node? fun scan =>
      (quoted? false scan.cursor).map fun (text, next) => (.scalar false text, next)
  else if !(isIndicator c || isBlank c || isBreak c) ||
      (c = '-' && !(cursor.ahead 1).any isBlank) ||
      (!inFlow && (c = '?' || c = ':') && !spaceNext) then
    scan.plainScalar?
  else none

/-- All tokens from a state on.  Every token takes at least one character. -/
def run? : (fuel : Nat) → Scan → Option (List Token)
  | 0, _ => none
  | fuel + 1, scan => do
    let scan := toToken (scan.cursor.rest.length + 1) scan
    let scan ← scan.forgetStale?
    let scan := scan.unroll scan.cursor.column
    match scan.cursor.peek with
    | none => scan.finish?
    | some c => run? fuel (← scan.step? c)

end Scan

/-- **The tokens of a text.**  A text with a character that is not permitted has none. -/
def Token.ofText? (text : List Char) : Option (List Token) :=
  if text.all isPermitted then Scan.run? (text.length + 1) (.start text) else none

end InfraScan.Yaml
