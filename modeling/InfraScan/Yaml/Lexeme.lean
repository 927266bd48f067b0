import InfraScan.Json.Reader
import InfraScan.Yaml.Cursor

/-!
# Scalars, anchors and tags

The pieces of YAML text that take more than one character: the three styles of scalars with
their rules for folding line ends, anchor names, and tags.  Each function starts at the first
character of its piece and gives the content with the position after it, or nothing when the
text is malformed.

* `Gap`, `Gap.folded` — blanks and line ends between two words, and what they stand for
* `plain?`, `quoted?`, `block?` — the styles of scalars
* `anchor?`, `tag?` — names of nodes and of their types
* `versionNumber?`, `tagDirective?` — what directives hold
-/

namespace InfraScan.Yaml

/-! ### Gaps between words -/

/-- Blanks and line ends between two words of a scalar. -/
structure Gap where
  spaces : List Char
  first : List Char
  more : List Char
  broken : Bool
  deriving Repr

namespace Gap

/-- Nothing between two words. -/
def none : Gap := ⟨[], [], [], false⟩

/-- A gap that begins with a line end which stands for nothing. -/
def escaped : Gap := ⟨[], [], [], true⟩

/-- **What a gap stands for.**  A single line end becomes a space, further line ends stay, and
blanks around line ends are dropped. -/
def folded (gap : Gap) : List Char :=
  if gap.broken then
    if gap.first = ['\n'] then (if gap.more = [] then [' '] else gap.more)
    else gap.first ++ gap.more
  else gap.spaces

end Gap

/-- The gap from here on.  With an indentation, a tab to the left of it on a fresh line is
refused. -/
def gap? (indent : Option Nat) : (fuel : Nat) → Gap → Cursor → Option (Gap × Cursor)
  | 0, gap, cursor => some (gap, cursor)
  | fuel + 1, gap, cursor =>
    if cursor.atBlank then
      if gap.broken && cursor.sees '\t' && indent.any (cursor.column < ·) then .none
      else if gap.broken then gap? indent fuel gap cursor.skip
      else
        gap? indent fuel { gap with spaces := gap.spaces ++ cursor.rest.take 1 } cursor.skip
    else if cursor.atBreak then
      let (content, next) := cursor.takeBreak
      if gap.broken then gap? indent fuel { gap with more := gap.more ++ content } next
      else gap? indent fuel { gap with spaces := [], first := content, broken := true } next
    else some (gap, cursor)

/-! ### Plain scalars -/

/-- The indicators that end a plain scalar in a flow collection. -/
def isFlowIndicator (c : Char) : Bool := [',', '[', ']', '{', '}'].contains c

/-- A word of a plain scalar.  A colon ends it only before a space; in a flow collection a
colon right before an indicator is refused. -/
def plainWord? (flow : Bool) : List Char → Option (List Char)
  | [] => some []
  | c :: rest =>
    let spaceNext := match rest with
      | [] => true
      | d :: _ => isBlank d || isBreak d
    let indicatorNext := match rest with
      | [] => false
      | d :: _ => isFlowIndicator d || d = '?'
    if isBlank c || isBreak c then some []
    else if flow && c = ':' && indicatorNext then none
    else if (c = ':' && spaceNext) || (flow && isFlowIndicator c) then some []
    else (plainWord? flow rest).map (c :: ·)

/-- A plain scalar, word by word.  The flag says whether a line end was passed after the last
word. -/
def plainFrom? (flow : Bool) (indent : Nat) :
    (fuel : Nat) → List Char → Gap → Cursor → Option (List Char × Bool × Cursor)
  | 0, text, gap, cursor => some (text, gap.broken, cursor)
  | fuel + 1, text, gap, cursor =>
    if cursor.atDocumentMarker || cursor.sees '#' then some (text, gap.broken, cursor)
    else
      match plainWord? flow cursor.rest with
      | none => none
      | some word =>
        let (text, gap) :=
          if word = [] then (text, gap) else (text ++ gap.folded ++ word, Gap.none)
        let cursor := cursor.skipN word.length
        if cursor.atBlank || cursor.atBreak then
          match gap? (some indent) (cursor.rest.length + 1) gap cursor with
          | none => none
          | some (gap, cursor) =>
            if !flow && cursor.column < indent then some (text, gap.broken, cursor)
            else plainFrom? flow indent fuel text gap cursor
        else some (text, gap.broken, cursor)

/-- **A plain scalar** whose continuation lines are indented by at least `indent`. -/
def plain? (flow : Bool) (indent : Nat) (cursor : Cursor) :
    Option (List Char × Bool × Cursor) :=
  plainFrom? flow indent (cursor.rest.length + 1) [] Gap.none cursor

/-! ### Quoted scalars -/

/-- The character of an escape of two characters. -/
def namedEscape? (c : Char) : Option Char :=
  match c with
  | '0' => some '\x00'
  | 'a' => some '\x07'
  | 'b' => some '\x08'
  | 't' | '\t' => some '\t'
  | 'n' => some '\n'
  | 'v' => some '\x0b'
  | 'f' => some '\x0c'
  | 'r' => some '\r'
  | 'e' => some '\x1b'
  | ' ' => some ' '
  | '"' => some '"'
  | '/' => some '/'
  | '\\' => some '\\'
  | 'N' => some '\u0085'
  | '_' => some '\u00a0'
  | 'L' => some '\u2028'
  | 'P' => some '\u2029'
  | _ => none

/-- The number of digits of a numbered escape. -/
def escapeDigits? (c : Char) : Option Nat :=
  match c with
  | 'x' => some 2
  | 'u' => some 4
  | 'U' => some 8
  | _ => none

/-- The character of a numbered escape whose digits stand at the front. -/
def numberedEscape? (count : Nat) (text : List Char) : Option Char := do
  let digits := text.take count
  if digits.length ≠ count then none
  let n ← Json.hexNumber? digits
  if (0xD800 ≤ n && n ≤ 0xDFFF) || 0x10FFFF < n then none else some (Char.ofNat n)

/-- A word of a quoted scalar, up to a blank, a line end, the closing quote, or an escaped
line end, which the flag reports. -/
def quotedWord? (single : Bool) :
    (fuel : Nat) → Cursor → Option (List Char × Bool × Cursor)
  | 0, cursor => some ([], false, cursor)
  | fuel + 1, cursor =>
    match cursor.rest with
    | [] => some ([], false, cursor)
    | c :: rest =>
      if isBlank c || isBreak c then some ([], false, cursor)
      else if single then
        if c = '\'' then
          if rest.head? = some '\'' then
            (quotedWord? single fuel (cursor.skipN 2)).map fun (word, tail) =>
              ('\'' :: word, tail)
          else some ([], false, cursor)
        else (quotedWord? single fuel cursor.skip).map fun (word, tail) => (c :: word, tail)
      else if c = '"' then some ([], false, cursor)
      else if c = '\\' then
        match rest with
        | [] => none
        | e :: rest =>
          if isBreak e then some ([], true, cursor.skip.skipBreak)
          else
            match namedEscape? e, escapeDigits? e with
            | some c, _ =>
              (quotedWord? single fuel (cursor.skipN 2)).map fun (word, tail) =>
                (c :: word, tail)
            | none, some count => do
              let c ← numberedEscape? count rest
              let (word, tail) ← quotedWord? single fuel (cursor.skipN (2 + count))
              some (c :: word, tail)
            | none, none => none
      else (quotedWord? single fuel cursor.skip).map fun (word, tail) => (c :: word, tail)

/-- A quoted scalar after its opening quote, word by word. -/
def quotedFrom? (single : Bool) :
    (fuel : Nat) → List Char → Cursor → Option (List Char × Cursor)
  | 0, _, _ => none
  | fuel + 1, text, cursor =>
    if cursor.atDocumentMarker || cursor.atEnd then none
    else
      match quotedWord? single (cursor.rest.length + 1) cursor with
      | none => none
      | some (word, escaped, cursor) =>
        if cursor.sees (if single then '\'' else '"') then some (text ++ word, cursor.skip)
        else
          let start := if escaped then Gap.escaped else Gap.none
          match gap? none (cursor.rest.length + 1) start cursor with
          | none => none
          | some (gap, cursor) => quotedFrom? single fuel (text ++ word ++ gap.folded) cursor

/-- **A quoted scalar**, single or double. -/
def quoted? (single : Bool) (cursor : Cursor) : Option (List Char × Cursor) :=
  quotedFrom? single (cursor.rest.length + 1) [] cursor.skip

/-! ### Block scalars -/

/-- What happens to the line ends after the last line of a block scalar. -/
inductive Chomping where
  | strip
  | clip
  | keep
  deriving Repr, DecidableEq

/-- The indicators of a block scalar, in either order. -/
def blockHeader? (cursor : Cursor) : Option (Chomping × Nat × Cursor) :=
  let chomping (cursor : Cursor) : Option (Chomping × Cursor) :=
    if cursor.sees '+' then some (.keep, cursor.skip)
    else if cursor.sees '-' then some (.strip, cursor.skip)
    else none
  let increment (cursor : Cursor) : Option (Nat × Cursor) :=
    match cursor.peek with
    | some d =>
      if d.isDigit then
        if d = '0' then none else some (d.toNat - '0'.toNat, cursor.skip)
      else some (0, cursor)
    | none => some (0, cursor)
  match chomping cursor with
  | some (mode, cursor) => (increment cursor).map fun (n, cursor) => (mode, n, cursor)
  | none =>
    (increment cursor).map fun (n, cursor) =>
      match if n = 0 then none else chomping cursor with
      | some (mode, cursor) => (mode, n, cursor)
      | none => (.clip, n, cursor)

/-- Indentation and empty lines before a line of a block scalar: the line ends passed, the
widest indentation seen, and the position of the line.  With `indent = 0` the indentation is
not known yet. -/
def blockGap? (indent : Nat) :
    (fuel : Nat) → (widest : Nat) → (breaks : List Char) → Cursor →
      Option (Nat × List Char × Cursor)
  | 0, widest, breaks, cursor => some (widest, breaks, cursor)
  | fuel + 1, widest, breaks, cursor =>
    let spaces := (cursor.taken (· = ' ')).length
    let cursor := cursor.skipN (if indent = 0 then spaces
      else min spaces (indent - cursor.column))
    let widest := max widest cursor.column
    if (indent = 0 || cursor.column < indent) && cursor.sees '\t' then none
    else if cursor.atBreak then
      let (content, next) := cursor.takeBreak
      blockGap? indent fuel widest (breaks ++ content) next
    else some (widest, breaks, cursor)

/-- The lines of a block scalar: the text so far, the last line end, the empty lines after it,
and whether the last line began with a blank. -/
def blockLines? (literal : Bool) (indent : Nat) :
    (fuel : Nat) → (text lead breaks : List Char) → (leadBlank : Bool) → Cursor →
      Option (List Char × List Char × List Char × Cursor)
  | 0, text, lead, breaks, _, cursor => some (text, lead, breaks, cursor)
  | fuel + 1, text, lead, breaks, leadBlank, cursor =>
    if cursor.column ≠ indent || cursor.atEnd then some (text, lead, breaks, cursor)
    else
      let blank := cursor.atBlank
      let joint :=
        if !literal && lead = ['\n'] && !leadBlank && !blank then
          (if breaks = [] then [' '] else [])
        else lead
      let line := cursor.taken fun c => !isBreak c
      let (content, next) := (cursor.skipN line.length).takeBreak
      match blockGap? indent (next.rest.length + 1) 0 [] next with
      | none => none
      | some (_, following, next) =>
        blockLines? literal indent fuel
          (text ++ joint ++ breaks ++ line) content following blank next

/-- **A block scalar** inside a collection indented by `parent`; the position is the
indicator. -/
def block? (literal : Bool) (parent : Int) (cursor : Cursor) :
    Option (List Char × Cursor) := do
  let (chomping, increment, cursor) ← blockHeader? cursor.skip
  let cursor := cursor.skipWhile isBlank
  let cursor := if cursor.sees '#' then cursor.skipLine else cursor
  if !cursor.atBreak && !cursor.atEnd then none
  let cursor := cursor.skipBreak
  let fixed : Nat := if increment = 0 then 0 else (max parent 0).toNat + increment
  let (widest, breaks, cursor) ← blockGap? fixed (cursor.rest.length + 1) 0 [] cursor
  let indent : Nat := if fixed = 0 then max (max widest (parent + 1).toNat) 1 else fixed
  let (text, lead, breaks, cursor) ←
    blockLines? literal indent (cursor.rest.length + 1) [] [] breaks false cursor
  some (match chomping with
    | .strip => (text, cursor)
    | .clip => (text ++ lead, cursor)
    | .keep => (text ++ lead ++ breaks, cursor))

/-! ### Anchors and tags -/

/-- **The name of an anchor or an alias**, after its indicator. -/
def anchor? (cursor : Cursor) : Option (List Char × Cursor) :=
  let cursor := cursor.skip
  let name := cursor.taken isAnchorChar
  let after := cursor.skipN name.length
  if name = [] then none
  else if after.spaceAhead 0 ||
      after.peek.any fun c => ['?', ':', ',', ']', '}', '%', '@', '`'].contains c then
    some (name, after)
  else none

/-- The octets of a run of percent escapes at the front of a text. -/
def octets? : (fuel : Nat) → List Char → Option (List Nat × List Char)
  | 0, text => some ([], text)
  | fuel + 1, '%' :: rest => do
    let digits := rest.take 2
    if digits.length ≠ 2 then none
    let n ← Json.hexNumber? digits
    let (more, tail) ← octets? fuel (rest.drop 2)
    some (n :: more, tail)
  | _, text => some ([], text)

/-- The characters that a run of octets encodes. -/
def charsOfOctets? (octets : List Nat) : Option (List Char) :=
  (String.fromUTF8? ⟨(octets.map Nat.toUInt8).toArray⟩).map String.toList

/-- The characters of a tag from here on, escapes decoded. -/
def uri? (verbatim : Bool) : (fuel : Nat) → Cursor → Option (List Char × Cursor)
  | 0, cursor => some ([], cursor)
  | fuel + 1, cursor =>
    match cursor.rest with
    | [] => some ([], cursor)
    | '%' :: _ => do
      let (octets, tail) ← octets? cursor.rest.length cursor.rest
      let chars ← charsOfOctets? octets
      let (more, cursor) ← uri? verbatim fuel
        (cursor.skipN (cursor.rest.length - tail.length))
      some (chars ++ more, cursor)
    | c :: _ =>
      if isUriChar c || (verbatim && [',', '[', ']'].contains c) then
        (uri? verbatim fuel cursor.skip).map fun (more, cursor) => (c :: more, cursor)
      else some ([], cursor)

/-- A tag handle: an exclamation mark, perhaps with a name and a second one. -/
def handle (cursor : Cursor) : List Char × Cursor :=
  let name := cursor.skip.taken isAnchorChar
  let after := cursor.skip.skipN name.length
  if after.sees '!' then ('!' :: name ++ ['!'], after.skip) else ('!' :: name, after)

/-- A tag as it is written: a handle that stands for a beginning, and the rest. -/
structure TagText where
  handle : List Char
  suffix : List Char
  deriving Repr, DecidableEq

/-- **A tag.**  After it a blank, a line end, or a comma in a flow collection has to
follow. -/
def tag? (flow : Bool) (cursor : Cursor) : Option (TagText × Cursor) := do
  let (found, after) ←
    if cursor.ahead 1 = some '<' then do
      let (suffix, after) ← uri? true (cursor.rest.length + 1) (cursor.skipN 2)
      if suffix = [] || !after.sees '>' then none
      some (TagText.mk [] suffix, after.skip)
    else do
      let (head, after) := handle cursor
      let (tail, after) ← uri? false (after.rest.length + 1) after
      if 1 < head.length && head.getLast? = some '!' then
        if tail = [] then none
        some (TagText.mk head tail, after)
      else
        let suffix := head.drop 1 ++ tail
        some (if suffix = [] then TagText.mk [] ['!'] else TagText.mk ['!'] suffix, after)
  if after.spaceAhead 0 || (flow && after.sees ',') then some (found, after) else none

/-! ### Directives -/

/-- A number of a version directive: one to nine digits. -/
def versionNumber? (cursor : Cursor) : Option (Nat × Cursor) :=
  let digits := cursor.taken Char.isDigit
  if digits = [] || 9 < digits.length then none
  else
    some (digits.foldl (fun acc d => acc * 10 + (d.toNat - '0'.toNat)) 0,
      cursor.skipN digits.length)

/-- The handle and the beginning that a tag directive ties together. -/
def tagDirective? (cursor : Cursor) : Option (TagText × Cursor) := do
  let cursor := cursor.skipWhile isBlank
  if !cursor.sees '!' then none
  let (head, after) := handle cursor
  if head ≠ ['!'] && head.getLast? ≠ some '!' then none
  if !after.atBlank then none
  let after := after.skipWhile isBlank
  let (lead, after) ← uri? true (after.rest.length + 1) after
  if lead = [] || !after.spaceAhead 0 then none
  some (⟨head, lead⟩, after)

end InfraScan.Yaml
