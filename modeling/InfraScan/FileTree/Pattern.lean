/-!
# Name patterns

Patterns on the names of files and folders: `?` stands for one character, `*` for any number
of them, and brackets for one character of a class.  Two stars that are a whole step of a path
stand for any number of folders.

* `NameToken`, `NamePattern` — a pattern, token by token
* `NamePattern.ofText` — the pattern that a text writes
* `NamePattern.fits` — the names that a pattern stands for
-/

namespace InfraScan

/-- A piece of a pattern. -/
inductive NameToken where
  | char (c : Char)
  | anyChar
  | anyText
  | anyFolders
  | oneOf (negated : Bool) (ranges : List (Char × Char))
  deriving Repr, DecidableEq

/-- **A pattern**, token by token. -/
abbrev NamePattern := List NameToken

/-- What is wrong with a pattern. -/
inductive PatternDefect where
  | manyStars
  | partialStars
  | openRange
  deriving Repr, DecidableEq

/-- The wording of a defect. -/
def PatternDefect.message : PatternDefect → String
  | .manyStars => "wildcards are either regular `*` or recursive `**`"
  | .partialStars => "recursive wildcards must form a single path component"
  | .openRange => "invalid range pattern"

/-- A defect with its place in the pattern, counted in characters. -/
structure PatternFault where
  position : Nat
  defect : PatternDefect
  deriving Repr, DecidableEq

/-- The wording of a fault. -/
def PatternFault.message (fault : PatternFault) : String :=
  "Pattern syntax error near position " ++ toString fault.position ++ ": " ++
    fault.defect.message

namespace NamePattern

/-! ### Reading -/

/-- The ranges that a class lists.  A character alone is a range of its own. -/
def ranges : List Char → List (Char × Char)
  | low :: '-' :: high :: rest => (low, high) :: ranges rest
  | c :: rest => (c, c) :: ranges rest
  | [] => []

/-- The class after an opening bracket, and the number of characters that it takes.  The first
character of a class never closes it. -/
def class? (text : List Char) : Option (NameToken × Nat) :=
  let close? (listed : List Char) : Option Nat := (listed.drop 1).findIdx? (· = ']')
  match text with
  | '!' :: listed =>
    (close? listed).map fun n => (.oneOf true (ranges (listed.take (n + 1))), n + 3)
  | listed => (close? listed).map fun n =>
    (.oneOf false (ranges (listed.take (n + 1))), n + 2)

/-- The tokens of a text that stands at a position, after a character if there is one before
it. -/
def tokens : (fuel : Nat) → (before : Option Char) → (position : Nat) → List Char →
    Except PatternFault NamePattern
  | 0, _, _, _ => .ok []
  | _, _, _, [] => .ok []
  | fuel + 1, before, position, c :: rest =>
    if c = '?' then (tokens fuel (some c) (position + 1) rest).map (.anyChar :: ·)
    else if c = '*' then
      match (c :: rest).takeWhile (· = '*') |>.length with
      | 1 => (tokens fuel (some c) (position + 1) rest).map (.anyText :: ·)
      | 2 =>
        if before.any (· ≠ '/') then .error ⟨position - 1, .partialStars⟩
        else
          match rest.drop 1 with
          | [] => .ok [.anyFolders]
          | '/' :: rest => (tokens fuel (some '/') (position + 3) rest).map (.anyFolders :: ·)
          | _ => .error ⟨position + 2, .partialStars⟩
      | _ => .error ⟨position + 2, .manyStars⟩
    else if c = '[' then
      match class? rest with
      | none => .error ⟨position, .openRange⟩
      | some (token, taken) =>
        (tokens fuel (rest[taken - 1]?) (position + 1 + taken)
          (rest.drop taken)).map (token :: ·)
    else (tokens fuel (some c) (position + 1) rest).map (.char c :: ·)

/-- **The pattern that a text writes.** -/
def ofText (text : List Char) : Except PatternFault NamePattern :=
  tokens (text.length + 1) none 0 text

/-! ### Matching -/

/-- The pattern is two stars, which stand for any number of folders. -/
def isRecursive (pattern : NamePattern) : Bool := pattern = [.anyFolders]

/-- The text of a pattern that stands for nothing but itself. -/
def literal? (pattern : NamePattern) : Option (List Char) :=
  pattern.mapM fun
    | .char c => some c
    | _ => none

/-- A token stands for a character. -/
def accepts (token : NameToken) (c : Char) : Bool :=
  match token with
  | .char d => c = d
  | .anyChar => true
  | .oneOf negated ranges =>
    (ranges.any fun range => range.1 ≤ c && c ≤ range.2) != negated
  | .anyText | .anyFolders => false

/-- Some tail of a text has a property. -/
def anyTail (p : List Char → Bool) : List Char → Bool
  | [] => p []
  | c :: rest => p (c :: rest) || anyTail p rest

/-- **A pattern stands for a text.** -/
def fits : NamePattern → List Char → Bool
  | [], text => text.isEmpty
  | .anyText :: rest, text | .anyFolders :: rest, text => anyTail (fits rest) text
  | _ :: _, [] => false
  | token :: rest, c :: text => accepts token c && fits rest text

end NamePattern

example : (NamePattern.ofText "a/**/*.y[ab-d]?".toList).toOption =
    some [.char 'a', .char '/', .anyFolders, .anyText, .char '.', .char 'y',
      .oneOf false [('a', 'a'), ('b', 'd')], .anyChar] := by decide +kernel

example : ["***", "a**", "**a", "[ab", "[!]"].map (fun s =>
      match NamePattern.ofText s.toList with
      | .error fault => some fault
      | .ok _ => none) =
    [some ⟨2, .manyStars⟩, some ⟨0, .partialStars⟩, some ⟨2, .partialStars⟩,
      some ⟨0, .openRange⟩, some ⟨0, .openRange⟩] := by decide +kernel

end InfraScan
