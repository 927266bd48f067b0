/-!
# Blank characters

Everything that is trimmed or skipped in this library is measured by one character class: the
`White_Space` property of the Unicode character database.  It is written here as a table of
code point ranges, so that the class is data and not an accident of a runtime.

* `isBlank` — membership in the class
* `trimStart`, `trimEnd`, `trim` — the text without blank characters at its ends
* `allBlank` — the text holds nothing else

`isBlank_of_isWhitespace` relates the class to the ASCII class of the core library: it only
adds characters.
-/

namespace InfraScan.Text

/-- The code point ranges of the `White_Space` property, both ends included. -/
def blankRanges : List (Nat × Nat) :=
  [(0x09, 0x0D), (0x20, 0x20), (0x85, 0x85), (0xA0, 0xA0), (0x1680, 0x1680), (0x2000, 0x200A),
   (0x2028, 0x2029), (0x202F, 0x202F), (0x205F, 0x205F), (0x3000, 0x3000)]

/-- A character is blank when it has the `White_Space` property. -/
def isBlank (c : Char) : Bool :=
  blankRanges.any fun range => range.1 ≤ c.toNat && c.toNat ≤ range.2

/-- The ranges are in increasing order and do not touch. -/
example : blankRanges.Pairwise (fun a b => a.2 + 1 < b.1) := by decide

/-- The class has twenty-five members. -/
example : (blankRanges.map fun range => range.2 + 1 - range.1).sum = 25 := by decide

/-- Every blank character of the core library's ASCII class is blank here. -/
theorem isBlank_of_isWhitespace {c : Char} (h : c.isWhitespace = true) :
    isBlank c = true := by
  simp only [Char.isWhitespace, Bool.or_eq_true, decide_eq_true_eq] at h
  rcases h with ((h | h) | h) | h <;> subst h <;> decide

/-! ### Trimming -/

/-- The text after its leading blank characters. -/
def trimStart (text : List Char) : List Char := text.dropWhile isBlank

/-- The text before the longest tail whose characters all satisfy `p`. -/
def dropTail (p : Char → Bool) (text : List Char) : List Char :=
  (text.reverse.dropWhile p).reverse

/-- The text before its trailing blank characters. -/
def trimEnd (text : List Char) : List Char := dropTail isBlank text

/-- The text without blank characters at either end. -/
def trim (text : List Char) : List Char := trimEnd (trimStart text)

/-- The text holds no character that is not blank. -/
def allBlank (text : List Char) : Bool := text.all isBlank

/-- `trim` on strings. -/
def trimmed (text : String) : String := String.ofList (trim text.toList)

/-- `allBlank` on strings. -/
def isBlankText (text : String) : Bool := allBlank text.toList

@[simp] theorem trim_nil : trim [] = [] := rfl

@[simp] theorem dropTail_nil (p : Char → Bool) : dropTail p [] = [] := rfl

end InfraScan.Text
