import InfraScan.FileTree.Pattern
import Mathlib.Data.List.Basic

/-!
# Plain texts in patterns

A text without the characters that mean something in a pattern stands for itself there,
whatever comes behind it.

* `NamePattern.IsPlain` — the texts without `?`, `*` and `[`
* `NamePattern.tokens_plain_append`, `NamePattern.ofText_plain` — a plain text is read as
  itself
* `NamePattern.fits_star_iff` — a star with a plain text stands for what ends in the text
-/

namespace InfraScan.NamePattern

variable {text suffix name : List Char} {fuel position : Nat} {before : Option Char}

/-- The pattern that stands for a text and nothing else. -/
def literal (text : List Char) : NamePattern := text.map .char

/-- **A text without wildcards.** -/
def IsPlain (text : List Char) : Prop := ∀ c ∈ text, c ∉ ['?', '*', '[']

-- The instance for lists is named, because the one for finite types goes through all
-- characters there are.
instance : DecidablePred IsPlain := fun text => List.decidableBAll _ text

theorem IsPlain.mono {part : List Char} (plain : IsPlain text) (inside : part ⊆ text) :
    IsPlain part := fun c mem => plain c (inside mem)

theorem literal?_literal (text : List Char) : literal? (literal text) = some text := by
  induction text with
  | nil => rfl
  | cons c text ih =>
    rw [literal?, literal] at ih
    rw [literal?, literal, List.map_cons, List.mapM_cons, ih]
    rfl

theorem isRecursive_literal (text : List Char) : isRecursive (literal text) = false := by
  cases text <;> simp [isRecursive, literal]

/-! ### Reading -/

theorem tokens_char {c : Char} (plain : c ∉ ['?', '*', '[']) (rest : List Char) :
    tokens (fuel + 1) before position (c :: rest) =
      (tokens fuel (some c) (position + 1) rest).map (.char c :: ·) := by
  simp only [List.mem_cons, List.not_mem_nil, or_false, not_or] at plain
  rw [tokens, if_neg plain.1, if_neg plain.2.1, if_neg plain.2.2]

/-- **A plain text is read as itself**, and what is behind it as if it stood alone. -/
theorem tokens_plain_append (plain : IsPlain text) (rest : List Char) :
    tokens (fuel + text.length) before position (text ++ rest) =
      (tokens fuel (text.getLast?.or before) (position + text.length) rest).map
        (literal text ++ ·) := by
  induction text generalizing before position with
  | nil =>
    show tokens fuel before position rest = (tokens fuel before position rest).map id
    cases tokens fuel before position rest <;> rfl
  | cons c text ih =>
    have last : (c :: text).getLast?.or before = text.getLast?.or (some c) := by
      rw [List.getLast?_cons]
      cases text.getLast? <;> rfl
    have onward : tokens (fuel + text.length) (some c) (position + 1) (text ++ rest) = _ :=
      ih (plain.mono (List.subset_cons_self c text))
    rw [List.length_cons, ← Nat.add_assoc, List.cons_append,
      tokens_char (plain c List.mem_cons_self), onward, last, Nat.add_right_comm,
      Nat.add_assoc]
    cases tokens fuel (text.getLast?.or (some c)) (position + (text.length + 1)) rest <;> rfl

theorem tokens_plain (plain : IsPlain text) :
    tokens (fuel + 1 + text.length) before position text = .ok (literal text) := by
  have read := @tokens_plain_append text (fuel + 1) position before plain []
  rw [List.append_nil] at read
  rw [read, tokens]
  · exact congrArg Except.ok (List.append_nil _)
  · exact Nat.succ_ne_zero fuel

theorem ofText_plain (plain : IsPlain text) : ofText text = .ok (literal text) := by
  rw [ofText, Nat.add_comm, ← Nat.zero_add 1]
  exact tokens_plain plain

/-- **A star with a plain text behind it** stands for any text in front of that one. -/
theorem tokens_star (plain : IsPlain suffix) :
    tokens (fuel + 1 + suffix.length + 1) before position ('*' :: suffix) =
      .ok (.anyText :: literal suffix) := by
  have single : (('*' :: suffix).takeWhile (· = '*')).length = 1 := by
    cases suffix with
    | nil => rfl
    | cons c suffix =>
      have other : c ≠ '*' := by
        rintro rfl
        exact plain '*' List.mem_cons_self (by decide)
      simp [other]
  rw [tokens, if_neg (by decide), if_pos rfl, single, tokens_plain plain]
  rfl

theorem ofText_star (plain : IsPlain suffix) :
    ofText ('*' :: suffix) = .ok (.anyText :: literal suffix) := by
  rw [ofText, List.length_cons, Nat.add_comm suffix.length, ← Nat.zero_add 1]
  exact tokens_star plain

theorem ofText_stars : ofText ['*', '*'] = .ok [.anyFolders] := rfl

/-- **Two stars between slashes** stand for any number of folders. -/
theorem tokens_stars (plain : IsPlain suffix) :
    tokens (fuel + 1 + suffix.length + 2) (some '/') position
        ('*' :: '*' :: '/' :: '*' :: suffix) =
          .ok (.anyFolders :: .anyText :: literal suffix) := by
  have pair : (('*' :: '*' :: '/' :: '*' :: suffix).takeWhile (· = '*')).length = 2 := rfl
  rw [tokens, if_neg (by decide), if_pos rfl, pair]
  show (tokens (fuel + 1 + suffix.length + 1) (some '/') (position + 3) ('*' :: suffix)).map
    (.anyFolders :: ·) = _
  rw [tokens_star plain]
  rfl

/-- **A pattern for all names with an ending below a folder** can be read if the path of the
folder is plain. -/
theorem exists_ofText_below (plain : IsPlain text) (ending : IsPlain suffix) :
    ∃ pattern, ofText (text ++ '/' :: '*' :: '*' :: '/' :: '*' :: suffix) = .ok pattern := by
  have front : IsPlain (text ++ ['/']) := by
    intro c mem
    rcases List.mem_append.1 mem with inText | slash
    · exact plain c inText
    · obtain rfl := List.mem_singleton.1 slash
      decide
  have whole : text ++ '/' :: '*' :: '*' :: '/' :: '*' :: suffix =
      (text ++ ['/']) ++ '*' :: '*' :: '/' :: '*' :: suffix := List.append_cons _ _ _
  have fuel : (text ++ '/' :: '*' :: '*' :: '/' :: '*' :: suffix).length + 1 =
      2 + 1 + suffix.length + 2 + (text ++ ['/']).length := by
    simp only [List.length_append, List.length_cons, List.length_nil]
    omega
  have slash : (text ++ ['/']).getLast?.or none = some '/' := by
    rw [List.getLast?_concat, Option.some_or]
  rw [ofText, fuel, whole, tokens_plain_append front, slash, tokens_stars ending]
  exact ⟨_, rfl⟩

/-! ### Matching -/

theorem fits_literal_iff : fits (literal text) name = true ↔ name = text := by
  induction text generalizing name with
  | nil => rw [literal, List.map_nil, fits, List.isEmpty_iff]
  | cons c text ih =>
    cases name with
    | nil => simp [literal, fits]
    | cons d name =>
      rw [literal, List.map_cons, fits, ← literal, Bool.and_eq_true, ih, accepts,
        decide_eq_true_eq, List.cons_eq_cons, eq_comm]
      all_goals nofun

theorem anyTail_iff {p : List Char → Bool} :
    anyTail p name = true ↔ ∃ tail, tail <:+ name ∧ p tail = true := by
  induction name with
  | nil => simp [anyTail]
  | cons c name ih =>
    rw [anyTail, Bool.or_eq_true, ih]
    constructor
    · rintro (here | ⟨tail, inside, holds⟩)
      · exact ⟨_, List.suffix_rfl, here⟩
      · exact ⟨tail, inside.trans (List.suffix_cons c name), holds⟩
    · rintro ⟨tail, inside, holds⟩
      rcases List.suffix_cons_iff.1 inside with rfl | later
      · exact .inl holds
      · exact .inr ⟨tail, later, holds⟩

/-- **A star with a text behind it stands for what ends in the text.** -/
theorem fits_star_iff : fits (.anyText :: literal suffix) name = true ↔ suffix <:+ name := by
  rw [fits, anyTail_iff]
  simp only [fits_literal_iff, exists_eq_right]

end InfraScan.NamePattern
