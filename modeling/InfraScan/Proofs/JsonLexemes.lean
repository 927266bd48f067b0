import InfraScan.Json.Reader
import Mathlib.Data.List.Basic

/-!
# Where the parts of a JSON text end

Numbers, words and strings end where their own characters end, and what stands behind them
does not matter to them.

* `Json.EndsNumber` — texts that no number runs on into
* `Json.Number.read_append` — a number with more text behind it
* `Json.expect?_append`, `Json.readString_append` — words and strings with more text behind
  them
* `Json.skipSpace_append`, `Json.skipSpace_append_mark` — blanks with more text behind them

### What is load-bearing

Only a number has no mark at its end.  A number at the end of a text would run on into a digit
that is put behind it, so the text behind has to begin with a character that no number has.
-/

namespace InfraScan.Json

/-! ### Numbers -/

/-- **A text that no number runs on into**: it does not begin with a character of a number. -/
def EndsNumber (text : List Char) : Prop :=
  ∀ c ∈ text.head?, c.isDigit = false ∧ c ∉ ['+', '-', '.', 'e', 'E']

theorem endsNumber_cons {c : Char} {text : List Char} :
    EndsNumber (c :: text) ↔
      c.isDigit = false ∧ c ≠ '+' ∧ c ≠ '-' ∧ c ≠ '.' ∧ c ≠ 'e' ∧ c ≠ 'E' := by
  simp [EndsNumber]

/-- What is read, with more text behind it. -/
def before {α : Type} (back : List Char) (read : Option (α × List Char)) :
    Option (α × List Char) :=
  read.map (Prod.map id (· ++ back))

section Numbers

variable {back : List Char}

theorem takeWhile_isDigit_append (ends : EndsNumber back) (text : List Char) :
    (text ++ back).takeWhile Char.isDigit = text.takeWhile Char.isDigit := by
  induction text with
  | nil =>
    cases back with
    | nil => rfl
    | cons c rest => simp [(endsNumber_cons.1 ends).1]
  | cons c rest ih =>
    rw [List.cons_append, List.takeWhile_cons, List.takeWhile_cons, ih]

theorem dropWhile_isDigit_append (ends : EndsNumber back) (text : List Char) :
    (text ++ back).dropWhile Char.isDigit = text.dropWhile Char.isDigit ++ back := by
  induction text with
  | nil =>
    cases back with
    | nil => rfl
    | cons c rest => simp [(endsNumber_cons.1 ends).1]
  | cons c rest ih =>
    rw [List.cons_append, List.dropWhile_cons, List.dropWhile_cons, ih]
    split <;> rfl

/-- The sign of an exponent, and the text after it. -/
def exponentSign : List Char → Bool × List Char
  | '+' :: rest => (false, rest)
  | '-' :: rest => (true, rest)
  | rest => (false, rest)

/-- The exponent part of a literal after its sign. -/
def exponentDigits (negative : Bool) (significand : Nat) (start : Int) (down : Bool)
    (text : List Char) : Option (Number × List Char) :=
  let digits := text.takeWhile Char.isDigit
  let rest := text.dropWhile Char.isDigit
  if digits = [] then none
  else
    let e := digits.foldl (fun acc d => acc * 10 + digitValue d) 0
    if 0x80000000 ≤ e then
      if significand ≠ 0 && !down then none
      else some (.float (if negative then -0.0 else 0.0), rest)
    else (double negative significand (if down then start - e else start + e)).map (·, rest)

theorem readExponent_eq (negative : Bool) (significand : Nat) (start : Int)
    (text : List Char) :
    readExponent negative significand start text =
      exponentDigits negative significand start (exponentSign text).1 (exponentSign text).2 :=
        rfl

theorem exponentSign_append (ends : EndsNumber back) (text : List Char) :
    exponentSign (text ++ back) = Prod.map id (· ++ back) (exponentSign text) := by
  rcases text with - | ⟨c, rest⟩
  · rcases back with - | ⟨c, rest⟩
    · rfl
    · simp [exponentSign, (endsNumber_cons.1 ends).2.1, (endsNumber_cons.1 ends).2.2]
  · by_cases plus : c = '+'
    · simp [exponentSign, plus]
    · by_cases minus : c = '-'
      · simp [exponentSign, minus]
      · simp [exponentSign, plus, minus]

theorem readExponent_append (ends : EndsNumber back) (negative : Bool) (significand : Nat)
    (start : Int) (text : List Char) :
    readExponent negative significand start (text ++ back) =
      before back (readExponent negative significand start text) := by
  rw [readExponent_eq, readExponent_eq, exponentSign_append ends]
  generalize exponentSign text = sign
  simp only [exponentDigits, Prod.map_fst, Prod.map_snd, id, takeWhile_isDigit_append ends,
    dropWhile_isDigit_append ends]
  split
  · rfl
  · split
    · split <;> rfl
    · simp [before, Function.comp_def]

theorem readFraction_append (ends : EndsNumber back) (negative : Bool) (significand : Nat)
    (start : Int) (text : List Char) :
    readFraction negative significand start (text ++ back) =
      before back (readFraction negative significand start text) := by
  unfold readFraction
  simp only [takeWhile_isDigit_append ends, dropWhile_isDigit_append ends]
  split
  · rfl
  · generalize text.dropWhile Char.isDigit = rest
    rcases rest with - | ⟨c, rest⟩
    · rcases back with - | ⟨c, more⟩
      · simp [before, Function.comp_def]
      · simp [before, Function.comp_def, (endsNumber_cons.1 ends).2]
    · by_cases small : c = 'e'
      · subst small
        exact readExponent_append ends _ _ _ _
      · by_cases large : c = 'E'
        · subst large
          exact readExponent_append ends _ _ _ _
        · simp [before, Function.comp_def, small, large]

theorem readUnsigned_append (ends : EndsNumber back) (negative : Bool) (text : List Char) :
    readUnsigned negative (text ++ back) = before back (readUnsigned negative text) := by
  unfold readUnsigned
  simp only [takeWhile_isDigit_append ends, dropWhile_isDigit_append ends]
  split
  · rfl
  · generalize text.dropWhile Char.isDigit = rest
    rcases rest with - | ⟨c, rest⟩
    · rcases back with - | ⟨c, more⟩
      · simp [before, apply_ite (Option.map _), Function.comp_def]
      · simp [before, apply_ite (Option.map _), Function.comp_def, (endsNumber_cons.1 ends).2]
    · by_cases point : c = '.'
      · subst point
        exact readFraction_append ends _ _ _ _
      · by_cases small : c = 'e'
        · subst small
          exact readExponent_append ends _ _ _ _
        · by_cases large : c = 'E'
          · subst large
            exact readExponent_append ends _ _ _ _
          · simp [before, apply_ite (Option.map _), Function.comp_def, point, small, large]

/-- **What stands behind a number does not matter to it**, as long as the number does not run
on. -/
theorem Number.read_append (ends : EndsNumber back) (text : List Char) :
    Number.read (text ++ back) = before back (Number.read text) := by
  rcases text with - | ⟨c, rest⟩
  · rcases back with - | ⟨c, more⟩
    · rfl
    · have unsigned := readUnsigned_append ends false []
      simpa [Number.read, (endsNumber_cons.1 ends).2] using unsigned
  · by_cases minus : c = '-'
    · subst minus
      exact readUnsigned_append ends true rest
    · have unsigned := readUnsigned_append ends false (c :: rest)
      simpa [Number.read, minus] using unsigned

/-- A number begins with a minus sign or a digit. -/
theorem Number.head_of_read {text rest : List Char} {n : Number}
    (read : Number.read text = some (n, rest)) :
    ∃ c more, text = c :: more ∧ (c = '-' ∨ c.isDigit = true) := by
  rcases text with - | ⟨c, more⟩
  · cases read
  · refine ⟨c, more, rfl, or_iff_not_imp_left.2 fun minus => ?_⟩
    by_contra letter
    simp [Number.read, minus, readUnsigned, letter] at read

end Numbers

/-! ### Words and strings -/

theorem expect?_eq_some_iff {word : String} {text rest : List Char} :
    expect? word text = some rest ↔ text = word.toList ++ rest := by
  unfold expect?
  constructor
  · intro read
    split at read
    · rename_i front
      obtain ⟨behind, rfl⟩ := List.isPrefixOf_iff_prefix.1 front
      rw [← String.length_toList, List.drop_left, Option.some.injEq] at read
      rw [read]
    · cases read
  · rintro rfl
    rw [if_pos (List.isPrefixOf_iff_prefix.2
      (List.prefix_append _ _)), ← String.length_toList, List.drop_left]

theorem expect?_append {word : String} {text rest : List Char}
    (read : expect? word text = some rest) (back : List Char) :
    expect? word (text ++ back) = some (rest ++ back) := by
  rw [expect?_eq_some_iff] at read ⊢
  rw [read, List.append_assoc]

/-- Four characters at the front stay there with more text behind them. -/
theorem take_four_append {text : List Char} (whole : (text.take 4).length = 4)
    (back : List Char) :
    (text ++ back).take 4 = text.take 4 ∧ (text ++ back).drop 4 = text.drop 4 ++ back := by
  have four : 4 ≤ text.length := by
    rw [List.length_take] at whole
    omega
  exact ⟨List.take_append_of_le_length four, List.drop_append_of_le_length four⟩

theorem readUnicode_append {text rest : List Char} {c : Char}
    (read : readUnicode text = some (c, rest)) (back : List Char) :
    readUnicode (text ++ back) = some (c, rest ++ back) := by
  unfold readUnicode at read ⊢
  by_cases whole : (text.take 4).length = 4
  · obtain ⟨front, behind⟩ := take_four_append whole back
    simp only [front, behind, whole, ne_eq, not_true_eq_false, if_false, Option.bind_eq_bind,
      Option.bind_eq_some_iff] at read ⊢
    obtain ⟨unit, digits, read⟩ := read
    refine ⟨unit, digits, ?_⟩
    by_cases low : (decide (0xDC00 ≤ unit) && decide (unit ≤ 0xDFFF)) = true
    · rw [if_pos low] at read
      cases read
    · by_cases high : (decide (0xD800 ≤ unit) && decide (unit ≤ 0xDBFF)) = true
      · rw [if_neg low, if_pos high] at read ⊢
        split at read
        · -- The escape of the low surrogate has four digits of its own.
          rename_i tail second
          rw [second]
          by_cases whole' : (tail.take 4).length = 4
          · obtain ⟨front', behind'⟩ := take_four_append whole' back
            simp only [List.cons_append, front', behind', whole', not_true_eq_false, if_false,
              Option.bind_eq_some_iff] at read ⊢
            obtain ⟨unit', digits', read⟩ := read
            refine ⟨unit', digits', ?_⟩
            split at read
            · rename_i low'
              rw [if_pos low']
              obtain ⟨rfl, rfl⟩ := Prod.mk.inj (Option.some.inj read)
              rfl
            · cases read
          · rw [if_pos whole'] at read
            cases read
        · cases read
      · rw [if_neg low, if_neg high] at read ⊢
        obtain ⟨rfl, rfl⟩ := Prod.mk.inj (Option.some.inj read)
        rfl
  · simp only [whole, ne_eq, not_false_eq_true, if_true] at read
    cases read

/-- A character that is neither a quote nor an escape stands for itself. -/
theorem readString_cons {fuel : Nat} {c : Char} {rest : List Char} (quote : c ≠ '"')
    (plain : ¬ (decide (c = '\\') || decide (c.toNat < 0x20)) = true) :
    readString (fuel + 1) (c :: rest) =
      (readString fuel rest).map fun read => (c :: read.1, read.2) := by
  have slash : c ≠ '\\' := fun same => plain (by simp [same])
  rw [readString]
  · rw [if_neg plain]
    cases readString fuel rest <;> rfl
  · exact quote
  · intro _ same
    exact absurd same slash
  · intro _ _ same
    exact absurd same slash

/-- **A string ends at its closing quote**: neither what stands behind it nor more fuel
matters. -/
theorem readString_append {fuel more : Nat} {text rest chars : List Char}
    (read : readString fuel text = some (chars, rest)) (enough : fuel ≤ more)
    (back : List Char) :
    readString more (text ++ back) = some (chars, rest ++ back) := by
  induction fuel generalizing more text rest chars with
  | zero => simp [readString] at read
  | succ fuel ih =>
    obtain ⟨more, rfl⟩ := Nat.exists_eq_add_of_le' (Nat.one_le_of_lt enough)
    have enough := Nat.le_of_succ_le_succ enough
    unfold readString at read
    split at read
    · cases read
    · cases read
    · obtain ⟨rfl, rfl⟩ := Prod.mk.inj (Option.some.inj read)
      rfl
    · rename_i same
      obtain rfl := Nat.succ.inj same
      obtain ⟨⟨c, behind⟩, escape, read⟩ := Option.bind_eq_some_iff.1 read
      obtain ⟨⟨tail, last⟩, later, read⟩ := Option.bind_eq_some_iff.1 read
      obtain ⟨rfl, rfl⟩ := Prod.mk.inj (Option.some.inj read)
      simp [readString, readUnicode_append escape back, ih later enough]
    · rename_i same
      obtain rfl := Nat.succ.inj same
      obtain ⟨c, escape, read⟩ := Option.bind_eq_some_iff.1 read
      obtain ⟨⟨tail, last⟩, later, read⟩ := Option.bind_eq_some_iff.1 read
      obtain ⟨rfl, rfl⟩ := Prod.mk.inj (Option.some.inj read)
      simp [readString, escape, ih later enough]
    · rename_i quote _ _ same
      obtain rfl := Nat.succ.inj same
      split at read
      · cases read
      · rename_i plain
        obtain ⟨⟨tail, last⟩, later, read⟩ := Option.bind_eq_some_iff.1 read
        obtain ⟨rfl, rfl⟩ := Prod.mk.inj (Option.some.inj read)
        rw [List.cons_append, readString_cons quote plain, ih later enough, Option.map_some]

/-! ### Blanks -/

theorem skipSpace_append {text rest : List Char} {c : Char}
    (front : skipSpace text = c :: rest) (back : List Char) :
    skipSpace (text ++ back) = c :: rest ++ back := by
  unfold skipSpace at front ⊢
  rw [List.dropWhile_append, front]
  rfl

/-- Blanks before a mark are skipped. -/
theorem skipSpace_append_mark {text : List Char} {mark : Char} (blank : skipSpace text = [])
    (visible : isSpace mark = false) (back : List Char) :
    skipSpace (text ++ mark :: back) = mark :: back := by
  unfold skipSpace at blank ⊢
  rw [List.dropWhile_append, blank]
  simp [visible]

end InfraScan.Json
