import InfraScan.Text.Lines
import Mathlib.Data.List.DropRight
import Mathlib.Data.List.TakeWhile

/-!
# Laws of texts

What trimming leaves, and what the lines of a text are made of.

* `separated_induction` — induction over the runs between separators
* `append_mark_inj` — what stands before the first mark can be read back
* `isBlank_of_visible` — characters that are never blank
* `trim_trim` — a trimmed text stays as it is
* `trim_eq_nil_iff` — nothing is left of a blank text
* `trim_padded` — blanks around a trimmed text are taken off again
* `exists_eq_append_trim` — nothing else is taken off
* `head?_trim` — a trimmed text begins with the first character that is not blank
* `not_of_getLast?_dropTail` — the end of what `dropTail` leaves
* `newline_not_mem_of_mem_lines` — no line holds a line feed
* `pieces_eq_splitOn`, `lines_joinLines` — lines that are joined and cut again
* `length_lines_le` — there are no more lines than characters
* `Whole`, `lines_append` — a text of whole lines, and the lines of a text behind it
-/

namespace InfraScan.Text

/-! ### Separators -/

/-- **A list is a run without a separator, or such a run with a separator and a list behind
it.** -/
@[elab_as_elim]
theorem separated_induction {α : Type} {separates : α → Bool} {motive : List α → Prop}
    (last : ∀ run, (∀ a ∈ run, separates a = false) → motive run)
    (more : ∀ run separator rest, (∀ a ∈ run, separates a = false) →
      separates separator = true → motive rest → motive (run ++ separator :: rest))
    (list : List α) : motive list := by
  -- The induction needs the run that has been read so far.
  have behind (run : List α) (unseparated : ∀ a ∈ run, separates a = false) :
      motive (run ++ list) := by
    induction list generalizing run with
    | nil =>
      rw [List.append_nil]
      exact last run unseparated
    | cons a rest ih =>
      cases kind : separates a with
      | true => exact more run a rest unseparated kind (ih [] fun _ mem => nomatch mem)
      | false =>
        have longer : ∀ b ∈ run ++ [a], separates b = false := by
          intro b mem
          rcases List.mem_append.1 mem with earlier | here
          · exact unseparated b earlier
          · rwa [List.mem_singleton.1 here]
        have step := ih (run ++ [a]) longer
        rwa [List.append_assoc, List.singleton_append] at step
  exact behind [] fun _ mem => nomatch mem

/-- **What stands before the first mark can be read back**, and so can what stands behind
it. -/
theorem append_mark_inj {mark : Char} {front front' back back' : List Char}
    (clean : mark ∉ front) (clean' : mark ∉ front') :
    front ++ mark :: back = front' ++ mark :: back' ↔ front = front' ∧ back = back' := by
  have read {run : List Char} (unmarked : mark ∉ run) (behind : List Char) :
      (run ++ mark :: behind).takeWhile (· ≠ mark) = run := by
    have passed : ∀ letter ∈ run, decide (letter ≠ mark) = true := by
      intro letter mem
      have different : letter ≠ mark := fun same => unmarked (same ▸ mem)
      simpa using different
    rw [List.takeWhile_append_of_pos passed]
    simp
  constructor
  · intro same
    have fronts : front = front' := by
      rw [← read clean back, same, read clean' back']
    subst fronts
    rw [List.append_cancel_left_eq, List.cons.injEq] at same
    exact ⟨rfl, same.2⟩
  · rintro ⟨rfl, rfl⟩
    rfl

/-! ### Blanks -/

/-- The characters of ASCII from the exclamation mark to the tilde are not blank. -/
theorem isBlank_of_visible {c : Char} (low : 0x21 ≤ c.toNat) (high : c.toNat ≤ 0x7E) :
    isBlank c = false := by
  have apart : ∀ range ∈ blankRanges, range.2 < 0x21 ∨ 0x7E < range.1 := by decide
  rw [Bool.eq_false_iff, ne_eq, isBlank, List.any_eq_true]
  rintro ⟨range, mem, inside⟩
  rw [Bool.and_eq_true, decide_eq_true_eq, decide_eq_true_eq] at inside
  have outside := apart range mem
  omega

/-! ### Trimming -/

theorem dropTail_prefix (p : Char → Bool) (text : List Char) : dropTail p text <+: text :=
  List.rdropWhile_prefix p text

/-- What is left does not end in a character that was to be dropped. -/
theorem not_of_getLast?_dropTail {p : Char → Bool} {text : List Char} {c : Char}
    (last : (dropTail p text).getLast? = some c) : p c = false := by
  have inhabited : dropTail p text ≠ [] := by
    intro nothing
    rw [nothing] at last
    cases last
  rw [List.getLast?_eq_some_getLast inhabited] at last
  obtain rfl := Option.some.inj last
  exact Bool.eq_false_iff.2 (List.rdropWhile_last_not p text inhabited)

/-- What is dropped from the front of a text is dropped as far as it can be. -/
theorem not_of_mem_head?_dropWhile {p : Char → Bool} {text : List Char} :
    ∀ c ∈ (text.dropWhile p).head?, p c = false := by
  intro c mem
  have stopped := List.head?_dropWhile_not p text
  rw [Option.mem_def.1 mem] at stopped
  exact stopped

/-- Nothing is dropped from a text whose front does not fit. -/
theorem dropWhile_of_head? {p : Char → Bool} {text : List Char}
    (stop : ∀ c ∈ text.head?, p c = false) : text.dropWhile p = text := by
  cases text with
  | nil => rfl
  | cons c rest => exact List.dropWhile_cons_of_neg (Bool.eq_false_iff.1 (stop c rfl))

/-- A trimmed text does not begin with a blank: what is dropped from its end leaves its
front. -/
theorem trimStart_trim (text : List Char) : trimStart (trim text) = trim text := by
  refine List.dropWhile_eq_self_iff.2 fun inhabited => ?_
  obtain ⟨tail, whole⟩ := dropTail_prefix isBlank (trimStart text)
  change trim text ++ tail = trimStart text at whole
  have front : ∀ inhabited : 0 < (trimStart text).length, ¬isBlank (trimStart text)[0] :=
    List.dropWhile_eq_self_iff.1 (List.dropWhile_idempotent isBlank text)
  simp only [← whole] at front
  have nonempty : 0 < (trim text ++ tail).length := by
    rw [List.length_append]
    omega
  have first := front nonempty
  rwa [List.getElem_append_left inhabited] at first

/-- **A trimmed text stays as it is.** -/
theorem trim_trim (text : List Char) : trim (trim text) = trim text := by
  show trimEnd (trimStart (trim text)) = trim text
  rw [trimStart_trim]
  exact List.rdropWhile_idempotent isBlank (trimStart text)

/-- What is left of a text is a part of it. -/
theorem trim_infix (text : List Char) : trim text <:+: text := by
  have front : trim text <+: trimStart text := dropTail_prefix isBlank (trimStart text)
  have back : trimStart text <:+ text := List.dropWhile_suffix isBlank
  exact front.isInfix.trans back.isInfix

/-- **Trimming takes off again what blanks are put around a trimmed text.** -/
theorem trim_padded {text front back : List Char} (nonempty : text ≠ [])
    (trimmed : trim text = text) (blankFront : ∀ c ∈ front, isBlank c = true)
    (blankBack : ∀ c ∈ back, isBlank c = true) : trim (front ++ (text ++ back)) = text := by
  have start : trimStart text = text := by
    rw [← trimmed, trimStart_trim]
  have solid : ∀ c ∈ (text ++ back).head?, isBlank c = false := by
    rw [List.head?_append_of_ne_nil _ nonempty, ← start]
    exact not_of_mem_head?_dropWhile
  have uncovered : trimStart (front ++ (text ++ back)) = text ++ back :=
    (List.dropWhile_append_of_pos blankFront).trans (dropWhile_of_head? solid)
  have blankTail : ∀ c ∈ back.reverse, isBlank c = true := fun c mem =>
    blankBack c (List.mem_reverse.1 mem)
  calc trim (front ++ (text ++ back))
      = trimEnd (text ++ back) := congrArg trimEnd uncovered
    _ = trimEnd text := by
      rw [trimEnd, trimEnd, dropTail, dropTail, List.reverse_append,
        List.dropWhile_append_of_pos blankTail]
    _ = trim text := congrArg trimEnd start.symm
    _ = text := trimmed

/-- What is taken off by trimming are blanks. -/
theorem exists_eq_append_trim (text : List Char) :
    ∃ front back, text = front ++ (trim text ++ back) ∧
      (∀ c ∈ front, isBlank c = true) ∧ ∀ c ∈ back, isBlank c = true := by
  refine ⟨text.takeWhile isBlank, ((trimStart text).reverse.takeWhile isBlank).reverse, ?_,
    fun c mem => List.mem_takeWhile_imp mem, fun c mem => ?_⟩
  · calc text
        = text.takeWhile isBlank ++ trimStart text := List.takeWhile_append_dropWhile.symm
      _ = text.takeWhile isBlank ++ ((trimStart text).reverse.takeWhile isBlank ++
            (trimStart text).reverse.dropWhile isBlank).reverse := by
          rw [List.takeWhile_append_dropWhile, List.reverse_reverse]
      _ = _ := congrArg _ List.reverse_append
  · exact List.mem_takeWhile_imp (List.mem_reverse.1 mem)

/-- A text without blanks stays as it is. -/
theorem trim_of_solid {text : List Char} (solid : ∀ c ∈ text, isBlank c = false) :
    trim text = text := by
  obtain ⟨front, back, split, blankFront, blankBack⟩ := exists_eq_append_trim text
  have nothing {part : List Char} (inside : ∀ c ∈ part, c ∈ text)
      (blank : ∀ c ∈ part, isBlank c = true) : part = [] := by
    rw [List.eq_nil_iff_forall_not_mem]
    intro c mem
    have kind := blank c mem
    rw [solid c (inside c mem)] at kind
    cases kind
  have noFront : front = [] := by
    refine nothing (fun c mem => ?_) blankFront
    rw [split]
    exact List.mem_append_left _ mem
  have noBack : back = [] := by
    refine nothing (fun c mem => ?_) blankBack
    rw [split]
    exact List.mem_append_right _ (List.mem_append_right _ mem)
  rw [noFront, noBack, List.nil_append, List.append_nil] at split
  exact split.symm

/-- **Trimming leaves nothing of a blank text**, and something of every other one. -/
theorem trim_eq_nil_iff {text : List Char} : trim text = [] ↔ allBlank text = true := by
  rw [allBlank, List.all_eq_true]
  constructor
  · intro nothing
    have blankTail : ∀ c ∈ trimStart text, isBlank c = true :=
      List.rdropWhile_eq_nil_iff.1 nothing
    -- A blank character would not be at the front of what is left.
    have start : trimStart text = [] := by
      cases left : trimStart text with
      | nil => rfl
      | cons c rest =>
        have front : c ∈ (text.dropWhile isBlank).head? := by
          rw [← trimStart, left]
          rfl
        have solid : isBlank c = false := not_of_mem_head?_dropWhile c front
        rw [blankTail c (left ▸ List.mem_cons_self)] at solid
        cases solid
    exact List.dropWhile_eq_nil_iff.1 start
  · intro blank
    have start : trimStart text = [] := List.dropWhile_eq_nil_iff.2 blank
    rw [trim, start]
    rfl

/-- **A trimmed text begins with the first character that is not blank.** -/
theorem head?_trim (text : List Char) :
    (trim text).head? = text.find? fun c => !isBlank c := by
  have start : (trimStart text).head? = text.find? fun c => !isBlank c := by
    simp [trimStart, List.find?_eq_head?_dropWhile_not]
  rw [← start]
  cases left : trimStart text with
  | nil => rw [trim, left, trimEnd, dropTail_nil]
  | cons c rest =>
    -- The character at the front is not blank, so it is not dropped with what is at the end.
    have front : c ∈ (text.dropWhile isBlank).head? := by
      rw [← trimStart, left]
      rfl
    have solid : isBlank c = false := not_of_mem_head?_dropWhile c front
    have inhabited : trim text ≠ [] := by
      intro nothing
      have here : c ∈ trimStart text := by
        rw [left]
        exact List.mem_cons_self
      have blank := List.all_eq_true.1 (trim_eq_nil_iff.1 nothing) c
        ((List.dropWhile_suffix isBlank).subset here)
      rw [solid] at blank
      cases blank
    obtain ⟨tail, whole⟩ := dropTail_prefix isBlank (trimStart text)
    rw [← left, ← whole]
    exact (List.head?_append_of_ne_nil _ inhabited).symm

/-! ### Lines -/

theorem newline_not_mem_of_mem_pieces {text piece : List Char} (mem : piece ∈ pieces text) :
    '\n' ∉ piece := by
  induction text generalizing piece with
  | nil =>
    obtain rfl := List.mem_singleton.1 mem
    exact List.not_mem_nil
  | cons c rest ih =>
    unfold pieces at mem
    split at mem
    · rcases List.mem_cons.1 mem with rfl | later
      · exact List.not_mem_nil
      · exact ih later
    · rename_i different
      -- The character goes to the front of the first piece of the rest.
      cases split : pieces rest with
      | nil => exact absurd split (pieces_ne_nil rest)
      | cons front more =>
        rw [split] at mem ih
        rcases List.mem_cons.1 mem with rfl | later
        · have inFront := ih List.mem_cons_self
          intro here
          rcases List.mem_cons.1 here with same | there
          · exact different same.symm
          · exact inFront there
        · exact ih (List.mem_cons_of_mem _ later)

theorem dropReturn_prefix (line : List Char) : dropReturn line <+: line := by
  unfold dropReturn
  split
  · exact List.dropLast_prefix line
  · exact List.prefix_rfl

/-- A line is the front of a piece. -/
theorem exists_piece_of_mem_linesOfPieces {parts : List (List Char)} {line : List Char}
    (mem : line ∈ linesOfPieces parts) : ∃ piece ∈ parts, line <+: piece := by
  fun_induction linesOfPieces parts with
  | case1 => cases mem
  | case2 => cases mem
  | case3 last =>
    obtain rfl := List.mem_singleton.1 mem
    exact ⟨line, List.mem_cons_self, List.prefix_rfl⟩
  | case4 piece next more ih =>
    rcases List.mem_cons.1 mem with rfl | later
    · exact ⟨piece, List.mem_cons_self, dropReturn_prefix piece⟩
    · obtain ⟨other, present, front⟩ := ih later
      exact ⟨other, List.mem_cons_of_mem _ present, front⟩

/-- **No line holds a line feed.** -/
theorem newline_not_mem_of_mem_lines {text line : List Char} (mem : line ∈ lines text) :
    '\n' ∉ line := by
  obtain ⟨piece, present, front⟩ := exists_piece_of_mem_linesOfPieces mem
  exact fun here => newline_not_mem_of_mem_pieces present (front.subset here)

/-- The pieces of a text are those between its line feeds. -/
theorem pieces_eq_splitOn (text : List Char) : pieces text = text.splitOn '\n' := by
  induction text with
  | nil => rfl
  | cons c rest ih =>
    rw [List.splitOn_cons_eq_if_modifyHead, ← ih, pieces]
    by_cases newline : c = '\n'
    · simp [newline]
    · rw [if_neg newline, if_neg (by simpa using newline)]
      cases split : pieces rest with
      | nil => exact absurd split (pieces_ne_nil rest)
      | cons front more => rfl

/-- **Lines that are joined and cut again** lose a carriage return where a line follows, and a
last line that is empty. -/
theorem lines_joinLines {parts : List (List Char)} (clean : ∀ part ∈ parts, '\n' ∉ part) :
    lines (joinLines parts) = linesOfPieces parts := by
  by_cases nothing : parts = []
  · subst nothing
    rfl
  · rw [lines, pieces_eq_splitOn, joinLines, List.splitOn_intercalate '\n' clean nothing]

/-- **There are no more lines than characters**: a line has a character of its own, or ends in
a line feed. -/
theorem length_lines_le (text : List Char) : (lines text).length ≤ text.length := by
  unfold lines
  induction text with
  | nil => exact Nat.le_refl 0
  | cons c rest ih =>
    cases split : pieces rest with
    | nil => exact absurd split (pieces_ne_nil rest)
    | cons front more =>
      rw [split] at ih
      by_cases newline : c = '\n'
      · subst newline
        rw [pieces_cons_newline, split, linesOfPieces, List.length_cons, List.length_cons]
        exact Nat.succ_le_succ ih
      · have grown : pieces (c :: rest) = (c :: front) :: more := by
          rw [pieces, if_neg newline, split]
        rw [grown, List.length_cons]
        cases more with
        | nil => simp [linesOfPieces]
        | cons next others =>
          rw [linesOfPieces, List.length_cons] at ih ⊢
          exact Nat.le_succ_of_le ih

/-- The pieces before a line feed and those behind it. -/
theorem pieces_append_newline (front back : List Char) :
    pieces (front ++ '\n' :: back) = pieces front ++ pieces back := by
  induction front with
  | nil => rw [List.nil_append, pieces_cons_newline, pieces_nil, List.singleton_append]
  | cons c rest ih =>
    rw [List.cons_append, pieces, pieces, ih]
    by_cases newline : c = '\n'
    · rw [if_pos newline, if_pos newline, List.cons_append]
    · rw [if_neg newline, if_neg newline]
      cases split : pieces rest with
      | nil => exact absurd split (pieces_ne_nil rest)
      | cons piece more => rfl

/-- Pieces with others behind them are ended by line feeds. -/
theorem linesOfPieces_append (parts : List (List Char)) {others : List (List Char)}
    (more : others ≠ []) :
    linesOfPieces (parts ++ others) = parts.map dropReturn ++ linesOfPieces others := by
  induction parts with
  | nil => rfl
  | cons part rest ih =>
    obtain ⟨next, further, behind⟩ : ∃ next further, rest ++ others = next :: further :=
      List.exists_cons_of_ne_nil (List.append_ne_nil_of_right_ne_nil rest more)
    rw [List.cons_append, behind, linesOfPieces, ← behind, ih, List.map_cons,
      List.cons_append]

theorem lines_append_newline (front back : List Char) :
    lines (front ++ '\n' :: back) = (pieces front).map dropReturn ++ lines back := by
  rw [lines, pieces_append_newline, linesOfPieces_append _ (pieces_ne_nil back)]
  rfl

/-- **A text of whole lines**: it is empty, or its last line is ended. -/
def Whole (text : List Char) : Prop := text = [] ∨ text.getLast? = some '\n'

/-- **A text behind whole lines** adds its lines to them. -/
theorem lines_append {front : List Char} (whole : Whole front) (back : List Char) :
    lines (front ++ back) = lines front ++ lines back := by
  rcases whole with rfl | ended
  · rfl
  · obtain ⟨start, rfl⟩ := List.getLast?_eq_some_iff.1 ended
    rw [List.append_assoc, List.singleton_append, lines_append_newline, lines_append_newline,
      lines_nil, List.append_nil]

end InfraScan.Text
