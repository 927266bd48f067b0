import InfraScan.Proofs.Text

/-!
# Lines by number

`Text.lines` walks through a text and cuts it at its line feeds.  The same lines can be told
from the text alone: a line is what stands between two line feeds, and its number counts those
before it.

* `newline_induction` — a text is a line, or a line with a line feed and a text behind it
* `Stands`, `getElem?_pieces_iff` — the pieces of a text are what stands between its line
  feeds
* `LineAt` — a line of a text by its number
* `Bare`, `dropTail_return_eq_iff` — a line without the carriage returns at its end
* `getElem?_map_lines_iff` — the lines that the walk finds
* `lineCount`, `length_lines` — how many lines there are

### What is load-bearing

The walk drops one carriage return where a line feed follows and none at the end of the text,
which the number of a line does not show.  So what is said here of the lines of the walk is
said of their text without any carriage returns at its end.
-/

namespace InfraScan.Text

variable {text before piece after : List Char}

/-! ### Pieces -/

/-- **A text is a line, or a line with a line feed and a text behind it.** -/
@[elab_as_elim]
theorem newline_induction {motive : List Char → Prop}
    (last : ∀ line, '\n' ∉ line → motive line)
    (more : ∀ line rest, '\n' ∉ line → motive rest → motive (line ++ '\n' :: rest))
    (text : List Char) : motive text := by
  have clean {line : List Char} (unseparated : ∀ c ∈ line, (c == '\n') = false) :
      '\n' ∉ line := by
    intro here
    cases unseparated '\n' here
  refine @separated_induction _ (· == '\n') motive (fun line unseparated => ?_) ?_ text
  · exact last line (clean unseparated)
  · intro line separator rest unseparated separates ih
    obtain rfl := eq_of_beq separates
    exact more line rest (clean unseparated) ih

theorem pieces_of_clean (clean : '\n' ∉ piece) : pieces piece = [piece] := by
  rw [pieces_eq_splitOn]
  exact List.splitOn_eq_singleton clean

theorem pieces_clean_append (clean : '\n' ∉ piece) (rest : List Char) :
    pieces (piece ++ '\n' :: rest) = piece :: pieces rest := by
  rw [pieces_append_newline, pieces_of_clean clean, List.singleton_append]

/-- **There is one piece more than line feeds.** -/
theorem length_pieces (text : List Char) : (pieces text).length = text.count '\n' + 1 := by
  induction text using newline_induction with
  | last line clean =>
    rw [pieces_of_clean clean, List.count_eq_zero.2 clean, List.length_singleton]
  | more line rest clean ih =>
    rw [pieces_clean_append clean, List.length_cons, ih, List.count_append,
      List.count_eq_zero.2 clean, List.count_cons_self, Nat.zero_add]

theorem Whole.append_newline (line : List Char) {rest : List Char} (whole : Whole rest) :
    Whole (line ++ '\n' :: rest) := by
  rcases whole with rfl | ended
  · exact .inr List.getLast?_concat
  · have inhabited : rest ≠ [] := by
      rintro rfl
      cases ended
    refine .inr ?_
    rw [List.append_cons, List.getLast?_append_of_ne_nil _ inhabited, ended]

/-- **A piece stands in a text** with line feeds around it, or with an end of the text in
place of one. -/
structure Stands (text before piece after : List Char) : Prop where
  text : text = before ++ (piece ++ after)
  whole : Whole before
  clean : '\n' ∉ piece
  ended : after = [] ∨ after.head? = some '\n'

/-- Whole lines have one piece each, and no more. -/
theorem exists_pieces_append (whole : Whole before) (rest : List Char) :
    ∃ front, pieces (before ++ rest) = front ++ pieces rest ∧
      front.length = before.count '\n' := by
  rcases whole with rfl | ended
  · exact ⟨[], rfl, rfl⟩
  · obtain ⟨start, rfl⟩ := List.getLast?_eq_some_iff.1 ended
    refine ⟨pieces start, ?_, ?_⟩
    · rw [List.append_assoc, List.singleton_append, pieces_append_newline]
    · rw [length_pieces, List.count_append, List.count_singleton_self]

theorem head?_pieces (clean : '\n' ∉ piece) (ended : after = [] ∨ after.head? = some '\n') :
    (pieces (piece ++ after)).head? = some piece := by
  rcases ended with rfl | behind
  · rw [List.append_nil, pieces_of_clean clean, List.head?_cons]
  · obtain ⟨rest, rfl⟩ := List.head?_eq_some_iff.1 behind
    rw [pieces_clean_append clean, List.head?_cons]

/-- **The pieces of a text are what stands in it**, each behind as many line feeds as
pieces. -/
theorem getElem?_pieces_iff {place : Nat} :
    (pieces text)[place]? = some piece ↔
      ∃ before after, Stands text before piece after ∧ before.count '\n' = place := by
  constructor
  · intro found
    induction text using newline_induction generalizing place with
    | last line clean =>
      rw [pieces_of_clean clean, List.getElem?_singleton] at found
      split at found
      · rename_i here
        obtain rfl := Option.some.inj found
        exact ⟨[], [], ⟨(List.append_nil _).symm, .inl rfl, clean, .inl rfl⟩, here.symm⟩
      · cases found
    | more line rest clean ih =>
      rw [pieces_clean_append clean] at found
      cases place with
      | zero =>
        obtain rfl := Option.some.inj found
        exact ⟨[], '\n' :: rest, ⟨rfl, .inl rfl, clean, .inr rfl⟩, rfl⟩
      | succ place =>
        obtain ⟨before, after, ⟨rfl, whole, clean', ended⟩, rfl⟩ := ih found
        refine ⟨line ++ '\n' :: before, after,
          ⟨?_, whole.append_newline line, clean', ended⟩, ?_⟩
        · rw [List.append_assoc, List.cons_append]
        · rw [List.count_append, List.count_eq_zero.2 clean, List.count_cons_self,
            Nat.zero_add]
  · rintro ⟨before, after, ⟨rfl, whole, clean, ended⟩, rfl⟩
    obtain ⟨front, cut, size⟩ := exists_pieces_append whole (piece ++ after)
    rw [cut, ← size, List.getElem?_append_right (Nat.le_refl _), Nat.sub_self,
      ← List.head?_eq_getElem?, head?_pieces clean ended]

/-- A piece is the last one if nothing stands behind it. -/
theorem Stands.last_iff (stands : Stands text before piece after) :
    before.count '\n' + 1 = (pieces text).length ↔ after = [] := by
  obtain ⟨rfl, -, clean, ended⟩ := stands
  rw [length_pieces, List.count_append, List.count_append, List.count_eq_zero.2 clean]
  rcases ended with rfl | behind
  · simp
  · obtain ⟨rest, rfl⟩ := List.head?_eq_some_iff.1 behind
    simp

/-! ### Lines -/

/-- **A line of a text by its number**: it stands in the text, behind one line feed less than
its number.  An empty rest behind the last line feed is no line. -/
def LineAt (text : List Char) (number : Nat) (line : List Char) : Prop :=
  ∃ before after, Stands text before line after ∧ before.count '\n' + 1 = number ∧
    (after = [] → line ≠ [])

/-- **A line without the carriage returns at its end.** -/
structure Bare (line bare : List Char) : Prop where
  returns : ∃ count, line = bare ++ List.replicate count '\r'
  stops : bare.getLast? ≠ some '\r'

/-- What is dropped from the end of a line are carriage returns. -/
theorem eq_dropTail_append_replicate (line : List Char) :
    ∃ count, line = dropTail (· = '\r') line ++ List.replicate count '\r' := by
  have returns : ∀ c ∈ line.reverse.takeWhile fun c => decide (c = '\r'), c = '\r' := by
    intro c mem
    have dropped := List.mem_takeWhile_imp mem
    exact of_decide_eq_true dropped
  refine ⟨(line.reverse.takeWhile fun c => decide (c = '\r')).length, ?_⟩
  calc line
      = (line.reverse.takeWhile (fun c => decide (c = '\r')) ++
          line.reverse.dropWhile fun c => decide (c = '\r')).reverse := by
        rw [List.takeWhile_append_dropWhile, List.reverse_reverse]
    _ = dropTail (· = '\r') line ++
          (line.reverse.takeWhile fun c => decide (c = '\r')).reverse := List.reverse_append
    _ = _ := by rw [List.eq_replicate_of_mem returns, List.reverse_replicate,
      List.length_replicate]

/-- **Dropping carriage returns from the end of a line leaves it bare**, and nothing else is
it bare. -/
theorem dropTail_return_eq_iff {line bare : List Char} :
    dropTail (· = '\r') line = bare ↔ Bare line bare := by
  constructor
  · rintro rfl
    refine ⟨eq_dropTail_append_replicate line, ?_⟩
    intro last
    have kept := not_of_getLast?_dropTail last
    simp at kept
  · rintro ⟨⟨count, rfl⟩, stops⟩
    have dropped : ∀ c ∈ List.replicate count '\r', decide (c = '\r') = true := by
      intro c mem
      exact decide_eq_true (List.eq_of_mem_replicate mem)
    have kept : ∀ c ∈ bare.reverse.head?, decide (c = '\r') = false := by
      intro c mem
      rw [List.head?_reverse] at mem
      exact decide_eq_false fun same => stops (same ▸ mem)
    rw [dropTail, List.reverse_append, List.reverse_replicate,
      List.dropWhile_append_of_pos dropped, dropWhile_of_head? kept, List.reverse_reverse]

/-- The carriage return that goes with a line feed is one of those that are dropped anyway. -/
theorem dropTail_dropReturn (line : List Char) :
    dropTail (· = '\r') (dropReturn line) = dropTail (· = '\r') line := by
  unfold dropReturn
  split
  · rename_i returned
    obtain ⟨start, rfl⟩ := List.getLast?_eq_some_iff.1 returned
    rw [List.dropLast_concat]
    simp [dropTail]
  · rfl

/-- What the walk makes of pieces: each is a line, but for a last one that is empty. -/
theorem getElem?_map_linesOfPieces {parts : List (List Char)} {bare : List Char}
    {place : Nat} :
    ((linesOfPieces parts).map (dropTail (· = '\r')))[place]? = some bare ↔
      ∃ line, parts[place]? = some line ∧ (place + 1 = parts.length → line ≠ []) ∧
        dropTail (· = '\r') line = bare := by
  fun_induction linesOfPieces parts generalizing place with
  | case1 => simp
  | case2 => cases place <;> simp
  | case3 last inhabited => cases place <;> simp [inhabited]
  | case4 piece next more ih =>
    cases place with
    | zero => simp [dropTail_dropReturn]
    | succ place =>
      have last : place + 1 + 1 = (piece :: next :: more).length ↔
          place + 1 = (next :: more).length := by
        rw [List.length_cons, Nat.add_right_cancel_iff]
      rw [List.map_cons, List.getElem?_cons_succ, ih, List.getElem?_cons_succ]
      simp only [last]

/-- **The lines of a text by number**, without carriage returns at their ends. -/
theorem getElem?_map_lines_iff {bare : List Char} {place : Nat} :
    ((lines text).map (dropTail (· = '\r')))[place]? = some bare ↔
      ∃ line, LineAt text (place + 1) line ∧ Bare line bare := by
  rw [lines, getElem?_map_linesOfPieces]
  constructor
  · rintro ⟨line, found, inhabited, dropped⟩
    obtain ⟨before, after, stands, rfl⟩ := getElem?_pieces_iff.1 found
    rw [stands.last_iff] at inhabited
    exact ⟨line, ⟨before, after, stands, rfl, inhabited⟩, dropTail_return_eq_iff.1 dropped⟩
  · rintro ⟨line, ⟨before, after, stands, numbered, inhabited⟩, bare⟩
    obtain rfl := Nat.add_right_cancel numbered
    refine ⟨line, getElem?_pieces_iff.2 ⟨before, after, stands, rfl⟩, ?_,
      dropTail_return_eq_iff.2 bare⟩
    rwa [stands.last_iff]

/-! ### The number of lines -/

instance (text : List Char) : Decidable (Whole text) :=
  inferInstanceAs (Decidable (text = [] ∨ text.getLast? = some '\n'))

/-- **The number of lines of a text**: every line feed ends one, and what stands behind the
last one is another. -/
def lineCount (text : List Char) : Nat := text.count '\n' + if Whole text then 0 else 1

/-- Nothing stands behind the last line feed of whole lines. -/
theorem getLast?_pieces_iff : (pieces text).getLast? = some [] ↔ Whole text := by
  rw [List.getLast?_eq_getElem?, length_pieces, Nat.add_sub_cancel, getElem?_pieces_iff]
  constructor
  · rintro ⟨before, after, stands, count⟩
    have last : after = [] := stands.last_iff.1 (by rw [length_pieces, count])
    obtain ⟨rfl, whole, -, -⟩ := stands
    rwa [last, List.append_nil, List.append_nil]
  · intro whole
    exact ⟨text, [], ⟨(List.append_nil _).symm, whole, List.not_mem_nil, .inl rfl⟩, rfl⟩

theorem length_linesOfPieces (parts : List (List Char)) :
    (linesOfPieces parts).length =
      parts.length - if parts.getLast? = some [] then 1 else 0 := by
  fun_induction linesOfPieces parts with
  | case1 => rfl
  | case2 => rfl
  | case3 last inhabited => simp [inhabited]
  | case4 piece next more ih =>
    rw [List.length_cons, ih, List.getLast?_cons_cons, List.length_cons (a := piece)]
    split <;> simp

/-- **The walk finds as many lines as there are.** -/
theorem length_lines (text : List Char) : (lines text).length = lineCount text := by
  rw [lines, length_linesOfPieces, length_pieces, lineCount]
  simp only [getLast?_pieces_iff]
  split <;> omega

end InfraScan.Text
