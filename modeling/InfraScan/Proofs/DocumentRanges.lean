import InfraScan.Proofs.Manifest
import Mathlib.Data.List.Pairwise

/-!
# The ranges of a manifest

The parts of a file are the runs of lines between separators, empty ones included, and a part
that has a line with content has a range.  So the ranges lie one behind another, no separator
is in any of them, and no line with content is missed.

* `run_induction` — a text is a run, or a run with a separator and a text behind it
* `cutFrom_run`, `cutFrom_append` — cutting along that
* `MaximalRun`, `mem_cutFrom_iff` — the parts are the maximal runs
* `length_cutFrom`, `pairwise_cutFrom`, `exists_part_of_not_separator` — how many there are,
  and where
* `Part.range?_eq_some_iff`, `Part.range?_eq_none_iff` — the range of a part
* `Part.range?_reread` — the same range is read off the text of a part
* `documentRanges_partition` — parts and ranges of a text

### What is load-bearing

The text of a part is not the piece of the file that it comes from.  Its lines are joined
anew, and when they are cut once more a carriage return may go that had survived, and so may a
last line that is empty.  Neither makes a line carry content or takes its content away
(`isContent_dropReturn`), nor does it shift the number of any other line.
-/

namespace InfraScan.Manifest

/-! ### Runs -/

/-- No line is a separator. -/
def Unseparated (lines : List (List Char)) : Prop := ∀ line ∈ lines, isSeparator line = false

/-- **Lines are a run, or a run with a separator and further lines behind it.** -/
@[elab_as_elim]
theorem run_induction {motive : List (List Char) → Prop}
    (last : ∀ run, Unseparated run → motive run)
    (more : ∀ run separator rest, Unseparated run → isSeparator separator = true →
      motive rest → motive (run ++ separator :: rest))
    (lines : List (List Char)) : motive lines :=
  @Text.separated_induction _ isSeparator motive last more lines

theorem cutFrom_run {run : List (List Char)} (unseparated : Unseparated run) (first : Nat) :
    cutFrom first run = [⟨first, run⟩] := by
  induction run generalizing first with
  | nil => rfl
  | cons line rest ih =>
    have later := ih
      (fun other mem => unseparated other (List.mem_cons_of_mem _ mem)) (first + 1)
    rw [cutFrom, unseparated line List.mem_cons_self, later]
    rfl

theorem cutFrom_append {run : List (List Char)} (unseparated : Unseparated run)
    {separator : List Char} (separates : isSeparator separator = true)
    (rest : List (List Char)) (first : Nat) :
    cutFrom first (run ++ separator :: rest) =
      ⟨first, run⟩ :: cutFrom (first + run.length + 1) rest := by
  induction run generalizing first with
  | nil =>
    rw [List.nil_append, cutFrom, if_pos separates]
    rfl
  | cons line run ih =>
    have later := ih
      (fun other mem => unseparated other (List.mem_cons_of_mem _ mem)) (first + 1)
    have shifted : first + (line :: run).length + 1 = first + 1 + run.length + 1 := by
      rw [List.length_cons]
      omega
    rw [List.cons_append, cutFrom, unseparated line List.mem_cons_self, later, shifted]
    rfl

/-- A run is what stands before the first separator. -/
theorem takeWhile_run {run : List (List Char)} (unseparated : Unseparated run)
    {separator : List Char} (separates : isSeparator separator = true)
    (rest : List (List Char)) :
    (run ++ separator :: rest).takeWhile (fun line => !isSeparator line) = run := by
  have whole : ∀ line ∈ run, (!isSeparator line) = true := by
    intro line mem
    rw [unseparated line mem]
    rfl
  rw [List.takeWhile_append_of_pos whole, List.takeWhile_cons_of_neg (by simp [separates]),
    List.append_nil]

/-- **A separator of lines** is the one behind their first run, or stands farther behind. -/
theorem eq_or_behind_of_append_eq {run front rest tail : List (List Char)}
    {separator other : List Char} (unseparated : Unseparated run)
    (separates : isSeparator other = true)
    (same : run ++ separator :: rest = front ++ other :: tail) :
    front = run ∧ rest = tail ∨
      ∃ middle, front = run ++ separator :: middle ∧ rest = middle ++ other :: tail := by
  rcases List.append_eq_append_iff.1 same with ⟨middle, rfl, split⟩ | ⟨middle, rfl, split⟩
  · cases middle with
    | nil => exact .inl ⟨List.append_nil run, (List.cons.inj split).2⟩
    | cons line middle =>
      obtain ⟨rfl, rfl⟩ := List.cons.inj split
      exact .inr ⟨middle, rfl, rfl⟩
  · cases middle with
    | nil => exact .inl ⟨(List.append_nil front).symm, (List.cons.inj split).2.symm⟩
    | cons line middle =>
      -- The separator would be a line of the run.
      obtain ⟨rfl, -⟩ := List.cons.inj split
      have unmarked := unseparated other (by simp)
      rw [separates] at unmarked
      cases unmarked

/-! ### Parts -/

/-- **A maximal run** of lines of which the first has the number `first`: no separator is in
it, and it begins and ends at a separator or at an end of the lines. -/
def MaximalRun (first : Nat) (lines : List (List Char)) (part : Part) : Prop :=
  ∃ before after, lines = before ++ part.lines ++ after ∧
    part.firstLine = first + before.length ∧ Unseparated part.lines ∧
    (before = [] ∨ ∃ front separator, before = front ++ [separator] ∧
      isSeparator separator = true) ∧
    (after = [] ∨ ∃ separator back, after = separator :: back ∧ isSeparator separator = true)

/-- The only maximal run of a run is the run. -/
theorem maximalRun_run_iff {run : List (List Char)} (unseparated : Unseparated run)
    {first : Nat} {part : Part} : MaximalRun first run part ↔ part = ⟨first, run⟩ := by
  obtain ⟨number, lines⟩ := part
  constructor
  · rintro ⟨before, after, whole, numbered, -, ends, begins⟩
    have absurdity {separator : List Char} (mem : separator ∈ run) :
        isSeparator separator = true → False := by
      rw [unseparated separator mem]
      exact Bool.false_ne_true
    rcases ends with rfl | ⟨front, separator, rfl, separates⟩
    · rcases begins with rfl | ⟨separator, back, rfl, separates⟩
      · rw [List.nil_append, List.append_nil] at whole
        exact congrArg₂ Part.mk numbered whole.symm
      · exact (absurdity (by simp [whole]) separates).elim
    · exact (absurdity (by simp [whole]) separates).elim
  · intro same
    obtain ⟨rfl, rfl⟩ := Part.mk.inj same
    exact ⟨[], [], by simp, rfl, unseparated, .inl rfl, .inl rfl⟩

/-- **The maximal runs of lines with a separator**: what stands before it, and those behind
it. -/
theorem maximalRun_append_iff {run : List (List Char)} (unseparated : Unseparated run)
    {separator : List Char} (separates : isSeparator separator = true)
    {rest : List (List Char)} {first : Nat} {part : Part} :
    MaximalRun first (run ++ separator :: rest) part ↔
      part = ⟨first, run⟩ ∨ MaximalRun (first + run.length + 1) rest part := by
  obtain ⟨number, lines⟩ := part
  constructor
  · rintro ⟨before, after, whole, numbered, inside, ends, begins⟩
    rcases ends with rfl | ⟨front, other, rfl, separates'⟩
    · -- Both the part and the run reach up to the first separator.
      left
      refine congrArg₂ Part.mk numbered ?_
      rw [List.nil_append] at whole
      rcases begins with rfl | ⟨next, back, rfl, separates'⟩
      · have unmarked := inside separator (by
          rw [← List.append_nil lines, ← whole]
          simp)
        rw [separates] at unmarked
        cases unmarked
      · have upTo := takeWhile_run inside separates' back
        rw [← whole, takeWhile_run unseparated separates] at upTo
        exact upTo.symm
    · right
      have split : run ++ separator :: rest = front ++ other :: (lines ++ after) := by
        simpa using whole
      rw [List.length_append, List.length_singleton] at numbered
      rcases eq_or_behind_of_append_eq unseparated separates' split with
        ⟨rfl, rfl⟩ | ⟨middle, rfl, rfl⟩
      · refine ⟨[], after, rfl, ?_, inside, .inl rfl, begins⟩
        rw [numbered, List.length_nil]
        omega
      · refine ⟨middle ++ [other], after, by simp, ?_, inside,
          .inr ⟨middle, other, rfl, separates'⟩, begins⟩
        rw [numbered, List.length_append, List.length_append, List.length_cons,
          List.length_singleton]
        omega
  · rintro (same | ⟨before, after, rfl, numbered, inside, ends, begins⟩)
    · obtain ⟨rfl, rfl⟩ := Part.mk.inj same
      exact ⟨[], separator :: rest, rfl, rfl, unseparated, .inl rfl,
        .inr ⟨separator, rest, rfl, separates⟩⟩
    · refine ⟨run ++ separator :: before, after, by simp, ?_, inside, .inr ?_, begins⟩
      · rw [numbered, List.length_append, List.length_cons]
        omega
      · rcases ends with rfl | ⟨front, other, rfl, separates'⟩
        · exact ⟨run, separator, rfl, separates⟩
        · exact ⟨run ++ separator :: front, other, by simp, separates'⟩

/-- **The parts are the maximal runs.** -/
theorem mem_cutFrom_iff {first : Nat} {lines : List (List Char)} {part : Part} :
    part ∈ cutFrom first lines ↔ MaximalRun first lines part := by
  induction lines using run_induction generalizing first with
  | last run unseparated =>
    rw [cutFrom_run unseparated, maximalRun_run_iff unseparated, List.mem_singleton]
  | more run separator rest unseparated separates ih =>
    rw [cutFrom_append unseparated separates, maximalRun_append_iff unseparated separates,
      List.mem_cons, ih]

/-- **There is one part more than there are separators.** -/
theorem length_cutFrom (first : Nat) (lines : List (List Char)) :
    (cutFrom first lines).length = lines.countP isSeparator + 1 := by
  have none {run : List (List Char)}
      (unseparated : Unseparated run) : run.countP isSeparator = 0 := by
    rw [List.countP_eq_zero]
    intro line mem
    rw [unseparated line mem]
    exact Bool.false_ne_true
  induction lines using run_induction generalizing first with
  | last run unseparated =>
    rw [cutFrom_run unseparated, none unseparated, List.length_singleton]
  | more run separator rest unseparated separates ih =>
    rw [cutFrom_append unseparated separates, List.length_cons, ih, List.countP_append,
      none unseparated, List.countP_cons_of_pos separates, Nat.zero_add]

/-- **The parts lie one behind another**, with a separator after each but the last. -/
theorem pairwise_cutFrom (first : Nat) (lines : List (List Char)) :
    (cutFrom first lines).Pairwise fun a b => a.firstLine + a.lines.length < b.firstLine := by
  induction lines using run_induction generalizing first with
  | last run unseparated =>
    rw [cutFrom_run unseparated]
    exact List.pairwise_singleton _ _
  | more run separator rest unseparated separates ih =>
    rw [cutFrom_append unseparated separates, List.pairwise_cons]
    refine ⟨fun part mem => ?_, ih _⟩
    obtain ⟨before, -, -, number⟩ := exists_append_of_mem_cutFrom mem
    show first + run.length < part.firstLine
    omega

/-! ### Lines of the text -/

namespace Part

/-- The number is that of a line of the part. -/
def Has (part : Part) (number : Nat) : Prop :=
  part.firstLine ≤ number ∧ number < part.firstLine + part.lines.length

end Part

/-- **The lines of a part are those of the text with its numbers.** -/
theorem mem_zipIdx_iff {first : Nat} {lines : List (List Char)} {part : Part}
    (mem : part ∈ cutFrom first lines) {line : List Char} {number : Nat} :
    (line, number) ∈ part.lines.zipIdx part.firstLine ↔
      part.Has number ∧ (line, number) ∈ lines.zipIdx first := by
  obtain ⟨before, after, whole, numbered⟩ := exists_append_of_mem_cutFrom mem
  rw [List.mk_mem_zipIdx_iff_le_and_getElem?_sub, List.mk_mem_zipIdx_iff_le_and_getElem?_sub,
    Part.Has, whole, numbered]
  constructor
  · rintro ⟨low, here⟩
    have short := (List.getElem?_eq_some_iff.1 here).1
    refine ⟨⟨low, by omega⟩, by omega, ?_⟩
    rw [List.append_assoc, List.getElem?_append_right (by omega),
      List.getElem?_append_left (by omega), ← here]
    congr 1
    omega
  · rintro ⟨⟨low, high⟩, -, here⟩
    refine ⟨low, ?_⟩
    rw [List.append_assoc, List.getElem?_append_right (by omega),
      List.getElem?_append_left (by omega)] at here
    rw [← here]
    congr 1
    omega

/-- **Every line that is no separator is in a part.** -/
theorem exists_part_of_not_separator {first : Nat} {lines : List (List Char)}
    {line : List Char} {number : Nat} (mem : (line, number) ∈ lines.zipIdx first)
    (inside : isSeparator line = false) :
    ∃ part ∈ cutFrom first lines, part.Has number := by
  induction lines using run_induction generalizing first with
  | last run unseparated =>
    have bounds := List.mem_zipIdx mem
    refine ⟨⟨first, run⟩, ?_, bounds.1, ?_⟩
    · rw [cutFrom_run unseparated]
      exact List.mem_cons_self
    · exact bounds.2.1
  | more run separator rest unseparated separates ih =>
    rw [cutFrom_append unseparated separates]
    rw [List.zipIdx_append, List.mem_append, List.zipIdx_cons, List.mem_cons] at mem
    rcases mem with inRun | same | later
    · have bounds := List.mem_zipIdx inRun
      exact ⟨⟨first, run⟩, List.mem_cons_self, bounds.1, bounds.2.1⟩
    · obtain ⟨rfl, -⟩ := Prod.mk.inj same
      rw [separates] at inside
      cases inside
    · obtain ⟨part, present, has⟩ := ih later
      exact ⟨part, List.mem_cons_of_mem _ present, has⟩

/-! ### Content -/

/-- Of lines of which the first has the number `first`, the one with this number carries
content. -/
def ContentAt (first : Nat) (lines : List (List Char)) (number : Nat) : Prop :=
  ∃ line, (line, number) ∈ lines.zipIdx first ∧ isContent line = true

namespace Part

theorem mem_contentLines {part : Part} {number : Nat} :
    number ∈ part.contentLines ↔ ContentAt part.firstLine part.lines number := by
  simp [contentLines, ContentAt, List.mem_filter]

/-- **The content of a part** is that of the text in its lines. -/
theorem mem_contentLines_iff {part : Part} {first : Nat} {lines : List (List Char)}
    (mem : part ∈ cutFrom first lines) {number : Nat} :
    number ∈ part.contentLines ↔ part.Has number ∧ ContentAt first lines number := by
  simp only [mem_contentLines, ContentAt, mem_zipIdx_iff mem, and_assoc, exists_and_left]

/-- **The range of a part** reaches from its first line with content to its last one. -/
theorem range?_eq_some_iff {part : Part} {startLine endLine : Nat} :
    part.range? = some (startLine, endLine) ↔
      startLine ∈ part.contentLines ∧ endLine ∈ part.contentLines ∧
        ∀ number ∈ part.contentLines, startLine ≤ number ∧ number ≤ endLine := by
  have increasing := part.pairwise_contentLines
  have extremes {first last : Nat} (isFirst : part.contentLines.head? = some first)
      (isLast : part.contentLines.getLast? = some last) :
      ∀ number ∈ part.contentLines, first ≤ number ∧ number ≤ last := by
    intro number mem
    obtain ⟨rest, behind⟩ := List.head?_eq_some_iff.1 isFirst
    obtain ⟨front, before⟩ := List.getLast?_eq_some_iff.1 isLast
    constructor
    · rw [behind] at increasing mem
      rcases List.mem_cons.1 mem with rfl | later
      · exact Nat.le_refl _
      · exact Nat.le_of_lt (List.rel_of_pairwise_cons increasing later)
    · rw [before] at increasing mem
      rcases List.mem_append.1 mem with earlier | same
      · exact Nat.le_of_lt
          ((List.pairwise_append.1 increasing).2.2 _ earlier _ List.mem_cons_self)
      · rw [List.mem_singleton.1 same]
  rw [range?]
  cases first : part.contentLines.head? with
  | none =>
    have nothing := List.head?_eq_none_iff.1 first
    simp [nothing]
  | some first' =>
    cases last : part.contentLines.getLast? with
    | none =>
      have nothing := List.getLast?_eq_none_iff.1 last
      simp [nothing]
    | some last' =>
      have between := extremes first last
      have memFirst := List.mem_of_mem_head? first
      have memLast := List.mem_of_getLast? last
      rw [Option.some.injEq, Prod.mk.injEq]
      constructor
      · rintro ⟨rfl, rfl⟩
        exact ⟨memFirst, memLast, between⟩
      · rintro ⟨memStart, memEnd, all⟩
        have low := between startLine memStart
        have high := between endLine memEnd
        have low' := all first' memFirst
        have high' := all last' memLast
        exact ⟨by omega, by omega⟩

/-- A part has no range when none of its lines carries content. -/
theorem range?_eq_none_iff {part : Part} : part.range? = none ↔ part.contentLines = [] := by
  constructor
  · intro nothing
    cases content : part.contentLines with
    | nil => rfl
    | cons first rest =>
      rw [range?, content, List.head?_cons, List.getLast?_cons] at nothing
      cases nothing
  · intro nothing
    rw [range?, nothing]
    rfl

end Part

/-! ### Parts that are read again -/

/-- **A line carries content when its first character that is not blank begins no
comment.** -/
theorem isContent_eq (line : List Char) :
    isContent line = (line.find? fun c => !Text.isBlank c).any (· ≠ '#') := by
  rw [← Text.head?_trim, isContent]
  cases Text.trim line <;> rfl

/-- **A carriage return at its end makes no difference** to whether a line carries content. -/
theorem isContent_dropReturn (line : List Char) :
    isContent (Text.dropReturn line) = isContent line := by
  unfold Text.dropReturn
  split
  · rename_i ends
    obtain ⟨front, rfl⟩ := List.getLast?_eq_some_iff.1 ends
    have blank : (['\r'].find? fun c => !Text.isBlank c) = none := by decide
    rw [List.dropLast_concat, isContent_eq, isContent_eq, List.find?_append, blank,
      Option.or_none]
  · rfl

namespace Part

theorem contentLines_cons (first : Nat) (line : List Char) (rest : List (List Char)) :
    (Part.mk first (line :: rest)).contentLines =
      (if isContent line then [first]
        else []) ++ (Part.mk (first + 1) rest).contentLines := by
  rw [contentLines, contentLines, List.zipIdx_cons, List.filter_cons]
  split <;> rfl

/-- **What is lost when lines are cut again carries no content**, and stands behind all that
does. -/
theorem contentLines_linesOfPieces (first : Nat) (lines : List (List Char)) :
    (Part.mk first (Text.linesOfPieces lines)).contentLines =
      (Part.mk first lines).contentLines := by
  fun_induction Text.linesOfPieces lines generalizing first with
  | case1 => rfl
  | case2 => rfl
  | case3 last inhabited => rfl
  | case4 piece next more ih =>
    rw [contentLines_cons, contentLines_cons, ih, isContent_dropReturn]

/-- The part that is found when its text is cut into lines once more. -/
def reread (part : Part) : Part := ⟨part.firstLine, Text.lines part.text.toList⟩

/-- **The same range is read off the text of a part.** -/
theorem range?_reread {text : List Char} {part : Part} (mem : part ∈ cut text) :
    part.reread.range? = part.range? := by
  obtain ⟨before, after, whole, -⟩ := exists_append_of_mem_cutFrom mem
  have clean : ∀ line ∈ part.lines, '\n' ∉ line := by
    intro line inPart
    have inText : line ∈ Text.lines text := by
      rw [whole]
      simp [inPart]
    exact Text.newline_not_mem_of_mem_lines inText
  have content : part.reread.contentLines = part.contentLines := by
    rw [reread, Part.text, String.toList_ofList, Text.lines_joinLines clean]
    exact contentLines_linesOfPieces part.firstLine part.lines
  rw [range?, range?, content]

end Part

/-! ### Ranges of a text -/

/-- **The ranges of a text**, in the order of its parts. -/
def ranges (text : List Char) : List (Nat × Nat) := (cut text).filterMap Part.range?

/-- **The ranges lie one behind another.** -/
theorem pairwise_ranges (text : List Char) : (ranges text).Pairwise fun a b => a.2 < b.1 := by
  rw [ranges, List.pairwise_filterMap]
  refine (pairwise_cutFrom 1 (Text.lines text)).imp
    fun {a b} behind first isFirst second isSecond => ?_
  have high := (a.bounds_of_range? isFirst).2.2
  have low := (b.bounds_of_range? isSecond).1
  omega

/-- A line in a range is a line of the part that has the range. -/
theorem has_of_mem_range {part : Part} {range : Nat × Nat} (found : part.range? = some range)
    {number : Nat} (low : range.1 ≤ number) (high : number ≤ range.2) : part.Has number := by
  obtain ⟨start, -, stop⟩ := part.bounds_of_range? found
  exact ⟨by omega, by omega⟩

/-- **No separator is in a range.** -/
theorem not_mem_range_of_separator {text : List Char} {line : List Char} {number : Nat}
    (mem : (line, number) ∈ (Text.lines text).zipIdx 1) (separates : isSeparator line = true)
    {range : Nat × Nat} (found : range ∈ ranges text) :
    ¬(range.1 ≤ number ∧ number ≤ range.2) := by
  rintro ⟨low, high⟩
  obtain ⟨part, present, isRange⟩ := List.mem_filterMap.1 found
  obtain ⟨-, -, -, -, unseparated, -, -⟩ := mem_cutFrom_iff.1 present
  have inPart := (mem_zipIdx_iff present).2 ⟨has_of_mem_range isRange low high, mem⟩
  rw [unseparated line (List.fst_mem_of_mem_zipIdx inPart)] at separates
  cases separates

/-- **Every line with content that is no separator is in exactly one range.** -/
theorem existsUnique_range {text : List Char} {line : List Char} {number : Nat}
    (mem : (line, number) ∈ (Text.lines text).zipIdx 1) (content : isContent line = true)
    (inside : isSeparator line = false) :
    ∃! range, range ∈ ranges text ∧ range.1 ≤ number ∧ number ≤ range.2 := by
  obtain ⟨part, present, has⟩ := exists_part_of_not_separator mem inside
  have inContent := (Part.mem_contentLines_iff present).2 ⟨has, line, mem, content⟩
  cases found : part.range? with
  | none =>
    rw [Part.range?_eq_none_iff.1 found] at inContent
    cases inContent
  | some range =>
    have between := (Part.range?_eq_some_iff.1 found).2.2 number inContent
    have listed : range ∈ ranges text := List.mem_filterMap.2 ⟨part, present, found⟩
    refine ⟨range, ⟨listed, between⟩, fun other ⟨present', low, high⟩ => ?_⟩
    -- Of two ranges one lies behind the other, and no line is in both.
    have apart : (ranges text).Pairwise fun a b => a.2 < b.1 ∨ b.2 < a.1 :=
      (pairwise_ranges text).imp Or.inl
    have symmetric : Std.Symm fun a b : Nat × Nat => a.2 < b.1 ∨ b.2 < a.1 :=
      ⟨fun _ _ behind => behind.symm⟩
    by_contra different
    rcases apart.forall present' listed different with behind | before
    · omega
    · omega

/-- **The ranges of a manifest partition its content.**  Take any text.

* Its parts are the maximal runs of lines without a separator, empty ones included, each with
  the number of its first line; there is one more of them than there are separators, and they
  lie one behind another.
* A part has a range when one of its lines carries content, and then it reaches from the first
  such line to the last one, by their numbers in the text.  The same range is read off the
  text of the part, when that is cut into lines once more.
* A range is in order and inside the text, and both of its ends carry content.
* The ranges lie one behind another, no separator is in any of them, and every line with
  content that is no separator is in exactly one. -/
theorem documentRanges_partition (text : List Char) :
    let lines := Text.lines text
    let parts := cut text
    (∀ part, part ∈ parts ↔ MaximalRun 1 lines part) ∧
    parts.length = lines.countP isSeparator + 1 ∧
    (parts.Pairwise fun a b => a.firstLine + a.lines.length < b.firstLine) ∧
    (∀ part ∈ parts,
      (∀ startLine endLine, part.range? = some (startLine, endLine) ↔
        (part.Has startLine ∧ ContentAt 1 lines startLine) ∧
        (part.Has endLine ∧ ContentAt 1 lines endLine) ∧
        ∀ number, part.Has number ∧ ContentAt 1 lines number →
          startLine ≤ number ∧ number ≤ endLine) ∧
      (part.range? = none ↔ ∀ number, ¬(part.Has number ∧ ContentAt 1 lines number)) ∧
      part.reread.range? = part.range?) ∧
    (∀ range ∈ ranges text, 1 ≤ range.1 ∧ range.1 ≤ range.2 ∧ range.2 ≤ lines.length ∧
      ContentAt 1 lines range.1 ∧ ContentAt 1 lines range.2) ∧
    ((ranges text).Pairwise fun a b => a.2 < b.1) ∧
    ∀ line number, (line, number) ∈ lines.zipIdx 1 →
      (isSeparator line = true →
        ∀ range ∈ ranges text, ¬(range.1 ≤ number ∧ number ≤ range.2)) ∧
      (isContent line = true → isSeparator line = false →
        ∃! range, range ∈ ranges text ∧ range.1 ≤ number ∧ number ≤ range.2) := by
  intro lines parts
  have content {part : Part} (mem : part ∈ parts) (number : Nat) :
      number ∈ part.contentLines ↔ part.Has number ∧ ContentAt 1 lines number :=
    Part.mem_contentLines_iff mem
  refine ⟨fun part => mem_cutFrom_iff, length_cutFrom 1 lines, pairwise_cutFrom 1 lines,
    fun part mem => ⟨fun startLine endLine => ?_, ?_, Part.range?_reread mem⟩, ?_,
    pairwise_ranges text, fun line number mem =>
      ⟨fun separates range => not_mem_range_of_separator mem separates,
        existsUnique_range mem⟩⟩
  · rw [Part.range?_eq_some_iff]
    simp only [content mem]
  · rw [Part.range?_eq_none_iff, List.eq_nil_iff_forall_not_mem]
    simp only [content mem]
  · intro range found
    obtain ⟨part, mem, isRange⟩ := List.mem_filterMap.1 found
    obtain ⟨low, ordered, high⟩ := bounds_of_mem_cut mem isRange
    obtain ⟨first, last, -⟩ := Part.range?_eq_some_iff.1 isRange
    exact ⟨low, ordered, high, ((content mem _).1 first).2, ((content mem _).1 last).2⟩

/-- A text that begins with a separator and has two next to each other.  A carriage return
survives at the end of its third line. -/
def unevenText : List Char := "---\r\n# a\r\nx: 1\r\r\n\n---\n--- # c\ny\n".toList

/-- Of four parts two have ranges.  The second part has other lines when it is read again, and
the same range. -/
theorem unevenText_ranges :
    let second : Part := ⟨2, ["# a".toList, "x: 1\r".toList, []]⟩
    (cut unevenText).length = 4 ∧ second ∈ cut unevenText ∧
      second.reread = ⟨2, ["# a".toList, "x: 1".toList]⟩ ∧
      second.reread.range? = some (3, 3) ∧
      ranges unevenText = [(3, 3), (7, 7)] ∧
      ∃! range, range ∈ ranges unevenText ∧ range.1 ≤ 7 ∧ 7 ≤ range.2 := by
  intro second
  obtain ⟨-, counted, -, eachPart, -, -, eachLine⟩ := documentRanges_partition unevenText
  have present : second ∈ cut unevenText := by decide
  have sameRange : second.reread.range? = second.range? := (eachPart second present).2.2
  refine ⟨counted.trans (by decide), present, by decide,
    sameRange.trans (by decide), by decide, ?_⟩
  exact (eachLine "y".toList 7 (by decide)).2 (by decide) (by decide)

end InfraScan.Manifest
