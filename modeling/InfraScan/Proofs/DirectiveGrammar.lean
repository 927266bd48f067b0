import InfraScan.Proofs.DirectiveSearch

/-!
# The grammar of directives

What a scanner reports is described here without the scanner.  A line is a text with byte
offsets, and at some of them a directive parses: the first mark of the list that stands there
with blanks and an id behind it.  There is one way only to take parses from left to right
without passing over any, and the checks of the line are those of these parses.

* `Text.between?` — the text between two offsets that lie between characters
* `Directive.Reads` — a line that goes on with a directive, after a text
* `Directive.Parse`, `Directive.IsParse` — what parses at an offset
* `Directive.Barren`, `Directive.Parses` — the parses of a line, with nothing passed over
* `Directive.Reports`, `Directive.Reported` — the checks of these parses
* `Directive.Parses.unique`, `Directive.exists_parses` — there is one such sequence
* `scanLine_reports_grammar` — a scanner reports its checks

### What is load-bearing

The search goes on with the text behind a directive, and not with the line.  What it finds
there is what parses in the line because a parse depends on nothing before its own offset
(`Directive.isParse_iff`); and the text between two directives, which is cut off on both sides
to make a reason, holds none because a parse is not lost when more text follows it.
-/

namespace InfraScan

/-! ### Offsets -/

namespace Text

/-- **The text between two byte offsets.**  There is none if they are out of order, or if one
of them is outside of the text or inside a character. -/
def between? (text : String) (start stop : Nat) : Option String :=
  if valid : start ≤ stop ∧ String.Pos.Raw.IsValid text ⟨start⟩ ∧
      String.Pos.Raw.IsValid text ⟨stop⟩ then
    some (text.extract ⟨⟨start⟩, valid.2.1⟩ ⟨⟨stop⟩, valid.2.2⟩)
  else none

theorem utf8ByteSize_le_append (front back : String) :
    front.utf8ByteSize ≤ (front ++ back).utf8ByteSize := by
  rw [String.utf8ByteSize_append]
  exact Nat.le_add_right _ _

/-- A part of a text stands between the offsets of its ends. -/
theorem between?_append (before piece after : String) :
    between? (before ++ piece ++ after) before.utf8ByteSize (before ++ piece).utf8ByteSize =
      some piece := by
  have ordered := utf8ByteSize_le_append before piece
  have startValid : String.Pos.Raw.IsValid (before ++ piece ++ after) ⟨before.utf8ByteSize⟩ :=
    String.Pos.Raw.isValid_iff_exists_append.2
      ⟨before, piece ++ after, String.append_assoc, rfl⟩
  have stopValid : String.Pos.Raw.IsValid (before ++ piece ++ after)
      ⟨(before ++ piece).utf8ByteSize⟩ :=
    String.Pos.Raw.isValid_iff_exists_append.2 ⟨before ++ piece, after, rfl, rfl⟩
  rw [between?, dif_pos ⟨ordered, startValid, stopValid⟩, Option.some.injEq,
    ← String.toByteArray_inj, String.toByteArray_extract]
  show (before ++ piece ++ after).toByteArray.extract before.utf8ByteSize
    (before ++ piece).utf8ByteSize = piece.toByteArray
  rw [String.append_assoc, String.toByteArray_append, String.toByteArray_append,
    String.utf8ByteSize_append]
  show ((before.toByteArray ++ (piece.toByteArray ++ after.toByteArray)).extract
    (before.toByteArray.size + 0) (before.toByteArray.size + piece.toByteArray.size)) = _
  rw [ByteArray.extract_append_size_add, ByteArray.extract_append_eq_left rfl]

/-- Of two cuts of a text, the one at the greater offset is behind the other. -/
theorem exists_append_of_utf8ByteSize_le {a b c d : String} (whole : a ++ b = c ++ d)
    (le : a.utf8ByteSize ≤ c.utf8ByteSize) : ∃ middle, c = a ++ middle ∧ b = middle ++ d := by
  have chars := congrArg String.toList whole
  rw [String.toList_append, String.toList_append] at chars
  rcases List.append_eq_append_iff.1 chars with ⟨middle, front, back⟩ | ⟨middle, front, back⟩
  · refine ⟨String.ofList middle, ?_, ?_⟩
    · rw [← String.toList_inj, front, String.toList_append, String.toList_ofList]
    · rw [← String.toList_inj, back, String.toList_append, String.toList_ofList]
  · -- The cuts are at the same offset, so that nothing is between them.
    have longer : a = c ++ String.ofList middle := by
      rw [← String.toList_inj, front, String.toList_append, String.toList_ofList]
    have size := congrArg String.utf8ByteSize longer
    rw [String.utf8ByteSize_append] at size
    have nothing : String.ofList middle = "" := String.utf8ByteSize_eq_zero_iff.1 (by omega)
    rw [nothing, String.append_empty] at longer
    subst longer
    refine ⟨"", String.append_empty.symm, ?_⟩
    rw [String.append_right_inj] at whole
    rw [whole, String.empty_append]

/-- A text is cut at an offset in one way. -/
theorem append_inj_of_utf8ByteSize {a b c d : String} (whole : a ++ b = c ++ d)
    (same : a.utf8ByteSize = c.utf8ByteSize) : a = c ∧ b = d := by
  obtain ⟨middle, rfl, rfl⟩ := exists_append_of_utf8ByteSize_le whole same.le
  rw [String.utf8ByteSize_append] at same
  have nothing : middle = "" := String.utf8ByteSize_eq_zero_iff.1 (by omega)
  rw [nothing]
  exact ⟨String.append_empty.symm, String.empty_append⟩

end Text

namespace Directive

/-! ### What parses -/

/-- **A line that goes on with a directive** after the text `before`: a mark, blanks, and an
id that is as long as it can be. -/
structure Reads (line before mark blanks id after : String) : Prop where
  whole : line = before ++ mark ++ blanks ++ id ++ after
  blank : ∀ c ∈ blanks.toList, Text.isBlank c = true
  id_ne_empty : id ≠ ""
  id_word : ∀ c ∈ id.toList, c.isAlphanum = true ∨ c = '_'
  maximal : ∀ c, after.toList.head? = some c → ¬ (c.isAlphanum = true ∨ c = '_')

/-- A parse of a line: the byte offsets at which it starts and stops, and the id that it ends
with. -/
structure Parse where
  start : Nat
  stop : Nat
  id : String
  deriving Repr, DecidableEq

/-- **What parses in a line**: the first mark of the list that the line goes on with as a
directive. -/
def IsParse (marks : List String) (line : String) (parse : Parse) : Prop :=
  ∃ before earlier mark later blanks after,
    marks = earlier ++ mark :: later ∧ Reads line before mark blanks parse.id after ∧
      (∀ other ∈ earlier, ∀ blanks id after, ¬ Reads line before other blanks id after) ∧
      before.utf8ByteSize = parse.start ∧
      (before ++ mark ++ blanks ++ parse.id).utf8ByteSize = parse.stop

/-- Nothing parses from one offset on and before another one. -/
def Barren (marks : List String) (line : String) (start stop : Nat) : Prop :=
  ∀ parse, IsParse marks line parse → start ≤ parse.start → stop ≤ parse.start

/-- **The parses of a line** from an offset on: each starts where the one before it has
stopped or later, and nothing parses in between, nor behind the last one. -/
inductive Parses (marks : List String) (line : String) : Nat → List Parse → Prop
  | last {start : Nat} (barren : Barren marks line start line.utf8ByteSize) :
      Parses marks line start []
  | next {start : Nat} {parse : Parse} {rest : List Parse} (parses : IsParse marks line parse)
      (apart : start ≤ parse.start) (barren : Barren marks line start parse.start)
      (later : Parses marks line parse.stop rest) : Parses marks line start (parse :: rest)

/-! ### What is reported -/

/-- Where the text behind a parse ends: where the next one starts, or at the end of the
line. -/
def gapEnd (line : String) : List Parse → Nat
  | [] => line.utf8ByteSize
  | next :: _ => next.start

/-- **The check of a parse**, when the text behind it ends at the offset `stop`.  It has the
id of the parse; and it has a comment if the text behind begins with a colon and is not blank
after it, which is then trimmed. -/
structure Reports (line : String) (parse : Parse) (stop : Nat) (check : SkippedCheck) :
    Prop where
  id : check.id = parse.id
  ordered : parse.start ≤ parse.stop ∧ parse.stop ≤ stop ∧ stop ≤ line.utf8ByteSize
  comment : ∃ gap, Text.between? line parse.stop stop = some gap ∧
    ∀ comment, check.comment = some comment ↔
      ∃ reason, gap = ":" ++ reason ∧ Text.isBlankText reason = false ∧
        comment = Text.trimmed reason

/-- **The checks of parses**, one for each and in their order. -/
inductive Reported (line : String) : List Parse → List SkippedCheck → Prop
  | nil : Reported line [] []
  | cons {parse : Parse} {rest : List Parse} {check : SkippedCheck} {more : List SkippedCheck}
      (reports : Reports line parse (gapEnd line rest) check)
      (later : Reported line rest more) :
      Reported line (parse :: rest) (check :: more)

/-- There are as many checks as parses, with the same ids. -/
theorem Reported.map_id {line : String} {parses : List Parse} {checks : List SkippedCheck}
    (reported : Reported line parses checks) : checks.map (·.id) = parses.map (·.id) := by
  induction reported with
  | nil => rfl
  | cons reports later ih => rw [List.map_cons, List.map_cons, reports.id, ih]

/-! ### Parses and the parser -/

/-- A line goes on with a directive if the mark parses at the front of the rest of the
line. -/
theorem exists_reads_iff {line before mark id after : String} {text : List Char}
    (whole : line = before ++ String.ofList text) :
    (∃ blanks, Reads line before mark blanks id after) ↔
      parseMark mark.toList text = some (id.toList, after.toList) := by
  rw [parseMark_eq_some_iff]
  constructor
  · rintro ⟨blanks, reads⟩
    refine ⟨blanks.toList, ?_, reads.blank,
      isId_toList_iff.2 ⟨reads.id_ne_empty, reads.id_word⟩, ?_⟩
    · have same := whole.symm.trans reads.whole
      simp only [String.append_assoc, String.append_right_inj] at same
      rw [← String.toList_ofList (l := text), same]
      simp only [String.toList_append]
    · intro c mem
      exact Bool.eq_false_iff.2 (mt isWord_iff.1 (reads.maximal c mem))
  · rintro ⟨blanks, rfl, spelled⟩
    obtain ⟨nonempty, word⟩ := isId_toList_iff.1 spelled.id
    refine ⟨String.ofList blanks, ?_, ?_, nonempty, word, ?_⟩
    · simp only [whole, String.ofList_append, String.ofList_toList, String.append_assoc]
    · rw [String.toList_ofList]
      exact spelled.blanks
    · intro c mem
      exact mt isWord_iff.2 (Bool.eq_false_iff.1 (spelled.ends c mem))

/-- **What parses in a line** is what parses at the front of the rest of it. -/
theorem isParse_iff {marks : List String} {line : String} {parse : Parse} :
    IsParse marks line parse ↔
      ∃ before text after, line = before ++ String.ofList text ∧
        before.utf8ByteSize = parse.start ∧
        parseAt (marks.map String.toList) text = some (parse.id.toList, after) ∧
        parse.stop + (String.ofList after).utf8ByteSize = line.utf8ByteSize := by
  constructor
  · rintro ⟨before, earlier, mark, later, blanks, after, rfl, reads, first, start, stop⟩
    have whole : line = before ++
        String.ofList (mark ++ blanks ++ parse.id ++ after).toList := by
      rw [String.ofList_toList, reads.whole]
      simp only [String.append_assoc]
    refine ⟨before, _, after.toList, whole, start, ?_, ?_⟩
    · refine parseAt_eq_some_iff.2 ⟨earlier.map String.toList, mark.toList,
        later.map String.toList, by simp, (exists_reads_iff whole).1 ⟨blanks, reads⟩, ?_⟩
      intro chars mem
      obtain ⟨other, otherMem, rfl⟩ := List.mem_map.1 mem
      cases parsed : parseMark other.toList (mark ++ blanks ++ parse.id ++ after).toList with
      | none => rfl
      | some result =>
        obtain ⟨id, rest⟩ := result
        rw [← String.toList_ofList (l := id), ← String.toList_ofList (l := rest)] at parsed
        obtain ⟨otherBlanks, otherReads⟩ := (exists_reads_iff whole).2 parsed
        exact absurd otherReads (first other otherMem _ _ _)
    · rw [String.ofList_toList, ← stop, reads.whole]
      exact String.utf8ByteSize_append.symm
  · rintro ⟨before, text, after, whole, start, parsed, stop⟩
    obtain ⟨earlierChars, chars, laterChars, split, here, first⟩ :=
      parseAt_eq_some_iff.1 parsed
    obtain ⟨earlier, tail, rfl, rfl, tailSplit⟩ := List.map_eq_append_iff.1 split
    obtain ⟨mark, later, rfl, rfl, rfl⟩ := List.map_eq_cons_iff.1 tailSplit
    rw [← String.toList_ofList (l := after)] at here
    obtain ⟨blanks, reads⟩ := (exists_reads_iff whole).2 here
    refine ⟨before, earlier, mark, later, blanks, String.ofList after, rfl, reads,
      ?_, start, ?_⟩
    · intro other mem otherBlanks id rest otherReads
      have parsedOther := (exists_reads_iff whole).1 ⟨otherBlanks, otherReads⟩
      rw [first _ (List.mem_map_of_mem mem)] at parsedOther
      cases parsedOther
    · have size := congrArg String.utf8ByteSize reads.whole
      rw [String.utf8ByteSize_append] at size
      omega

/-! ### One sequence of parses -/

variable {marks : List String} {line : String}

/-- At an offset, there is one parse. -/
theorem IsParse.unique {first second : Parse} (parses : IsParse marks line first)
    (parses' : IsParse marks line second) (same : first.start = second.start) :
    first = second := by
  obtain ⟨before, text, after, whole, start, parsed, stop⟩ := isParse_iff.1 parses
  obtain ⟨before', text', after', whole', start', parsed', stop'⟩ := isParse_iff.1 parses'
  obtain ⟨rfl, sameText⟩ := Text.append_inj_of_utf8ByteSize (whole.symm.trans whole')
    (start.trans (same.trans start'.symm))
  obtain rfl := String.ofList_injective sameText
  rw [parsed] at parsed'
  obtain ⟨sameId, rfl⟩ := Prod.mk.inj (Option.some.inj parsed')
  obtain ⟨firstStart, firstStop, firstId⟩ := first
  obtain ⟨secondStart, secondStop, secondId⟩ := second
  simp only [Parse.mk.injEq]
  exact ⟨same, by dsimp only at stop stop'; omega, String.toList_inj.1 sameId⟩

/-- A parse takes up an offset before the end of the line. -/
theorem IsParse.lt {parse : Parse} (parses : IsParse marks line parse) :
    parse.start < parse.stop ∧ parse.stop ≤ line.utf8ByteSize := by
  obtain ⟨before, earlier, mark, later, blanks, after, -, reads, -, start, stop⟩ := parses
  have idSize : 0 < parse.id.utf8ByteSize :=
    Nat.pos_of_ne_zero (mt String.utf8ByteSize_eq_zero_iff.1 reads.id_ne_empty)
  have size := congrArg String.utf8ByteSize reads.whole
  simp only [String.utf8ByteSize_append] at stop size
  omega

/-- **There is at most one sequence of parses** from an offset on. -/
theorem Parses.unique {start : Nat} {first second : List Parse}
    (parses : Parses marks line start first) (parses' : Parses marks line start second) :
    first = second := by
  induction parses generalizing second with
  | last barren =>
    cases parses' with
    | last => rfl
    | next here apart =>
      have bounds := here.lt
      have beyond := barren _ here apart
      omega
  | next here apart barren later ih =>
    cases parses' with
    | last barren' =>
      have bounds := here.lt
      have beyond := barren' _ here apart
      omega
    | next here' apart' barren' later' =>
      -- Neither of the two first parses starts before the other one.
      have same := Nat.le_antisymm (barren _ here' apart') (barren' _ here apart)
      obtain rfl := here.unique here' same
      rw [ih later']

/-! ### What the search finds -/

/-- Where no directive starts, nothing parses. -/
theorem barren_of_quiet (front : String) {text rest : List Char}
    (quiet : Quiet (marks.map String.toList) text rest) :
    Barren marks (front ++ String.ofList (text ++ rest)) front.utf8ByteSize
      (front ++ String.ofList text).utf8ByteSize := by
  intro parse parses behind
  obtain ⟨before, text', after, whole, start, parsed, -⟩ := isParse_iff.1 parses
  rw [← start] at behind ⊢
  obtain ⟨skipped, rfl, tail⟩ := Text.exists_append_of_utf8ByteSize_le whole behind
  refine Nat.le_of_not_lt fun early => ?_
  rw [String.utf8ByteSize_append, String.utf8ByteSize_append] at early
  rw [String.ofList_append] at tail
  obtain ⟨left, cut, tail'⟩ := Text.exists_append_of_utf8ByteSize_le tail.symm (by omega)
  -- The directive would start in front of the rest of the quiet text.
  have nonempty : left.toList ≠ [] := by
    rw [ne_eq, String.toList_eq_nil_iff]
    rintro rfl
    rw [cut, String.append_empty] at early
    omega
  have inText : left.toList <:+ text := by
    refine ⟨skipped.toList, ?_⟩
    rw [← String.toList_append, ← cut, String.toList_ofList]
  have same : text' = left.toList ++ rest := by
    rw [← String.toList_ofList (l := text'), tail', String.toList_append,
      String.toList_ofList]
  rw [same, quiet left.toList inText nonempty] at parsed
  cases parsed

/-- What parses takes up the front of the text. -/
theorem exists_consumed_of_parseAt {chars : List (List Char)} {text id after : List Char}
    (parsed : parseAt chars text = some (id, after)) :
    ∃ consumed, text = consumed ++ after := by
  obtain ⟨-, mark, -, -, here, -⟩ := parseAt_eq_some_iff.1 parsed
  obtain ⟨blanks, rfl, -⟩ := parseMark_eq_some_iff.1 here
  exact ⟨mark ++ blanks ++ id, by simp only [List.append_assoc]⟩

/-- No directive starts in the text before the leftmost one. -/
theorem exists_quiet_lead (chars : List (List Char)) (text : List Char) :
    ∃ back, text = lead chars text ++ back ∧ Quiet chars (lead chars text) back := by
  unfold lead
  split
  · rename_i nothing
    exact ⟨[], (List.append_nil text).symm, next?_eq_none_iff.1 nothing⟩
  · rename_i found next
    obtain ⟨rest, whole, quiet, -⟩ := next?_eq_some_iff.1 next
    exact ⟨rest, whole, quiet⟩

/-- No directive starts in the text behind a directive and before the next one. -/
theorem exists_quiet_of_mem_directives {chars : List (List Char)} {text : List Char}
    {directive : List Char × List Char} (mem : directive ∈ directives chars text) :
    ∃ back, Quiet chars directive.2 back := by
  fun_induction directives chars text with
  | case1 text none => cases mem
  | case2 text found next gap ih =>
    rcases List.mem_cons.1 mem with rfl | later
    · obtain ⟨back, -, quiet⟩ := exists_quiet_lead chars found.after
      exact ⟨back, quiet⟩
    · exact ih later

/-! ### What a reason is -/

/-- **The reason of a gap** is what follows its colon, trimmed, unless that is blank. -/
theorem comment?_eq_some_iff {gap reason : List Char} :
    comment? gap = some reason ↔
      ∃ rest, gap = ':' :: rest ∧ Text.allBlank rest = false ∧ reason = Text.trim rest := by
  constructor
  · intro given
    unfold comment? at given
    split at given
    · rename_i rest
      split at given
      · cases given
      · rename_i nonempty
        obtain rfl := Option.some.inj given
        exact ⟨rest, rfl, Bool.eq_false_iff.2 (mt Text.trim_eq_nil_iff.2 nonempty), rfl⟩
    · cases given
  · rintro ⟨rest, rfl, solid, rfl⟩
    have nonempty : Text.trim rest ≠ [] :=
      mt Text.trim_eq_nil_iff.1 (Bool.eq_false_iff.1 solid)
    rw [comment?, if_neg nonempty]

theorem check_comment_eq_some_iff {id gap : List Char} {comment : String} :
    (check (id, gap)).comment = some comment ↔
      ∃ reason, String.ofList gap = ":" ++ reason ∧ Text.isBlankText reason = false ∧
        comment = Text.trimmed reason := by
  rw [check, Option.map_eq_some_iff]
  simp only [comment?_eq_some_iff]
  constructor
  · rintro ⟨chars, ⟨rest, rfl, solid, rfl⟩, rfl⟩
    refine ⟨String.ofList rest, ?_, ?_, ?_⟩
    · rw [String.ofList_cons]
      rfl
    · rwa [Text.isBlankText, String.toList_ofList]
    · rw [Text.trimmed, String.toList_ofList]
  · rintro ⟨reason, whole, solid, rfl⟩
    refine ⟨_, ⟨reason.toList, ?_, solid, rfl⟩, rfl⟩
    rw [← String.toList_ofList (l := gap), whole, String.toList_append]
    rfl

/-- **A reason holds no directive**, as the text that it is cut from holds none. -/
theorem directives_of_comment?_eq_some {chars : List (List Char)}
    {gap back reason : List Char} (quiet : Quiet chars gap back)
    (given : comment? gap = some reason) :
    directives chars reason = [] := by
  obtain ⟨rest, rfl, -, rfl⟩ := comment?_eq_some_iff.1 given
  have inside : Text.trim rest <:+: ':' :: rest :=
    (Text.trim_infix rest).trans (List.suffix_cons ':' rest).isInfix
  exact directives_of_quiet (quiet.of_infix inside)

/-! ### The parses of a line are reported -/

/-- **The leftmost directive of a text parses** in a line that ends with the text, and nothing
parses before it. -/
theorem exists_isParse_of_next? (front : String) {text : List Char} {found : Found}
    (next : next? (marks.map String.toList) text = some found) :
    ∃ consumed, text = (found.before ++ consumed) ++ found.after ∧
      IsParse marks (front ++ String.ofList text)
        ⟨(front ++ String.ofList found.before).utf8ByteSize,
          (front ++ String.ofList (found.before ++ consumed)).utf8ByteSize,
          String.ofList found.id⟩ ∧
      Barren marks (front ++ String.ofList text) front.utf8ByteSize
        (front ++ String.ofList found.before).utf8ByteSize := by
  obtain ⟨rest, rfl, quiet, parsed⟩ := next?_eq_some_iff.1 next
  obtain ⟨consumed, rfl⟩ := exists_consumed_of_parseAt parsed
  refine ⟨consumed, (List.append_assoc _ _ _).symm, ?_, barren_of_quiet front quiet⟩
  refine isParse_iff.2 ⟨_, consumed ++ found.after, found.after, ?_, rfl, ?_, ?_⟩
  · rw [String.ofList_append, String.append_assoc]
  · rw [String.toList_ofList]
    exact parsed
  · rw [← String.utf8ByteSize_append, String.append_assoc, ← String.ofList_append,
      List.append_assoc]

/-- The check of a directive is that of its parse, when the gap stands behind the parse. -/
theorem reports_check {line : String} {parse : Parse} (front : String)
    (gap back id : List Char)
    (whole : line = front ++ String.ofList gap ++ String.ofList back)
    (sameId : parse.id = String.ofList id) (before : parse.start ≤ parse.stop)
    (stop : front.utf8ByteSize = parse.stop) :
    Reports line parse (front ++ String.ofList gap).utf8ByteSize (check (id, gap)) := by
  refine ⟨sameId.symm, ⟨before, ?_, ?_⟩, String.ofList gap, ?_, ?_⟩
  · rw [← stop]
    exact Text.utf8ByteSize_le_append front (String.ofList gap)
  · rw [whole]
    exact Text.utf8ByteSize_le_append _ (String.ofList back)
  · rw [whole, ← stop]
    exact Text.between?_append _ _ _
  · exact fun comment => check_comment_eq_some_iff

/-- **The directives of a text are parses** of the line that it ends: nothing is passed over,
and the gap of each is the text up to the next one.  The recursion is that of the search, and
what has been passed stands in front. -/
theorem exists_parses (marks : List String) (front line : String) (text : List Char)
    (whole : line = front ++ String.ofList text) :
    ∃ parses, Parses marks line front.utf8ByteSize parses ∧
      Reported line parses ((directives (marks.map String.toList) text).map check) ∧
      gapEnd line parses =
        (front ++ String.ofList (lead (marks.map String.toList) text)).utf8ByteSize := by
  fun_induction directives (marks.map String.toList) text generalizing front with
  | case1 text nothing =>
    have quiet := next?_eq_none_iff.1 nothing
    have barren := barren_of_quiet front quiet
    rw [List.append_nil, ← whole] at barren
    refine ⟨[], .last barren, .nil, ?_⟩
    rw [lead_of_quiet quiet, ← whole, gapEnd]
  | case2 text found next gap ih =>
    obtain ⟨consumed, split, here, barren⟩ := exists_isParse_of_next? front next
    obtain ⟨back, gapSplit, -⟩ := exists_quiet_lead (marks.map String.toList) found.after
    rw [← whole] at here barren
    have behind : line =
        (front ++ String.ofList (found.before ++ consumed)) ++ String.ofList found.after := by
      rw [whole, split, String.ofList_append, String.append_assoc]
    obtain ⟨parses, later, reported, ends⟩ := ih _ behind
    have apart := Text.utf8ByteSize_le_append front (String.ofList found.before)
    refine ⟨_ :: parses, .next here apart barren later, .cons ?_ reported, ?_⟩
    · rw [ends]
      refine reports_check _ _ back _ ?_ rfl here.lt.1.le rfl
      rw [String.append_assoc, ← String.ofList_append, ← gapSplit]
      exact behind
    · rw [lead, next]
      rfl

end Directive

/-- **A scanner reports the grammar.**  For every list of marks that is not empty and every
line, there is one sequence of parses from the start of the line on, and the checks of the
line are its checks.  A comment that is reported holds no directive when it is scanned as a
line. -/
theorem scanLine_reports_grammar (marks : List String) (nonempty : marks ≠ [])
    (line : String) :
    ∃ scanner, DirectiveScanner.ofMarks marks = .ok scanner ∧
      ∃ parses, Directive.Parses marks line 0 parses ∧
        (∀ other, Directive.Parses marks line 0 other → other = parses) ∧
        Directive.Reported line parses (scanner.scanLine line) ∧
        ∀ check ∈ scanner.scanLine line, ∀ comment, check.comment = some comment →
          scanner.scanLine comment = [] := by
  refine ⟨_, DirectiveScanner.ofMarks_eq_ok nonempty, ?_⟩
  have whole : line = "" ++ String.ofList line.toList := by
    rw [String.ofList_toList, String.empty_append]
  obtain ⟨parses, sequence, reported, -⟩ :=
    Directive.exists_parses marks "" line line.toList whole
  refine ⟨parses, sequence, fun other another => another.unique sequence, reported, ?_⟩
  intro check mem comment given
  obtain ⟨directive, found, rfl⟩ := List.mem_map.1 mem
  obtain ⟨back, quiet⟩ := Directive.exists_quiet_of_mem_directives found
  obtain ⟨reason, isReason, rfl⟩ := Option.map_eq_some_iff.1 given
  have none : Directive.directives (marks.map String.toList) reason = [] :=
    Directive.directives_of_comment?_eq_some quiet isReason
  rw [DirectiveScanner.scanLine, String.toList_ofList, none, List.map_nil]

/-- A line with characters of more than one byte, a blank between a mark and its id, and one
of two marks at the front of the other one. -/
def overlappingLine : String := "é ab cd: für ab: für\u2003é a_ :a\u2009d: "

/-- The first mark makes ids of characters of the second one. -/
theorem scanLine_reports_overlappingLine :
    ["a", "ab "] ≠ [] ∧ ∃ scanner, DirectiveScanner.ofMarks ["a", "ab "] = .ok scanner ∧
      ∃ parses, Directive.Parses ["a", "ab "] overlappingLine 0 parses ∧
        parses.map (·.id) = ["b", "b", "_", "d"] ∧
        Directive.Reported overlappingLine parses
          [⟨"b", none⟩, ⟨"b", some "für\u2003é"⟩, ⟨"_", none⟩, ⟨"d", none⟩] ∧
        scanner.scanLine "für\u2003é" = [] := by
  obtain ⟨scanner, made, parses, sequence, -, reported, again⟩ :=
    scanLine_reports_grammar ["a", "ab "] (by decide) overlappingLine
  obtain rfl := Except.ok.inj ((DirectiveScanner.ofMarks_eq_ok (by decide)).symm.trans made)
  have scanned : (DirectiveScanner.mk ["a", "ab "] (by decide)).scanLine overlappingLine =
      [⟨"b", none⟩, ⟨"b", some "für\u2003é"⟩, ⟨"_", none⟩, ⟨"d", none⟩] := by
    decide +kernel
  rw [scanned] at reported again
  exact ⟨by decide, _, made, parses, sequence, reported.map_id.symm, reported,
    again ⟨"b", some "für\u2003é"⟩ (by simp) _ rfl⟩

end InfraScan
