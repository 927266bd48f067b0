import InfraScan.Proofs.DirectiveSearch
import Mathlib.Data.List.Infix

/-!
# Directives that were written

Checks can be written as directives on one line, behind any text that does not hold the mark.
A scanner for this mark reads them back as they were: no reason is cut short, no two
directives run into one, and none is found that was not written.

* `SkippedCheck.written`, `writtenLine` — a check as a directive, and a line of them
* `WritableMark` — the marks for which this works
* `Directive.quiet_of_not_infix`, `Directive.quiet_of_blank_end` — where the mark does not
  occur
* `Directive.directives_joined` — the directives of a line that was written
* `scanLine_writtenLine` — they are the ones that were written

### What is load-bearing

A mark without blanks cannot stand across a blank.  So it occurs in a line only where it
occurs in a part between two blanks, and the parts are the text in front, the reasons and the
directives themselves (`Directive.infix_of_infix_append_cons`).
-/

namespace InfraScan

/-- **A check as a directive**: the mark, the id, and the reason after a colon and a space. -/
def SkippedCheck.written (mark : String) (check : SkippedCheck) : String :=
  mark ++ check.id ++
    match check.comment with
    | none => ""
    | some reason => ": " ++ reason

/-- A line of directives with single spaces between them, behind a text in front. -/
def writtenLine (mark front : String) (checks : List SkippedCheck) : String :=
  front ++ " ".intercalate (checks.map (·.written mark))

/-- **A mark that directives can be written with**: it is not empty, holds no blank, and is
not the colon that a reason begins with. -/
structure WritableMark (mark : String) : Prop where
  ne_empty : mark ≠ ""
  solid : ∀ c ∈ mark.toList, Text.isBlank c = false
  ne_colon : mark ≠ ":"

instance (mark : String) : Decidable (WritableMark mark) :=
  decidable_of_iff
    (mark ≠ "" ∧ mark.toList.all (fun c => !Text.isBlank c) = true ∧ mark ≠ ":") <| by
    simp only [List.all_eq_true, Bool.not_eq_true']
    exact ⟨fun ⟨ne_empty, solid, ne_colon⟩ => ⟨ne_empty, solid, ne_colon⟩,
      fun writable => ⟨writable.ne_empty, writable.solid, writable.ne_colon⟩⟩

theorem WritableMark.toList_ne_nil {mark : String} (writable : WritableMark mark) :
    mark.toList ≠ [] :=
  mt String.toList_eq_nil_iff.1 writable.ne_empty

theorem WritableMark.not_mem {mark : String} (writable : WritableMark mark) {c : Char}
    (blank : Text.isBlank c = true) : c ∉ mark.toList := by
  intro mem
  rw [writable.solid c mem] at blank
  cases blank

namespace Directive

/-! ### Where a mark occurs -/

/-- A text that does not hold a character does not stand across it. -/
theorem infix_of_infix_append_cons {α : Type} {part front back : List α} {a : α}
    (apart : a ∉ part) (inside : part <:+: front ++ a :: back) :
    part <:+: front ∨ part <:+: back := by
  obtain ⟨before, after, whole⟩ := inside
  rw [List.append_assoc] at whole
  rcases List.append_eq_append_iff.1 whole with ⟨rest, rfl, tail⟩ | ⟨rest, rfl, tail⟩
  · rcases List.append_eq_append_iff.1 tail with ⟨more, rfl, -⟩ | ⟨more, rfl, tail'⟩
    · exact .inl ⟨before, more, List.append_assoc _ _ _⟩
    · cases more with
      | nil => exact .inl ⟨before, [], by simp⟩
      | cons b more =>
        obtain ⟨rfl, -⟩ := List.cons.inj tail'
        exact absurd (List.mem_append_right _ List.mem_cons_self) apart
  · cases rest with
    | nil =>
      cases part with
      | nil => exact .inl List.nil_infix
      | cons b part =>
        obtain ⟨rfl, -⟩ := List.cons.inj tail
        exact absurd List.mem_cons_self apart
    | cons b rest =>
      obtain ⟨-, rfl⟩ := List.cons.inj tail
      exact .inr ⟨rest, after, List.append_assoc _ _ _⟩

/-- What parses begins with a mark. -/
theorem prefix_of_parseAt {mark text : List Char} {result : List Char × List Char}
    (parsed : parseAt [mark] text = some result) : mark <+: text := by
  obtain ⟨other, mem, here⟩ := List.exists_of_findSome?_eq_some parsed
  obtain rfl := List.mem_singleton.1 mem
  obtain ⟨blanks, whole, -⟩ := parseMark_eq_some_iff.1 here
  exact ⟨_, whole.symm⟩

variable {mark : List Char}

/-- No directive starts in a text that does not hold the mark, if the text ends there. -/
theorem quiet_of_not_infix {text : List Char} (without : ¬ mark <:+: text) :
    Quiet [mark] text [] := by
  intro rest suffix nonempty
  cases parsed : parseAt [mark] (rest ++ []) with
  | none => rfl
  | some result =>
    have here := prefix_of_parseAt parsed
    rw [List.append_nil] at here
    exact absurd (here.isInfix.trans suffix.isInfix) without

/-- No directive starts in a text that does not hold the mark, if a character ends it that no
mark stands across. -/
theorem quiet_of_blank_end {text back : List Char} {c : Char} (apart : c ∉ mark)
    (without : ¬ mark <:+: text ++ [c]) : Quiet [mark] (text ++ [c]) back := by
  intro rest suffix nonempty
  cases parsed : parseAt [mark] (rest ++ back) with
  | none => rfl
  | some result =>
    exfalso
    have here := prefix_of_parseAt parsed
    rcases List.prefix_or_prefix_of_prefix here
      (List.prefix_append rest back) with short | long
    · exact without (short.isInfix.trans suffix.isInfix)
    · -- The character at the end of the text would belong to the mark.
      rcases List.suffix_concat_iff.1 suffix with rfl | ⟨start, rfl, -⟩
      · exact nonempty rfl
      · exact apart (long.subset (List.mem_append_right _ List.mem_cons_self))

/-! ### A directive that was written -/

/-- The text of a directive behind its id. -/
def reasonText : Option String → List Char
  | none => []
  | some reason => ':' :: ' ' :: reason.toList

theorem toList_written (mark : String) (check : SkippedCheck) :
    (check.written mark).toList =
      mark.toList ++ (check.id.toList ++ reasonText check.comment) := by
  unfold SkippedCheck.written reasonText
  cases check.comment with
  | none => simp
  | some reason => simp [String.toList_append]

/-- A mark and an id make a directive, if the word ends with the id. -/
theorem parseAt_written {id after : List Char} (isId : IsId id)
    (ends : ∀ c ∈ after.head?, isWord c = false) :
    parseAt [mark] (mark ++ (id ++ after)) = some (id, after) := by
  refine parseAt_eq_some_iff.2 ⟨[], mark, [], rfl, ?_, by simp⟩
  exact parseMark_eq_some_iff.2 ⟨[], rfl, by simp, isId, ends⟩

/-- The reason that was written is the one that is read, with or without a space behind it. -/
theorem check_written {check : SkippedCheck} (sound : check.Sound) {gap : List Char}
    (blank : ∀ c ∈ gap, c = ' ') :
    Directive.check (check.id.toList, reasonText check.comment ++ gap) = check := by
  obtain ⟨id, comment⟩ := check
  have read : comment? (reasonText comment ++ gap) = comment.map String.toList := by
    cases comment with
    | none =>
      cases gap with
      | nil => rfl
      | cons c rest =>
        obtain rfl := blank c List.mem_cons_self
        rfl
    | some reason =>
      obtain ⟨nonempty, trimmed⟩ := sound.comment reason rfl
      have nonempty' : reason.toList ≠ [] := by rwa [ne_eq, String.toList_eq_nil_iff]
      have trimmed' : Text.trim reason.toList = reason.toList := by
        have same := congrArg String.toList trimmed
        rwa [Text.trimmed, String.toList_ofList] at same
      have space : Text.isBlank ' ' = true := by decide
      have padded : Text.trim ([' '] ++ (reason.toList ++ gap)) = reason.toList :=
        Text.trim_padded nonempty' trimmed' (fun c mem => List.mem_singleton.1 mem ▸ space)
          fun c mem => blank c mem ▸ space
      show (if Text.trim ([' '] ++ (reason.toList ++ gap)) = [] then none
        else some (Text.trim ([' '] ++ (reason.toList ++ gap)))) = some reason.toList
      rw [padded, if_neg nonempty']
  rw [Directive.check, read, String.ofList_toList, Option.map_map]
  cases comment <;> simp

end Directive

/-- **A check that can be written with a mark**: it is sound, and its reason does not hold the
mark. -/
structure SkippedCheck.Writable (mark : String) (check : SkippedCheck) : Prop where
  sound : check.Sound
  without : ∀ reason, check.comment = some reason → ¬ mark.toList <:+: reason.toList

instance (check : SkippedCheck) : Decidable check.Sound :=
  decidable_of_iff
    (check.id ≠ "" ∧ check.id.toList.all Directive.isWord = true ∧
      check.comment.all (fun reason => reason ≠ "" ∧ Text.trimmed reason = reason) =
        true) <| by
    simp only [List.all_eq_true, Directive.isWord_iff, Option.all_eq_true, decide_eq_true_eq]
    exact ⟨fun ⟨ne_empty, word, comment⟩ => ⟨ne_empty, word, comment⟩,
      fun sound => ⟨sound.id_ne_empty, sound.id_word, sound.comment⟩⟩

instance (mark : String) (check : SkippedCheck) : Decidable (check.Writable mark) :=
  decidable_of_iff
    (check.Sound ∧
      check.comment.all (fun reason => ¬ mark.toList <:+: reason.toList) = true) <| by
    simp only [Option.all_eq_true, decide_eq_true_eq]
    exact ⟨fun ⟨sound, without⟩ => ⟨sound, without⟩,
      fun writable => ⟨writable.sound, writable.without⟩⟩

namespace Directive

variable {mark : String} {check : SkippedCheck}

/-- A written reason does not hold the mark. -/
theorem not_infix_reasonText (writable : WritableMark mark) (plain : check.Writable mark) :
    ¬ mark.toList <:+: reasonText check.comment := by
  have nonempty := writable.toList_ne_nil
  have apart : ' ' ∉ mark.toList := writable.not_mem (by decide)
  cases given : check.comment with
  | none => exact fun inside => nonempty (List.infix_nil.1 inside)
  | some reason =>
    intro inside
    have inside' : mark.toList <:+: [':'] ++ ' ' :: reason.toList := inside
    rcases infix_of_infix_append_cons apart inside' with inColon | inReason
    · rcases List.infix_cons_iff.1 inColon with front | nothing
      · rcases List.prefix_cons_iff.1 front with empty | ⟨rest, whole, atEnd⟩
        · exact nonempty empty
        · rw [List.prefix_nil.1 atEnd] at whole
          exact writable.ne_colon (String.toList_inj.1 whole)
      · exact nonempty (List.infix_nil.1 nothing)
    · exact plain.without reason given inReason

/-- No directive starts in a written reason and the space behind it. -/
theorem quiet_reasonText_space (writable : WritableMark mark) (plain : check.Writable mark)
    (back : List Char) : Quiet [mark.toList] (reasonText check.comment ++ [' ']) back := by
  have apart : ' ' ∉ mark.toList := writable.not_mem (by decide)
  refine quiet_of_blank_end apart fun inside => ?_
  rcases infix_of_infix_append_cons apart inside with inReason | nothing
  · exact not_infix_reasonText writable plain inReason
  · exact writable.toList_ne_nil (List.infix_nil.1 nothing)

/-- The directives of a line, with single spaces between them. -/
def joined (mark : String) (checks : List SkippedCheck) : List Char :=
  [' '].intercalate (checks.map fun check => (check.written mark).toList)

/-- What stands behind a directive of a line: nothing, or a space and the directives that
follow. -/
def trail (mark : String) : List SkippedCheck → List Char
  | [] => []
  | next :: more => ' ' :: joined mark (next :: more)

theorem joined_cons (mark : String) (check : SkippedCheck) (rest : List SkippedCheck) :
    joined mark (check :: rest) =
      mark.toList ++ (check.id.toList ++ (reasonText check.comment ++ trail mark rest)) := by
  unfold joined
  cases rest with
  | nil =>
    rw [List.map_cons, List.map_nil, List.intercalate_singleton, toList_written, trail,
      List.append_nil]
  | cons next more =>
    rw [List.map_cons, List.map_cons, List.intercalate_cons_cons, toList_written,
      trail, joined, List.map_cons]
    simp only [List.append_assoc, List.singleton_append]

/-- The first directive of a line parses at its front: its word ends where the reason or a
space begins. -/
theorem parseAt_joined (sound : check.Sound) (rest : List SkippedCheck) :
    parseAt [mark.toList] (joined mark (check :: rest)) =
      some (check.id.toList, reasonText check.comment ++ trail mark rest) := by
  rw [joined_cons]
  have isId := isId_toList_iff.2 ⟨sound.id_ne_empty, sound.id_word⟩
  refine parseAt_written isId fun c mem => ?_
  cases given : check.comment with
  | some reason =>
    rw [given] at mem
    obtain rfl := Option.some.inj mem
    decide
  | none =>
    rw [given] at mem
    cases rest with
    | nil => cases mem
    | cons next more =>
      obtain rfl := Option.some.inj mem
      decide

/-- **The directives of a line that was written** are the checks that it was written from. -/
theorem directives_joined (writable : WritableMark mark) {checks : List SkippedCheck}
    (plain : ∀ check ∈ checks, check.Writable mark) :
    (directives [mark.toList] (joined mark checks)).map Directive.check = checks := by
  induction checks with
  | nil =>
    have quiet : Quiet [mark.toList] (joined mark []) [] := quiet_nil []
    rw [directives_of_quiet quiet, List.map_nil]
  | cons check rest ih =>
    have plainHere := plain check List.mem_cons_self
    have later := ih fun other mem => plain other (List.mem_cons_of_mem _ mem)
    rw [directives_of_next? (next?_of_parseAt (parseAt_joined plainHere.sound rest)),
      List.map_cons]
    cases rest with
    | nil =>
      -- The reason of the last directive goes to the end of the line.
      have quiet := quiet_of_not_infix (not_infix_reasonText writable plainHere)
      have read : Directive.check (check.id.toList, reasonText check.comment ++ []) = check :=
        check_written plainHere.sound (by simp)
      rw [List.append_nil] at read
      rw [trail, List.append_nil, lead_of_quiet quiet, directives_of_quiet quiet, read,
        List.map_nil]
    | cons next more =>
      -- The reason goes to the mark of the next directive, and the space before it is trimmed
      -- off.
      have soundNext := (plain next (List.mem_cons_of_mem _ List.mem_cons_self)).sound
      have quiet := quiet_reasonText_space writable plainHere (joined mark (next :: more))
      have behind : reasonText check.comment ++ trail mark (next :: more) =
          (reasonText check.comment ++ [' ']) ++ joined mark (next :: more) := by
        rw [trail, List.append_assoc, List.singleton_append]
      rw [behind, lead_append_of_parseAt quiet (parseAt_joined soundNext more),
        directives_append_of_quiet quiet, later, check_written plainHere.sound (by simp)]

end Directive

/-- **Directives that were written are read back.**  The default mark can be written with.
For every mark that can, a line that begins with a text without the mark, which is empty or
ends in a blank, and goes on with directives, is read as the list of checks that these
directives were written from. -/
theorem scanLine_writtenLine :
    WritableMark DirectiveScanner.defaultMark ∧
    ∀ mark, WritableMark mark →
      ∃ scanner, DirectiveScanner.ofMarks [mark] = .ok scanner ∧
        ∀ front : String, ¬ mark.toList <:+: front.toList →
          (front = "" ∨ ∃ c, front.toList.getLast? = some c ∧ Text.isBlank c = true) →
          ∀ checks : List SkippedCheck, (∀ check ∈ checks, check.Writable mark) →
            scanner.scanLine (writtenLine mark front checks) = checks := by
  refine ⟨by decide +kernel, fun mark writable => ?_⟩
  refine ⟨_, DirectiveScanner.ofMarks_eq_ok (List.cons_ne_nil mark []), ?_⟩
  intro front without ends checks plain
  have quiet : Directive.Quiet [mark.toList] front.toList (Directive.joined mark checks) := by
    rcases ends with rfl | ⟨c, last, blank⟩
    · exact Directive.quiet_nil _
    · obtain ⟨start, whole⟩ := List.getLast?_eq_some_iff.1 last
      rw [whole] at without ⊢
      exact Directive.quiet_of_blank_end (writable.not_mem blank) without
  have chars : (writtenLine mark front checks).toList =
      front.toList ++ Directive.joined mark checks := by
    rw [writtenLine, String.toList_append, String.toList_intercalate, List.map_map]
    rfl
  show (Directive.directives [mark.toList] (writtenLine mark front checks).toList).map
    Directive.check = checks
  rw [chars, Directive.directives_append_of_quiet quiet,
    Directive.directives_joined writable plain]

/-- Reasons that hold a colon, an id and most of a mark, behind a text with the front of
one. -/
def trickyChecks : List SkippedCheck :=
  [⟨"CKV_1", some "was: CKV_2 skip=no"⟩, ⟨"_", none⟩, ⟨"CKV_1", some "resgraph:"⟩]

/-- The line of the default mark with these checks, and what is read from it. -/
theorem scanLine_trickyChecks :
    writtenLine "resgraph:skip=" "x = 1 # resgraph:\t" trickyChecks =
        "x = 1 # resgraph:\tresgraph:skip=CKV_1: was: CKV_2 skip=no resgraph:skip=_ " ++
          "resgraph:skip=CKV_1: resgraph:" ∧
      ∃ scanner, DirectiveScanner.ofMarks ["resgraph:skip="] = .ok scanner ∧
        scanner.scanLine (writtenLine "resgraph:skip=" "x = 1 # resgraph:\t" trickyChecks) =
          trickyChecks := by
  obtain ⟨default, written⟩ := scanLine_writtenLine
  obtain ⟨scanner, made, readBack⟩ := written "resgraph:skip=" default
  have without : ¬ "resgraph:skip=".toList <:+: "x = 1 # resgraph:\t".toList := by
    decide +kernel
  have ends : ∃ c, "x = 1 # resgraph:\t".toList.getLast? = some c ∧ Text.isBlank c = true :=
    ⟨'\t', by decide +kernel, by decide⟩
  have plain : ∀ check ∈ trickyChecks, check.Writable "resgraph:skip=" := by decide +kernel
  exact ⟨by decide +kernel, scanner, made, readBack _ without (.inr ends) trickyChecks plain⟩

end InfraScan
