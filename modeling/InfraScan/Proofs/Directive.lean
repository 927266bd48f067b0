import InfraScan.Directive
import InfraScan.Proofs.Text

/-!
# What a scanner reports

Whatever text a scanner is given, the checks that it reports have the form that a directive
prescribes: an id that is a word, and a reason that is not blank, or none.

* `SkippedCheck.Sound` — the form of a check
* `Directive.IsId` — the form of an id
* `Directive.isId_of_mem_directives`, `Directive.comment?_eq_some` — ids and reasons
* `DirectiveScanner.sound_of_mem_scan` — the checks of several lines
-/

namespace InfraScan

/-- **The form of a check**: its id is a word of ASCII letters, digits and underscores that is
not empty, and its reason, if it gives one, is trimmed and not empty. -/
structure SkippedCheck.Sound (check : SkippedCheck) : Prop where
  id_ne_empty : check.id ≠ ""
  id_word : ∀ c ∈ check.id.toList, c.isAlphanum = true ∨ c = '_'
  comment : ∀ reason, check.comment = some reason →
    reason ≠ "" ∧ Text.trimmed reason = reason

namespace Directive

/-- **The form of an id**: characters of check ids, at least one of them. -/
def IsId (id : List Char) : Prop := id ≠ [] ∧ ∀ c ∈ id, isWord c = true

theorem isId_of_parseMark {mark text id after : List Char}
    (parsed : parseMark mark text = some (id, after)) : IsId id := by
  unfold parseMark at parsed
  split at parsed
  · dsimp only at parsed
    split at parsed
    · cases parsed
    · rename_i nonempty
      obtain ⟨rfl, -⟩ := Prod.mk.inj (Option.some.inj parsed)
      exact ⟨nonempty, fun c mem => List.mem_takeWhile_imp mem⟩
  · cases parsed

theorem isId_of_next? {marks : List (List Char)} {text : List Char} {found : Found}
    (next : next? marks text = some found) : IsId found.id := by
  induction text generalizing found with
  | nil => cases next
  | cons c rest ih =>
    unfold next? at next
    split at next
    · rename_i id after parsed
      obtain rfl := Option.some.inj next
      obtain ⟨mark, -, here⟩ := List.exists_of_findSome?_eq_some parsed
      exact isId_of_parseMark here
    · obtain ⟨later, there, rfl⟩ := Option.map_eq_some_iff.1 next
      have idOfRest : IsId later.id := ih there
      exact idOfRest

/-- **Every directive of a text has an id.**  The recursion goes from one directive to the
text after it, so each of them is the leftmost one of some text. -/
theorem isId_of_mem_directives {marks : List (List Char)} {text : List Char}
    {directive : List Char × List Char} (mem : directive ∈ directives marks text) :
    IsId directive.1 := by
  fun_induction directives marks text with
  | case1 text none => cases mem
  | case2 text found next gap ih =>
    rcases List.mem_cons.1 mem with rfl | later
    · exact isId_of_next? next
    · exact ih later

/-- A reason is trimmed, and something is left of it. -/
theorem comment?_eq_some {gap reason : List Char} (given : comment? gap = some reason) :
    reason ≠ [] ∧ Text.trim reason = reason := by
  unfold comment? at given
  split at given
  · split at given
    · cases given
    · rename_i nonempty
      obtain rfl := Option.some.inj given
      exact ⟨nonempty, Text.trim_trim _⟩
  · cases given

theorem sound_check {directive : List Char × List Char} (isId : IsId directive.1) :
    (check directive).Sound where
  id_ne_empty := by
    intro empty
    have nothing := congrArg String.toList empty
    rw [check, String.toList_ofList] at nothing
    exact isId.1 nothing
  id_word := by
    intro c mem
    rw [check, String.toList_ofList] at mem
    have word := isId.2 c mem
    rwa [isWord, Bool.or_eq_true, decide_eq_true_eq] at word
  comment := by
    intro reason given
    obtain ⟨chars, found, rfl⟩ := Option.map_eq_some_iff.1 given
    obtain ⟨nonempty, trimmed⟩ := comment?_eq_some found
    constructor
    · intro empty
      have nothing := congrArg String.toList empty
      rw [String.toList_ofList] at nothing
      exact nonempty nothing
    · rw [Text.trimmed, String.toList_ofList, trimmed]

end Directive

/-- **The checks of several lines are sound**, whatever the lines are. -/
theorem DirectiveScanner.sound_of_mem_scan {scanner : DirectiveScanner} {lines : List String}
    {check : SkippedCheck} (mem : check ∈ scanner.scan lines) : check.Sound := by
  obtain ⟨line, -, reported⟩ := List.mem_flatMap.1 mem
  obtain ⟨directive, found, rfl⟩ := List.mem_map.1 reported
  exact Directive.sound_check (Directive.isId_of_mem_directives found)

end InfraScan
