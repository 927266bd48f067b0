import InfraScan.Proofs.DirectiveSearch

/-!
# Lists of marks in another order

Where two marks begin alike, the one that stands first in the list is taken, so the order of a
list of marks can be seen in the checks of a line.  In a list in which no mark begins with
another one, at most one mark stands at any place, and neither order nor repetitions matter.

* `PrefixFree` — a list of texts in which none begins with another one
* `Directive.eq_of_parseMark` — at most one mark makes a directive
* `Directive.parseAt_congr`, `Directive.directives_congr` — what is found depends on which
  marks there are
* `scanLine_congr_of_prefixFree` — scanners with the same marks report the same checks
-/

namespace InfraScan

/-- **No text of the list begins with another one.** -/
def PrefixFree (texts : List String) : Prop :=
  ∀ text ∈ texts, ∀ other ∈ texts, text.toList <+: other.toList → text = other

namespace Directive

/-- **At most one mark makes a directive** at the front of a text: of two that stand there,
one begins with the other. -/
theorem eq_of_parseMark {marks : List String} (free : PrefixFree marks) {mark other : String}
    (markMem : mark ∈ marks) (otherMem : other ∈ marks) {text : List Char}
    {result otherResult : List Char × List Char}
    (parsed : parseMark mark.toList text = some result)
    (otherParsed : parseMark other.toList text = some otherResult) : mark = other := by
  obtain ⟨blanks, whole, -⟩ := parseMark_eq_some_iff.1 parsed
  obtain ⟨otherBlanks, otherWhole, -⟩ := parseMark_eq_some_iff.1 otherParsed
  have here : mark.toList <+: text := ⟨_, whole.symm⟩
  have otherHere : other.toList <+: text := ⟨_, otherWhole.symm⟩
  rcases List.prefix_or_prefix_of_prefix here otherHere with shorter | longer
  · exact free mark markMem other otherMem shorter
  · exact (free other otherMem mark markMem longer).symm

/-- What parses, parses with some mark of the list, wherever it stands there. -/
theorem parseAt_eq_some_iff_of_prefixFree {marks : List String} (free : PrefixFree marks)
    {text : List Char} {result : List Char × List Char} :
    parseAt (marks.map String.toList) text = some result ↔
      ∃ mark ∈ marks, parseMark mark.toList text = some result := by
  constructor
  · intro parsed
    obtain ⟨chars, mem, here⟩ := List.exists_of_findSome?_eq_some parsed
    obtain ⟨mark, markMem, rfl⟩ := List.mem_map.1 mem
    exact ⟨mark, markMem, here⟩
  · rintro ⟨mark, markMem, here⟩
    cases parsed : parseAt (marks.map String.toList) text with
    | none =>
      rw [parseAt_eq_none_iff] at parsed
      rw [parsed _ (List.mem_map_of_mem markMem)] at here
      cases here
    | some found =>
      obtain ⟨chars, mem, there⟩ := List.exists_of_findSome?_eq_some parsed
      obtain ⟨other, otherMem, rfl⟩ := List.mem_map.1 mem
      obtain rfl := eq_of_parseMark free markMem otherMem here there
      rw [← there, here]

/-- **What parses depends on which marks there are.** -/
theorem parseAt_congr {P Q : List String} (same : ∀ mark, mark ∈ P ↔ mark ∈ Q)
    (free : PrefixFree P) (text : List Char) :
    parseAt (P.map String.toList) text = parseAt (Q.map String.toList) text := by
  have freeToo : PrefixFree Q := fun mark markMem other otherMem =>
    free mark ((same mark).2 markMem) other ((same other).2 otherMem)
  refine Option.ext fun result => ?_
  rw [parseAt_eq_some_iff_of_prefixFree free, parseAt_eq_some_iff_of_prefixFree freeToo]
  simp only [same]

variable {P Q : List (List Char)}

theorem next?_congr (alike : ∀ text, parseAt P text = parseAt Q text) (text : List Char) :
    next? P text = next? Q text := by
  induction text with
  | nil => rfl
  | cons c rest ih => rw [next?, next?, alike, ih]

/-- **What is found in a text** depends on what parses at its places. -/
theorem directives_congr (alike : ∀ text, parseAt P text = parseAt Q text)
    (text : List Char) :
    directives P text = directives Q text := by
  have found : next? P = next? Q := funext (next?_congr alike)
  fun_induction directives P text with
  | case1 text none =>
    rw [found] at none
    exact (directives_of_quiet (next?_eq_none_iff.1 none)).symm
  | case2 text first next gap ih =>
    have nextToo : next? Q text = some first := by rw [← found, next]
    have gaps : gap = lead Q first.after := by
      show lead P first.after = lead Q first.after
      rw [lead, lead, found]
    rw [directives_of_next? nextToo, ih, gaps]

end Directive

/-- **The order of marks does not matter** where none begins with another one.  Two lists that
have the same members, in any order and repeated at will, make scanners that report the same
checks, with the same reasons and in the same order. -/
theorem scanLine_congr_of_prefixFree {P Q : List String} (nonempty : P ≠ [])
    (same : ∀ mark, mark ∈ P ↔ mark ∈ Q) (free : PrefixFree P) :
    ∃ p q, DirectiveScanner.ofMarks P = .ok p ∧ DirectiveScanner.ofMarks Q = .ok q ∧
      ∀ line, p.scanLine line = q.scanLine line := by
  have nonemptyToo : Q ≠ [] := by
    obtain ⟨mark, mem⟩ := List.exists_mem_of_ne_nil P nonempty
    exact List.ne_nil_of_mem ((same mark).1 mem)
  refine ⟨_, _, DirectiveScanner.ofMarks_eq_ok nonempty,
    DirectiveScanner.ofMarks_eq_ok nonemptyToo, fun line => ?_⟩
  have found := Directive.directives_congr (Directive.parseAt_congr same free) line.toList
  exact congrArg (List.map Directive.check) found

/-- Two marks that end alike, one of them given twice. -/
theorem scanLine_congr_legacy :
    ∃ p q, DirectiveScanner.ofMarks ["scan:skip=", "legacy:skip=", "scan:skip="] = .ok p ∧
      DirectiveScanner.ofMarks ["legacy:skip=", "scan:skip="] = .ok q ∧
      p.scanLine "# legacy:skip=A_1: old scan:skip= B_2" =
        q.scanLine "# legacy:skip=A_1: old scan:skip= B_2" ∧
      q.scanLine "# legacy:skip=A_1: old scan:skip= B_2" =
        [⟨"A_1", some "old"⟩, ⟨"B_2", none⟩] := by
  obtain ⟨p, q, madeP, madeQ, alike⟩ :=
    scanLine_congr_of_prefixFree (P := ["scan:skip=", "legacy:skip=", "scan:skip="])
      (Q := ["legacy:skip=", "scan:skip="]) (by decide)
      (by intro mark; simp only [List.mem_cons, List.not_mem_nil]; tauto)
      (by unfold PrefixFree; decide)
  refine ⟨p, q, madeP, madeQ, alike _, ?_⟩
  obtain rfl := Except.ok.inj madeQ
  decide +kernel

/-- Where one mark begins with another one, the first of the two is taken. -/
example : (DirectiveScanner.mk ["no", "not"] (by decide)).scanLine "notA" = [⟨"tA", none⟩] ∧
    (DirectiveScanner.mk ["not", "no"] (by decide)).scanLine "notA" = [⟨"A", none⟩] := by
  decide +kernel

end InfraScan
