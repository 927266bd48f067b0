import InfraScan.Manifest.Document
import InfraScan.Proofs.Text
import Mathlib.Data.List.Basic

/-!
# The place of a manifest document

A part keeps no account of what was cut off before it except the number of its first line.
That is enough: the part is a run of lines of the text at that place, and the range that is
read off its content lies inside.  Every document has the range of the part that holds it.

* `exists_append_of_mem_cutFrom` — a part is a run of lines, numbered by what stands before it
* `Part.bounds_of_range?` — the range of a part is in order and inside the part
* `Manifest.Holds` — a document that a text holds
* `holds_of_mem_parse` — every document that is read is one of these
* `Holds.bounds` — the range of a document is in order and inside the text
-/

namespace InfraScan.Manifest

/-! ### Parts -/

/-- The first part begins with the first line. -/
theorem firstLine_of_head?_cutFrom {first : Nat} {lines : List (List Char)} {part : Part}
    (head : (cutFrom first lines).head? = some part) : part.firstLine = first := by
  cases lines with
  | nil =>
    obtain rfl := Option.some.inj head
    rfl
  | cons line rest =>
    unfold cutFrom at head
    split at head
    · obtain rfl := Option.some.inj head
      rfl
    · split at head <;>
      · obtain rfl := Option.some.inj head
        rfl

/-- **A part is a run of lines**, and its number is that of what stands before it. -/
theorem exists_append_of_mem_cutFrom {first : Nat} {lines : List (List Char)} {part : Part}
    (mem : part ∈ cutFrom first lines) :
    ∃ before after, lines = before ++ part.lines ++ after ∧
      part.firstLine = first + before.length := by
  fun_induction cutFrom first lines generalizing part with
  | case1 first =>
    obtain rfl := List.mem_singleton.1 mem
    exact ⟨[], [], rfl, rfl⟩
  | case2 first line rest separator ih =>
    rcases List.mem_cons.1 mem with rfl | later
    · exact ⟨[], line :: rest, rfl, rfl⟩
    · obtain ⟨before, after, rfl, number⟩ := ih later
      refine ⟨line :: before, after, rfl, ?_⟩
      rw [number, List.length_cons]
      omega
  | case3 first line rest inside nothing ih =>
    obtain rfl := List.mem_singleton.1 mem
    exact ⟨[], rest, rfl, rfl⟩
  | case4 first line rest inside front more parts ih =>
    rw [parts] at ih
    rcases List.mem_cons.1 mem with rfl | later
    · -- The line goes to the first part of the rest, before which there is nothing.
      obtain ⟨before, after, whole, number⟩ := ih List.mem_cons_self
      have head : (cutFrom (first + 1) rest).head? = some front := by
        rw [parts, List.head?_cons]
      have begins := firstLine_of_head?_cutFrom head
      have nothing : before = [] := List.eq_nil_of_length_eq_zero (by omega)
      subst nothing
      exact ⟨[], after, congrArg (line :: ·) whole, rfl⟩
    · obtain ⟨before, after, rfl, number⟩ := ih (List.mem_cons_of_mem _ later)
      refine ⟨line :: before, after, rfl, ?_⟩
      rw [number, List.length_cons]
      omega

/-! ### Ranges -/

namespace Part

/-- The lines that carry content are some of those of the part, in order. -/
theorem contentLines_sublist (part : Part) :
    part.contentLines.Sublist (List.range' part.firstLine part.lines.length) := by
  have numbers : (part.lines.zipIdx part.firstLine).map Prod.snd =
      List.range' part.firstLine part.lines.length := List.zipIdx_map_snd _ _
  exact numbers ▸ List.filter_sublist.map Prod.snd

theorem pairwise_contentLines (part : Part) : part.contentLines.Pairwise (· < ·) :=
  List.Pairwise.sublist part.contentLines_sublist (List.pairwise_lt_range' 1)

/-- **The range of a part is in order and inside the part.** -/
theorem bounds_of_range? {part : Part} {startLine endLine : Nat}
    (range : part.range? = some (startLine, endLine)) :
    part.firstLine ≤ startLine ∧ startLine ≤ endLine ∧
      endLine < part.firstLine + part.lines.length := by
  unfold range? at range
  split at range
  · rename_i first last isFirst isLast
    obtain ⟨rfl, rfl⟩ := Prod.mk.inj (Option.some.inj range)
    have inside (line : Nat) (mem : line ∈ part.contentLines) :
        part.firstLine ≤ line ∧ line < part.firstLine + part.lines.length :=
      List.mem_range'_1.1 (part.contentLines_sublist.subset mem)
    have increasing := part.pairwise_contentLines
    refine ⟨(inside _ (List.mem_of_mem_head? isFirst)).1, ?_,
      (inside _ (List.mem_of_getLast? isLast)).2⟩
    obtain ⟨rest, split⟩ := List.head?_eq_some_iff.1 isFirst
    have last := List.mem_of_getLast? isLast
    rw [split] at increasing last
    rcases List.mem_cons.1 last with rfl | later
    · exact Nat.le_refl _
    · exact Nat.le_of_lt (List.rel_of_pairwise_cons increasing later)
  · cases range

end Part

/-- **The range of a part of a text is in order and inside the text.** -/
theorem bounds_of_mem_cut {text : List Char} {part : Part} (mem : part ∈ cut text)
    {startLine endLine : Nat} (range : part.range? = some (startLine, endLine)) :
    1 ≤ startLine ∧ startLine ≤ endLine ∧ endLine ≤ (Text.lines text).length := by
  obtain ⟨before, after, whole, number⟩ := exists_append_of_mem_cutFrom mem
  obtain ⟨low, ordered, high⟩ := part.bounds_of_range? range
  rw [whole, List.length_append, List.length_append]
  omega

/-! ### Documents -/

variable {reader : String → Except String Json} {path : String}

/-- **A document that a part holds**: a resource of the part's value, with the range of the
part and the path of the file. -/
structure Part.Holds (reader : String → Except String Json) (path : String) (part : Part)
    (document : ManifestDocument) : Prop where
  filePath : document.filePath = path
  range : part.range? = some (document.startLine, document.endLine)
  value : ∃ value, reader part.text = .ok value ∧
    (document.kind, document.body) ∈ resources value

/-- **A document that a text holds** in one of its parts. -/
def Holds (reader : String → Except String Json) (path text : String)
    (document : ManifestDocument) : Prop :=
  ∃ part ∈ cut text.toList, part.Holds reader path document

theorem holds_of_mem_parsePart {part : Part} {documents : List ManifestDocument}
    (parsed : parsePart reader path part = .ok documents) {document : ManifestDocument}
    (mem : document ∈ documents) : part.Holds reader path document := by
  unfold parsePart at parsed
  split at parsed
  · obtain rfl := Except.ok.inj parsed
    cases mem
  · rename_i startLine endLine range
    split at parsed
    · cases parsed
    · rename_i value given
      obtain rfl := Except.ok.inj parsed
      obtain ⟨found, inValue, rfl⟩ := List.mem_map.1 mem
      exact ⟨rfl, range, value, given, inValue⟩

/-- Several parts are read when each of them is, and their documents follow one another. -/
theorem parseParts_cons_eq_ok {part : Part} {rest : List Part}
    {documents : List ManifestDocument} :
    parseParts reader path (part :: rest) = .ok documents ↔
      ∃ found others, parsePart reader path part = .ok found ∧
        parseParts reader path rest = .ok others ∧ documents = found ++ others := by
  rw [parseParts]
  cases parsePart reader path part with
  | error fault => simp
  | ok found => cases parseParts reader path rest <;> simp [Except.map, eq_comm]

theorem holds_of_mem_parseParts {parts : List Part} {documents : List ManifestDocument}
    (parsed : parseParts reader path parts = .ok documents) {document : ManifestDocument}
    (mem : document ∈ documents) : ∃ part ∈ parts, part.Holds reader path document := by
  induction parts generalizing documents with
  | nil =>
    obtain rfl := Except.ok.inj parsed
    cases mem
  | cons part rest ih =>
    obtain ⟨found, others, first, later, rfl⟩ := parseParts_cons_eq_ok.1 parsed
    rcases List.mem_append.1 mem with here | there
    · exact ⟨part, List.mem_cons_self, holds_of_mem_parsePart first here⟩
    · obtain ⟨other, present, holds⟩ := ih later there
      exact ⟨other, List.mem_cons_of_mem _ present, holds⟩

/-- **Every document that is read is one that the text holds.** -/
theorem holds_of_mem_parse {text : String} {documents : List ManifestDocument}
    (parsed : parse reader text path = .ok documents) {document : ManifestDocument}
    (mem : document ∈ documents) : Holds reader path text document :=
  holds_of_mem_parseParts parsed mem

theorem Holds.filePath {text : String} {document : ManifestDocument}
    (holds : Holds reader path text document) : document.filePath = path := by
  obtain ⟨part, -, inPart⟩ := holds
  exact inPart.filePath

/-- **The range of a document is in order and inside the text.** -/
theorem Holds.bounds {text : String} {document : ManifestDocument}
    (holds : Holds reader path text document) :
    1 ≤ document.startLine ∧ document.startLine ≤ document.endLine ∧
      document.endLine ≤ (Text.lines text.toList).length := by
  obtain ⟨part, inText, inPart⟩ := holds
  exact bounds_of_mem_cut inText inPart.range

/-- The line numbers of a document are numbers of 64 bits if the length of the text is one,
since a text has no more lines than characters. -/
theorem Holds.lines_fit {text : String} (fits : text.length < UInt64.size)
    {document : ManifestDocument} (holds : Holds reader path text document) :
    document.startLine < UInt64.size ∧ document.endLine < UInt64.size := by
  obtain ⟨-, ordered, inside⟩ := holds.bounds
  have short : (Text.lines text.toList).length ≤ text.length :=
    Text.length_lines_le text.toList
  exact ⟨by omega, by omega⟩

end InfraScan.Manifest
