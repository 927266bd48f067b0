import InfraScan.Proofs.SourceRuns
import InfraScan.Proofs.TextLines

/-!
# Slices of sources

A range of lines may begin before the file and end behind it, or the wrong way round, and its
bounds may be as large as numbers get.  Both bounds are moved into the file before a line is
looked up, and what comes out are the lines of the text that have a number in the range.

* `lineAt?`, `sliceByIndex?` — lines looked up one by one, with a failure outside the file
* `sliceByIndex?_eq` — a slice never looks outside the file
* `mem_slice_iff`, `slice_append` — the lines of a slice, and two slices that lie side by side
* `SourceCache.lineAt?_splitSource_iff` — the lines of a source, told from its text
* `source_slices_exact` — the slices of a text in a cache

### What is load-bearing

The lower bound is moved up to one, and so the position of a line, one less than its number,
is never below zero.  The upper bound is moved down to the number of lines.  If the two have
passed each other, there is nothing to look up.
-/

namespace InfraScan

/-! ### Lines looked up one by one -/

/-- The line with a number, which counts from one.  There is none outside the file. -/
def lineAt? (lines : List String) (number : Nat) : Option String :=
  if number = 0 then none else lines[number - 1]?

/-- **The lines of a range, looked up one by one.**  The bounds are moved into the file first;
a number outside the file would fail the whole. -/
def sliceByIndex? (lines : List String) (startLine endLine : Nat) :
    Option (List (Nat × String)) :=
  (lineNumbers startLine endLine lines.length).mapM fun number =>
    (lineAt? lines number).map (Prod.mk number)

/-- The line with a number inside the file. -/
theorem lineAt?_eq_some {lines : List String} {number : Nat} (positive : 1 ≤ number)
    (inside : number ≤ lines.length) :
    lineAt? lines number = some (lineText lines number) := by
  have position : number - 1 < lines.length := by omega
  rw [lineAt?, if_neg (Nat.ne_of_gt positive), lineText, List.getD_eq_getElem?_getD,
    List.getElem?_eq_getElem position, Option.getD_some]

/-- There is no line outside the file. -/
theorem inside_of_lineAt? {lines : List String} {number : Nat} {shown : String}
    (found : lineAt? lines number = some shown) : 1 ≤ number ∧ number ≤ lines.length := by
  unfold lineAt? at found
  split at found
  · cases found
  · have position := (List.getElem?_eq_some_iff.1 found).1
    omega

/-- A look-up that fails nowhere gives what is looked up. -/
theorem mapM_eq_some_map {α β : Type} {look : α → Option β} {found : α → β} {list : List α}
    (each : ∀ a ∈ list, look a = some (found a)) :
    list.mapM look = some (list.map found) := by
  induction list with
  | nil => rfl
  | cons a rest ih =>
    have later := ih fun b mem => each b (List.mem_cons_of_mem a mem)
    rw [List.mapM_cons, each a List.mem_cons_self, later]
    rfl

/-- **A slice never looks outside the file.** -/
theorem sliceByIndex?_eq (lines : List String) (startLine endLine : Nat) :
    sliceByIndex? lines startLine endLine = some (slice lines startLine endLine) := by
  rw [slice_eq_map, sliceByIndex?]
  apply mapM_eq_some_map
  intro number mem
  obtain ⟨fromFirst, toLast⟩ := mem_lineNumbers.1 mem
  rw [lineAt?_eq_some (by omega) (by omega), Option.map_some]

/-- **The lines of a slice** are those of the file with a number in the range. -/
theorem mem_slice_iff {lines : List String} {startLine endLine number : Nat}
    {shown : String} :
    (number, shown) ∈ slice lines startLine endLine ↔
      (startLine ≤ number ∧ number ≤ endLine) ∧ lineAt? lines number = some shown := by
  rw [slice_eq_map, List.mem_map]
  constructor
  · rintro ⟨other, mem, same⟩
    obtain ⟨rfl, rfl⟩ := Prod.mk.inj same
    obtain ⟨fromFirst, toLast⟩ := mem_lineNumbers.1 mem
    exact ⟨⟨by omega, by omega⟩, lineAt?_eq_some (by omega) (by omega)⟩
  · rintro ⟨⟨fromStart, toEnd⟩, found⟩
    obtain ⟨positive, inside⟩ := inside_of_lineAt? found
    rw [lineAt?_eq_some positive inside] at found
    refine ⟨number, mem_lineNumbers.2 ⟨by omega, by omega⟩, ?_⟩
    rw [Option.some.inj found]

/-! ### Slices side by side -/

/-- **The numbers of a range** are those up to a line of it, and those behind this line. -/
theorem lineNumbers_append {startLine middle endLine : Nat} (count : Nat)
    (before : startLine ≤ middle + 1) (inside : middle ≤ endLine) :
    lineNumbers startLine middle count ++ lineNumbers (middle + 1) endLine count =
      lineNumbers startLine endLine count := by
  unfold lineNumbers
  rcases Nat.lt_or_ge middle count with short | long
  · -- The file goes on behind the middle, where the second part begins.
    have first :
        max startLine 1 + (min middle count + 1 - max startLine 1) = max (middle + 1) 1 := by
      omega
    rw [← first, List.range'_append_1]
    congr 1
    omega
  · -- The file has ended by then, and the second part is empty.
    have nothing : min endLine count + 1 - max (middle + 1) 1 = 0 := by omega
    have all : min middle count = min endLine count := by omega
    rw [nothing, all, List.range'_zero, List.append_nil]

/-- **Two slices that lie side by side** are one. -/
theorem slice_append {startLine middle endLine : Nat} (lines : List String)
    (before : startLine ≤ middle + 1) (inside : middle ≤ endLine) :
    slice lines startLine middle ++ slice lines (middle + 1) endLine =
      slice lines startLine endLine := by
  rw [slice_eq_map, slice_eq_map, slice_eq_map, ← List.map_append,
    lineNumbers_append lines.length before inside]

/-! ### Slices of a text -/

namespace SourceCache

variable {text : String} {startLine endLine number : Nat}

theorem length_splitSource (text : String) :
    (splitSource text).length = Text.lineCount text.toList := by
  rw [splitSource, List.length_map, Text.length_lines]

/-- **The lines of a source by number** are those of its text, without carriage returns at
their ends. -/
theorem lineAt?_splitSource_iff {shown : String} :
    lineAt? (splitSource text) number = some shown ↔
      ∃ line, Text.LineAt text.toList number line ∧ Text.Bare line shown.toList := by
  cases number with
  | zero =>
    constructor
    · intro found
      cases found
    · rintro ⟨line, ⟨before, after, -, numbered, -⟩, -⟩
      cases numbered
  | succ place =>
    rw [← Text.getElem?_map_lines_iff, lineAt?, if_neg (Nat.succ_ne_zero place),
      Nat.add_sub_cancel, splitSource]
    simp only [List.getElem?_map, Option.map_eq_some_iff]
    refine exists_congr fun line => and_congr_right fun _ => ?_
    constructor
    · rintro rfl
      rw [String.toList_ofList]
    · intro same
      rw [same, String.ofList_toList]

/-- A file in the cache gives its slices, and the cache stays as it is. -/
theorem lines_of_get?_eq_some {cache : SourceCache} {path : String} {all : List String}
    (held : cache.get? path = some all) (read : TextReader) (startLine endLine : Nat) :
    cache.lines read path startLine endLine = (.ok (slice all startLine endLine), cache) := by
  rw [lines, load, held]
  rfl

end SourceCache

/-- **The slices of a text in a cache are exact, and those that lie side by side are one.**
Whatever the bounds of a range are, a request for its lines gives an answer, leaves the cache
as it is and does not look at the disk.

* Looked up one by one, the lines are the same, so no number outside the file is looked up.
* The numbers of the lines increase.  They are the numbers in the range that are numbers of
  lines of the text, which has as many lines as line feeds, and another one if it does not end
  in a line feed.
* A line is given with a number exactly when the number is in the range and the line is what
  the text has there: what stands between two line feeds, without the carriage returns at its
  end.
* A range and another one right behind it have the lines of both together. -/
theorem source_slices_exact {cache : SourceCache} {path text : String}
    (held : cache.get? path = some (SourceCache.splitSource text)) (read : TextReader)
    (startLine endLine : Nat) :
    ∃ found, cache.lines read path startLine endLine = (.ok found, cache) ∧
      sliceByIndex? (SourceCache.splitSource text) startLine endLine = some found ∧
      (found.map Prod.fst).Pairwise (· < ·) ∧
      (∀ number, number ∈ found.map Prod.fst ↔ (startLine ≤ number ∧ number ≤ endLine) ∧
        1 ≤ number ∧ number ≤ Text.lineCount text.toList) ∧
      (∀ number shown, (number, shown) ∈ found ↔ (startLine ≤ number ∧ number ≤ endLine) ∧
        ∃ line, Text.LineAt text.toList number line ∧ Text.Bare line shown.toList) ∧
      ∀ middle, startLine ≤ middle + 1 → middle ≤ endLine → ∃ front back,
        cache.lines read path startLine middle = (.ok front, cache) ∧
        cache.lines read path (middle + 1) endLine = (.ok back, cache) ∧
          front ++ back = found := by
  have given := SourceCache.lines_of_get?_eq_some held read
  refine ⟨_, given startLine endLine, sliceByIndex?_eq _ startLine endLine, ?_, ?_, ?_, ?_⟩
  · rw [map_fst_slice]
    exact List.pairwise_lt_range'
  · intro number
    rw [map_fst_slice, mem_lineNumbers, SourceCache.length_splitSource]
    omega
  · intro number shown
    rw [mem_slice_iff, SourceCache.lineAt?_splitSource_iff]
  · intro middle before inside
    exact ⟨_, _, given startLine middle, given (middle + 1) endLine,
      slice_append _ before inside⟩

/-- A text with line ends of several kinds, whose last line has none. -/
def unevenSource : String := "one\r\n\ntwo\r\r\nthree\r"

/-- Of all bounds there are, the lines are the four of the text; and they are those up to the
second one with those behind it. -/
theorem unevenSource_sliced :
    let cache := SourceCache.empty.insert "/main.tf" unevenSource
    cache.get? "/main.tf" = some (SourceCache.splitSource unevenSource) ∧
      (cache.lines (fun _ => .error .notFound) "/main.tf" 0 18446744073709551615).1.toOption =
        some [(1, "one"), (2, ""), (3, "two"), (4, "three")] ∧
      ∃ front back, (cache.lines (fun _ => .error .notFound) "/main.tf" 0 2).1 = .ok front ∧
        (cache.lines (fun _ => .error .notFound) "/main.tf" 3 18446744073709551615).1 =
          .ok back ∧
        front ++ back = [(1, "one"), (2, ""), (3, "two"), (4, "three")] := by
  intro cache
  have held : cache.get? "/main.tf" = some (SourceCache.splitSource unevenSource) := by
    decide +kernel
  obtain ⟨found, given, byIndex, -, -, -, composed⟩ :=
    source_slices_exact held (fun _ => .error .notFound) 0 18446744073709551615
  have all : found = [(1, "one"), (2, ""), (3, "two"), (4, "three")] := by
    have looked : sliceByIndex?
        (SourceCache.splitSource unevenSource) 0 18446744073709551615 =
        some [(1, "one"), (2, ""), (3, "two"), (4, "three")] := by
      decide +kernel
    exact Option.some.inj (byIndex.symm.trans looked)
  obtain ⟨front, back, first, second, together⟩ := composed 2 (by decide) (by decide)
  refine ⟨held, ?_, front, back, congrArg Prod.fst first, congrArg Prod.fst second,
    together.trans all⟩
  rw [given, ← all]
  rfl

end InfraScan
