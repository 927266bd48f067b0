import InfraScan.FileTree.Discovery
import InfraScan.Proofs.FileTree
import InfraScan.Proofs.NamePattern

/-!
# Searches along names

A search with a pattern begins with the pieces of a path, each of which is a name that is
looked up and not compared.  It gets where a walk along the path gets, and on the way the path
is spelled anew.

* `Path.start`, `Disk.exists_start` — where a search for a path begins
* `Disk.walk_below`, `Disk.steps_below` — a path below another one
* `Disk.ShownAt` — the path by which a search shows a place
* `Disk.ShownAt.under`, `Disk.ShownAt.foldl_under` — a step of a search, and all of them
* `Disk.search_patternSteps` — a search for a path gets where a walk gets
* `Path.Stalls`, `Disk.search_of_stalls` — but for the paths with an empty step in the working
  folder
* `Disk.ShownAt.components_entry`, `Disk.ShownAt.find_entry` — what stands below a place that
  is shown

### What is load-bearing

In the working folder the path of an entry is its name alone.  So an empty piece leads nowhere
there, as no name is empty, while behind any other path it is a slash too many.  A search for
`./` does not get as far as a walk for that reason, and `Disk.Steady` says that this does not
happen.
-/

namespace InfraScan

open FileTree

namespace Path

variable {path : String}

/-- Where the search for a path begins. -/
def start (path : String) : String := if isAbsolute path then "/" else "."

/-- **A path stalls** if, after points that stand for the working folder, it has an empty
piece. -/
def Stalls (path : String) : Prop :=
  isAbsolute path = false ∧ ((pieces path.toList).dropWhile (· = ['.'])).head? = some []

instance : DecidablePred Stalls := fun path =>
  inferInstanceAs (Decidable (isAbsolute path = false ∧
    ((pieces path.toList).dropWhile (· = ['.'])).head? = some []))

end Path

namespace Disk

variable {disk : Disk} {path shown rest : String} {names : List String}
  {pieces : List (List Char)} {piece : List Char} {place next goal : FileTree × List FileTree}
  {found : FileTree}

/-! ### Paths below a path -/

theorem isHere_iff : isHere path = true ↔ Path.components path = [.here] := by
  rw [isHere, decide_eq_true_eq]

/-- A text without a slash is a path of one piece. -/
theorem isAbsolute_ofList (clean : '/' ∉ piece) :
    Path.isAbsolute (String.ofList piece) = false := by
  cases piece with
  | nil => rfl
  | cons c piece =>
    have other : c ≠ '/' := fun slash => clean (slash ▸ List.mem_cons_self)
    simp [Path.isAbsolute, other]

theorem pieces_ofList (clean : '/' ∉ piece) :
    Path.pieces (String.ofList piece).toList = [piece] := by
  rw [String.toList_ofList, Path.pieces_of_clean clean]

/-- **A walk below a path** leads on from where the path leads. -/
theorem walk_below (walked : disk.walk shown = .ok place)
    (relative : Path.isAbsolute rest = false) (onward : isHere shown = true → rest ≠ "") :
    disk.walk (below shown rest) = (Path.pieces rest.toList).foldlM step place := by
  unfold below
  split
  · rename_i here
    exact walk_of_here walked (isHere_iff.1 here) (onward here) relative
  · exact walk_join walked relative

theorem isHere_below (away : isHere shown = false) (given : shown ≠ "")
    (relative : Path.isAbsolute rest = false) : isHere (below shown rest) = false := by
  rw [below, away, if_neg Bool.false_ne_true]
  by_contra here
  rw [Bool.not_eq_false, isHere_iff, Path.components_join given relative] at here
  rcases List.append_eq_singleton_iff.1 here with ⟨-, still⟩ | ⟨front, -⟩
  · exact Path.here_not_mem_steps rest (still ▸ List.mem_cons_self)
  · rw [isHere_iff.2 front] at away
    cases away

/-- **A path below a path** has the steps of both. -/
theorem steps_below (given : shown ≠ "") (relative : Path.isAbsolute rest = false) :
    Path.steps (below shown rest) = Path.steps shown ++ Path.steps rest := by
  unfold below
  split
  · rename_i here
    rw [Path.steps.eq_1 shown, isHere_iff.1 here]
    rfl
  · exact Path.steps_join given relative

/-- A path is spelled without a point in front, unless there is nothing else to it. -/
def Spelled (path : String) : Prop :=
  isHere path = false → Path.components path = Path.steps path

theorem Spelled.below (spelled : Spelled shown) (given : shown ≠ "")
    (relative : Path.isAbsolute rest = false)
    (solid : isHere rest = true ∨ (Path.pieces rest.toList).head? ≠ some ['.']) :
    Spelled (below shown rest) := by
  intro away
  unfold Disk.below at away ⊢
  split
  · rename_i here
    rw [if_pos here] at away
    rcases solid with here' | solid
    · rw [here'] at away
      cases away
    · exact Path.components_eq_steps solid
  · rename_i elsewhere
    rw [Path.components_join given relative, Path.steps_join given relative,
      spelled (Bool.eq_false_iff.2 elsewhere)]

/-! ### The way to a folder -/

/-- One piece of a pattern further. -/
def under (shown : String) (piece : List Char) : String := below shown (String.ofList piece)

/-- **The path by which a search shows the folder at a path.** -/
def shownAs (path : String) : String := (patternSteps path).foldl under (Path.start path)

/-- Pieces lead away from the working folder, or they are points. -/
def Steady (shown : String) (pieces : List (List Char)) : Prop :=
  isHere shown = true → (pieces.dropWhile (· = ['.'])).head? ≠ some []

theorem head?_pieces_ofList (clean : '/' ∉ piece) :
    (Path.pieces (String.ofList piece).toList).head? = some piece := by
  rw [pieces_ofList clean, List.head?_cons]

theorem isHere_ofList_iff (clean : '/' ∉ piece) :
    isHere (String.ofList piece) = true ↔ piece = ['.'] := by
  constructor
  · intro here
    by_contra other
    have front : (Path.pieces (String.ofList piece).toList).head? ≠ some ['.'] := by
      rw [head?_pieces_ofList clean]
      exact fun same => other (Option.some.inj same)
    rw [isHere_iff, Path.components_eq_steps front] at here
    exact Path.here_not_mem_steps _ (here ▸ List.mem_cons_self)
  · rintro rfl
    rfl

theorem Steady.ne_nil (steady : Steady shown (piece :: pieces)) (here : isHere shown = true) :
    piece ≠ [] := by
  rintro rfl
  exact steady here rfl

theorem Steady.under (steady : Steady shown (piece :: pieces)) (given : shown ≠ "")
    (clean : '/' ∉ piece) : Steady (under shown piece) pieces := by
  intro here
  by_cases away : isHere shown = true
  · rw [Disk.under, below, if_pos away, isHere_ofList_iff clean] at here
    subst here
    exact steady away
  · rw [Disk.under,
      isHere_below (Bool.eq_false_iff.2 away) given (isAbsolute_ofList clean)] at here
    cases here

/-- **A place is shown** by a path that leads there and is spelled without a point in
front. -/
structure ShownAt (disk : Disk) (shown : String) (place : FileTree × List FileTree) :
    Prop where
  walked : disk.walk shown = .ok place
  spelled : Spelled shown

/-- **A step of a search along plain names.** -/
theorem ShownAt.under (shows : disk.ShownAt shown place)
    (steady : Steady shown (piece :: pieces)) (clean : '/' ∉ piece)
    (stepped : step place piece = .ok next) :
    disk.ShownAt (under shown piece) next ∧
      Path.steps (Disk.under shown piece) =
        Path.steps shown ++ [piece].filterMap Path.Component.ofPiece? := by
  have given := ne_empty_of_walk shows.walked
  have relative := isAbsolute_ofList clean
  refine ⟨⟨?_, ?_⟩, ?_⟩
  · have solid (here : isHere shown = true) : String.ofList piece ≠ "" := by
      intro empty
      exact steady.ne_nil here (String.ofList_injective empty)
    rw [Disk.under, walk_below shows.walked relative solid, pieces_ofList clean]
    exact foldlM_step_cons.2 ⟨next, stepped, rfl⟩
  · refine shows.spelled.below given relative ?_
    rw [isHere_ofList_iff clean, head?_pieces_ofList clean, Ne, Option.some_inj]
    exact Classical.em _
  · rw [Disk.under, steps_below given relative, Path.steps_of_relative relative,
      pieces_ofList clean]

theorem search_literal (patterns : List NamePattern) (tree : FileTree) :
    disk.search (NamePattern.literal piece :: patterns) shown tree =
      match disk.find (under shown piece) with
      | .ok found => disk.search patterns (under shown piece) found
      | .error _ => [] := by
  cases patterns <;> rw [search, NamePattern.literal?_literal] <;> rfl

/-- **A search goes along plain names** to where they lead. -/
theorem ShownAt.foldl_under (shows : disk.ShownAt shown place) (steady : Steady shown pieces)
    (clean : ∀ piece ∈ pieces, '/' ∉ piece) (reached : pieces.foldlM step place = .ok goal) :
    disk.ShownAt (pieces.foldl Disk.under shown) goal ∧
      Path.steps (pieces.foldl Disk.under shown) =
        Path.steps shown ++ pieces.filterMap Path.Component.ofPiece? ∧
      ∀ patterns, disk.search (pieces.map NamePattern.literal ++ patterns) shown place.1 =
        disk.search patterns (pieces.foldl Disk.under shown) goal.1 := by
  induction pieces generalizing shown place with
  | nil =>
    cases reached
    exact ⟨shows, (List.append_nil _).symm, fun patterns => rfl⟩
  | cons piece pieces ih =>
    obtain ⟨next, stepped, onward⟩ := foldlM_step_cons.1 reached
    have cleanPiece := clean piece List.mem_cons_self
    obtain ⟨showsNext, further⟩ := shows.under steady cleanPiece stepped
    have steadyNext := steady.under (ne_empty_of_walk shows.walked) cleanPiece
    obtain ⟨showsGoal, whole, searched⟩ := ih showsNext steadyNext
      (fun piece mem => clean piece (List.mem_cons_of_mem _ mem)) onward
    refine ⟨showsGoal, ?_, fun patterns => ?_⟩
    · rw [List.foldl_cons, whole, further, List.append_assoc, ← List.filterMap_append,
        List.singleton_append]
    · have found : disk.find (Disk.under shown piece) = .ok next.1 :=
        find_eq_ok_iff.2 ⟨next.2, showsNext.walked⟩
      rw [List.map_cons, List.cons_append, search_literal, found]
      exact searched patterns

/-- **A search for a path that stalls finds nothing.** -/
theorem search_of_stalls (here : isHere shown = true)
    (stalls : (pieces.dropWhile (· = ['.'])).head? = some []) (patterns : List NamePattern)
    (tree : FileTree) :
    disk.search (pieces.map NamePattern.literal ++ patterns) shown tree = [] := by
  induction pieces generalizing shown tree with
  | nil => cases stalls
  | cons piece pieces ih =>
    rw [List.map_cons, List.cons_append, search_literal, under, below, if_pos here]
    by_cases point : piece = ['.']
    · subst point
      split
      · exact ih rfl stalls _
      · rfl
    · rw [List.dropWhile_cons_of_neg (by simpa using point)] at stalls
      obtain rfl : piece = [] := Option.some.inj stalls
      rfl

/-! ### Where a search begins -/

/-- **A walk along a path** begins where a search for it does, and goes along the steps of its
pattern. -/
theorem exists_start (walked : disk.walk path = .ok goal) :
    ∃ place, disk.ShownAt (Path.start path) place ∧
      (patternSteps path).foldlM step place = .ok goal := by
  rw [walk_eq (ne_empty_of_walk walked)] at walked
  unfold Path.start patternSteps
  cases absolute : Path.isAbsolute path with
  | true =>
    obtain ⟨more, split⟩ := Path.pieces_of_isAbsolute absolute
    rw [absolute, if_pos rfl, split, List.nil_append] at walked
    have silent : Path.Component.ofPiece? [] = none := rfl
    have still := step_of_ofPiece? silent
      (isFolder_of_foldlM_step (List.cons_ne_nil _ _) walked)
    obtain ⟨next, stepped, onward⟩ := foldlM_step_cons.1 walked
    obtain rfl : (disk.root, []) = next := Except.ok.inj (still.symm.trans stepped)
    refine ⟨(disk.root, []), ⟨?_, fun _ => rfl⟩, ?_⟩
    · show [[], []].foldlM step (disk.root, []) = _
      exact foldlM_step_cons.2 ⟨_, still, foldlM_step_cons.2 ⟨_, still, rfl⟩⟩
    · rw [if_pos rfl, split]
      exact onward
  | false =>
    rw [absolute, if_neg Bool.false_ne_true] at walked
    obtain ⟨middle, reached, onward⟩ := foldlM_step_append.1 walked
    have silent : Path.Component.ofPiece? ['.'] = none := rfl
    have still := step_of_ofPiece? silent
      (isFolder_of_foldlM_step (Path.pieces_ne_nil _) onward)
    refine ⟨middle, ⟨?_, fun away => ?_⟩, ?_⟩
    · rw [if_neg Bool.false_ne_true, walk_eq (by decide)]
      exact foldlM_step_append.2 ⟨middle, reached, foldlM_step_cons.2 ⟨_, still, rfl⟩⟩
    · cases away
    · rw [if_neg Bool.false_ne_true]
      exact onward

theorem steady_start (onward : ¬ Path.Stalls path) :
    Steady (Path.start path) (patternSteps path) := by
  intro here stalled
  unfold Path.start patternSteps at *
  cases absolute : Path.isAbsolute path with
  | true =>
    rw [absolute, if_pos rfl] at here
    cases here
  | false =>
    rw [absolute, if_neg Bool.false_ne_true] at stalled
    exact onward ⟨absolute, stalled⟩

theorem steps_start (path : String) :
    Path.steps (Path.start path) ++ (patternSteps path).filterMap Path.Component.ofPiece? =
      Path.steps path := by
  unfold Path.start patternSteps
  rw [Path.steps_eq path]
  cases absolute : Path.isAbsolute path with
  | true =>
    obtain ⟨more, split⟩ := Path.pieces_of_isAbsolute absolute
    rw [split]
    rfl
  | false => rfl

theorem mem_patternSteps (mem : piece ∈ patternSteps path) :
    '/' ∉ piece ∧ piece ⊆ path.toList := by
  refine Path.mem_pieces ?_
  unfold patternSteps at mem
  split at mem
  · exact List.mem_of_mem_drop mem
  · exact mem

/-- **A search for a path gets where a walk gets**, unless the path stalls.  The path by which
it shows the place has the same steps. -/
theorem search_patternSteps (onward : ¬ Path.Stalls path)
    (walked : disk.walk path = .ok goal) :
    disk.ShownAt (shownAs path) goal ∧ Path.steps (shownAs path) = Path.steps path ∧
      ∃ tree, disk.find (Path.start path) = .ok tree ∧
        ∀ patterns, disk.search ((patternSteps path).map NamePattern.literal ++ patterns)
          (Path.start path) tree = disk.search patterns (shownAs path) goal.1 := by
  obtain ⟨place, shows, reached⟩ := exists_start walked
  obtain ⟨showsGoal, whole, searched⟩ := shows.foldl_under (steady_start onward)
    (fun piece mem => (mem_patternSteps mem).1) reached
  exact ⟨showsGoal, whole.trans (steps_start path), place.1,
    find_eq_ok_iff.2 ⟨place.2, shows.walked⟩, searched⟩

/-! ### Names below a folder -/

theorem pieces_names (fit : ∀ name ∈ names, IsName name) (inhabited : names ≠ []) :
    Path.pieces ("/".intercalate names).toList = names.map String.toList :=
  Path.pieces_intercalate (fun name mem => (fit name mem).2) inhabited

/-- The first piece of names that are joined is a name. -/
theorem exists_head?_pieces_names (fit : ∀ name ∈ names, IsName name)
    (inhabited : names ≠ []) :
    ∃ name, IsName name ∧
      (Path.pieces ("/".intercalate names).toList).head? = some name.toList := by
  obtain ⟨name, rest, rfl⟩ := List.exists_cons_of_ne_nil inhabited
  exact ⟨name, fit name List.mem_cons_self, by rw [pieces_names fit inhabited]; rfl⟩

theorem isAbsolute_names (fit : ∀ name ∈ names, IsName name) (inhabited : names ≠ []) :
    Path.isAbsolute ("/".intercalate names) = false := by
  obtain ⟨name, isName, head⟩ := exists_head?_pieces_names fit inhabited
  by_contra absolute
  obtain ⟨more, split⟩ := Path.pieces_of_isAbsolute (Bool.not_eq_false _ ▸ absolute)
  rw [split, List.head?_cons] at head
  exact isName.toList_ne.1 (Option.some.inj head).symm

theorem steps_names (fit : ∀ name ∈ names, IsName name) (inhabited : names ≠ []) :
    Path.steps ("/".intercalate names) = names.map Path.nameStep := by
  rw [Path.steps_of_relative (isAbsolute_names fit inhabited), pieces_names fit inhabited,
    List.filterMap_map, ← List.filterMap_eq_map]
  refine List.filterMap_congr fun name mem => ?_
  exact (fit name mem).ofPiece?

/-- **What stands below a place** is shown by the path of the place and the names on the
way. -/
theorem ShownAt.components_entry (shows : disk.ShownAt shown place)
    (named : place.1.WellNamed) (held : place.1.Holds names found) :
    Path.components (below shown ("/".intercalate names)) =
      Path.steps shown ++ names.map Path.nameStep := by
  have given := ne_empty_of_walk shows.walked
  have fit := held.isName named
  have inhabited := held.ne_nil
  have relative := isAbsolute_names fit inhabited
  have further : Path.steps (below shown ("/".intercalate names)) =
      Path.steps shown ++ names.map Path.nameStep := by
    rw [steps_below given relative, steps_names fit inhabited]
  have away : isHere (below shown ("/".intercalate names)) = false := by
    by_contra here
    rw [Bool.not_eq_false, isHere_iff] at here
    rw [Path.steps, here] at further
    have empty := (List.append_eq_nil_iff.1 further.symm).2
    exact inhabited (List.map_eq_nil_iff.1 empty)
  obtain ⟨first, isName, head⟩ := exists_head?_pieces_names fit inhabited
  have noPoint : (Path.pieces ("/".intercalate names).toList).head? ≠ some ['.'] := by
    rw [head]
    exact fun point => isName.toList_ne.2.1 (Option.some.inj point)
  rw [shows.spelled.below given relative (.inr noPoint) away, further]

/-- **Names below a place lead to what stands there.** -/
theorem ShownAt.find_entry (shows : disk.ShownAt shown place) (named : place.1.WellNamed)
    (held : place.1.Holds names found) :
    disk.find (below shown ("/".intercalate names)) = .ok found := by
  have fit := held.isName named
  have inhabited := held.ne_nil
  have solid (_ : isHere shown = true) : "/".intercalate names ≠ "" := by
    obtain ⟨first, isName, head⟩ := exists_head?_pieces_names fit inhabited
    intro empty
    rw [empty] at head
    exact isName.toList_ne.1 (Option.some.inj head).symm
  obtain ⟨behind, reached⟩ := exists_foldlM_step_of_holds held named place.2
  rw [find_eq_ok_iff, walk_below shows.walked (isAbsolute_names fit inhabited) solid,
    pieces_names fit inhabited]
  exact ⟨behind, reached⟩

end Disk

end InfraScan
