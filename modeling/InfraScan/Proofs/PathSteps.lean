import InfraScan.FileTree.Path
import InfraScan.Proofs.Text
import Mathlib.Data.Char
import Mathlib.Data.List.Lex
import Mathlib.Data.Prod.Lex

/-!
# Paths, step by step

A path is a text, and what it says are its steps.  Texts are put together in more than one
way: a slash goes between two of them or is there already.  In the steps none of that is left.

* `mem_pieces`, `pieces_intercalate` — the pieces of a text between its slashes
* `exists_pieces_join` — the pieces of a path seen from a directory
* `steps`, `steps_join` — the components of a path, but for a point in front
* `precedes_iff` — paths are listed in the order of the words that their components are
* `ListedBefore`, `pairwise_listedBefore` — different paths when they are sorted
-/

namespace InfraScan.Path

variable {path rest : String} {text piece : List Char}

/-! ### Pieces -/

theorem pieces_ne_nil (text : List Char) : pieces text ≠ [] := by
  cases text with
  | nil => exact List.cons_ne_nil _ _
  | cons c rest =>
    unfold pieces
    split
    · exact List.cons_ne_nil _ _
    · split <;> exact List.cons_ne_nil _ _

/-- The pieces of a text are those between its slashes. -/
theorem pieces_eq_splitOn (text : List Char) : pieces text = text.splitOn '/' := by
  induction text with
  | nil => rfl
  | cons c rest ih =>
    rw [List.splitOn_cons_eq_if_modifyHead, ← ih, pieces]
    by_cases slash : c = '/'
    · simp [slash]
    · rw [if_neg slash, if_neg (by simpa using slash)]
      cases split : pieces rest with
      | nil => exact absurd split (pieces_ne_nil rest)
      | cons front more => rfl

theorem pieces_append_slash (front back : List Char) :
    pieces (front ++ '/' :: back) = pieces front ++ pieces back := by
  simp only [pieces_eq_splitOn, List.splitOn_append_cons_self]

theorem pieces_of_clean (clean : '/' ∉ piece) : pieces piece = [piece] := by
  rw [pieces_eq_splitOn]
  exact List.splitOn_eq_singleton clean

/-- **A piece has no slash**, and its characters are those of the text. -/
theorem mem_pieces (mem : piece ∈ pieces text) : '/' ∉ piece ∧ piece ⊆ text := by
  have clean {run : List Char} (unseparated : ∀ c ∈ run, (c == '/') = false) : '/' ∉ run := by
    intro here
    cases unseparated '/' here
  induction text using @Text.separated_induction _ (· == '/') with
  | last run unseparated =>
    rw [pieces_of_clean (clean unseparated), List.mem_singleton] at mem
    subst mem
    exact ⟨clean unseparated, List.Subset.refl _⟩
  | more run separator behind unseparated separates ih =>
    obtain rfl := eq_of_beq separates
    rw [pieces_append_slash, pieces_of_clean (clean unseparated)] at mem
    rcases List.mem_cons.1 mem with rfl | later
    · exact ⟨clean unseparated, List.subset_append_left _ _⟩
    · have inside := List.subset_append_of_subset_right run (List.subset_cons_self '/' behind)
      exact ⟨(ih later).1, List.Subset.trans (ih later).2 inside⟩

/-- **Names that are joined by slashes** are the pieces of the whole. -/
theorem pieces_intercalate {names : List String} (clean : ∀ name ∈ names, '/' ∉ name.toList)
    (inhabited : names ≠ []) :
    pieces ("/".intercalate names).toList = names.map String.toList := by
  rw [pieces_eq_splitOn, String.toList_intercalate]
  refine List.splitOn_intercalate '/' (fun piece mem => ?_)
    (mt List.map_eq_nil_iff.1 inhabited)
  obtain ⟨name, listed, rfl⟩ := List.mem_map.1 mem
  exact clean name listed

/-- A path with a slash in front has an empty piece in front. -/
theorem pieces_of_isAbsolute (absolute : isAbsolute path = true) :
    ∃ more, pieces path.toList = [] :: more := by
  obtain ⟨rest, rooted⟩ := List.head?_eq_some_iff.1 (of_decide_eq_true absolute)
  exact ⟨pieces rest, by rw [rooted, pieces, if_pos rfl]⟩

/-! ### Paths seen from a directory -/

/-- **The pieces of a path seen from a directory** are those of the directory and those of the
path.  An empty piece at the end of the directory goes. -/
theorem exists_pieces_join (named : path ≠ "") (relative : isAbsolute rest = false) :
    ∃ front, (pieces path.toList = front ∨ pieces path.toList = front ++ [[]]) ∧ front ≠ [] ∧
      pieces (join path rest).toList = front ++ pieces rest.toList := by
  have inhabited : path.toList ≠ [] := mt String.toList_eq_nil_iff.1 named
  rw [join, if_neg (Bool.eq_false_iff.1 relative)]
  split
  · rename_i nothing
    exact absurd (List.getLast?_eq_none_iff.1 nothing) inhabited
  · rename_i slash
    obtain ⟨front, whole⟩ := List.getLast?_eq_some_iff.1 slash
    refine ⟨pieces front, .inr ?_, pieces_ne_nil _, ?_⟩
    · rw [whole, pieces_append_slash]
      rfl
    · rw [String.toList_append, whole, List.append_assoc, List.singleton_append,
        pieces_append_slash]
  · refine ⟨pieces path.toList, .inl rfl, pieces_ne_nil _, ?_⟩
    rw [String.toList_append, String.toList_append, List.append_assoc]
    exact pieces_append_slash _ _

theorem join_ne_empty (named : path ≠ "") (relative : isAbsolute rest = false) :
    join path rest ≠ "" := by
  obtain ⟨front, -, inhabited, joined⟩ := exists_pieces_join named relative
  intro empty
  have lengths : 1 = front.length + (pieces rest.toList).length := by
    rw [← List.length_append, ← joined, empty]
    rfl
  have front := List.length_pos_iff.2 inhabited
  have back := List.length_pos_iff.2 (pieces_ne_nil rest.toList)
  omega

theorem isAbsolute_join (named : path ≠ "") (relative : isAbsolute rest = false) :
    isAbsolute (join path rest) = isAbsolute path := by
  have inhabited : path.toList ≠ [] := mt String.toList_eq_nil_iff.1 named
  have first (back : List Char) : (path.toList ++ back).head? = path.toList.head? :=
    List.head?_append_of_ne_nil _ inhabited
  rw [join, if_neg (Bool.eq_false_iff.1 relative)]
  split
  · rename_i nothing
    exact absurd (List.getLast?_eq_none_iff.1 nothing) inhabited
  · rw [isAbsolute, isAbsolute, String.toList_append, first]
  · rw [isAbsolute, isAbsolute, String.toList_append, String.toList_append,
      List.append_assoc, first]

/-! ### Steps -/

/-- **The steps of a path**: its components, but for a point in front. -/
def steps (path : String) : List Component := (components path).filter (· ≠ .here)

/-- A name that a file can have, as a step. -/
def nameStep (name : String) : Component := .name name.toList

theorem nameStep_injective : Function.Injective nameStep := by
  intro a b same
  exact String.toList_injective (Component.name.inj same)

theorem here_not_mem_steps (path : String) : .here ∉ steps path := by
  intro mem
  exact of_decide_eq_true (List.mem_filter.1 mem).2 rfl

theorem ne_here_of_ofPiece? {component : Component}
    (read : Component.ofPiece? piece = some component) :
    component ≠ .here := by
  unfold Component.ofPiece? at read
  rintro rfl
  split at read
  · cases read
  · split at read <;> cases read

/-- The components of a path are at most one for how it begins, and one for each piece that
stands for any. -/
theorem components_eq (path : String) :
    components path =
      (if isAbsolute path then [.root]
        else if (pieces path.toList).head? = some ['.'] then [.here] else []) ++
        (pieces path.toList).filterMap Component.ofPiece? := rfl

theorem steps_eq (path : String) :
    steps path = (if isAbsolute path then [.root] else []) ++
      (pieces path.toList).filterMap Component.ofPiece? := by
  have solid : ∀ component ∈ (pieces path.toList).filterMap Component.ofPiece?,
      decide (component ≠ .here) = true := by
    intro component mem
    obtain ⟨piece, -, read⟩ := List.mem_filterMap.1 mem
    exact decide_eq_true (ne_here_of_ofPiece? read)
  rw [steps, components_eq, List.filter_append, List.filter_eq_self.2 solid]
  split
  · rfl
  · split <;> rfl

theorem steps_of_relative (relative : isAbsolute path = false) :
    steps path = (pieces path.toList).filterMap Component.ofPiece? := by
  rw [steps_eq, relative, if_neg Bool.false_ne_true, List.nil_append]

/-- **A path seen from a directory** has the components of the directory, and then its own
steps. -/
theorem components_join (named : path ≠ "") (relative : isAbsolute rest = false) :
    components (join path rest) = components path ++ steps rest := by
  obtain ⟨front, whole, inhabited, joined⟩ := exists_pieces_join named relative
  have first : (pieces (join path rest).toList).head? = (pieces path.toList).head? := by
    rw [joined, List.head?_append_of_ne_nil _ inhabited]
    rcases whole with whole | whole
    · rw [whole]
    · rw [whole, List.head?_append_of_ne_nil _ inhabited]
  have same : (pieces path.toList).filterMap Component.ofPiece? =
      front.filterMap Component.ofPiece? := by
    rcases whole with whole | whole
    · rw [whole]
    · rw [whole, List.filterMap_append]
      exact List.append_nil _
  rw [components_eq, components_eq path, isAbsolute_join named relative, first, joined,
    List.filterMap_append, same, steps_of_relative relative, List.append_assoc]

theorem steps_join (named : path ≠ "") (relative : isAbsolute rest = false) :
    steps (join path rest) = steps path ++ steps rest := by
  rw [steps, components_join named relative, List.filter_append, ← steps, steps.eq_1 rest,
    List.filter_filter]
  simp only [Bool.and_self]

/-- The point in front is the only component that is no step. -/
theorem components_eq_steps (front : (pieces path.toList).head? ≠ some ['.']) :
    components path = steps path := by
  rw [steps_eq, components_eq, if_neg front]

/-- **A path that is nothing but a point** leads nowhere else: no piece of it stands for a
step. -/
theorem of_components_eq_here (here : components path = [.here]) :
    isAbsolute path = false ∧
      ∀ piece ∈ pieces path.toList, Component.ofPiece? piece = none := by
  have still : steps path = [] := by
    rw [steps, here]
    rfl
  rw [steps_eq, List.append_eq_nil_iff, List.filterMap_eq_nil_iff] at still
  refine ⟨?_, still.2⟩
  by_contra absolute
  rw [if_pos (Bool.not_eq_false _ ▸ absolute)] at still
  cases still.1

/-! ### Order -/

/-- A component as a word of two letters: its kind, and then its characters. -/
def Component.key (component : Component) : ℕ ×ₗ List Char :=
  toLex (component.rank, component.text)

theorem Component.key_injective : Function.Injective Component.key := by
  intro a b same
  have kind : a.rank = b.rank := congrArg (fun key => (ofLex key).1) same
  have characters : a.text = b.text := congrArg (fun key => (ofLex key).2) same
  cases a <;> cases b <;> first | rfl | cases kind
  exact congrArg Component.name characters

theorem Component.before_iff {a b : Component} : a.before b = true ↔ a.key < b.key := by
  rw [Component.key, Component.key, Prod.Lex.toLex_lt_toLex]
  simp [Component.before]

/-- **Lists of steps are listed as words are.** -/
theorem stepsPrecede_iff {as bs : List Component} :
    stepsPrecede as bs = true ↔ as.map Component.key ≤ bs.map Component.key := by
  induction as generalizing bs with
  | nil =>
    refine iff_of_true (by rw [stepsPrecede]) ?_
    cases bs with
    | nil => exact le_refl _
    | cons b bs => exact le_of_lt List.Lex.nil
  | cons a as ih =>
    cases bs with
    | nil => exact iff_of_false (by simp [stepsPrecede]) (not_le_of_gt List.Lex.nil)
    | cons b bs =>
      have later := @ih bs
      rw [le_iff_lt_or_eq] at later ⊢
      rw [List.map_cons, List.map_cons, List.cons_lt_cons_iff, List.cons_eq_cons,
        Component.key_injective.eq_iff, ← Component.before_iff, or_assoc, ← and_or_left,
        ← later]
      simp [stepsPrecede]

/-- **Paths are listed as the words that their components are.** -/
theorem precedes_iff {a b : String} :
    precedes a b = true ↔
      (components a).map Component.key ≤ (components b).map Component.key :=
  stepsPrecede_iff

theorem precedes_trans (a b c : String) (front : precedes a b = true)
    (back : precedes b c = true) :
    precedes a c = true :=
  precedes_iff.2 ((precedes_iff.1 front).trans (precedes_iff.1 back))

theorem precedes_total (a b : String) : (precedes a b || precedes b a) = true := by
  rw [Bool.or_eq_true, precedes_iff, precedes_iff]
  exact le_total _ _

/-- **A path is listed before another one**: it precedes it, and the two do not have the same
components. -/
def ListedBefore (a b : String) : Prop := precedes a b = true ∧ components a ≠ components b

/-- **Different paths are listed one before the other** when they are sorted. -/
theorem pairwise_listedBefore {paths : List String}
    (apart : paths.Pairwise fun a b => components a ≠ components b) :
    (paths.mergeSort precedes).Pairwise ListedBefore := by
  have sorted := List.pairwise_mergeSort precedes_trans precedes_total paths
  exact sorted.and
    ((List.mergeSort_perm _ _).symm.pairwise apart fun different => different.symm)

end InfraScan.Path
