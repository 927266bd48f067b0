import InfraScan.FileTree.Basic
import InfraScan.Proofs.OrderedMap
import InfraScan.Proofs.PathSteps

/-!
# What stands below a folder

The trees below a folder, told by the names on the way to them, and the walk that leads there.

* `FileTree.IsName`, `FileTree.WellNamed` — names that files can have, and trees that have
  such names
* `FileTree.Holds` — a tree stands below a folder at the end of a list of names
* `FileTree.mem_descendants_iff`, `FileTree.nodup_descendants` — everything below a tree is
  listed once
* `Disk.exists_foldlM_step_of_holds` — names lead to what stands at the end of them
* `Disk.walk_join`, `Disk.walk_of_here` — a path seen from where another one leads
* `Disk.wellNamed_of_walk` — what stands at a path has names that files can have

### What is load-bearing

A name is looked up in a folder and the first entry counts, so an entry behind another one of
its name could be listed but not reached.  That no folder has two entries of one name is what
makes the list and the walk agree.
-/

namespace InfraScan

namespace FileTree

variable {tree found : FileTree} {names : List String} {name : String}

/-! ### Names -/

/-- **A name that a file can have**: it has characters and no slash, and it is not one of the
two names that every folder has for itself and for the one above it. -/
def IsName (name : String) : Prop := name ∉ ["", ".", ".."] ∧ '/' ∉ name.toList

instance : DecidablePred IsName := fun name =>
  inferInstanceAs (Decidable (name ∉ ["", ".", ".."] ∧ '/' ∉ name.toList))

theorem IsName.toList_ne (fit : IsName name) :
    name.toList ≠ [] ∧ name.toList ≠ ['.'] ∧ name.toList ≠ ['.', '.'] := by
  have apart (reserved : String) (mem : reserved ∈ ["", ".", ".."]) :
      name.toList ≠ reserved.toList := by
    intro same
    obtain rfl := String.toList_injective same
    exact fit.1 mem
  exact ⟨apart "" (by decide), apart "." (by decide), apart ".." (by decide)⟩

/-- **A name is a step** of its own. -/
theorem IsName.ofPiece? (fit : IsName name) :
    Path.Component.ofPiece? name.toList = some (Path.nameStep name) := by
  simp [Path.Component.ofPiece?, Path.nameStep, fit.toList_ne]

/-- **Every folder of a tree has names that files can have**, and each of them once. -/
inductive WellNamed : FileTree → Prop where
  | file (text : Option String) : WellNamed (.file text)
  | folder {entries : List (String × FileTree)} (distinct : (entries.map Prod.fst).Nodup)
      (names : ∀ entry ∈ entries, IsName entry.1)
      (below : ∀ entry ∈ entries, WellNamed entry.2) :
      WellNamed (.folder entries)

theorem wellNamed_folder_iff {entries : List (String × FileTree)} :
    WellNamed (.folder entries) ↔
      (entries.map Prod.fst).Nodup ∧ (∀ entry ∈ entries, IsName entry.1) ∧
      ∀ entry ∈ entries, WellNamed entry.2 := by
  constructor
  · rintro ⟨⟩
    exact ⟨‹_›, ‹_›, ‹_›⟩
  · rintro ⟨distinct, fit, below⟩
    exact .folder distinct fit below

mutual

/-- Whether all names of a tree are such names can be decided. -/
def decideWellNamed : (tree : FileTree) → Decidable tree.WellNamed
  | .file text => .isTrue (.file text)
  | .folder entries =>
    have := decideAllWellNamed entries
    decidable_of_iff' _ wellNamed_folder_iff

/-- The same for all entries of a folder. -/
def decideAllWellNamed : (entries : List (String × FileTree)) →
    Decidable (∀ entry ∈ entries, entry.2.WellNamed)
  | [] => .isTrue fun _ mem => absurd mem List.not_mem_nil
  | entry :: rest =>
    have := decideWellNamed entry.2
    have := decideAllWellNamed rest
    decidable_of_iff' _ List.forall_mem_cons

end

instance : DecidablePred WellNamed := decideWellNamed

example :
    WellNamed (.folder [("k", .folder [("a", .file none), ("b", .file none)])]) := by decide

/-- **A tree stands below a folder** at the end of a list of names. -/
inductive Holds : FileTree → List String → FileTree → Prop where
  | entry {entries : List (String × FileTree)} {name : String} {found : FileTree}
      (listed : (name, found) ∈ entries) : Holds (.folder entries) [name] found
  | deeper {entries : List (String × FileTree)} {name : String} {tree found : FileTree}
      {names : List String} (listed : (name, tree) ∈ entries)
      (held : Holds tree names found) :
      Holds (.folder entries) (name :: names) found

theorem Holds.ne_nil (held : tree.Holds names found) : names ≠ [] := by
  cases held <;> exact List.cons_ne_nil _ _

/-- The names on the way to a tree begin with the name of an entry. -/
theorem Holds.head? {entries : List (String × FileTree)}
    (held : (FileTree.folder entries).Holds names found) :
    ∃ name ∈ entries.map Prod.fst, names.head? = some name := by
  cases held with
  | entry listed => exact ⟨_, List.mem_map_of_mem listed, rfl⟩
  | deeper listed held => exact ⟨_, List.mem_map_of_mem listed, rfl⟩

theorem Holds.isName (held : tree.Holds names found) (named : tree.WellNamed) :
    ∀ name ∈ names, IsName name := by
  induction held with
  | entry listed =>
    cases named with
    | folder distinct fit below =>
      intro name here
      obtain rfl := List.mem_singleton.1 here
      exact fit _ listed
  | deeper listed held ih =>
    cases named with
    | folder distinct fit below =>
      intro name mem
      rcases List.mem_cons.1 mem with rfl | later
      · exact fit _ listed
      · exact ih (below _ listed) name later

/-! ### Everything below a tree -/

/-- What stands below a folder is its first entry, or stands below that, or below the
others. -/
theorem holds_cons_iff {entries : List (String × FileTree)} :
    (FileTree.folder ((name, tree) :: entries)).Holds names found ↔
      ((names, found) = ([name], tree) ∨
        ∃ more, tree.Holds more found ∧ name :: more = names) ∨
        (FileTree.folder entries).Holds names found := by
  constructor
  · intro held
    cases held with
    | entry listed =>
      rcases List.mem_cons.1 listed with here | later
      · obtain ⟨rfl, rfl⟩ := Prod.mk.inj here
        exact .inl (.inl rfl)
      · exact .inr (.entry later)
    | deeper listed held =>
      rcases List.mem_cons.1 listed with here | later
      · obtain ⟨rfl, rfl⟩ := Prod.mk.inj here
        exact .inl (.inr ⟨_, held, rfl⟩)
      · exact .inr (.deeper later held)
  · rintro ((here | ⟨more, held, rfl⟩) | held)
    · obtain ⟨rfl, rfl⟩ := Prod.mk.inj here
      exact .entry List.mem_cons_self
    · exact .deeper List.mem_cons_self held
    · cases held with
      | entry listed => exact .entry (List.mem_cons_of_mem _ listed)
      | deeper listed held => exact .deeper (List.mem_cons_of_mem _ listed) held

mutual

/-- **Everything below a tree is listed**, and nothing else. -/
theorem mem_descendants_iff : ∀ {tree found : FileTree} {names : List String},
    (names, found) ∈ tree.descendants ↔ tree.Holds names found
  | .file text, found, names => by
    rw [descendants]
    refine iff_of_false List.not_mem_nil fun held => ?_
    cases held
  | .folder entries, found, names => by
    rw [descendants]
    exact mem_descendantsOf_iff

theorem mem_descendantsOf_iff : ∀ {entries : List (String × FileTree)} {found : FileTree}
    {names : List String},
    (names, found) ∈ descendantsOf entries ↔ (FileTree.folder entries).Holds names found
  | [], found, names => by
    rw [descendantsOf]
    refine iff_of_false List.not_mem_nil fun held => ?_
    cases held <;> exact List.not_mem_nil ‹_›
  | (name, tree) :: rest, found, names => by
    rw [descendantsOf, List.mem_append, List.mem_cons, List.mem_map, mem_descendantsOf_iff,
      holds_cons_iff]
    simp only [Prod.exists, Prod.mk.injEq, mem_descendants_iff]
    refine or_congr_left (or_congr_right ⟨?_, ?_⟩)
    · rintro ⟨more, tree, held, rfl, rfl⟩
      exact ⟨more, held, rfl⟩
    · rintro ⟨more, held, rfl⟩
      exact ⟨more, _, held, rfl, rfl⟩

end

mutual

/-- **Nothing below a tree is listed twice.** -/
theorem nodup_descendants : ∀ {tree : FileTree}, tree.WellNamed →
    (tree.descendants.map Prod.fst).Nodup
  | .file text, _ => by
    rw [descendants]
    exact List.nodup_nil
  | .folder entries, named => by
    cases named with
    | folder distinct fit below =>
      rw [descendants]
      exact nodup_descendantsOf distinct below

theorem nodup_descendantsOf : ∀ {entries : List (String × FileTree)},
    (entries.map Prod.fst).Nodup → (∀ entry ∈ entries, WellNamed entry.2) →
    ((descendantsOf entries).map Prod.fst).Nodup
  | [], _, _ => by
    rw [descendantsOf]
    exact List.nodup_nil
  | (name, tree) :: rest, distinct, below => by
    rw [List.map_cons, List.nodup_cons] at distinct
    have first := nodup_descendants (below _ List.mem_cons_self)
    have others :=
      nodup_descendantsOf distinct.2 fun entry mem => below entry (List.mem_cons_of_mem _ mem)
    have behind :
        (tree.descendants.map fun found => (name :: found.1, found.2)).map Prod.fst =
        (tree.descendants.map Prod.fst).map (name :: ·) := by
      rw [List.map_map, List.map_map]
      rfl
    rw [descendantsOf, List.map_append, List.map_cons, behind, List.nodup_append,
      List.nodup_cons]
    refine ⟨⟨?_, first.map List.cons_injective⟩, others, ?_⟩
    · intro again
      obtain ⟨names, listed, same⟩ := List.mem_map.1 again
      obtain ⟨⟨_, found⟩, mem, rfl⟩ := List.mem_map.1 listed
      exact (mem_descendants_iff.1 mem).ne_nil (List.cons.inj same).2
    · -- What is below the first entry begins with its name, and what is below the others
      -- does not.
      intro names front again back same
      have begins : names.head? = some name := by
        rcases List.mem_cons.1 front with rfl | deeper
        · rfl
        · obtain ⟨more, -, rfl⟩ := List.mem_map.1 deeper
          rfl
      obtain ⟨⟨others, found⟩, mem, rfl⟩ := List.mem_map.1 back
      obtain ⟨other, listed, head⟩ := (mem_descendantsOf_iff.1 mem).head?
      obtain rfl : name = other :=
        Option.some.inj (begins.symm.trans ((congrArg _ same).trans head))
      exact distinct.1 listed

end

end FileTree

namespace Disk

open FileTree

variable {disk : Disk} {place next goal : FileTree × List FileTree} {path rest : String}
  {names : List String} {pieces : List (List Char)} {piece : List Char} {found : FileTree}

/-! ### Steps of a walk -/

theorem foldlM_step_cons :
    (piece :: pieces).foldlM step place = .ok goal ↔
      ∃ next, step place piece = .ok next ∧ pieces.foldlM step next = .ok goal := by
  rw [List.foldlM_cons]
  cases step place piece <;> simp [bind, Except.bind]

/-- A walk along two lists of pieces goes by the place that the first one leads to. -/
theorem foldlM_step_append {front back : List (List Char)} :
    (front ++ back).foldlM step place = .ok goal ↔
      ∃ middle, front.foldlM step place = .ok middle ∧
        back.foldlM step middle = .ok goal := by
  rw [List.foldlM_append]
  cases front.foldlM step place <;> simp [bind, Except.bind]

theorem isFolder_of_step (stepped : step place piece = .ok next) :
    place.1.isFolder = true := by
  by_contra file
  rw [step, if_pos (by simpa using file)] at stepped
  cases stepped

/-- A piece that stands for no step leads nowhere else. -/
theorem step_of_ofPiece? (silent : Path.Component.ofPiece? piece = none)
    (folder : place.1.isFolder = true) : step place piece = .ok place := by
  have still : (piece = [] || piece = ['.']) = true := by
    by_contra moves
    rw [Path.Component.ofPiece?, if_neg moves] at silent
    split at silent <;> cases silent
  rw [step, if_neg (by simpa using folder), if_pos still]

theorem foldlM_step_of_ofPiece?
    (silent : ∀ piece ∈ pieces, Path.Component.ofPiece? piece = none)
    (walked : pieces.foldlM step place = .ok goal) : goal = place := by
  induction pieces with
  | nil =>
    cases walked
    rfl
  | cons piece pieces ih =>
    obtain ⟨next, stepped, onward⟩ := foldlM_step_cons.1 walked
    have still := step_of_ofPiece? (silent piece List.mem_cons_self)
      (isFolder_of_step stepped)
    obtain rfl : place = next := Except.ok.inj (still.symm.trans stepped)
    exact ih (fun piece mem => silent piece (List.mem_cons_of_mem _ mem)) onward

/-- Where a walk goes on there is a folder. -/
theorem isFolder_of_foldlM_step (given : pieces ≠ [])
    (walked : pieces.foldlM step place = .ok goal) : place.1.isFolder = true := by
  obtain ⟨piece, more, rfl⟩ := List.exists_cons_of_ne_nil given
  obtain ⟨next, stepped, -⟩ := foldlM_step_cons.1 walked
  exact isFolder_of_step stepped

/-- **A name leads to the entry of that name**, if no folder has two of them. -/
theorem step_name {entries : List (String × FileTree)} {name : String}
    (named : (FileTree.folder entries).WellNamed) (listed : (name, found) ∈ entries)
    (above : List FileTree) :
    step (.folder entries, above) name.toList = .ok (found, .folder entries :: above) := by
  cases named with
  | folder distinct fit below =>
    obtain ⟨solid, noPoint, noPoints⟩ := (fit _ listed).toList_ne
    have looked : (FileTree.folder entries).child? name = some found :=
      (OrderedMap.look_eq_some_iff distinct).2 listed
    have folder : (FileTree.folder entries).isFolder = true := rfl
    rw [step, if_neg (by simp [folder]), if_neg (by simp [solid, noPoint]), if_neg noPoints,
      String.ofList_toList, looked]

/-- **Names lead to what stands at the end of them.** -/
theorem exists_foldlM_step_of_holds {tree : FileTree} (held : tree.Holds names found)
    (named : tree.WellNamed) (above : List FileTree) :
    ∃ behind, (names.map String.toList).foldlM step (tree, above) = .ok (found, behind) := by
  induction held generalizing above with
  | @entry entries name found listed =>
    refine ⟨.folder entries :: above, ?_⟩
    rw [List.map_singleton, foldlM_step_cons]
    exact ⟨_, step_name named listed above, rfl⟩
  | deeper listed held ih =>
    have stepped := step_name named listed above
    cases named with
    | folder distinct fit below =>
      obtain ⟨behind, onward⟩ := ih (below _ listed) _
      refine ⟨behind, ?_⟩
      rw [List.map_cons, foldlM_step_cons]
      exact ⟨_, stepped, onward⟩

/-! ### Names along a walk -/

/-- The tree at a place and the trees above it have names that files can have. -/
def NamedAt (place : FileTree × List FileTree) : Prop :=
  place.1.WellNamed ∧ ∀ above ∈ place.2, above.WellNamed

theorem NamedAt.step (named : NamedAt place) (stepped : Disk.step place piece = .ok next) :
    NamedAt next := by
  obtain ⟨tree, above⟩ := place
  unfold Disk.step at stepped
  split at stepped
  · cases stepped
  split at stepped
  · cases stepped
    exact named
  split at stepped
  · cases above with
    | nil =>
      cases stepped
      exact named
    | cons first rest =>
      cases stepped
      exact ⟨named.2 _ List.mem_cons_self, fun tree mem =>
        named.2 tree (List.mem_cons_of_mem _ mem)⟩
  · split at stepped
    · cases stepped
    · rename_i child looked
      cases stepped
      refine ⟨?_, fun tree mem => ?_⟩
      · cases named.1 with
        | file text => cases looked
        | folder distinct fit below => exact below _ (OrderedMap.mem_of_look looked)
      · rcases List.mem_cons.1 mem with rfl | later
        · exact named.1
        · exact named.2 tree later

theorem NamedAt.foldlM_step (named : NamedAt place)
    (walked : pieces.foldlM Disk.step place = .ok goal) :
    NamedAt goal := by
  induction pieces generalizing place with
  | nil =>
    cases walked
    exact named
  | cons piece pieces ih =>
    obtain ⟨next, stepped, onward⟩ := foldlM_step_cons.1 walked
    exact ih (named.step stepped) onward

/-! ### Walks along paths -/

theorem ne_empty_of_walk (walked : disk.walk path = .ok place) : path ≠ "" := by
  rintro rfl
  cases walked

/-- **A walk** goes from the root or from the working folder along the pieces of the path. -/
theorem walk_eq (given : path ≠ "") :
    disk.walk path = ((if Path.isAbsolute path then [] else disk.here.map String.toList) ++
      Path.pieces path.toList).foldlM step (disk.root, []) := by
  rw [walk, if_neg (by simpa using given)]
  split
  · rw [List.nil_append]
  · rfl

theorem wellNamed_of_walk (named : disk.root.WellNamed)
    (walked : disk.walk path = .ok place) :
    place.1.WellNamed := by
  rw [walk_eq (ne_empty_of_walk walked)] at walked
  exact (NamedAt.foldlM_step ⟨named, fun tree mem => absurd mem List.not_mem_nil⟩ walked).1

/-- **A path seen from a directory** leads on from where the directory is. -/
theorem walk_join (walked : disk.walk path = .ok place)
    (relative : Path.isAbsolute rest = false) :
    disk.walk (Path.join path rest) = (Path.pieces rest.toList).foldlM step place := by
  have given := ne_empty_of_walk walked
  obtain ⟨front, whole, inhabited, joined⟩ := Path.exists_pieces_join given relative
  rw [walk_eq given] at walked
  rw [walk_eq (Path.join_ne_empty given relative),
    Path.isAbsolute_join given relative, joined, ← List.append_assoc, List.foldlM_append]
  suffices reached : (_ ++ front).foldlM step (disk.root, []) = .ok place by
    rw [reached]
    rfl
  rcases whole with whole | whole
  · rwa [whole] at walked
  · rw [whole, ← List.append_assoc] at walked
    obtain ⟨middle, reached, still⟩ := foldlM_step_append.1 walked
    rw [reached, foldlM_step_of_ofPiece? (by simp [Path.Component.ofPiece?]) still]

/-- **A path seen from the working folder** leads on from there. -/
theorem walk_of_here (walked : disk.walk path = .ok place)
    (here : Path.components path = [.here]) (given : rest ≠ "")
    (relative : Path.isAbsolute rest = false) :
    disk.walk rest = (Path.pieces rest.toList).foldlM step place := by
  obtain ⟨unrooted, silent⟩ := Path.of_components_eq_here here
  rw [walk_eq (ne_empty_of_walk walked), unrooted, if_neg Bool.false_ne_true] at walked
  obtain ⟨middle, reached, still⟩ := foldlM_step_append.1 walked
  rw [walk_eq given, relative, if_neg Bool.false_ne_true, List.foldlM_append, reached,
    foldlM_step_of_ofPiece? silent still]
  rfl

theorem find_eq_ok_iff :
    disk.find path = .ok found ↔ ∃ above, disk.walk path = .ok (found, above) := by
  rw [find]
  cases disk.walk path <;> simp [Except.map, Prod.ext_iff]

end Disk

end InfraScan
