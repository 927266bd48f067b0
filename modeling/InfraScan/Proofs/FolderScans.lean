import InfraScan.Proofs.NameSearch

/-!
# Scans of folders

The manifest files of a folder are those below it whose names end as the names of manifests
do.  They are looked for by patterns that begin with the path of the folder, so its characters
are read as those of a pattern.  A scan is right if none of them means anything there.

* `Disk.glob_patternBelow` — what a pattern below a path stands for
* `Disk.IsManifestName`, `Disk.EndAsManifest` — the names of manifests
* `Disk.manifestNames` — the names below a folder that end in one
* `Disk.Listed`, `Disk.Lists` — a path that stands for a tree below a folder, and a listing of
  all of them
* `Disk.lists_manifestNames` — the names in the order of their paths are such a listing
* `folder_scans_apart_from_wildcards` — the scans of folders at paths without wildcards
* `bracketFolder_misread` — and of one at a path with some

### What is load-bearing

A pattern says nothing of what stands at the end of it.  A folder that goes by the name of a
manifest is listed as well, and for that reason `Disk.Lists` is told which trees are wanted.
The two patterns have nothing in common because no name has both endings, and two names below
a folder are two paths because no name has a slash.
-/

namespace InfraScan

open FileTree

namespace Disk

variable {disk : Disk} {path shown extension : String} {names : List String}
  {pieces : List (List Char)} {piece : List Char} {goal : FileTree × List FileTree}
  {folder found : FileTree}

/-! ### The pattern for an ending -/

/-- The names on the way to a tree end in a name with an ending. -/
def endsIn (suffix : List Char) (names : List String) : Bool :=
  (names.getLast?).any fun name =>
    NamePattern.fits (.anyText :: NamePattern.literal suffix) name.toList

/-- **A search below a folder** shows all names with an ending. -/
theorem search_ending (suffix : List Char) (tree : FileTree) :
    disk.search [[.anyFolders], .anyText :: NamePattern.literal suffix] shown tree =
      ((tree.descendants.map Prod.fst).filter (endsIn suffix)).map fun names =>
        below shown ("/".intercalate names) := by
  rw [search]
  show (tree.descendants.flatMap fun found => if endsIn suffix found.1 then
    [below shown ("/".intercalate found.1)] else []) = _
  induction tree.descendants with
  | nil => rfl
  | cons found rest ih =>
    rw [List.flatMap_cons, List.map_cons, List.filter_cons, ih]
    split <;> rfl

theorem mergeFolders_cons {pattern : NamePattern} (single : pattern.isRecursive = false)
    (patterns : List NamePattern) :
    mergeFolders (pattern :: patterns) = pattern :: mergeFolders patterns := by
  cases patterns with
  | nil => rfl
  | cons next rest => rw [mergeFolders, single, Bool.false_and, if_neg Bool.false_ne_true]

theorem mergeFolders_literals (pieces : List (List Char)) (suffix : List Char) :
    mergeFolders (pieces.map NamePattern.literal ++
        [[.anyFolders], .anyText :: NamePattern.literal suffix]) =
      pieces.map NamePattern.literal ++
        [[.anyFolders], .anyText :: NamePattern.literal suffix] := by
  induction pieces with
  | nil => rfl
  | cons piece pieces ih =>
    rw [List.map_cons, List.cons_append,
      mergeFolders_cons (NamePattern.isRecursive_literal piece), ih]

/-! ### Patterns below a path -/

theorem toList_patternBelow (path extension : String) :
    (patternBelow path extension).toList =
      path.toList ++ '/' :: '*' :: '*' :: '/' :: '*' :: ('.' :: extension.toList) := by
  rw [patternBelow, String.toList_append, String.toList_append, List.append_assoc]
  rfl

theorem isAbsolute_patternBelow (given : path ≠ "") (extension : String) :
    Path.isAbsolute (patternBelow path extension) = Path.isAbsolute path := by
  rw [Path.isAbsolute, toList_patternBelow,
    List.head?_append_of_ne_nil _ (mt String.toList_eq_nil_iff.1 given), Path.isAbsolute]

/-- **The steps of a pattern below a path** are those of the path, two stars, and a star with
the ending. -/
theorem patternSteps_patternBelow (given : path ≠ "") (clean : '/' ∉ extension.toList) :
    patternSteps (patternBelow path extension) =
      patternSteps path ++ [['*', '*'], '*' :: '.' :: extension.toList] := by
  have last : Path.pieces ('*' :: '.' :: extension.toList) =
      ['*' :: '.' :: extension.toList] :=
    Path.pieces_of_clean (by simpa using clean)
  have whole : Path.pieces (patternBelow path extension).toList =
      Path.pieces path.toList ++ [['*', '*'], '*' :: '.' :: extension.toList] := by
    rw [toList_patternBelow, Path.pieces_append_slash]
    show _ ++ Path.pieces (['*', '*'] ++ '/' :: '*' :: '.' :: extension.toList) = _
    rw [Path.pieces_append_slash, last]
    rfl
  rw [patternSteps, patternSteps, isAbsolute_patternBelow given, whole]
  split
  · obtain ⟨more, split⟩ := Path.pieces_of_isAbsolute ‹_›
    rw [split]
    rfl
  · rfl

theorem mapM_ok {ε α β : Type} {f : α → Except ε β} {g : α → β} {list : List α}
    (each : ∀ a ∈ list, f a = .ok (g a)) : list.mapM f = .ok (list.map g) := by
  induction list with
  | nil => rfl
  | cons a list ih =>
    rw [List.mapM_cons, each a List.mem_cons_self,
      ih fun a mem => each a (List.mem_cons_of_mem _ mem)]
    rfl

theorem mapM_ofText_patternBelow (plain : NamePattern.IsPlain path.toList)
    (ending : NamePattern.IsPlain ('.' :: extension.toList)) :
    (patternSteps path ++ [['*', '*'], '*' :: '.' :: extension.toList]).mapM
      NamePattern.ofText =
      .ok ((patternSteps path).map NamePattern.literal ++
        [[.anyFolders], .anyText :: NamePattern.literal ('.' :: extension.toList)]) := by
  have front : (patternSteps path).mapM NamePattern.ofText =
      .ok ((patternSteps path).map NamePattern.literal) :=
    mapM_ok fun piece mem => NamePattern.ofText_plain (plain.mono (mem_patternSteps mem).2)
  rw [List.mapM_append, front, List.mapM_cons, NamePattern.ofText_stars, List.mapM_cons,
    NamePattern.ofText_star ending]
  rfl

/-- **A pattern for an ending below a plain path** is searched along the path. -/
theorem glob_patternBelow (given : path ≠ "") (plain : NamePattern.IsPlain path.toList)
    (ending : NamePattern.IsPlain ('.' :: extension.toList))
    (clean : '/' ∉ extension.toList) :
    disk.glob (patternBelow path extension) = .ok (match disk.find (Path.start path) with
      | .ok tree => disk.search ((patternSteps path).map NamePattern.literal ++
          [[.anyFolders], .anyText :: NamePattern.literal ('.' :: extension.toList)])
          (Path.start path) tree
      | .error _ => []) := by
  obtain ⟨whole, read⟩ := NamePattern.exists_ofText_below plain ending
  rw [glob, toList_patternBelow, read, isAbsolute_patternBelow given,
    patternSteps_patternBelow given clean, mapM_ofText_patternBelow plain ending]
  show (match disk.find (Path.start path) with
    | .ok tree => Except.ok (disk.search (mergeFolders _) (Path.start path) tree)
    | .error _ => .ok []) = _
  rw [mergeFolders_literals]
  split <;> rfl

/-! ### Names of manifest files -/

/-- **A name that manifest files have**: it ends in one of two extensions. -/
def IsManifestName (name : String) : Prop :=
  ∃ stem, name = stem ++ ".yml" ∨ name = stem ++ ".yaml"

/-- Names end in one that manifest files have. -/
def EndAsManifest (names : List String) : Prop :=
  ∃ name, names.getLast? = some name ∧ IsManifestName name

theorem endsIn_iff {suffix : List Char} :
    endsIn suffix names = true ↔
      ∃ name, names.getLast? = some name ∧ suffix <:+ name.toList := by
  simp only [endsIn, Option.any_eq_true, NamePattern.fits_star_iff]

theorem suffix_toList_iff {name ending : String} :
    ending.toList <:+ name.toList ↔ ∃ stem, name = stem ++ ending := by
  constructor
  · rintro ⟨stem, whole⟩
    refine ⟨String.ofList stem, String.toList_injective ?_⟩
    rw [String.toList_append, String.toList_ofList, whole]
  · rintro ⟨stem, rfl⟩
    exact ⟨stem.toList, (String.toList_append).symm⟩

theorem endAsManifest_iff :
    EndAsManifest names ↔
      ∃ extension ∈ manifestExtensions, endsIn ('.' :: extension.toList) names = true := by
  have yml : '.' :: "yml".toList = ".yml".toList := rfl
  have yaml : '.' :: "yaml".toList = ".yaml".toList := rfl
  simp only [manifestExtensions, List.mem_cons, List.not_mem_nil, or_false, exists_eq_or_imp,
    exists_eq_left, endsIn_iff, yml, yaml, suffix_toList_iff, EndAsManifest, IsManifestName,
    exists_or, and_or_left]

/-- The names below a folder that end as those of manifest files do. -/
def manifestNames (folder : FileTree) : List (List String) :=
  manifestExtensions.flatMap fun extension =>
    (folder.descendants.map Prod.fst).filter (endsIn ('.' :: extension.toList))

theorem mem_manifestNames_iff :
    names ∈ manifestNames folder ↔
      EndAsManifest names ∧ ∃ found, folder.Holds names found := by
  have listed : names ∈ folder.descendants.map Prod.fst ↔
      ∃ found, folder.Holds names found := by
    simp [mem_descendants_iff]
  simp only [manifestNames, List.mem_flatMap, List.mem_filter, listed, endAsManifest_iff]
  constructor
  · rintro ⟨extension, mem, held, ending⟩
    exact ⟨⟨extension, mem, ending⟩, held⟩
  · rintro ⟨⟨extension, mem, ending⟩, held⟩
    exact ⟨extension, mem, held, ending⟩

theorem nodup_manifestNames (named : folder.WellNamed) : (manifestNames folder).Nodup := by
  rw [manifestNames, List.nodup_flatMap]
  refine ⟨fun extension _ => (nodup_descendants named).filter _, ?_⟩
  -- No name ends in both extensions.
  rw [manifestExtensions, List.pairwise_pair]
  intro names inYml inYaml
  obtain ⟨name, last, yml⟩ := endsIn_iff.1 (List.mem_filter.1 inYml).2
  obtain ⟨other, last', yaml⟩ := endsIn_iff.1 (List.mem_filter.1 inYaml).2
  obtain rfl : name = other := Option.some.inj (last.symm.trans last')
  have inside := List.suffix_of_suffix_length_le yml yaml (by decide)
  revert inside
  decide

/-! ### Manifest files -/

/-- The path of what stands at the end of names below a folder, as the search shows it. -/
def fileAt (path : String) (names : List String) : String :=
  below (shownAs path) ("/".intercalate names)

/-- A plain text stands behind the point of every ending. -/
theorem plain_of_mem_manifestExtensions (mem : extension ∈ manifestExtensions) :
    NamePattern.IsPlain ('.' :: extension.toList) ∧ '/' ∉ extension.toList := by
  revert extension
  decide

/-- **The patterns below a plain path** show what is below the folder at the path. -/
theorem glob_of_not_stalls (plain : NamePattern.IsPlain path.toList)
    (onward : ¬ Path.Stalls path) (walked : disk.walk path = .ok goal)
    (mem : extension ∈ manifestExtensions) :
    disk.glob (patternBelow path extension) =
      .ok (((goal.1.descendants.map Prod.fst).filter (endsIn ('.' :: extension.toList))).map
        (fileAt path)) := by
  obtain ⟨ending, clean⟩ := plain_of_mem_manifestExtensions mem
  obtain ⟨-, -, tree, begun, searched⟩ := search_patternSteps onward walked
  rw [glob_patternBelow (ne_empty_of_walk walked) plain ending clean, begun]
  exact congrArg Except.ok ((searched _).trans (search_ending _ _))

/-- **The patterns below a plain path that stalls** show nothing. -/
theorem glob_of_stalls (plain : NamePattern.IsPlain path.toList) (stalls : Path.Stalls path)
    (given : path ≠ "") (mem : extension ∈ manifestExtensions) :
    disk.glob (patternBelow path extension) = .ok [] := by
  obtain ⟨ending, clean⟩ := plain_of_mem_manifestExtensions mem
  obtain ⟨relative, stalled⟩ := stalls
  have here : isHere (Path.start path) = true := by
    rw [Path.start, relative]
    rfl
  have steps : patternSteps path = Path.pieces path.toList := by
    rw [patternSteps, relative]
    rfl
  rw [glob_patternBelow given plain ending clean, steps]
  split
  · rw [search_of_stalls here stalled]
  · rfl

theorem manifestFiles_of_isFolder (found : disk.find path = .ok folder)
    (isFolder : folder.isFolder = true) {listed : String → List String}
    (searched : ∀ extension ∈ manifestExtensions,
      disk.glob (patternBelow path extension) = .ok (listed extension)) :
    disk.manifestFiles path =
      .ok ((manifestExtensions.flatMap listed).mergeSort Path.precedes) := by
  have noFile : disk.isFile path = false := by simp [isFile, found, isFolder]
  have aFolder : disk.isFolder path = true := by simp [Disk.isFolder, found, isFolder]
  rw [manifestFiles, noFile, if_neg Bool.false_ne_true, aFolder, if_pos rfl, mapM_ok searched]
  rfl

/-- **The manifest files of a folder at a plain path**, in the order of their paths. -/
theorem manifestFiles_of_not_stalls (plain : NamePattern.IsPlain path.toList)
    (onward : ¬ Path.Stalls path) (walked : disk.walk path = .ok goal)
    (isFolder : goal.1.isFolder = true) :
    disk.manifestFiles path =
      .ok (((manifestNames goal.1).map (fileAt path)).mergeSort Path.precedes) := by
  rw [manifestFiles_of_isFolder (find_eq_ok_iff.2 ⟨goal.2, walked⟩) isFolder fun _ mem =>
    glob_of_not_stalls plain onward walked mem, manifestNames, List.map_flatMap]

theorem manifestFiles_of_stalls (plain : NamePattern.IsPlain path.toList)
    (stalls : Path.Stalls path) (found : disk.find path = .ok folder)
    (isFolder : folder.isFolder = true) :
    disk.manifestFiles path = .ok [] := by
  obtain ⟨above, walked⟩ := find_eq_ok_iff.1 found
  rw [manifestFiles_of_isFolder found isFolder fun _ mem =>
    glob_of_stalls plain stalls (ne_empty_of_walk walked) mem]
  exact congrArg Except.ok (List.mergeSort_nil)

theorem manifestFiles_of_isFile (file : disk.isFile path = true) :
    disk.manifestFiles path = .ok [path] := by
  rw [manifestFiles, if_pos file]

theorem manifestFiles_of_missing (missing : disk.has path = false) :
    disk.manifestFiles path = .error (.missing path) := by
  have nothing : ∃ cause, disk.find path = .error cause := by
    unfold has at missing
    split at missing
    · cases missing
    · exact ⟨_, ‹_›⟩
  obtain ⟨cause, nothing⟩ := nothing
  simp [manifestFiles, isFile, Disk.isFolder, nothing]

/-! ### Listings -/

/-- **A path in a listing** stands for a tree below a folder, which goes by the name of a
manifest.  It has the steps of the path of the folder and then the names on the way to the
tree, and it leads there. -/
structure Listed (disk : Disk) (path : String) (folder : FileTree) (names : List String)
    (found : FileTree) (file : String) : Prop where
  held : folder.Holds names found
  manifest : EndAsManifest names
  components : Path.components file = Path.steps path ++ names.map Path.nameStep
  leads : disk.find file = .ok found

/-- **A listing of the manifests below a folder**, of those trees that are wanted.  It has
nothing else and all of them, each once and in the order of the paths. -/
structure Lists (disk : Disk) (path : String) (folder : FileTree) (wanted : FileTree → Prop)
    (files : List String) : Prop where
  ordered : files.Pairwise Path.ListedBefore
  listed : ∀ file ∈ files, ∃ names found,
    wanted found ∧ disk.Listed path folder names found file
  complete : ∀ names found, folder.Holds names found → EndAsManifest names → wanted found →
    ∃ file ∈ files, disk.Listed path folder names found file

theorem listed_fileAt (named : disk.root.WellNamed) (onward : ¬ Path.Stalls path)
    (walked : disk.walk path = .ok goal) (held : goal.1.Holds names found)
    (manifest : EndAsManifest names) :
    disk.Listed path goal.1 names found (fileAt path names) := by
  obtain ⟨shows, whole, -⟩ := search_patternSteps onward walked
  have namedGoal := wellNamed_of_walk named walked
  refine ⟨held, manifest, ?_, shows.find_entry namedGoal held⟩
  rw [fileAt, shows.components_entry namedGoal held, whole]

/-- **The sorted paths of the manifests below a folder are a listing.** -/
theorem lists_manifestNames (named : disk.root.WellNamed) (onward : ¬ Path.Stalls path)
    (walked : disk.walk path = .ok goal) :
    disk.Lists path goal.1 (fun _ => True)
      (((manifestNames goal.1).map (fileAt path)).mergeSort Path.precedes) where
  ordered := by
    have distinct := nodup_manifestNames (wellNamed_of_walk named walked)
    refine Path.pairwise_listedBefore (List.pairwise_map.2 (distinct.imp_of_mem ?_))
    intro names others mem mem' different same
    obtain ⟨manifest, found, held⟩ := mem_manifestNames_iff.1 mem
    obtain ⟨manifest', found', held'⟩ := mem_manifestNames_iff.1 mem'
    rw [(listed_fileAt named onward walked held manifest).components,
      (listed_fileAt named onward walked held' manifest').components,
        List.append_right_inj] at same
    exact different (Path.nameStep_injective.list_map same)
  listed file mem := by
    obtain ⟨names, among, rfl⟩ := List.mem_map.1 ((List.mergeSort_perm _ _).mem_iff.1 mem)
    obtain ⟨manifest, found, held⟩ := mem_manifestNames_iff.1 among
    exact ⟨names, found, trivial, listed_fileAt named onward walked held manifest⟩
  complete names found held manifest _ := by
    have among := mem_manifestNames_iff.2 ⟨manifest, found, held⟩
    exact ⟨fileAt path names, (List.mergeSort_perm _ _).mem_iff.2 (List.mem_map_of_mem among),
      listed_fileAt named onward walked held manifest⟩

/-- **If only trees that are wanted go by names of manifests**, those are listed. -/
theorem Lists.of_forall {wanted : FileTree → Prop} {files : List String}
    (lists : disk.Lists path folder (fun _ => True) files)
    (all : ∀ names found, folder.Holds names found → EndAsManifest names → wanted found) :
    disk.Lists path folder wanted files where
  ordered := lists.ordered
  listed file mem := by
    obtain ⟨names, found, -, listed⟩ := lists.listed file mem
    exact ⟨names, found, all names found listed.held listed.manifest, listed⟩
  complete names found held manifest _ := lists.complete names found held manifest trivial

/-! ### Scans -/

theorem exists_manifestFiles (plain : NamePattern.IsPlain path.toList)
    (present : disk.has path = true) : ∃ files, disk.manifestFiles path = .ok files := by
  unfold has at present
  split at present
  · rename_i tree found
    cases isFolder : tree.isFolder with
    | true =>
      obtain ⟨above, walked⟩ := find_eq_ok_iff.1 found
      by_cases stalls : Path.Stalls path
      · exact ⟨[], manifestFiles_of_stalls plain stalls found isFolder⟩
      · exact ⟨_, manifestFiles_of_not_stalls plain stalls walked isFolder⟩
    | false => exact ⟨[path], manifestFiles_of_isFile (by simp [isFile, found, isFolder])⟩
  · cases present

end Disk

/-- **A scan of a folder lists the manifest files below it, if its path has no wildcards.**
Take any tree of files and folders with names that files can have, and any path without `?`,
`*` and `[`.

* The scan fails if and only if nothing stands at the path, and it says so.
* If a file stands there, the scan gives its path.
* If a folder stands there, the scan lists everything below it that goes by the name of a
  manifest, each once and in the order of the paths, and nothing else.
* If no folder below it goes by such a name, it lists the files that do.
* A path stalls that has an empty piece in the working folder, as `./` has.  The scan is empty
  then. -/
theorem folder_scans_apart_from_wildcards (disk : Disk) (path : String)
    (named : disk.root.WellNamed) (plain : NamePattern.IsPlain path.toList) :
    (∀ fault, disk.manifestFiles path = .error fault ↔
      fault = .missing path ∧ disk.has path = false) ∧
    (disk.isFile path = true → disk.manifestFiles path = .ok [path]) ∧
    ∀ folder, disk.find path = .ok folder → folder.isFolder = true →
      (Path.Stalls path → disk.manifestFiles path = .ok []) ∧
      (¬ Path.Stalls path → ∃ files, disk.manifestFiles path = .ok files ∧
        disk.Lists path folder (fun _ => True) files ∧
        ((∀ names found, folder.Holds names found → Disk.EndAsManifest names →
            found.isFolder = false) →
          disk.Lists path folder (fun found => found.isFolder = false) files)) := by
  have scans (folder : FileTree) (found : disk.find path = .ok folder)
      (isFolder : folder.isFolder = true) :
      (Path.Stalls path → disk.manifestFiles path = .ok []) ∧
      (¬ Path.Stalls path → ∃ files, disk.manifestFiles path = .ok files ∧
        disk.Lists path folder (fun _ => True) files) := by
    obtain ⟨above, walked⟩ := Disk.find_eq_ok_iff.1 found
    exact ⟨fun stalls => Disk.manifestFiles_of_stalls plain stalls found isFolder,
      fun onward => ⟨_, Disk.manifestFiles_of_not_stalls plain onward walked isFolder,
        Disk.lists_manifestNames named onward walked⟩⟩
  refine ⟨fun fault => ⟨fun failed => ?_, ?_⟩, Disk.manifestFiles_of_isFile,
    fun folder found isFolder => ⟨(scans folder found isFolder).1, fun onward => ?_⟩⟩
  · cases present : disk.has path with
    | false =>
      rw [Disk.manifestFiles_of_missing present] at failed
      exact ⟨(Except.error.inj failed).symm, rfl⟩
    | true =>
      obtain ⟨files, listed⟩ := Disk.exists_manifestFiles plain present
      rw [listed] at failed
      cases failed
  · rintro ⟨rfl, missing⟩
    exact Disk.manifestFiles_of_missing missing
  · obtain ⟨files, listed, lists⟩ := (scans folder found isFolder).2 onward
    exact ⟨files, listed, lists, lists.of_forall⟩

example : (Disk.mk (.folder [("pod.yml", .file none)]) []).manifestFiles "./" = .ok [] := by
  decide +kernel

example :
    (Disk.mk (.folder [("pod.yml", .folder [])]) []).manifestFiles "." = .ok ["pod.yml"] := by
  decide +kernel

/-- Manifests at several depths, and other files. -/
def cluster : FileTree := .folder [
  ("z.yaml", .file (some "kind: Pod")),
  ("a", .folder [(".yml", .file none), ("notes.yml.txt", .file none)]),
  ("a.yml", .file (some "kind: List"))]

/-- A cluster beside a folder that goes by the name of a manifest. -/
def clusterDisk : Disk := ⟨.folder [("srv", .folder [
  ("old.yml", .folder [("deep.yml", .file none)]), ("k]", cluster)])], ["srv"]⟩

/-- A path with points and slashes to spare leads to all manifests. -/
theorem cluster_scanned :
    clusterDisk.root.WellNamed ∧ NamePattern.IsPlain "./old.yml/../k]//".toList ∧
      clusterDisk.find "./old.yml/../k]//" = .ok cluster ∧ cluster.isFolder = true ∧
      ¬ Path.Stalls "./old.yml/../k]//" ∧
      (∀ names found, cluster.Holds names found → Disk.EndAsManifest names →
        found.isFolder = false) ∧
      ∃ files, clusterDisk.manifestFiles "./old.yml/../k]//" = .ok files ∧
        clusterDisk.Lists "./old.yml/../k]//" cluster
          (fun found => found.isFolder = false) files := by
  have named : clusterDisk.root.WellNamed := by decide
  have plain : NamePattern.IsPlain "./old.yml/../k]//".toList := by decide
  have found : clusterDisk.find "./old.yml/../k]//" = .ok cluster := by rfl
  have onward : ¬ Path.Stalls "./old.yml/../k]//" := by decide
  have files : ∀ names found, cluster.Holds names found → Disk.EndAsManifest names →
      found.isFolder = false := by
    have checked : ∀ entry ∈ cluster.descendants, (∃ extension ∈ Disk.manifestExtensions,
        Disk.endsIn ('.' :: extension.toList) entry.1 = true) → entry.2.isFolder = false := by
      decide
    intro names found held manifest
    exact checked (names, found) (FileTree.mem_descendants_iff.2 held)
      (Disk.endAsManifest_iff.1 manifest)
  obtain ⟨-, -, scans⟩ := folder_scans_apart_from_wildcards clusterDisk _ named plain
  obtain ⟨listed, scanned, -, lists⟩ := (scans cluster found rfl).2 onward
  exact ⟨named, plain, found, rfl, onward, files, listed, scanned, lists files⟩

/-- Two folders, and the name of one is a pattern that stands for the name of the other. -/
def bracketDisk : Disk := ⟨.folder [
  ("k8", .folder [("other.yml", .file (some "kind: Pod"))]),
  ("k[8]", .folder [("lost.yml", .file (some "kind: Pod"))])], []⟩

/-- **A folder at a path with wildcards is not scanned**, but another one in its place. -/
theorem bracketFolder_misread :
    ¬ ∀ (disk : Disk) (path : String) (folder : FileTree), disk.root.WellNamed →
      disk.find path = .ok folder → folder.isFolder = true →
      ∃ files, disk.manifestFiles path = .ok files ∧
        disk.Lists path folder (fun found => found.isFolder = false) files := by
  intro scans
  obtain ⟨files, scanned, lists⟩ := scans bracketDisk "k[8]" _ (by decide) rfl rfl
  have outside : bracketDisk.manifestFiles "k[8]" = .ok ["k8/other.yml"] := by decide +kernel
  obtain rfl : files = ["k8/other.yml"] := Except.ok.inj (scanned.symm.trans outside)
  obtain ⟨names, found, -, listed⟩ := lists.listed _ List.mem_cons_self
  -- The path that is listed does not begin with the name of the folder.
  have first : some (Path.nameStep "k8") = some (Path.nameStep "k[8]") :=
    congrArg List.head? listed.components
  exact absurd first (by decide)

end InfraScan
