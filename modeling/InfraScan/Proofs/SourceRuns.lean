import InfraScan.Proofs.BlockContexts

/-!
# What a source cache shows in the course of a run

Texts are put into a cache, ranges of lines are asked for, and between two requests the disk
may become any other disk: files appear, change and go away.  The cache shows none of that for
a path that it holds.  From the first text on that it has for a path, it shows this text,
until another one is put in.

* `SourceStep`, `SourceAnswer` — a request of the cache or a change of the disk, and what it
  gives back
* `SourceState.step`, `SourceState.run` — one step from a cache and a disk, and several
* `SourceEntry.Fixes` — a step after which the text of a path is fixed
* `SourceState.contains_run` — a path is held if a step has fixed it
* `SourceState.get?_run_of_held` — what is held stays as it is, unless another text is put in
* `SourceState.AgreeOn.entriesOn_run` — the steps on other paths may be left out
* `SourceState.Snapshots` — what a cache shows in a run
* `source_cache_snapshots` — what a cache shows after any run

### What is load-bearing

A request for lines gives a result exactly when the path is held afterwards
(`SourceState.contains_step`).  A failed read is therefore no step that fixes anything, and it
leaves the state as it was, so that the next request meets the disk of its own time.
-/

namespace InfraScan

/-! ### Requests of a cache -/

namespace SourceCache

variable (cache : SourceCache) (read : TextReader) (path : String) (startLine endLine : Nat)

@[simp] theorem get?_empty : empty.get? path = none := rfl

theorem contains_eq_isSome : cache.contains path = (cache.get? path).isSome := rfl

theorem contains_eq_false_iff : cache.contains path = false ↔ cache.get? path = none :=
  Option.isSome_eq_false_iff.trans Option.isNone_iff_eq_none

/-- A text that is put in is held, and no other path is affected. -/
theorem get?_insert (other text : String) :
    (cache.insert path text).get? other =
      if path = other then some (splitSource text) else cache.get? other :=
  OrderedMap.get?_insert _ _ _ _

/-- What a request for lines gives when its file is read from the disk. -/
def linesFromDisk : Except Fault (List (Nat × String)) :=
  match read path with
  | .error cause => .error (.sourceRead path cause)
  | .ok text => .ok (slice (splitSource text) startLine endLine)

/-- **A request for lines gives those of the text that is held**, and else those that the disk
gives. -/
theorem fst_lines :
    (cache.lines read path startLine endLine).1 =
      match cache.get? path with
      | some all => .ok (slice all startLine endLine)
      | none => linesFromDisk read path startLine endLine := by
  unfold linesFromDisk
  cases held : cache.get? path with
  | some all => simp [lines, load, held, Except.map]
  | none => cases given : read path <;> simp [lines, load, held, given, Except.map]

/-- **After a request for lines, its path is held as it was seen**, and no other path is
affected. -/
theorem get?_snd_lines (other : String) :
    (cache.lines read path startLine endLine).2.get? other =
      if path = other then cache.source? read path else cache.get? other := by
  cases held : cache.get? path with
  | some all =>
    by_cases same : path = other
    · subst same
      simp [lines, load, source?, held]
    · simp [lines, load, held, same]
  | none =>
    cases given : read path with
    | error cause =>
      by_cases same : path = other
      · subst same
        simp [lines, load, source?, held, given, Except.toOption]
      · simp [lines, load, held, given, same]
    | ok text =>
      have inserted : (cache.lines read path startLine endLine).2 =
          cache.insert path text := by
        simp [lines, load, held, given, insert]
      rw [inserted, get?_insert, source?, held, given]
      rfl

/-- A request for lines gives a result if something is seen of its path. -/
theorem exists_fst_lines_eq_ok_iff :
    (∃ found, (cache.lines read path startLine endLine).1 = .ok found) ↔
      (cache.source? read path).isSome = true := by
  rw [fst_lines, source?, linesFromDisk]
  cases held : cache.get? path with
  | some all => simp
  | none => cases given : read path <;> simp [Except.toOption]

/-- **A request that fails leaves the cache as it was**, and its path was not held. -/
theorem of_fst_lines_eq_error {cache : SourceCache} {read : TextReader} {path : String}
    {startLine endLine : Nat} {fault : Fault}
    (failed : (cache.lines read path startLine endLine).1 = .error fault) :
    cache.get? path = none ∧ (cache.lines read path startLine endLine).2 = cache := by
  rw [fst_lines] at failed
  cases held : cache.get? path with
  | some all =>
    rw [held] at failed
    cases failed
  | none =>
    rw [held, linesFromDisk] at failed
    cases given : read path with
    | error cause => simp [lines, load, held, given]
    | ok text =>
      rw [given] at failed
      cases failed

end SourceCache

/-! ### Steps and runs -/

/-- A step of a run: a request of the cache, or a change of the disk.  A disk is known by what
reading its paths gives, so a file that is made, changed or removed makes it another disk. -/
inductive SourceStep where
  | insert (path text : String)
  | lines (path : String) (startLine endLine : Nat)
  | contains (path : String)
  | change (disk : TextReader)

/-- What a step gives back. -/
inductive SourceAnswer where
  | done
  | lines (result : Except Fault (List (Nat × String)))
  | contains (held : Bool)
  deriving DecidableEq

/-- The path that a step is about; a change of the disk is about none in particular. -/
def SourceStep.path? : SourceStep → Option String
  | .insert path _ => some path
  | .lines path _ _ => some path
  | .contains path => some path
  | .change _ => none

/-- A step with what it has given back. -/
abbrev SourceEntry := SourceStep × SourceAnswer

/-- **A step that fixes the text of a path**: a text was put in for it, or a request for its
lines gave a result. -/
def SourceEntry.Fixes (path : String) (entry : SourceEntry) : Prop :=
  (∃ text, entry.1 = .insert path text) ∨
    ∃ startLine endLine found, entry = (.lines path startLine endLine, .lines (.ok found))

/-- A cache and the disk at a moment. -/
structure SourceState where
  cache : SourceCache
  disk : TextReader

/-- What a run has given back, step by step, and the state that it ends in. -/
structure SourceRun where
  transcript : List SourceEntry
  final : SourceState

namespace SourceState

/-- An empty cache in front of a disk. -/
def start (disk : TextReader) : SourceState := ⟨.empty, disk⟩

/-- **One step.** -/
def step (state : SourceState) : SourceStep → SourceAnswer × SourceState
  | .insert path text => (.done, { state with cache := state.cache.insert path text })
  | .lines path startLine endLine =>
    let asked := state.cache.lines state.disk path startLine endLine
    (.lines asked.1, { state with cache := asked.2 })
  | .contains path => (.contains (state.cache.contains path), state)
  | .change disk => (.done, { state with disk })

/-- Several steps, one after another. -/
def run (state : SourceState) : List SourceStep → SourceRun
  | [] => ⟨[], state⟩
  | first :: rest =>
    let next := state.step first
    let later := next.2.run rest
    ⟨(first, next.1) :: later.transcript, later.final⟩

@[simp] theorem run_nil (state : SourceState) : state.run [] = ⟨[], state⟩ := rfl

theorem run_cons (state : SourceState) (first : SourceStep) (rest : List SourceStep) :
    state.run (first :: rest) =
      ⟨(first, (state.step first).1) :: ((state.step first).2.run rest).transcript,
        ((state.step first).2.run rest).final⟩ := rfl

/-- A run can be taken up where it ended. -/
theorem final_run_append (state : SourceState) (front back : List SourceStep) :
    (state.run (front ++ back)).final = ((state.run front).final.run back).final := by
  induction front generalizing state with
  | nil => rfl
  | cons first rest ih => exact ih (state.step first).2

/-- A transcript is one of the steps of the run, in order. -/
theorem map_fst_transcript (state : SourceState) (steps : List SourceStep) :
    (state.run steps).transcript.map Prod.fst = steps := by
  induction steps generalizing state with
  | nil => rfl
  | cons first rest ih => rw [run_cons, List.map_cons, ih]

variable {path : String}

/-! ### Paths that are held -/

theorem get?_step_insert (state : SourceState) (file text : String) :
    (state.step (.insert file text)).2.cache.get? path =
      if file = path then some (SourceCache.splitSource text) else state.cache.get? path :=
  SourceCache.get?_insert _ _ _ _

theorem get?_step_lines (state : SourceState) (file : String) (startLine endLine : Nat) :
    (state.step (.lines file startLine endLine)).2.cache.get? path =
      if file = path then state.cache.source? state.disk file else state.cache.get? path :=
  SourceCache.get?_snd_lines state.cache state.disk file startLine endLine path

/-- **A step leaves a path held** if the path was held before, or if the step fixes it. -/
theorem contains_step (state : SourceState) (step : SourceStep) :
    (state.step step).2.cache.contains path = true ↔
      state.cache.contains path = true ∨
        SourceEntry.Fixes path (step, (state.step step).1) := by
  cases step with
  | insert other text =>
    rw [SourceCache.contains_eq_isSome, SourceCache.contains_eq_isSome, get?_step_insert]
    by_cases same : other = path <;> simp [SourceEntry.Fixes, same]
  | lines other startLine endLine =>
    have fixes : SourceEntry.Fixes path (.lines other startLine endLine,
          .lines (state.cache.lines state.disk other startLine endLine).1) ↔
        other = path ∧ (state.cache.source? state.disk other).isSome = true := by
      rw [← SourceCache.exists_fst_lines_eq_ok_iff _ _ _ startLine endLine]
      simp [SourceEntry.Fixes, and_assoc]
    rw [SourceCache.contains_eq_isSome, SourceCache.contains_eq_isSome, get?_step_lines]
    refine Iff.trans ?_ (or_congr_right fixes.symm)
    by_cases same : other = path
    · subst same
      rw [if_pos rfl, SourceCache.source?]
      cases state.cache.get? other <;> simp
    · simp [same]
  | contains other =>
    show state.cache.contains path = true ↔ _
    simp [SourceEntry.Fixes]
  | change disk =>
    show state.cache.contains path = true ↔ _
    simp [SourceEntry.Fixes]

/-- **After a run, a path is held** if it was held before, or if one of the steps fixed it. -/
theorem contains_run (state : SourceState) (steps : List SourceStep) :
    (state.run steps).final.cache.contains path = true ↔
      state.cache.contains path = true ∨
        ∃ entry ∈ (state.run steps).transcript, entry.Fixes path := by
  induction steps generalizing state with
  | nil => simp
  | cons first rest ih =>
    rw [run_cons, ih, contains_step, or_assoc]
    simp only [List.mem_cons, exists_eq_or_imp]

/-- What is held stays as it is in a step that puts no other text in. -/
theorem get?_step_of_held {state : SourceState} {all : List String} {step : SourceStep}
    (held : state.cache.get? path = some all) (kept : ∀ text, step ≠ .insert path text) :
    (state.step step).2.cache.get? path = some all := by
  cases step with
  | insert other text =>
    have different : other ≠ path := fun same => kept text (same ▸ rfl)
    rw [get?_step_insert, if_neg different, held]
  | lines other startLine endLine =>
    rw [get?_step_lines]
    by_cases same : other = path
    · subst same
      rw [if_pos rfl, SourceCache.source?, held, Option.some_or]
    · rw [if_neg same, held]
  | contains other => exact held
  | change disk => exact held

/-- **What is held stays as it is** in a run that puts no other text in. -/
theorem get?_run_of_held {state : SourceState} {all : List String} {steps : List SourceStep}
    (held : state.cache.get? path = some all) (kept : ∀ text, .insert path text ∉ steps) :
    (state.run steps).final.cache.get? path = some all := by
  induction steps generalizing state with
  | nil => exact held
  | cons first rest ih =>
    have notFirst : ∀ text, first ≠ .insert path text := fun text same =>
      kept text (same ▸ List.mem_cons_self)
    exact ih (get?_step_of_held held notFirst) fun text later =>
      kept text (List.mem_cons_of_mem _ later)

/-! ### The text that is shown -/

/-- A path that is held gives the lines of its text. -/
theorem lines_of_held {state : SourceState} {all : List String}
    (held : state.cache.get? path = some all) (startLine endLine : Nat) :
    (state.step (.lines path startLine endLine)).1 =
      .lines (.ok (slice all startLine endLine)) := by
  show SourceAnswer.lines (state.cache.lines state.disk path startLine endLine).1 = _
  rw [SourceCache.fst_lines, held]

/-- A path that is not held gives what the disk gives. -/
theorem lines_of_absent {state : SourceState} (absent : state.cache.get? path = none)
    (startLine endLine : Nat) :
    (state.step (.lines path startLine endLine)).1 =
      .lines (SourceCache.linesFromDisk state.disk path startLine endLine) := by
  show SourceAnswer.lines (state.cache.lines state.disk path startLine endLine).1 = _
  rw [SourceCache.fst_lines, absent]

/-- What a request for `contains` gives. -/
theorem contains_eq_iff (state : SourceState) (held : Bool) :
    (state.step (.contains path)).1 = .contains held ↔ state.cache.contains path = held :=
  SourceAnswer.contains.injEq _ _ ▸ Iff.rfl

/-- From an empty cache, a path is held after a text was put in or a request for lines
succeeded. -/
theorem contains_run_start (disk : TextReader) (steps : List SourceStep) :
    ((start disk).run steps).final.cache.contains path = true ↔
      (∃ text, .insert path text ∈ steps) ∨ ∃ startLine endLine found,
        (.lines path startLine endLine, .lines (.ok found)) ∈
          ((start disk).run steps).transcript := by
  have nothing : ¬ (start disk).cache.contains path = true := Bool.false_ne_true
  rw [contains_run, or_iff_right nothing]
  constructor
  · rintro ⟨entry, mem, ⟨text, inserted⟩ | ⟨startLine, endLine, found, rfl⟩⟩
    · have step := List.mem_map_of_mem (f := Prod.fst) mem
      rw [map_fst_transcript, inserted] at step
      exact .inl ⟨text, step⟩
    · exact .inr ⟨startLine, endLine, found, mem⟩
  · rintro (⟨text, mem⟩ | ⟨startLine, endLine, found, mem⟩)
    · rw [← map_fst_transcript (start disk) steps] at mem
      obtain ⟨entry, inRun, inserted⟩ := List.mem_map.1 mem
      exact ⟨entry, inRun, .inl ⟨text, inserted⟩⟩
    · exact ⟨_, mem, .inr ⟨startLine, endLine, found, rfl⟩⟩

/-- After a text was put in, and no other one since, this is the text that is held. -/
theorem get?_run_of_inserted (state : SourceState) (before : List SourceStep) (text : String)
    {after : List SourceStep} (kept : ∀ other, .insert path other ∉ after) :
    (state.run (before ++ .insert path text :: after)).final.cache.get? path =
      some (SourceCache.splitSource text) := by
  rw [final_run_append, run_cons]
  refine get?_run_of_held ?_ kept
  rw [get?_step_insert, if_pos rfl]

/-- After a read that succeeded where nothing was held, and no text put in since, the text
that was read is the one that is held. -/
theorem get?_run_of_read (state : SourceState) {before : List SourceStep} {text : String}
    (absent : (state.run before).final.cache.get? path = none)
    (given : (state.run before).final.disk path = .ok text) (startLine endLine : Nat)
    {after : List SourceStep} (kept : ∀ other, .insert path other ∉ after) :
    (state.run (before ++ .lines path startLine endLine :: after)).final.cache.get? path =
      some (SourceCache.splitSource text) := by
  rw [final_run_append, run_cons]
  refine get?_run_of_held ?_ kept
  rw [get?_step_lines, if_pos rfl, SourceCache.source?, absent, given]
  rfl

/-! ### Paths do not affect each other -/

/-- Two states that agree on a path: they hold the same for it, and have the same disk. -/
structure AgreeOn (path : String) (a b : SourceState) : Prop where
  get? : a.cache.get? path = b.cache.get? path
  disk : a.disk = b.disk

theorem AgreeOn.trans {a b c : SourceState} (first : AgreeOn path a b)
    (second : AgreeOn path b c) : AgreeOn path a c :=
  ⟨first.get?.trans second.get?, first.disk.trans second.disk⟩

/-- A step on another path leaves a state that agrees with the one before. -/
theorem agreeOn_step_of_other (state : SourceState) {step : SourceStep} {other : String}
    (about : step.path? = some other) (different : other ≠ path) :
    AgreeOn path (state.step step).2 state := by
  cases step with
  | insert file text =>
    obtain rfl := Option.some.inj about
    exact ⟨by rw [get?_step_insert, if_neg different], rfl⟩
  | lines file startLine endLine =>
    obtain rfl := Option.some.inj about
    exact ⟨by rw [get?_step_lines, if_neg different], rfl⟩
  | contains file => exact ⟨rfl, rfl⟩
  | change disk => cases about

/-- A step on the path gives the same from states that agree on it, and they go on
agreeing. -/
theorem AgreeOn.step {a b : SourceState} (agree : AgreeOn path a b) {step : SourceStep}
    (about : step.path? = some path) :
    (a.step step).1 = (b.step step).1 ∧ AgreeOn path (a.step step).2 (b.step step).2 := by
  obtain ⟨same, disk⟩ := agree
  cases step with
  | insert file text =>
    obtain rfl : file = path := Option.some.inj about
    refine ⟨rfl, ?_, disk⟩
    rw [get?_step_insert, get?_step_insert, if_pos rfl, if_pos rfl]
  | lines file startLine endLine =>
    obtain rfl : file = path := Option.some.inj about
    refine ⟨congrArg SourceAnswer.lines ?_, ?_, disk⟩
    · rw [SourceCache.fst_lines, SourceCache.fst_lines, same, disk]
    · rw [get?_step_lines, get?_step_lines, if_pos rfl, if_pos rfl,
        SourceCache.source?, SourceCache.source?, same, disk]
  | contains file =>
    obtain rfl : file = path := Option.some.inj about
    refine ⟨?_, same, disk⟩
    show SourceAnswer.contains (a.cache.get? file).isSome =
        .contains (b.cache.get? file).isSome
    rw [same]
  | change disk => cases about

/-- The steps on a path, with what they gave back. -/
def entriesOn (path : String) (transcript : List SourceEntry) : List SourceEntry :=
  transcript.filter fun entry => entry.1.path? = some path

/-- The steps that a path is not indifferent to: those on itself, and the changes of the
disk. -/
def stepsFor (path : String) (steps : List SourceStep) : List SourceStep :=
  steps.filter fun step => step.path? = none ∨ step.path? = some path

/-- **The steps on other paths may be left out**: all others give back what they gave. -/
theorem AgreeOn.entriesOn_run {a b : SourceState} (agree : AgreeOn path a b)
    (steps : List SourceStep) :
    entriesOn path (a.run steps).transcript =
      entriesOn path (b.run (stepsFor path steps)).transcript := by
  induction steps generalizing a b with
  | nil => rfl
  | cons first rest ih =>
    cases about : first.path? with
    | none =>
      have kept : stepsFor path (first :: rest) = first :: stepsFor path rest :=
        List.filter_cons_of_pos (by simp [about])
      have changed : AgreeOn path (a.step first).2 (b.step first).2 := by
        cases first with
        | change disk => exact ⟨agree.get?, rfl⟩
        | insert | lines | contains => cases about
      rw [kept, run_cons, run_cons, entriesOn, entriesOn,
        List.filter_cons_of_neg (by simp [about]), List.filter_cons_of_neg (by simp [about])]
      exact ih changed
    | some other =>
      by_cases same : other = path
      · subst same
        have kept : stepsFor other (first :: rest) = first :: stepsFor other rest :=
          List.filter_cons_of_pos (by simp [about])
        obtain ⟨answers, agree'⟩ := agree.step about
        rw [kept, run_cons, run_cons, entriesOn, entriesOn,
          List.filter_cons_of_pos (by simp [about]),
          List.filter_cons_of_pos (by simp [about]),
          answers]
        exact congrArg _ (ih agree')
      · have dropped : stepsFor path (first :: rest) = stepsFor path rest :=
          List.filter_cons_of_neg (by simp [about, same])
        have unaffected := agreeOn_step_of_other a about same
        rw [dropped, run_cons, entriesOn, List.filter_cons_of_neg (by simp [about, same])]
        exact ih (unaffected.trans agree)

/-- **A path is shown in snapshots** by an empty cache in front of a disk, after a run of
requests and changes of the disk. -/
structure Snapshots (disk : TextReader) (steps : List SourceStep) (path : String) : Prop where
  /-- The path is held if a text was put in for it, or a request for its lines gave a
  result. -/
  held : (((start disk).run steps).final.step (.contains path)).1 = .contains true ↔
    (∃ text, .insert path text ∈ steps) ∨ ∃ startLine endLine found,
      (.lines path startLine endLine, .lines (.ok found)) ∈
        ((start disk).run steps).transcript
  /-- Once it is held, it is so after all further steps, and every request for its lines gives
  a result. -/
  forever :
    (((start disk).run steps).final.step (.contains path)).1 = .contains true → ∀ further,
    (((start disk).run (steps ++ further)).final.step (.contains path)).1 = .contains true ∧
      ∀ startLine endLine, ∃ found,
        (((start disk).run (steps ++ further)).final.step (.lines path startLine endLine)).1 =
          .lines (.ok found)
  /-- If texts were put in for it, its lines are those of the last one. -/
  inserted : ∀ before text after, steps = before ++ .insert path text :: after →
    (∀ other, .insert path other ∉ after) → ∀ startLine endLine,
      (((start disk).run steps).final.step (.lines path startLine endLine)).1 =
        .lines (.ok (slice (SourceCache.splitSource text) startLine endLine))
  /-- If none was put in, its lines are those of the text that the disk gave at the first read
  that succeeded. -/
  read : (∀ text, .insert path text ∉ steps) →
    ∀ before first last after text, steps = before ++ .lines path first last :: after →
      (∀ startLine endLine found, (.lines path startLine endLine, .lines (.ok found)) ∉
        ((start disk).run before).transcript) →
      ((start disk).run before).final.disk path = .ok text → ∀ startLine endLine,
        (((start disk).run steps).final.step (.lines path startLine endLine)).1 =
          .lines (.ok (slice (SourceCache.splitSource text) startLine endLine))
  /-- As long as it is not held, its lines are those that the disk gives at the moment. -/
  absent : (((start disk).run steps).final.step (.contains path)).1 = .contains false →
    ∀ startLine endLine,
      (((start disk).run steps).final.step (.lines path startLine endLine)).1 =
        .lines (SourceCache.linesFromDisk
          ((start disk).run steps).final.disk path startLine endLine)
  /-- A request that fails leaves cache and disk as they were, and the next one reads the disk
  again, whatever has become of it. -/
  failed : ∀ startLine endLine fault,
    (((start disk).run steps).final.step (.lines path startLine endLine)).1 =
        .lines (.error fault) →
      (((start disk).run steps).final.step (.lines path startLine endLine)).2 =
        ((start disk).run steps).final ∧
      ∀ changed first last,
        ((((start disk).run (steps ++
          [.lines path startLine endLine, .change changed])).final).step
            (.lines path first last)).1 =
          .lines (SourceCache.linesFromDisk changed path first last)
  /-- The steps on other paths may be left out of the run. -/
  others : entriesOn path ((start disk).run steps).transcript =
    entriesOn path ((start disk).run (stepsFor path steps)).transcript

end SourceState

/-- **A source cache shows snapshots** of every path, after every run. -/
theorem source_cache_snapshots (disk : TextReader) (steps : List SourceStep) (path : String) :
    SourceState.Snapshots disk steps path where
  held := by
    rw [SourceState.contains_eq_iff]
    exact SourceState.contains_run_start disk steps
  forever := by
    intro held further
    rw [SourceState.contains_eq_iff] at held ⊢
    have stillHeld : ((SourceState.start disk).run
        (steps ++ further)).final.cache.contains path = true := by
      rw [SourceState.final_run_append, SourceState.contains_run]
      exact .inl held
    refine ⟨stillHeld, fun startLine endLine => ?_⟩
    obtain ⟨all, cached⟩ := Option.isSome_iff_exists.1 stillHeld
    exact ⟨_, SourceState.lines_of_held cached startLine endLine⟩
  inserted := by
    rintro before text after rfl kept
    exact SourceState.lines_of_held (SourceState.get?_run_of_inserted _ before text kept)
  read := by
    rintro notInserted before first last after text rfl unread given
    -- Neither put in nor read before, the path was not held when it was read.
    have absent : ((SourceState.start disk).run before).final.cache.get? path = none := by
      rw [← SourceCache.contains_eq_false_iff, Bool.eq_false_iff, ne_eq,
        SourceState.contains_run_start]
      rintro (⟨other, mem⟩ | ⟨startLine, endLine, found, mem⟩)
      · exact notInserted other (List.mem_append_left _ mem)
      · exact unread startLine endLine found mem
    have kept : ∀ other, .insert path other ∉ after := fun other mem =>
      notInserted other (List.mem_append_right _ (List.mem_cons_of_mem _ mem))
    exact SourceState.lines_of_held
      (SourceState.get?_run_of_read _ absent given first last kept)
  absent := by
    intro absent
    rw [SourceState.contains_eq_iff, SourceCache.contains_eq_false_iff] at absent
    exact SourceState.lines_of_absent absent
  failed := by
    intro startLine endLine fault failed
    obtain ⟨absent, unchanged⟩ :=
      SourceCache.of_fst_lines_eq_error (SourceAnswer.lines.inj failed)
    have same : (((SourceState.start disk).run steps).final.step
        (.lines path startLine endLine)).2 = ((SourceState.start disk).run steps).final :=
      congrArg (SourceState.mk · _) unchanged
    refine ⟨same, fun changed first last => ?_⟩
    rw [SourceState.final_run_append, SourceState.run_cons, same]
    have stillAbsent : (SourceState.mk ((SourceState.start disk).run steps).final.cache
        changed).cache.get? path = none := absent
    exact SourceState.lines_of_absent stillAbsent first last
  others := SourceState.AgreeOn.entriesOn_run ⟨rfl, rfl⟩ steps

/-- A run on three disks: a file that is missing at first, is then read, then changed; another
one that is read and then replaced by a text. -/
def churningSteps : List SourceStep := [
  .lines "late" 1 9,
  .change fun path => if path = "late" then .ok "one\r\ntwo\n" else .ok "disk",
  .lines "late" 5 1,
  .lines "draft" 1 1,
  .change fun _ => .error .notFound,
  .insert "draft" "memory",
  .contains "late",
  .lines "lost" 1 1]

/-- The first request for the file that comes late fails, and the second one, which asks for
no line at all, fixes its text.  The draft is what was put in, although it was read before. -/
theorem churningSteps_snapshots :
    let now := ((SourceState.start fun _ => .error .notFound).run churningSteps).final
    (now.step (.contains "late")).1 = .contains true ∧
      (now.step (.lines "late" 0 9)).1 = .lines (.ok [(1, "one"), (2, "two")]) ∧
      (now.step (.lines "draft" 1 1)).1 = .lines (.ok [(1, "memory")]) ∧
      (now.step (.lines "lost" 1 1)).1 = .lines (.error (.sourceRead "lost" .notFound)) := by
  have shown := source_cache_snapshots (fun _ => .error .notFound) churningSteps
  have notInserted : ∀ text, .insert "late" text ∉ churningSteps := by
    simp [churningSteps]
  have unread : ∀ startLine endLine found,
      (.lines "late" startLine endLine, .lines (.ok found)) ∉
      ((SourceState.start fun _ => .error .notFound).run
        (churningSteps.take 2)).transcript := by
    intro startLine endLine found mem
    simp [churningSteps, SourceState.run, SourceState.step, SourceState.start,
      SourceCache.lines, SourceCache.load, Except.map] at mem
  refine ⟨?_, ?_, ?_, ?_⟩
  · refine (shown "late").held.2 (.inr ⟨5, 1, [], ?_⟩)
    exact List.mem_cons_of_mem _ (List.mem_cons_of_mem _ List.mem_cons_self)
  · have given := (shown "late").read notInserted _ 5 1 _ "one\r\ntwo\n" rfl unread rfl 0 9
    exact given.trans (by decide +kernel)
  · have given := (shown "draft").inserted (churningSteps.take 5) "memory" _ rfl (by simp) 1 1
    exact given.trans (by decide +kernel)
  · have absent := (shown "lost").absent (by decide +kernel) 1 1
    exact absent

end InfraScan
