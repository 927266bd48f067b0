import InfraScan.Block.Parser
import InfraScan.Proofs.OrderedMap

/-!
# What the contexts of a category depend on

A parser threads a cache, and the cache fills as files are read.  As long as the files stay as
they are, none of that shows: what a path is seen as does not change when another path, or the
same one, is loaded.  The contexts of a category are therefore a function of its raw blocks
and of one source text, and this module says which.

* `SourceCache.view` — what each file is seen as
* `SourceCache.source?` — the part of it that a parser of blocks goes by
* `SourceCache.view_load` — loading a file changes what no path is seen as
* `slice_eq_map` — the lines of a range by number
* `BlockParser.follow_contexts`, `BlockParser.follow_cache` — the walk along the steps
* `BlockParser.run_contexts`, `BlockParser.view_run` — a run in terms of what is seen
-/

namespace InfraScan

/-! ### What is seen of a file -/

/-- What files are seen as: the lines of a path, or the fault in their place. -/
abbrev SourceView := String → Except Fault (List String)

namespace SourceCache

/-- **What each file is seen as** by those who ask the cache: the lines, or why there are
none. -/
def view (cache : SourceCache) (read : TextReader) : SourceView :=
  fun path => (cache.load read path).1

/-- **What a parser sees of a file**: the lines in the cache, else those of the text that the
disk gives; nothing when the file cannot be read. -/
def source? (cache : SourceCache) (read : TextReader) (path : String) :
    Option (List String) :=
  (cache.get? path).or ((read path).toOption.map splitSource)

@[simp] theorem toOption_view (cache : SourceCache) (read : TextReader) (path : String) :
    (cache.view read path).toOption = cache.source? read path := by
  cases cached : cache.get? path with
  | some lines => simp [view, load, source?, cached, Except.toOption]
  | none =>
    cases given : read path <;> simp [view, load, source?, cached, given, Except.toOption]

/-- **Loading a file changes what no path is seen as.**  A text that is read for the first
time goes into the cache as the text that the disk would have given anyway. -/
theorem view_load (cache : SourceCache) (read : TextReader) (path : String) :
    (cache.load read path).2.view read = cache.view read := by
  cases cached : cache.get? path with
  | some lines => simp [load, cached]
  | none =>
    cases given : read path with
    | error cause => simp [load, cached, given]
    | ok text =>
      have loaded : (cache.load read path).2 =
          ⟨cache.files.insert path (splitSource text)⟩ := by
        simp [load, cached, given]
      funext other
      rw [loaded, view, view, load, load, get?, OrderedMap.get?_insert]
      by_cases same : path = other
      · subst same
        simp [cached, given]
      · rw [if_neg same, get?]
        cases cache.files.get? other with
        | some lines => rfl
        | none => cases read other <;> rfl

theorem source?_load (cache : SourceCache) (read : TextReader) (path other : String) :
    (cache.load read path).2.source? read other = cache.source? read other := by
  rw [← toOption_view, view_load, toOption_view]

end SourceCache

/-! ### Lines by number -/

/-- The numbers of the lines of a file of `count` lines that lie in a range, in increasing
order. -/
def lineNumbers (startLine endLine count : Nat) : List Nat :=
  List.range' (max startLine 1) (min endLine count + 1 - max startLine 1)

/-- The text of a line by its number, which counts from one. -/
def lineText (lines : List String) (number : Nat) : String := lines.getD (number - 1) ""

theorem mem_lineNumbers {startLine endLine count number : Nat} :
    number ∈ lineNumbers startLine endLine count ↔
      max startLine 1 ≤ number ∧ number ≤ min endLine count := by
  rw [lineNumbers, List.mem_range'_1]
  omega

/-- **The lines of a range by number.** -/
theorem slice_eq_map (lines : List String) (startLine endLine : Nat) :
    slice lines startLine endLine =
      (lineNumbers startLine endLine lines.length).map fun number =>
        (number, lineText lines number) := by
  -- Both lists have the length of the clamped range, and agree position by position.
  apply List.ext_getElem
  · simp only [slice, lineNumbers, List.length_map, List.length_zipIdx, List.length_drop,
      List.length_take, List.length_range']
    omega
  · intro i inSlice inNumbers
    have bound : max startLine 1 - 1 + i < lines.length := by
      simp only [lineNumbers, List.length_map, List.length_range'] at inNumbers
      omega
    have position : max startLine 1 + i - 1 = max startLine 1 - 1 + i := by omega
    simp [slice, lineNumbers, lineText, position, bound]

/-- The numbers of the lines of a slice. -/
theorem map_fst_slice (lines : List String) (startLine endLine : Nat) :
    (slice lines startLine endLine).map Prod.fst =
      lineNumbers startLine endLine lines.length := by
  rw [slice_eq_map, List.map_map]
  exact List.map_id _

/-! ### Runs in terms of what is seen -/

/-- The context for a located body, when the file is seen as `source`.  Without a source text
the range stands alone. -/
def BlockStep.context? (source : Option (List String)) (scanner : DirectiveScanner)
    (collect : Bool) : BlockStep → Option BlockContext
  | .skip .. => none
  | .locate id startLine endLine =>
    some (.ofLines scanner collect id startLine endLine
      ((source.map fun lines => slice lines startLine endLine).getD []))

namespace BlockParser

variable (parser : BlockParser) (read : TextReader) (scanner : DirectiveScanner)
  (collect : Bool) (key : StoreKey)

section Located

variable {cache after : SourceCache} (id : String) (startLine endLine : Nat)
  (rest : List BlockStep)

/-- A located body whose file can be read gets the lines of its range. -/
theorem follow_locate_of_ok {lines : List String}
    (loaded : cache.load read key.filePath = (.ok lines, after)) :
    parser.follow read scanner collect key false cache
      (.locate id startLine endLine :: rest) =
      let later := parser.follow read scanner collect key false after rest
      { later with
        contexts := .ofLines scanner collect id startLine endLine
          (slice lines startLine endLine) :: later.contexts } := by
  simp [follow, SourceCache.lines, loaded, Except.map]

/-- At a located body whose file cannot be read, this is reported, and the file is not asked
for again. -/
theorem follow_locate_of_error {cause : Fault}
    (loaded : cache.load read key.filePath = (.error cause, after)) :
    parser.follow read scanner collect key false cache
      (.locate id startLine endLine :: rest) =
      let later := parser.follow read scanner collect key true after rest
      { later with
        contexts := .ofLines scanner collect id startLine endLine [] :: later.contexts
        events := .sourceUnavailable key.render cause :: later.events } := by
  simp [follow, SourceCache.lines, loaded, Except.map]

end Located

/-- **The walk along the steps**, by induction on them.  Before the source was missed, the
steps that are left see what the cache shows; afterwards they see nothing, and that is what
the cache would have shown them. -/
theorem follow_contexts (steps : List BlockStep) (missing : Bool) (cache : SourceCache) :
    (parser.follow read scanner collect key missing cache steps).contexts =
      steps.filterMap (BlockStep.context?
        (if missing then none else cache.source? read key.filePath) scanner collect) := by
  induction steps generalizing missing cache with
  | nil => rfl
  | cons step rest ih =>
    cases step with
    | skip index defect => exact ih missing cache
    | locate id startLine endLine =>
      cases missing with
      | true =>
        -- Nothing is asked for any more, and the step puts in a range without text.
        exact congrArg _ (ih true cache)
      | false =>
        have seen := cache.toOption_view read key.filePath
        have unchanged := cache.source?_load read key.filePath key.filePath
        cases loaded : cache.load read key.filePath with
        | mk answer after =>
          rw [SourceCache.view, loaded] at seen
          rw [loaded] at unchanged
          cases answer with
          | ok lines =>
            -- The cache shows after the look-up what it showed before: the rest sees these
            -- lines.
            have later := ih false after
            rw [if_neg Bool.false_ne_true, unchanged, ← seen] at later
            rw [parser.follow_locate_of_ok read scanner collect key id startLine
              endLine rest loaded, if_neg Bool.false_ne_true, ← seen]
            exact congrArg (List.cons _) later
          | error cause =>
            -- The cache had nothing and the disk gives nothing: the source was absent all
            -- along.
            have later := ih true after
            rw [if_pos rfl] at later
            rw [parser.follow_locate_of_error read scanner collect key id
              startLine endLine rest loaded, if_neg Bool.false_ne_true, ← seen]
            exact congrArg (List.cons _) later

/-- **A walk loads its file and does nothing else to the cache**: what holds of a cache and is
kept when the file is loaded holds after the walk. -/
theorem follow_cache {P : SourceCache → Prop}
    (kept : ∀ cache, P cache → P (cache.load read key.filePath).2) (steps : List BlockStep)
    (missing : Bool) {cache : SourceCache} (holds : P cache) :
    P (parser.follow read scanner collect key missing cache steps).cache := by
  induction steps generalizing missing cache with
  | nil => exact holds
  | cons step rest ih =>
    cases step with
    | skip index defect => exact ih missing holds
    | locate id startLine endLine =>
      cases missing with
      | true => exact ih true holds
      | false =>
        have loadedHolds := kept cache holds
        cases loaded : cache.load read key.filePath with
        | mk answer after =>
          rw [loaded] at loadedHolds
          cases answer with
          | ok lines =>
            rw [parser.follow_locate_of_ok read scanner collect key id startLine
              endLine rest loaded]
            exact ih false loadedHolds
          | error cause =>
            rw [parser.follow_locate_of_error read scanner collect key id
              startLine endLine rest loaded]
            exact ih true loadedHolds

variable (blocks : List Json) (cache : SourceCache)

/-- **The contexts of a run depend on the raw blocks and on what is seen of the file.** -/
theorem run_contexts :
    (parser.run read scanner collect key blocks cache).contexts =
      (parser.steps blocks).filterMap
        (BlockStep.context? (cache.source? read key.filePath) scanner collect) :=
  parser.follow_contexts read scanner collect key (parser.steps blocks) false cache

/-- A run changes what no path is seen as. -/
theorem view_run :
    (parser.run read scanner collect key blocks cache).cache.view read = cache.view read :=
  parser.follow_cache read scanner collect key
    (P := fun after => after.view read = cache.view read)
    (fun after same => (after.view_load read key.filePath).trans same)
    (parser.steps blocks) false rfl

end BlockParser

end InfraScan
