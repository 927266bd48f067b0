import InfraScan.Enrichment
import InfraScan.Proofs.Candidates

/-!
# Broken blocks

A run turns each candidate into one context or one warning.  Nothing is lost without a word,
and what is wrong with one candidate does not show at another.

* `Candidate.warning?` — the warning that a candidate gives in the place of a context
* `BlockParser.follow_warnings`, `BlockParser.run_warnings_perm` — the warnings of a run
* `BlockParser.follow_sourceUnavailable`, `BlockParser.run_sourceUnavailable` — a missing
  source is reported once
* `Without` — the raw blocks without one candidate
* `BlockParser.contextsFrom_without` — a broken candidate may be left out
* `run_accounts_for_candidates` — what a run does with its candidates

### What is load-bearing

A raw block that is no mapping is not counted by the numbering of unnamed blocks, and an
unnamed mapping is counted even when it gets no context.  Leaving out a broken unnamed mapping
would rename the blocks behind it, and that is why `Without` takes no unnamed mapping away.
-/

namespace InfraScan

/-! ### Warnings -/

namespace Event

/-- The event is a warning about a raw block. -/
def isBlockSkipped : Event → Bool
  | .blockSkipped .. => true
  | _ => false

/-- The event is the warning about a missing source. -/
def isSourceUnavailable : Event → Bool
  | .sourceUnavailable .. => true
  | _ => false

end Event

/-- The warning for a step that skips a candidate. -/
def BlockStep.warning? (category : String) (key : StoreKey) : BlockStep → Option Event
  | .skip index defect => some (.blockSkipped key.render ⟨category, index, defect⟩)
  | .locate .. => none

/-- The warning that a candidate gives. -/
def Candidate.warning? (parser : BlockParser) (key : StoreKey) (candidate : Candidate) :
    Option Event :=
  (candidate.step parser).warning? parser.category key

namespace BlockParser

variable (parser : BlockParser) (read : TextReader) (scanner : DirectiveScanner)
  (collect : Bool) (key : StoreKey)

/-- **Every step that skips is reported**, in the order of the steps. -/
theorem follow_warnings (steps : List BlockStep) (missing : Bool) (cache : SourceCache) :
    (parser.follow read scanner collect key missing cache steps).events.filter
        Event.isBlockSkipped =
      steps.filterMap (BlockStep.warning? parser.category key) := by
  fun_induction follow parser read scanner collect key missing cache steps with
  | case1 => rfl
  | case2 missing cache index defect rest later ih => exact congrArg (List.cons _) ih
  | case3 cache id startLine endLine rest context later ih => exact ih
  | case4 missing cache id startLine endLine rest context wanted lines after asked later ih =>
    exact ih
  | case5 missing cache id startLine endLine rest context wanted cause after asked later ih =>
    exact ih

/-- Nothing else is reported, but for a missing source. -/
theorem kind_of_mem_follow (steps : List BlockStep) (missing : Bool) (cache : SourceCache) :
    ∀ event ∈ (parser.follow read scanner collect key missing cache steps).events,
      event.isBlockSkipped = true ∨ event.isSourceUnavailable = true := by
  fun_induction follow parser read scanner collect key missing cache steps with
  | case1 =>
    intro event mem
    cases mem
  | case2 missing cache index defect rest later ih =>
    exact List.forall_mem_cons.2 ⟨.inl rfl, ih⟩
  | case3 cache id startLine endLine rest context later ih => exact ih
  | case4 missing cache id startLine endLine rest context wanted lines after asked later ih =>
    exact ih
  | case5 missing cache id startLine endLine rest context wanted cause after asked later ih =>
    exact List.forall_mem_cons.2 ⟨.inr rfl, ih⟩

/-- The report of a source that cannot be read, where contexts have asked for it. -/
def missingReport (key : StoreKey) (contexts : List BlockContext)
    (answer : Except Fault (List String)) : List Event :=
  match contexts, answer with
  | _ :: _, .error cause => [.sourceUnavailable key.render cause]
  | _, _ => []

@[simp] theorem missingReport_ok (key : StoreKey) (contexts : List BlockContext)
    (lines : List String) : missingReport key contexts (.ok lines) = [] := by
  cases contexts <;> rfl

/-- **A missing source is reported once**, with the first context, and not before. -/
theorem follow_sourceUnavailable (steps : List BlockStep) (missing : Bool)
    (cache : SourceCache) :
    (parser.follow read scanner collect key missing cache steps).events.filter
        Event.isSourceUnavailable =
      if missing then []
      else missingReport key
        (parser.follow read scanner collect key missing cache steps).contexts
        (cache.load read key.filePath).1 := by
  induction steps generalizing missing cache with
  | nil => cases missing <;> rfl
  | cons step rest ih =>
    cases step with
    | skip index defect => exact ih missing cache
    | locate id startLine endLine =>
      cases missing with
      | true => exact ih true cache
      | false =>
        rw [if_neg Bool.false_ne_true]
        cases loaded : cache.load read key.filePath with
        | mk answer after =>
          cases answer with
          | ok lines =>
            -- What has been read once is in the cache, and is not missed later on.
            have held : (after.load read key.filePath).1 = .ok lines := by
              have again := congrFun (cache.view_load read key.filePath) key.filePath
              rw [SourceCache.view, SourceCache.view, loaded] at again
              exact again
            have later := ih false after
            rw [held, missingReport_ok] at later
            rw [parser.follow_locate_of_ok read scanner collect key id startLine
              endLine rest loaded]
            exact later
          | error cause =>
            have later := ih true after
            rw [parser.follow_locate_of_error read scanner collect key id
              startLine endLine rest loaded]
            exact congrArg (List.cons _) later

end BlockParser

/-! ### One candidate less -/

/-- **The raw blocks without one candidate**: `Without shape value blocks fewer` says that
`fewer` is `blocks` less a candidate at which `value` stands.  The candidate goes with its raw
block, as a member of one, or as a member of a member. -/
inductive Without : BlockShape → Json → List Json → List Json → Prop
  | block {shape : BlockShape} {value : Json} (front back : List Json) :
      value.fields? = none → Without shape value (front ++ value :: back) (front ++ back)
  | member {shape : BlockShape} {value : Json} (front back : List Json)
      (before after : List (String × Json)) (name : String) :
      shape = .named ∨ shape = .typed ∧ value.fields? = none →
      Without shape value (front ++ .obj (before ++ (name, value) :: after) :: back)
        (front ++ .obj (before ++ after) :: back)
  | inner {value : Json} (front back : List Json) (before after : List (String × Json))
      (type : String) (ahead behind : List (String × Json)) (name : String) :
      Without .typed value
        (front ++ .obj (before ++ (type, .obj (ahead ++ (name, value) :: behind)) ::
          after) :: back)
        (front ++ .obj (before ++ (type, .obj (ahead ++ behind)) :: after) :: back)

namespace BlockParser

variable {parser : BlockParser} {source : Option (List String)} {scanner : DirectiveScanner}
  {collect : Bool}

/-- A mapping may be put in the place of another with the same contexts. -/
theorem contextsFrom_replace {fields others : List (String × Json)}
    (alike : ∀ earlier, (parser.shape.candidatesOf 0 earlier (.obj fields)).filterMap
        (Candidate.context? parser source scanner collect) =
      (parser.shape.candidatesOf 0 earlier (.obj others)).filterMap
        (Candidate.context? parser source scanner collect))
    (earlier : Nat) (front back : List Json) :
    parser.contextsFrom source scanner collect earlier (front ++ .obj fields :: back) =
      parser.contextsFrom source scanner collect earlier (front ++ .obj others :: back) := by
  rw [contextsFrom_append, contextsFrom_append, contextsFrom, contextsFrom,
    parser.filterMap_bodies source scanner collect 0,
    parser.filterMap_bodies source scanner collect 0, alike]
  rfl

/-- **A candidate without a range may be left out.** -/
theorem contextsFrom_without {value : Json} {blocks fewer : List Json}
    (less : Without parser.shape value blocks fewer)
    (malformed : ∀ startLine endLine, ¬HasRange value startLine endLine) (earlier : Nat) :
    parser.contextsFrom source scanner collect earlier blocks =
      parser.contextsFrom source scanner collect earlier fewer := by
  have nothing (index earlier : Nat) (path : List String) :
      Candidate.context? parser source scanner collect
        ⟨index, earlier, path, value⟩ = none := by
    obtain ⟨defect, skipped⟩ :=
      Candidate.exists_step_eq_skip parser ⟨index, earlier, path, value⟩ malformed
    rw [Candidate.context?, skipped, BlockStep.context?]
  generalize given : parser.shape = shape at less
  cases less with
  | block front back noMapping =>
    have alone (count : Nat) : parser.shape.candidatesOf 0 count value =
        [⟨0, count, [], value⟩] := by
      rw [BlockShape.candidatesOf, noMapping]
    rw [contextsFrom_append, contextsFrom_append, contextsFrom,
      parser.filterMap_bodies source scanner collect 0, alone,
      List.filterMap_cons_none (nothing _ _ _), noMapping]
    rfl
  | member front back before after name expected =>
    refine contextsFrom_replace (fun count => ?_) earlier front back
    rw [given]
    rcases expected with rfl | ⟨rfl, noMapping⟩
    · simp [BlockShape.candidatesOf, nothing]
    · simp [BlockShape.candidatesOf, nothing, noMapping]
  | inner front back before after type ahead behind name =>
    refine contextsFrom_replace (fun count => ?_) earlier front back
    rw [given]
    simp [BlockShape.candidatesOf, nothing]

end BlockParser

/-! ### Runs by their candidates -/

namespace BlockParser

variable (parser : BlockParser) (read : TextReader) (scanner : DirectiveScanner)
  (collect : Bool) (key : StoreKey) (blocks : List Json) (cache : SourceCache)

/-- **The contexts of a run** are those of its candidates, in order. -/
theorem run_contexts_candidates :
    (parser.run read scanner collect key blocks cache).contexts =
      (parser.shape.candidates blocks).filterMap
        (Candidate.context? parser (cache.source? read key.filePath) scanner collect) := by
  rw [run_contexts, filterMap_steps]

theorem run_contexts_from :
    (parser.run read scanner collect key blocks cache).contexts =
      parser.contextsFrom (cache.source? read key.filePath) scanner collect 0 blocks := by
  rw [run_contexts_candidates, contextsFrom_eq]
  rfl

/-- **The warnings of a run** are those of its candidates. -/
theorem run_warnings_perm :
    ((parser.run read scanner collect key blocks cache).events.filter
      Event.isBlockSkipped).Perm
      ((parser.shape.candidates blocks).filterMap (Candidate.warning? parser key)) := by
  have warned := (parser.steps_perm blocks).filterMap (BlockStep.warning? parser.category key)
  rw [List.filterMap_map] at warned
  rw [run, follow_warnings]
  exact warned

/-- **A missing source is reported once**, and only where there is a context without its
lines. -/
theorem run_sourceUnavailable :
    (parser.run read scanner collect key blocks cache).events.filter
      Event.isSourceUnavailable =
      missingReport key (parser.run read scanner collect key blocks cache).contexts
        (cache.load read key.filePath).1 :=
  parser.follow_sourceUnavailable read scanner collect key (parser.steps blocks) false cache

end BlockParser

/-- A candidate gives a context or a warning, and not both. -/
theorem Candidate.isSome_warning? (parser : BlockParser) (source : Option (List String))
    (scanner : DirectiveScanner) (collect : Bool) (key : StoreKey) (candidate : Candidate) :
    (candidate.warning? parser key).isSome =
      !(candidate.context? parser source scanner collect).isSome := by
  unfold warning? context?
  cases candidate.step parser <;> rfl

/-- **Every candidate is accounted for.**  Take any parser, any raw blocks and any cache.  A
run of the parser gives contexts and does not fail.

* Its candidates are places in the raw blocks; a candidate with a range gives one context,
  with that range, and no warning; any other gives no context and one warning, with the
  position of its raw block.  The contexts of the run are those of its candidates in order,
  and the warnings about raw blocks are those of its candidates.
* That the source cannot be read is reported once, if there is a context at all, and nothing
  else is reported.
* A candidate without a range may be put in or left out, and the contexts stay the same.
* Unless blocks are unnamed, the contexts of two lists of raw blocks in one run are those of
  two runs. -/
theorem run_accounts_for_candidates (parser : BlockParser) (read : TextReader)
    (scanner : DirectiveScanner) (collect : Bool) (key : StoreKey) (blocks : List Json)
    (cache : SourceCache) :
    let run := fun raw => parser.run read scanner collect key raw cache
    let source := cache.source? read key.filePath
    let candidates := parser.shape.candidates blocks
    let context? := Candidate.context? parser source scanner collect
    let warning? := Candidate.warning? parser key
    let warnings := (run blocks).events.filter Event.isBlockSkipped
    ((CategoryParser.blocks parser).run read scanner collect key blocks cache).result =
      .ok (run blocks).contexts ∧
    (∀ candidate ∈ candidates, ∃ block, blocks[candidate.index]? = some block ∧
      candidate ∈ parser.shape.candidatesOf candidate.index candidate.earlier block) ∧
    (∀ candidate ∈ candidates,
      (∀ startLine endLine, HasRange candidate.value startLine endLine →
        warning? candidate = none ∧ ∃ context, context? candidate = some context ∧
          context.entry.startLine = startLine ∧ context.entry.endLine = endLine) ∧
      ((∀ startLine endLine, ¬HasRange candidate.value startLine endLine) →
        context? candidate = none ∧ ∃ defect, warning? candidate =
          some (.blockSkipped key.render ⟨parser.category, candidate.index, defect⟩))) ∧
    (run blocks).contexts = candidates.filterMap context? ∧
    warnings.Perm (candidates.filterMap warning?) ∧
    (run blocks).contexts.length + warnings.length = candidates.length ∧
    (run blocks).events.filter Event.isSourceUnavailable =
      (match (run blocks).contexts, (cache.load read key.filePath).1 with
      | _ :: _, .error cause => [.sourceUnavailable key.render cause]
      | _, _ => []) ∧
    (∀ event ∈ (run blocks).events,
      event.isBlockSkipped = true ∨ event.isSourceUnavailable = true) ∧
    (∀ value fuller fewer, Without parser.shape value fuller fewer →
      (∀ startLine endLine, ¬HasRange value startLine endLine) →
      (run fuller).contexts = (run fewer).contexts) ∧
    (parser.shape ≠ .unnamed → ∀ more (later : SourceCache),
      later.source? read key.filePath = source →
      (run (blocks ++ more)).contexts =
        (run blocks).contexts ++
          (parser.run read scanner collect key more later).contexts) := by
  intro run source candidates context? warning? warnings
  have contexts : (run blocks).contexts = candidates.filterMap context? :=
    parser.run_contexts_candidates read scanner collect key blocks cache
  have warned : warnings.Perm (candidates.filterMap warning?) :=
    parser.run_warnings_perm read scanner collect key blocks cache
  refine ⟨rfl, ?_, ?_, contexts, warned, ?_,
    parser.run_sourceUnavailable read scanner collect key blocks cache, ?_, ?_, ?_⟩
  · intro candidate mem
    obtain ⟨block, found, inBlock, -⟩ := BlockShape.place_of_mem_candidates mem
    exact ⟨block, found, inBlock⟩
  · intro candidate _
    constructor
    · intro startLine endLine range
      obtain ⟨body, -, located⟩ := Candidate.step_of_hasRange parser range
      refine ⟨?_, .ofLines scanner collect (candidate.blockId parser body) startLine endLine
        ((source.map fun lines => slice lines startLine endLine).getD []), ?_, rfl, rfl⟩
      · show (candidate.step parser).warning? parser.category key = none
        rw [located, BlockStep.warning?]
      · show (candidate.step parser).context? source scanner collect = _
        rw [located, BlockStep.context?]
    · intro malformed
      obtain ⟨defect, skipped⟩ := Candidate.exists_step_eq_skip parser candidate malformed
      refine ⟨?_, defect, ?_⟩
      · show (candidate.step parser).context? source scanner collect = none
        rw [skipped, BlockStep.context?]
      · show (candidate.step parser).warning? parser.category key = _
        rw [skipped, BlockStep.warning?]
  · rw [contexts, warned.length_eq, List.length_filterMap_eq_countP,
      List.length_filterMap_eq_countP, List.length_eq_countP_add_countP fun candidate =>
        (context? candidate).isSome]
    congr 1
    refine List.countP_congr fun candidate _ => ?_
    rw [Candidate.isSome_warning? parser source scanner collect]
    simp [context?]
  · exact parser.kind_of_mem_follow read scanner collect key (parser.steps blocks) false cache
  · intro value fuller fewer less malformed
    rw [parser.run_contexts_from, parser.run_contexts_from,
      BlockParser.contextsFrom_without less malformed]
  · intro named more later same
    rw [parser.run_contexts_from, parser.run_contexts_from, parser.run_contexts_from, same,
      BlockParser.contextsFrom_append,
      parser.contextsFrom_of_ne_unnamed source scanner collect named _ 0 more]

/-- A body that ends before it starts. -/
def backwardsBody : Json := .obj [(startMarker, .ofNat 5), (endMarker, .ofNat 4)]

/-- Raw blocks of which one is no mapping, with one sound body among other things. -/
def brokenBlocks : List Json :=
  [.str "text", .obj [("a", .null), ("b", .obj [
    ("sound", .obj [(startMarker, .ofNat 1), (endMarker, .ofNat 3)]),
    ("back", backwardsBody)])]]

/-- What is broken in `brokenBlocks` is reported, and may as well be left out. -/
theorem brokenBlocks_accounted :
    let parser : BlockParser := ⟨"resource", .typed⟩
    let run := fun raw =>
      parser.run (fun _ => .error .notFound) .standard true (.file "main.tf") raw .empty
    let sound : List Json := [.str "text", .obj [("a", .null), ("b", .obj [
      ("sound", .obj [(startMarker, .ofNat 1), (endMarker, .ofNat 3)])])]]
    Without .typed backwardsBody brokenBlocks sound ∧
      (∀ startLine endLine, ¬HasRange backwardsBody startLine endLine) ∧
      (run brokenBlocks).contexts = (run sound).contexts ∧
      (run brokenBlocks).contexts.length +
        ((run brokenBlocks).events.filter Event.isBlockSkipped).length = 4 ∧
      (run brokenBlocks).events.filter Event.isSourceUnavailable =
        [.sourceUnavailable "main.tf" (.sourceRead "main.tf" .notFound)] := by
  intro parser run sound
  have without : Without .typed backwardsBody brokenBlocks sound :=
    .inner [.str "text"] [] [("a", .null)] [] "b"
      [("sound", .obj [(startMarker, .ofNat 1), (endMarker, .ofNat 3)])] [] "back"
  have malformed : ∀ startLine endLine, ¬HasRange backwardsBody startLine endLine := by
    rintro startLine endLine ⟨body, isBody, ⟨first, -⟩, ⟨last, -⟩, ordered⟩
    obtain rfl := Json.obj.inj isBody
    have low : (5 : Int) = startLine := by simpa [OrderedMap.look, Json.ofNat] using first
    have high : (4 : Int) = endLine := by
      simpa [OrderedMap.look, startMarker, endMarker, Json.ofNat] using last
    omega
  obtain ⟨-, -, -, -, -, counted, unavailable, -, left, -⟩ :=
    run_accounts_for_candidates parser
    (fun _ => .error .notFound) .standard true (.file "main.tf") brokenBlocks .empty
  exact ⟨without, malformed, left _ _ _ without malformed, counted, unavailable⟩

end InfraScan
