import InfraScan.Proofs.BlockContexts
import InfraScan.Proofs.JsonViews

/-!
# Candidates for contexts

Raw blocks come from outside and may be broken at any depth: a block may be no mapping, a type
may hold a text, a body may lack a marker.  What is expected to be a body is a *candidate*
here.  A parser looks at the candidates of its raw blocks and at nothing else, and takes one
step for each.

* `HasRange` — a value that a context can be given for
* `NamedBody.lineRange_eq_ok_iff` — a parser finds a range exactly in such a value
* `Candidate`, `BlockShape.candidates` — the places where a body is expected
* `BlockShape.place_of_mem_candidates` — a candidate knows its place
* `Candidate.step`, `Candidate.hasRange_of_step_eq_locate` — what is done at a candidate, and
  that only one with a range is located
* `BlockParser.bodies_eq_map_found`, `BlockParser.steps_perm` — a parser goes by its
  candidates
* `BlockParser.filterMap_steps` — contexts come in the order of the candidates
* `BlockParser.contextsFrom` — contexts block after block, without positions

### What is load-bearing

A parser reports what is no mapping before it looks at the bodies of the same raw block, so
steps do not come in the order of the candidates.  Contexts do, because what is no mapping
gives none.
-/

namespace InfraScan

/-! ### Values with a range -/

/-- The mapping holds a line number under the name of a marker. -/
def HasMarker (body : List (String × Json)) (name : String) (line : Nat) : Prop :=
  OrderedMap.look name body = some (.ofNat line) ∧ line < UInt64.size

/-- **A value that a context can be given for**: a mapping with two markers that are line
numbers in order. -/
def HasRange (value : Json) (startLine endLine : Nat) : Prop :=
  ∃ body, value = .obj body ∧ HasMarker body startMarker startLine ∧
    HasMarker body endMarker endLine ∧ startLine ≤ endLine

theorem HasRange.le {value : Json} {startLine endLine : Nat}
    (range : HasRange value startLine endLine) : startLine ≤ endLine := by
  obtain ⟨-, -, -, -, ordered⟩ := range
  exact ordered

namespace NamedBody

variable {named : NamedBody}

theorem marker_eq_ok_iff {name : String} {line : Nat} :
    named.marker name = .ok line ↔ HasMarker named.body name line := by
  have read : (OrderedMap.look name named.body).bind Json.nat? = some line ↔
      HasMarker named.body name line := by
    rw [Option.bind_eq_some_iff, HasMarker]
    simp only [Json.nat?_eq_some_iff]
    constructor
    · rintro ⟨value, found, rfl, fits⟩
      exact ⟨found, fits⟩
    · rintro ⟨found, fits⟩
      exact ⟨_, found, rfl, fits⟩
  rw [← read, marker]
  cases (OrderedMap.look name named.body).bind Json.nat? <;> simp

/-- **A body has a line range exactly when it has both markers in order.** -/
theorem lineRange_eq_ok_iff {startLine endLine : Nat} :
    named.lineRange = .ok (startLine, endLine) ↔
      HasRange (.obj named.body) startLine endLine := by
  have split : named.lineRange = .ok (startLine, endLine) ↔
      named.marker startMarker = .ok startLine ∧ named.marker endMarker = .ok endLine ∧
        startLine ≤ endLine := by
    unfold lineRange
    cases named.marker startMarker with
    | error defect => simp [bind, Except.bind]
    | ok first =>
      cases named.marker endMarker with
      | error defect => simp [bind, Except.bind]
      | ok last =>
        by_cases backwards : last < first
        · simp only [bind, Except.bind, backwards, if_true, Except.ok.injEq]
          constructor
          · intro impossible
            cases impossible
          · rintro ⟨rfl, rfl, ordered⟩
            omega
        · simp only [bind, Except.bind, backwards, if_false, Except.ok.injEq, Prod.mk.injEq]
          constructor
          · rintro ⟨rfl, rfl⟩
            exact ⟨rfl, rfl, Nat.le_of_not_lt backwards⟩
          · rintro ⟨first, last, -⟩
            exact ⟨first, last⟩
  rw [split, marker_eq_ok_iff, marker_eq_ok_iff, HasRange]
  constructor
  · rintro ⟨first, last, ordered⟩
    exact ⟨_, rfl, first, last, ordered⟩
  · rintro ⟨body, same, first, last, ordered⟩
    obtain rfl := Json.obj.inj same
    exact ⟨first, last, ordered⟩

theorem step_of_hasRange {index startLine endLine : Nat}
    (range : HasRange (.obj named.body) startLine endLine) :
    named.step index = .locate named.id startLine endLine := by
  rw [step, lineRange_eq_ok_iff.2 range]

theorem exists_step_eq_skip {index : Nat}
    (malformed : ∀ startLine endLine, ¬HasRange (.obj named.body) startLine endLine) :
    ∃ defect, named.step index = .skip index defect := by
  rw [step]
  cases given : named.lineRange with
  | error defect => exact ⟨defect, rfl⟩
  | ok range => exact absurd (lineRange_eq_ok_iff.1 given) (malformed range.1 range.2)

end NamedBody

/-! ### Candidates -/

/-- **A candidate**: a place in the raw blocks at which a body is expected. -/
structure Candidate where
  /-- The position of the raw block. -/
  index : Nat
  /-- The number of mappings among the raw blocks before it. -/
  earlier : Nat
  /-- The names that lead to the place inside the raw block. -/
  path : List String
  /-- What stands at the place. -/
  value : Json

namespace BlockShape

/-- **The candidates of one raw block.**  What is no mapping stands for all that might have
been inside. -/
def candidatesOf (shape : BlockShape) (index earlier : Nat) (block : Json) : List Candidate :=
  match block.fields? with
  | none => [⟨index, earlier, [], block⟩]
  | some fields =>
    match shape with
    | .unnamed => [⟨index, earlier, [], block⟩]
    | .named => fields.map fun field => ⟨index, earlier, [field.1], field.2⟩
    | .typed =>
      fields.flatMap fun field =>
        match field.2.fields? with
        | none => [⟨index, earlier, [field.1], field.2⟩]
        | some names => names.map fun entry => ⟨index, earlier, [field.1, entry.1], entry.2⟩

/-- The candidates of raw blocks of which the first stands at position `index` and has
`earlier` mappings before it. -/
def candidatesFrom (shape : BlockShape) (index earlier : Nat) : List Json → List Candidate
  | [] => []
  | block :: rest =>
    shape.candidatesOf index earlier block ++
      shape.candidatesFrom (index + 1)
        (if block.fields?.isSome then earlier + 1 else earlier) rest

/-- **The candidates of a list of raw blocks**, in order. -/
def candidates (shape : BlockShape) (blocks : List Json) : List Candidate :=
  shape.candidatesFrom 0 0 blocks

theorem index_of_mem_candidatesOf {shape : BlockShape} {index earlier : Nat} {block : Json}
    {candidate : Candidate} (mem : candidate ∈ shape.candidatesOf index earlier block) :
    candidate.index = index ∧ candidate.earlier = earlier := by
  unfold candidatesOf at mem
  cases fields : block.fields? with
  | none =>
    rw [fields] at mem
    obtain rfl := List.mem_singleton.1 mem
    exact ⟨rfl, rfl⟩
  | some members =>
    rw [fields] at mem
    cases shape with
    | unnamed =>
      obtain rfl := List.mem_singleton.1 mem
      exact ⟨rfl, rfl⟩
    | named =>
      obtain ⟨field, -, rfl⟩ := List.mem_map.1 mem
      exact ⟨rfl, rfl⟩
    | typed =>
      obtain ⟨field, -, inField⟩ := List.mem_flatMap.1 mem
      split at inField
      · obtain rfl := List.mem_singleton.1 inField
        exact ⟨rfl, rfl⟩
      · obtain ⟨entry, -, rfl⟩ := List.mem_map.1 inField
        exact ⟨rfl, rfl⟩

end BlockShape

/-- The raw block is a mapping. -/
def isMapping (block : Json) : Bool := block.fields?.isSome

/-- Seen from any place in a list of raw blocks, positions and counts are those of what is
still to come. -/
theorem BlockShape.place_of_mem_candidatesFrom {shape : BlockShape} {candidate : Candidate}
    {blocks : List Json} {index earlier : Nat}
    (mem : candidate ∈ shape.candidatesFrom index earlier blocks) :
    ∃ offset block, candidate.index = index + offset ∧ blocks[offset]? = some block ∧
      candidate ∈ shape.candidatesOf candidate.index candidate.earlier block ∧
      candidate.earlier = earlier + (blocks.take offset).countP isMapping := by
  induction blocks generalizing index earlier with
  | nil => cases mem
  | cons block rest ih =>
    rcases List.mem_append.1 mem with here | later
    · obtain ⟨sameIndex, sameEarlier⟩ := index_of_mem_candidatesOf here
      refine ⟨0, block, sameIndex, rfl, ?_, sameEarlier⟩
      rwa [sameIndex, sameEarlier]
    · obtain ⟨offset, other, place, found, inBlock, counted⟩ := ih later
      refine ⟨offset + 1, other, by omega, found, inBlock, ?_⟩
      rw [counted, List.take_succ_cons, List.countP_cons, isMapping]
      cases block.fields?.isSome with
      | false => simp
      | true =>
        simp only [if_true]
        omega

/-- **A candidate knows its place**: it comes from the raw block at its position, and the
mappings before that raw block are counted. -/
theorem BlockShape.place_of_mem_candidates {shape : BlockShape} {blocks : List Json}
    {candidate : Candidate} (mem : candidate ∈ shape.candidates blocks) :
    ∃ block, blocks[candidate.index]? = some block ∧
      candidate ∈ shape.candidatesOf candidate.index candidate.earlier block ∧
      candidate.earlier = (blocks.take candidate.index).countP isMapping := by
  obtain ⟨offset, block, place, found, inBlock, counted⟩ := place_of_mem_candidatesFrom mem
  rw [Nat.zero_add] at place counted
  subst place
  exact ⟨block, found, inBlock, counted⟩

namespace Candidate

/-- The id of the block at a place, when the mapping there is `body`. -/
def blockId (parser : BlockParser) (candidate : Candidate) (body : List (String × Json)) :
    String :=
  match candidate.path with
  | [] => parser.unnamedId candidate.earlier
  | [name] => parser.namedId name body
  | type :: name :: _ => BlockParser.typedId type name

/-- What is found at a place: a named body, or a defect that names the place. -/
def found (parser : BlockParser) (candidate : Candidate) : Except BlockDefect NamedBody :=
  match candidate.value.fields? with
  | some body => .ok ⟨candidate.blockId parser body, body⟩
  | none =>
    match candidate.path with
    | [] => .error .notMapping
    | [name] => .error (.entryNotMapping name)
    | type :: name :: _ => .error (.entryNotMapping (BlockParser.typedId type name))

/-- The step for a candidate. -/
def step (parser : BlockParser) (candidate : Candidate) : BlockStep :=
  match candidate.found parser with
  | .ok named => named.step candidate.index
  | .error defect => .skip candidate.index defect

/-- The step for a candidate that is no mapping. -/
def refusal? (parser : BlockParser) (candidate : Candidate) : Option BlockStep :=
  match candidate.found parser with
  | .ok _ => none
  | .error defect => some (.skip candidate.index defect)

/-- The step for a candidate that is a mapping. -/
def inspection? (parser : BlockParser) (candidate : Candidate) : Option BlockStep :=
  match candidate.found parser with
  | .ok named => some (named.step candidate.index)
  | .error _ => none

/-- The context that a candidate gives. -/
def context? (parser : BlockParser) (source : Option (List String))
    (scanner : DirectiveScanner) (collect : Bool) (candidate : Candidate) :
    Option BlockContext :=
  (candidate.step parser).context? source scanner collect

variable {candidate : Candidate}

/-- A candidate has its step in one of two ways. -/
theorem refused_or_inspected (parser : BlockParser) (candidate : Candidate) :
    candidate.refusal? parser = some (candidate.step parser) ∧
      candidate.inspection? parser = none ∨
      candidate.refusal? parser = none ∧
        candidate.inspection? parser = some (candidate.step parser) := by
  unfold refusal? inspection? step
  cases candidate.found parser with
  | error defect => exact .inl ⟨rfl, rfl⟩
  | ok named => exact .inr ⟨rfl, rfl⟩

/-- **A candidate with a range is located** there. -/
theorem step_of_hasRange (parser : BlockParser) {startLine endLine : Nat}
    (range : HasRange candidate.value startLine endLine) :
    ∃ body, candidate.value = .obj body ∧
      candidate.step parser = .locate (candidate.blockId parser body) startLine endLine := by
  have ⟨body, isBody, _⟩ := range
  refine ⟨body, isBody, ?_⟩
  rw [isBody] at range
  simp only [step, found, isBody, Json.fields?_obj]
  exact NamedBody.step_of_hasRange range

/-- **A candidate without a range is skipped.** -/
theorem exists_step_eq_skip (parser : BlockParser) (candidate : Candidate)
    (malformed : ∀ startLine endLine, ¬HasRange candidate.value startLine endLine) :
    ∃ defect, candidate.step parser = .skip candidate.index defect := by
  rw [step]
  cases here : candidate.found parser with
  | error defect => exact ⟨defect, rfl⟩
  | ok named =>
    have isBody : candidate.value = .obj named.body := by
      unfold found at here
      cases value : candidate.value.fields? with
      | some body =>
        rw [value] at here
        cases here
        exact Json.fields?_eq_some_iff.1 value
      | none =>
        simp only [value] at here
        split at here <;> cases here
    rw [isBody] at malformed
    exact NamedBody.exists_step_eq_skip malformed

/-- Only a candidate with a range is located, and only there. -/
theorem hasRange_of_step_eq_locate {parser : BlockParser} {id : String}
    {startLine endLine : Nat}
    (located : candidate.step parser = .locate id startLine endLine) :
    HasRange candidate.value startLine endLine := by
  by_cases wellFormed : ∃ first last, HasRange candidate.value first last
  · obtain ⟨first, last, range⟩ := wellFormed
    obtain ⟨body, -, same⟩ := step_of_hasRange parser range
    rw [located] at same
    obtain ⟨-, rfl, rfl⟩ := BlockStep.locate.inj same
    exact range
  · simp only [not_exists] at wellFormed
    obtain ⟨defect, skipped⟩ := exists_step_eq_skip parser candidate wellFormed
    rw [located] at skipped
    cases skipped

end Candidate

/-! ### A parser looks at its candidates -/

namespace BlockParser

/-- **What a parser finds in a raw block** is what it finds at the candidates. -/
theorem bodies_eq_map_found (parser : BlockParser) (index earlier : Nat) (block : Json) :
    parser.bodies earlier block =
      (parser.shape.candidatesOf index earlier block).map (Candidate.found parser) := by
  unfold bodies BlockShape.candidatesOf
  cases isBody : block.fields? with
  | none => simp [Candidate.found, isBody]
  | some fields =>
    cases parser.shape with
    | unnamed => simp [Candidate.found, Candidate.blockId, isBody]
    | named =>
      simp only [List.map_map]
      refine List.map_congr_left fun field _ => ?_
      cases value : field.2.fields? <;> simp [Candidate.found, Candidate.blockId, value]
    | typed =>
      simp only [List.map_flatMap]
      refine List.flatMap_congr fun field _ => ?_
      cases names : field.2.fields? with
      | none => simp [Candidate.found, names]
      | some entries =>
        simp only [List.map_map]
        refine List.map_congr_left fun entry _ => ?_
        cases value : entry.2.fields? <;> simp [Candidate.found, Candidate.blockId, value]

/-- The steps for a raw block: first the candidates that are no mappings, then the others. -/
theorem stepsOfBlock_eq (parser : BlockParser) (index earlier : Nat) (block : Json) :
    parser.stepsOfBlock index earlier block =
      (parser.shape.candidatesOf index earlier block).filterMap (Candidate.refusal? parser) ++
        (parser.shape.candidatesOf index earlier block).filterMap
          (Candidate.inspection? parser) := by
  have place (candidate : Candidate)
      (mem : candidate ∈ parser.shape.candidatesOf index earlier block) :
      candidate.index = index := (BlockShape.index_of_mem_candidatesOf mem).1
  simp only [stepsOfBlock, parser.bodies_eq_map_found index, List.filterMap_map]
  congr 1
  · refine List.filterMap_congr fun candidate mem => ?_
    rw [Candidate.refusal?, Function.comp_apply, place candidate mem]
    cases candidate.found parser <;> rfl
  · refine List.filterMap_congr fun candidate mem => ?_
    rw [Candidate.inspection?, Function.comp_apply, place candidate mem]
    cases candidate.found parser <;> rfl

/-- **Each candidate of a raw block has its step.** -/
theorem stepsOfBlock_perm (parser : BlockParser) (index earlier : Nat) (block : Json) :
    (parser.stepsOfBlock index earlier block).Perm
      ((parser.shape.candidatesOf index earlier block).map (Candidate.step parser)) := by
  rw [stepsOfBlock_eq]
  generalize parser.shape.candidatesOf index earlier block = candidates
  induction candidates with
  | nil => exact .nil
  | cons candidate rest ih =>
    rcases candidate.refused_or_inspected parser with ⟨refused, passed⟩ | ⟨passed, inspected⟩
    · rw [List.filterMap_cons_some refused, List.filterMap_cons_none passed]
      exact ih.cons _
    · rw [List.filterMap_cons_none passed, List.filterMap_cons_some inspected]
      exact List.perm_middle.trans (ih.cons _)

variable (source : Option (List String)) (scanner : DirectiveScanner) (collect : Bool)

/-- **The contexts of a raw block come in the order of its candidates**, since what is no
mapping gives none. -/
theorem filterMap_stepsOfBlock (parser : BlockParser) (index earlier : Nat) (block : Json) :
    (parser.stepsOfBlock index earlier block).filterMap
        (BlockStep.context? source scanner collect) =
      (parser.shape.candidatesOf index earlier block).filterMap
        (Candidate.context? parser source scanner collect) := by
  have refused : ∀ candidate : Candidate,
      (candidate.refusal? parser).bind
        (BlockStep.context? source scanner collect) = none := by
    intro candidate
    unfold Candidate.refusal?
    cases candidate.found parser <;> rfl
  have inspected : ∀ candidate : Candidate,
      (candidate.inspection? parser).bind (BlockStep.context? source scanner collect) =
        candidate.context? parser source scanner collect := by
    intro candidate
    unfold Candidate.inspection? Candidate.context? Candidate.step
    cases candidate.found parser <;> rfl
  rw [stepsOfBlock_eq, List.filterMap_append, List.filterMap_filterMap,
    List.filterMap_filterMap,
    List.filterMap_eq_nil_iff.2 fun candidate _ => refused candidate, List.nil_append,
    funext inspected]

theorem steps_perm (parser : BlockParser) (blocks : List Json) :
    (parser.steps blocks).Perm
      ((parser.shape.candidates blocks).map (Candidate.step parser)) := by
  have anywhere (index earlier : Nat) :
      (parser.stepsFrom index earlier blocks).Perm
        ((parser.shape.candidatesFrom index earlier blocks).map (Candidate.step parser)) := by
    induction blocks generalizing index earlier with
    | nil => exact .nil
    | cons block rest ih =>
      rw [stepsFrom, BlockShape.candidatesFrom, List.map_append]
      exact (parser.stepsOfBlock_perm index earlier block).append (ih _ _)
  exact anywhere 0 0

theorem filterMap_steps (parser : BlockParser) (blocks : List Json) :
    (parser.steps blocks).filterMap (BlockStep.context? source scanner collect) =
      (parser.shape.candidates blocks).filterMap
        (Candidate.context? parser source scanner collect) := by
  have anywhere (index earlier : Nat) :
      (parser.stepsFrom index earlier blocks).filterMap
          (BlockStep.context? source scanner collect) =
        (parser.shape.candidatesFrom index earlier blocks).filterMap
          (Candidate.context? parser source scanner collect) := by
    induction blocks generalizing index earlier with
    | nil => rfl
    | cons block rest ih =>
      rw [stepsFrom, BlockShape.candidatesFrom, List.filterMap_append, List.filterMap_append,
        filterMap_stepsOfBlock, ih]
  exact anywhere 0 0

/-! ### Contexts block after block -/

/-- The context for what is found at a place. -/
def contextFor? (source : Option (List String)) (scanner : DirectiveScanner)
    (collect : Bool) : Except BlockDefect NamedBody → Option BlockContext
  | .error _ => none
  | .ok named => (named.step 0).context? source scanner collect

/-- **The contexts of raw blocks** before which there are `earlier` mappings.  Their positions
play no part. -/
def contextsFrom (parser : BlockParser) (source : Option (List String))
    (scanner : DirectiveScanner) (collect : Bool) (earlier : Nat) :
    List Json → List BlockContext
  | [] => []
  | block :: rest =>
    (parser.bodies earlier block).filterMap (contextFor? source scanner collect) ++
      parser.contextsFrom source scanner collect
        (if block.fields?.isSome then earlier + 1 else earlier) rest

variable (parser : BlockParser)

theorem contextFor?_found (candidate : Candidate) :
    contextFor? source scanner collect (candidate.found parser) =
      candidate.context? parser source scanner collect := by
  rw [Candidate.context?, Candidate.step]
  cases candidate.found parser with
  | error defect => rfl
  | ok named =>
    -- A position is kept in a warning only.
    show (named.step 0).context? source scanner collect =
      (named.step candidate.index).context? source scanner collect
    unfold NamedBody.step
    cases named.lineRange <;> rfl

/-- The contexts of a raw block are those of its candidates, at whatever position it
stands. -/
theorem filterMap_bodies (index earlier : Nat) (block : Json) :
    (parser.bodies earlier block).filterMap (contextFor? source scanner collect) =
      (parser.shape.candidatesOf index earlier block).filterMap
        (Candidate.context? parser source scanner collect) := by
  rw [parser.bodies_eq_map_found index, List.filterMap_map, Function.comp_def]
  simp only [contextFor?_found]

theorem contextsFrom_eq (index earlier : Nat) (blocks : List Json) :
    parser.contextsFrom source scanner collect earlier blocks =
      (parser.shape.candidatesFrom index earlier blocks).filterMap
        (Candidate.context? parser source scanner collect) := by
  induction blocks generalizing index earlier with
  | nil => rfl
  | cons block rest ih =>
    rw [contextsFrom, BlockShape.candidatesFrom, List.filterMap_append, ← ih,
      filterMap_bodies]

theorem contextsFrom_append (earlier : Nat) (front back : List Json) :
    parser.contextsFrom source scanner collect earlier (front ++ back) =
      parser.contextsFrom source scanner collect earlier front ++
        parser.contextsFrom source scanner collect
          (earlier + front.countP isMapping) back := by
  induction front generalizing earlier with
  | nil => rfl
  | cons block rest ih =>
    rw [List.cons_append, contextsFrom, contextsFrom, ih, List.append_assoc, List.countP_cons,
      isMapping]
    cases block.fields?.isSome with
    | false => rfl
    | true => simp only [if_true, Nat.add_assoc, Nat.add_comm 1]

/-- Only unnamed blocks are numbered. -/
theorem contextsFrom_of_ne_unnamed (shape : parser.shape ≠ .unnamed) (earlier other : Nat)
    (blocks : List Json) :
    parser.contextsFrom source scanner collect earlier blocks =
      parser.contextsFrom source scanner collect other blocks := by
  induction blocks generalizing earlier other with
  | nil => rfl
  | cons block rest ih =>
    have same : parser.bodies earlier block = parser.bodies other block := by
      unfold bodies
      cases named : parser.shape with
      | unnamed => exact absurd named shape
      | named => rfl
      | typed => rfl
    rw [contextsFrom, contextsFrom, same, ih]

end BlockParser

end InfraScan
