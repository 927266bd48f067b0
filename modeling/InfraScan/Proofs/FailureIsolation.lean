import InfraScan.Proofs.Enrichment

/-!
# Failures stay where they are

A call of enrichment may write some categories of a file instance and drop others, in any
order, over whatever an earlier call left there.  A key may even go with its last category and
come back with a later one of the same call, and whether the call as a whole has failed is
only known at its end.  None of this shows in the store: each category comes out as if it had
been alone.

* `Registry.outcome?` — what one category of a call comes to by itself
* `Registry.mem_updates_iff_outcome` — the updates of a call are the outcomes of its
  categories
* `Registry.result_eq_error_iff` — when the call as a whole fails, and with which failures
* `enrich_isolates_failures` — what a call does to the store and what it returns
-/

namespace InfraScan

namespace Registry

/-- **What a category comes to by itself**: the result of its parser on its own raw blocks,
with the cache as it was before the call; none when the category is not in the call or has no
parser. -/
def outcome? (registry : Registry) (read : TextReader) (collect : Bool) (key : StoreKey)
    (blocks : BlocksByCategory) (cache : SourceCache) (category : String) :
    Option (Except Fault (List BlockContext)) :=
  (blocks.get? category).bind fun raw =>
    (registry.parsers.get? category).map fun parser =>
      (parser.run read registry.scanner collect key raw cache).result

variable (registry : Registry) (read : TextReader) (collect : Bool) (key : DefinitionKey)
  (blocks : BlocksByCategory) (store : ContextStore) (cache : SourceCache)

/-- **The updates of a call are the outcomes of its categories.**  The cache that a category
meets in the course of the call may be fuller than the one before it, and shows the same. -/
theorem mem_updates_iff_outcome {change : SlotUpdate} :
    change ∈ registry.updates collect (cache.view read) (registry.mode.storeKey key)
        blocks.toList ↔
      ∃ outcome, registry.outcome? read collect
        (registry.mode.storeKey key) blocks cache change.1 =
          some outcome ∧ change.2 = outcome.map collapse := by
  have alone (parser : CategoryParser) (raw : List Json) :=
    parser.map_collapse_run read registry.scanner collect
      (registry.mode.storeKey key) raw cache
  rw [mem_updates_iff]
  constructor
  · rintro ⟨raw, parser, present, registered, given⟩
    refine ⟨_, ?_, given.trans (alone parser raw).symm⟩
    rw [outcome?, present, Option.bind_some, registered, Option.map_some]
  · rintro ⟨outcome, found, given⟩
    obtain ⟨raw, present, ran⟩ := Option.bind_eq_some_iff.1 found
    obtain ⟨parser, registered, rfl⟩ := Option.map_eq_some_iff.1 ran
    exact ⟨raw, parser, present, registered, given.trans (alone parser raw)⟩

/-- A category that is in the call and has a parser has an outcome. -/
theorem outcome?_of_mem {category : String}
    (attempted : category ∈ blocks.keys.filter registry.isRegistered) (storeKey : StoreKey) :
    ∃ outcome, registry.outcome? read collect storeKey blocks cache category =
      some outcome := by
  obtain ⟨present, registered⟩ := List.mem_filter.1 attempted
  obtain ⟨raw, found⟩ := Option.isSome_iff_exists.1 (OrderedMap.mem_keys_iff.1 present)
  obtain ⟨parser, parses⟩ := Option.isSome_iff_exists.1 registered
  rw [outcome?, found, Option.bind_some, parses, Option.map_some]
  exact ⟨_, rfl⟩

/-- **A category that was attempted holds what it came to by itself**, and nothing if that was
a fault. -/
theorem category?_enrich_of_outcome {category : String}
    {outcome : Except Fault (List BlockContext)}
    (found : registry.outcome? read collect
      (registry.mode.storeKey key) blocks cache category = some outcome) :
    (registry.enrich read collect key blocks store cache).store.category?
        (registry.mode.storeKey key) category = (outcome.map collapse).toOption := by
  obtain ⟨raw, present, ran⟩ := Option.bind_eq_some_iff.1 found
  obtain ⟨parser, registered, rfl⟩ := Option.map_eq_some_iff.1 ran
  rw [registry.category?_enrich read collect key blocks store cache present registered,
    parser.map_collapse_run]

/-- **The rest of the store is not touched**: neither another key, nor a category that is not
in the call, nor one without a parser. -/
theorem category?_enrich_of_not {other : StoreKey} {category : String}
    (elsewhere : other ≠ registry.mode.storeKey key ∨ category ∉ blocks.keys ∨
      registry.isRegistered category = false) :
    (registry.enrich read collect key blocks store cache).store.category? other category =
      store.category? other category := by
  rw [enrich_store]
  refine store.category?_updateAll_of_not _ _ _ _ fun touched => ?_
  rw [map_fst_updates, List.mem_filter] at touched
  rcases elsewhere with otherKey | absent | unregistered
  · exact otherKey touched.1.symm
  · exact absent touched.2.1
  · rw [unregistered] at touched
    exact Bool.false_ne_true touched.2.2

/-! ### The result of a call -/

/-- All updates fail when every category that was attempted came to a fault. -/
theorem forall_fails_iff :
    (∀ change ∈ registry.updates collect (cache.view read) (registry.mode.storeKey key)
        blocks.toList, SlotUpdate.fails change) ↔
      ∀ category ∈ blocks.keys.filter registry.isRegistered, ∃ cause,
        registry.outcome? read collect (registry.mode.storeKey key) blocks cache category =
          some (.error cause) := by
  constructor
  · intro failed category attempted
    obtain ⟨outcome, found⟩ :=
      registry.outcome?_of_mem read collect blocks cache attempted
        (registry.mode.storeKey key)
    have updated := (registry.mem_updates_iff_outcome read collect key blocks cache).2
      ⟨outcome, found, (rfl : (category, outcome.map collapse).2 = _)⟩
    obtain ⟨cause, fault⟩ := failed _ updated
    cases outcome with
    | ok contexts => cases fault
    | error cause => exact ⟨cause, found⟩
  · intro failed change mem
    obtain ⟨outcome, found, given⟩ :=
      (registry.mem_updates_iff_outcome read collect key blocks cache).1 mem
    -- An update names a category of the call that has a parser, so its outcome is the fault.
    have attempted : change.1 ∈ blocks.keys.filter registry.isRegistered := by
      have named := List.mem_map_of_mem (f := Prod.fst) mem
      rwa [map_fst_updates] at named
    obtain ⟨cause, fault⟩ := failed change.1 attempted
    rw [found] at fault
    obtain rfl := Option.some.inj fault
    exact ⟨cause, given⟩

/-- **A call fails when something was attempted and all of it failed**, whatever the store
held. -/
theorem result_eq_error_iff :
    (∃ fault, (registry.enrich read collect key blocks store cache).result = .error fault) ↔
      blocks.keys.filter registry.isRegistered ≠ [] ∧
      ∀ category ∈ blocks.keys.filter registry.isRegistered, ∃ cause,
        registry.outcome? read collect (registry.mode.storeKey key) blocks cache category =
          some (.error cause) := by
  have named := registry.map_fst_updates collect (cache.view read)
    (registry.mode.storeKey key) blocks.toList
  have attempted : blocks.keys.filter registry.isRegistered ≠ [] ↔
      registry.updates collect (cache.view read)
        (registry.mode.storeKey key) blocks.toList ≠ [] := by
    rw [OrderedMap.keys, ← named, ne_eq, List.map_eq_nil_iff]
  rw [← forall_fails_iff, attempted, enrich_result]
  constructor
  · rintro ⟨fault, given⟩
    exact (resultOf_eq_error_iff.1 given).1
  · intro failed
    exact ⟨_, resultOf_eq_error_iff.2 ⟨failed, rfl⟩⟩

/-- **What a call that fails reports**: the categories that were attempted, in order, each
with the wording of its own fault. -/
theorem failures_of_result {fault : Fault}
    (given : (registry.enrich read collect key blocks store cache).result = .error fault) :
    ∃ failures, fault = .enrichmentFailed (registry.mode.storeKey key).render failures ∧
      failures.map Prod.fst = blocks.keys.filter registry.isRegistered ∧
      ∀ failure ∈ failures, ∃ cause,
        registry.outcome? read collect (registry.mode.storeKey key) blocks cache failure.1 =
          some (.error cause) ∧ failure.2 = cause.message := by
  rw [enrich_result] at given
  obtain ⟨⟨-, failed⟩, rfl⟩ := resultOf_eq_error_iff.1 given
  refine ⟨_, rfl, ?_, fun failure mem => ?_⟩
  · rw [map_fst_failuresOf failed, map_fst_updates]
    rfl
  · obtain ⟨cause, updated, worded⟩ := mem_failuresOf.1 mem
    obtain ⟨outcome, found, same⟩ :=
      (registry.mem_updates_iff_outcome read collect key blocks cache).1 updated
    cases outcome with
    | ok contexts => cases same
    | error cause' =>
      obtain rfl := Except.error.inj same
      exact ⟨_, found, worded⟩

end Registry

/-! ### A call as a whole -/

/-- **Failures stay where they are.**  Take a registry made by any registrations, any store
that a run leads to, and any call.  The parser of a category is the one registered last.
Afterwards

* every slot of another key, of a category that is not in the call or of one without a parser
  is what it was, and the other keys stand in the same order;
* a category that was attempted holds the contexts that its own parser gives for its own raw
  blocks, or nothing if that parser failed, whatever else happened and whatever was there;
* the key is held as long as one of its slots is;
* the call failed if and only if something was attempted and all of it failed, and then it
  reports exactly the categories that were attempted, in order.

All of this but the last point is said of every call, also of one that failed. -/
theorem enrich_isolates_failures (mode : KeyMode) (scanner : DirectiveScanner)
    (registrations : List (String × CategoryParser)) (read : TextReader) (collect : Bool)
    (key : DefinitionKey) (blocks : BlocksByCategory) {store : ContextStore}
    (reachable : store.Reachable) (cache : SourceCache) :
    let registry := Registry.ofRegistrations mode scanner registrations
    let storeKey := mode.storeKey key
    let attempted := blocks.keys.filter registry.isRegistered
    let outcome? := registry.outcome? read collect storeKey blocks cache
    let after := registry.enrich read collect key blocks store cache
    (∀ category, registry.parsers.get? category =
      OrderedMap.look category registrations.reverse) ∧
    (∀ other category, other ≠ storeKey ∨ category ∉ blocks.keys ∨
        registry.isRegistered category = false →
      after.store.category? other category = store.category? other category) ∧
    (after.store.keys.filter fun k => k ≠ storeKey) =
      (store.keys.filter fun k => k ≠ storeKey) ∧
    (∀ category ∈ attempted, ∃ result, outcome? category = some result ∧
      after.store.category? storeKey category =
        match result with
        | .ok contexts => some (Registry.collapse contexts)
        | .error _ => none) ∧
    (storeKey ∈ after.store.keys ↔
      ∃ category, (after.store.category? storeKey category).isSome = true) ∧
    ((∃ fault, after.result = .error fault) ↔
      attempted ≠ [] ∧
        ∀ category ∈ attempted, ∃ cause, outcome? category = some (.error cause)) ∧
    (∀ fault, after.result = .error fault →
      ∃ failures, fault = .enrichmentFailed storeKey.render failures ∧
        failures.map Prod.fst = attempted ∧
        ∀ failure ∈ failures, ∃ cause,
          outcome? failure.1 = some (.error cause) ∧ failure.2 = cause.message) := by
  intro registry storeKey attempted outcome? after
  have sameKey : registry.mode.storeKey key = storeKey := by
    rw [Registry.mode_ofRegistrations]
  have sound : after.store.NoHollowKey :=
    (ContextStore.Reachable.enrich registry read collect key blocks cache
      reachable).noHollowKey
  refine ⟨?_, ?_, ?_, ?_, sound.mem_keys_iff storeKey, ?_, ?_⟩
  · exact Registry.get?_ofRegistrations mode scanner registrations
  · intro other category elsewhere
    rw [← sameKey] at elsewhere
    exact registry.category?_enrich_of_not read collect key blocks store cache elsewhere
  · rw [← sameKey, Registry.enrich_store]
    exact ContextStore.keys_updateAll_others store _ _
  · intro category mem
    obtain ⟨result, found⟩ :=
      registry.outcome?_of_mem read collect blocks cache mem storeKey
    refine ⟨result, found, ?_⟩
    rw [← sameKey] at found
    have held := registry.category?_enrich_of_outcome read collect key blocks
      store cache found
    rw [sameKey] at held
    rw [held]
    cases result <;> rfl
  · have whole := registry.result_eq_error_iff read collect key blocks store cache
    rwa [sameKey] at whole
  · intro fault given
    have reported := registry.failures_of_result read collect key blocks store cache given
    rwa [sameKey] at reported

/-- Parsers for resources and data, the latter replaced by one that always fails. -/
def brittleParsers : List (String × CategoryParser) :=
  [("resource", .blocks ⟨"resource", .typed⟩), ("data", .blocks ⟨"data", .typed⟩),
    ("data", .failing (.settings (.stated "broken")))]

/-- A file instance with empty lists of resources and data. -/
def bareBlocks : BlocksByCategory := OrderedMap.ofList [("data", []), ("resource", [])]

/-- What a call with the usual parsers makes of `bareBlocks`. -/
def bareStore : ContextStore :=
  ((Registry.standard .filePath .standard).enrich (fun _ => .error .notFound) true
    ⟨"main.tf", []⟩ bareBlocks .empty .empty).store

/-- A later call in which the parser of data fails drops the data of an earlier one and leaves
the resources in place. -/
theorem brittle_call_drops_data :
    bareStore.Reachable ∧ bareStore.category? (.file "main.tf") "data" = some ∅ ∧
      let after := (Registry.ofRegistrations .filePath .standard brittleParsers).enrich
        (fun _ => .error .notFound) true ⟨"main.tf", []⟩ bareBlocks bareStore .empty
      after.store.category? (.file "main.tf") "data" = none ∧
        after.store.category? (.file "main.tf") "resource" = some ∅ ∧
        (StoreKey.file "main.tf" ∈ after.store.keys) := by
  have reachable : bareStore.Reachable := .enrich _ _ _ _ _ _ .empty
  obtain ⟨-, -, -, slots, present, -, -⟩ := enrich_isolates_failures .filePath .standard
    brittleParsers (fun _ => .error .notFound) true
      ⟨"main.tf", []⟩ bareBlocks reachable .empty
  obtain ⟨dataResult, dataRan, dataSlot⟩ := slots "data" (by decide +kernel)
  obtain ⟨resourceResult, resourceRan, resourceSlot⟩ := slots "resource" (by decide +kernel)
  obtain rfl : .error (.settings (.stated "broken")) = dataResult := Option.some.inj dataRan
  obtain rfl : .ok [] = resourceResult := Option.some.inj resourceRan
  refine ⟨reachable, by decide +kernel, dataSlot, resourceSlot, ?_⟩
  exact present.2 ⟨"resource", Option.isSome_of_eq_some resourceSlot⟩

end InfraScan
