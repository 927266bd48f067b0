import InfraScan.Proofs.CallReports
import InfraScan.Proofs.Idempotence
import InfraScan.Proofs.KeyIsolation

/-!
# The order of the categories

The categories of a call come in some order, and a caller may as well make one call for each.
On the way the stores differ: a key goes with its last category and comes back behind other
keys, and which category reads the source first depends on the order.  In the end there is
nothing of it to be seen by look-ups, and calls category by category even keep every position.

* `ContextStore.category?_updateAll_perm` — updates of different categories in another order
* `ContextStore.updateAll_flatMap` — updates in several batches
* `resultOf_perm` — a call fails alike, and for the same reasons
* `Registry.enrichCalls_singletons` — one call for each category
* `categoryOrder_irrelevant` — order and batching in one statement

### What is load-bearing

No category comes twice in a call (`OrderedMap.nodup_keys`), so the last update of a slot is
its only one.  A permutation of updates that touch one slot twice would decide which of them
stays.
-/

namespace InfraScan

namespace ContextStore

/-- **Updates of different categories may come in any order**, for all that slots show. -/
theorem category?_updateAll_perm (store : ContextStore) (key other : StoreKey)
    {changes changes' : List SlotUpdate} (distinct : (changes.map Prod.fst).Nodup)
    (perm : changes.Perm changes') (category : String) :
    (store.updateAll key changes).category? other category =
      (store.updateAll key changes').category? other category := by
  have names := perm.map Prod.fst
  by_cases touched : key = other ∧ category ∈ changes.map Prod.fst
  · obtain ⟨rfl, updated⟩ := touched
    obtain ⟨change, mem, rfl⟩ := List.mem_map.1 updated
    rw [category?_updateAll store key distinct mem,
      category?_updateAll store key (names.nodup_iff.1 distinct) (perm.mem_iff.1 mem)]
  · rw [category?_updateAll_of_not store key other changes category touched,
      category?_updateAll_of_not store key other changes' category]
    rwa [← names.mem_iff]

/-- Updates may come in batches. -/
theorem updateAll_flatMap {α : Type u} (store : ContextStore) (key : StoreKey)
    (parts : List α) (changesOf : α → List SlotUpdate) :
    store.updateAll key (parts.flatMap changesOf) =
      parts.foldl (fun acc part => acc.updateAll key (changesOf part)) store :=
  List.foldl_flatMap

end ContextStore

/-- **A call fails alike when its updates come in another order**, and reports the same
failures. -/
theorem resultOf_perm (key : StoreKey) {changes changes' : List SlotUpdate}
    (perm : changes.Perm changes') :
    resultOf key changes = .ok () ∧ resultOf key changes' = .ok () ∨
      (∀ change ∈ changes, SlotUpdate.fails change) ∧
        resultOf key changes = .error (.enrichmentFailed key.render (failuresOf changes)) ∧
        resultOf key changes' = .error
          (.enrichmentFailed key.render (failuresOf changes')) := by
  have failures : (failuresOf changes).length = (failuresOf changes').length :=
    (perm.filterMap _).length_eq
  have nothing : changes = [] ↔ changes' = [] := ⟨fun none => by simpa [none] using perm,
    fun none => by simpa [none] using perm⟩
  have alike : (changes ≠ [] ∧ (failuresOf changes).length = changes.length) ↔
      (changes' ≠ [] ∧ (failuresOf changes').length = changes'.length) := by
    rw [failures, perm.length_eq, ne_eq, nothing]
  unfold resultOf
  by_cases failed : changes ≠ [] ∧ (failuresOf changes).length = changes.length
  · refine .inr ⟨(length_failuresOf_eq_iff changes).1 failed.2, ?_, ?_⟩
    · rw [if_pos failed]
    · rw [if_pos (alike.1 failed)]
  · refine .inl ⟨?_, ?_⟩
    · rw [if_neg failed]
    · rw [if_neg fun failed' => failed (alike.2 failed')]

namespace Registry

variable (registry : Registry) (read : TextReader) (collect : Bool)

/-- The updates of a call are those of its categories one by one. -/
theorem updates_eq_flatMap (view : SourceView) (storeKey : StoreKey)
    (blocks : List (String × List Json)) :
    registry.updates collect view storeKey blocks =
      blocks.flatMap fun category => registry.updates collect view storeKey [category] := by
  induction blocks with
  | nil => rfl
  | cons category rest ih =>
    have alone : registry.updates collect view storeKey [category] =
        (registry.update? collect view storeKey category).toList :=
      (registry.updates_cons collect view storeKey category []).trans (List.append_nil _)
    rw [List.flatMap_cons, ← ih, alone, updates_cons]

/-- **One call for each category leaves the store of one call for all**, with every
position. -/
theorem enrichCalls_singletons (key : DefinitionKey) (blocks : BlocksByCategory)
    (store : ContextStore) (cache : SourceCache) :
    (registry.enrichCalls read store cache (blocks.toList.map fun category =>
        ⟨key, .ofList [category], collect⟩)).store =
      (registry.enrich read collect key blocks store cache).store := by
  rw [enrichCalls_store, List.foldl_map, enrich_store, updates_eq_flatMap,
    ContextStore.updateAll_flatMap]
  rfl

end Registry

/-- **Category order and batching do not matter.**  Take any registry, any store that a run
leads to, and two calls with the same raw blocks in which the categories come in different
orders.

* The two calls hold the same keys, and the same slots with the same blocks in the same order,
  so that they agree on every look-up.
* Both succeed, or both fail; then they report the same failures, each in the order of its own
  categories.
* They report the same outcomes of categories, also when they succeed.
* One call for each category, in the order of the first call, leaves the very store that the
  first call leaves. -/
theorem categoryOrder_irrelevant (registry : Registry) (read : TextReader) (collect : Bool)
    (key : DefinitionKey) {store : ContextStore} (reachable : store.Reachable)
    (cache : SourceCache) {blocks blocks' : BlocksByCategory}
    (perm : blocks.toList.Perm blocks'.toList) :
    let storeKey := registry.mode.storeKey key
    let attempted := fun categories : BlocksByCategory =>
      categories.keys.filter registry.isRegistered
    let call := registry.enrich read collect key blocks store cache
    let call' := registry.enrich read collect key blocks' store cache
    (∀ k, k ∈ call.store.keys ↔ k ∈ call'.store.keys) ∧
    (∀ k category, call.store.category? k category = call'.store.category? k category) ∧
    (∀ k category id, ContextStore.entry? call.store k category id =
      ContextStore.entry? call'.store k category id) ∧
    (call.result = .ok () ∧ call'.result = .ok () ∨
      ∃ failures failures', call.result =
        .error (.enrichmentFailed storeKey.render failures) ∧
        call'.result = .error (.enrichmentFailed storeKey.render failures') ∧
        failures.Perm failures' ∧ failures.map Prod.fst = attempted blocks ∧
        failures'.map Prod.fst = attempted blocks') ∧
    (call.events.filter Event.isOutcome).Perm (call'.events.filter Event.isOutcome) ∧
    (registry.enrichCalls read store cache (blocks.toList.map fun category =>
      ⟨key, .ofList [category], collect⟩)).store = call.store := by
  intro storeKey attempted call call'
  let view := cache.view read
  have updates : (registry.updates collect view storeKey blocks.toList).Perm
      (registry.updates collect view storeKey blocks'.toList) :=
    perm.filterMap _
  have slots (k : StoreKey) (category : String) :
      call.store.category? k category = call'.store.category? k category := by
    have same := store.category?_updateAll_perm storeKey k
      (registry.nodup_map_fst_updates collect blocks view storeKey) updates category
    rwa [← registry.enrich_store read, ← registry.enrich_store read] at same
  have sound (categories : BlocksByCategory) :
      (registry.enrich read collect key categories store cache).store.NoHollowKey :=
    (ContextStore.Reachable.enrich registry read collect key categories cache
      reachable).noHollowKey
  refine ⟨fun k => ?_, slots, fun k category id => ?_, ?_, ?_,
    registry.enrichCalls_singletons read collect key blocks store cache⟩
  · rw [(sound blocks).mem_keys_iff, (sound blocks').mem_keys_iff]
    exact exists_congr fun category => by rw [slots k category]
  · rw [ContextStore.entry?, ContextStore.entry?, slots]
  · have results := resultOf_perm storeKey updates
    rw [← registry.enrich_result read collect key blocks store cache,
      ← registry.enrich_result read collect key blocks' store cache] at results
    refine results.imp id fun ⟨failed, reported, reported'⟩ => ?_
    have failed' : ∀ change ∈ registry.updates collect view storeKey blocks'.toList,
        SlotUpdate.fails change := fun change mem => failed change (updates.mem_iff.2 mem)
    refine ⟨_, _, reported, reported', updates.filterMap _, ?_, ?_⟩
    · rw [map_fst_failuresOf failed, Registry.map_fst_updates]
      rfl
    · rw [map_fst_failuresOf failed', Registry.map_fst_updates]
      rfl
  · rw [registry.reports_enrich, registry.reports_enrich]
    exact updates.map _

/-- The categories of `bareBlocks` the other way round. -/
def bareBlocksReversed : BlocksByCategory :=
  OrderedMap.ofList [("resource", []), ("data", [])]

/-- Two calls that fail as a whole report the same failures the other way round. -/
theorem enrich_bareBlocks_reversed :
    bareStore.Reachable ∧ bareBlocks.toList.Perm bareBlocksReversed.toList ∧
      let registry := Registry.ofRegistrations .filePath .standard failingParsers
      let call := fun blocks =>
        registry.enrich (fun _ => .error .notFound) true
          ⟨"main.tf", []⟩ blocks bareStore .empty
      ∃ failures failures',
        (call bareBlocks).result = .error (.enrichmentFailed "main.tf" failures) ∧
        (call bareBlocksReversed).result = .error (.enrichmentFailed "main.tf" failures') ∧
        failures.Perm failures' ∧ failures.map Prod.fst = ["data", "resource"] ∧
        failures'.map Prod.fst = ["resource", "data"] ∧
        (StoreKey.file "main.tf" ∈ (call bareBlocks).store.keys ↔
          StoreKey.file "main.tf" ∈ (call bareBlocksReversed).store.keys) := by
  have reachable : bareStore.Reachable := .enrich _ _ _ _ _ _ .empty
  have perm : bareBlocks.toList.Perm bareBlocksReversed.toList := .swap _ _ []
  obtain ⟨keys, -, -, results, -, -⟩ := categoryOrder_irrelevant
    (.ofRegistrations .filePath .standard failingParsers) (fun _ => .error .notFound) true
    ⟨"main.tf", []⟩ reachable .empty perm
  refine ⟨reachable, perm, ?_⟩
  rcases results with ⟨succeeded, -⟩ | ⟨failures, failures', failed, failed', same,
    named, named'⟩
  · cases succeeded
  · exact ⟨failures, failures', failed, failed', same, named, named', keys _⟩

end InfraScan
