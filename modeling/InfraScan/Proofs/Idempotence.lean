import InfraScan.Proofs.FailureIsolation

/-!
# Enrichment done twice

A file instance may be enriched again, because a scan is repeated or a dump is read twice.
The first call may write slots over others, drop them, and take a key away and bring it back
at the end; the second one finds all of that done.

* `Registry.settled_enrich` — after a call every slot is as its own update leaves it
* `Registry.enrich_again` — a later call that sees the same sources changes nothing
* `enrich_idempotent` — a call and the same call once more

### What is load-bearing

Dropping a slot that is absent does nothing only because no key is held without a category
(`ContextStore.NoHollowKey`): a hollow key would go with the second call.
-/

namespace InfraScan

namespace Registry

variable (registry : Registry) (read : TextReader) (collect : Bool) (key : DefinitionKey)
  (blocks : BlocksByCategory) (store : ContextStore) (cache : SourceCache)

/-- **After a call every slot is as its own update leaves it**, since no category of a call
comes twice. -/
theorem settled_enrich {change : SlotUpdate}
    (mem : change ∈ registry.updates collect (cache.view read) (registry.mode.storeKey key)
      blocks.toList) :
    (registry.enrich read collect key blocks store cache).store.category?
        (registry.mode.storeKey key) change.1 = change.2.toOption := by
  rw [enrich_store]
  exact store.category?_updateAll _ (registry.nodup_map_fst_updates collect blocks _ _) mem

/-- **A later call that sees the same sources changes nothing** and has the same result,
whatever has become of the cache. -/
theorem enrich_again {store : ContextStore} (reachable : store.Reachable)
    (readAgain : TextReader) (cacheAgain : SourceCache)
    (same : cacheAgain.view readAgain = cache.view read) :
    let once := registry.enrich read collect key blocks store cache
    let again := registry.enrich readAgain collect key blocks once.store cacheAgain
    again.store = once.store ∧ again.result = once.result := by
  intro once again
  have sound : once.store.NoHollowKey :=
    (ContextStore.Reachable.enrich registry read collect key blocks cache
      reachable).noHollowKey
  constructor
  · have settled : ∀ change ∈ registry.updates collect (cache.view read)
        (registry.mode.storeKey key) blocks.toList,
          once.store.category? (registry.mode.storeKey key) change.1 =
          change.2.toOption := by
      intro change mem
      exact registry.settled_enrich read collect key blocks store cache mem
    calc again.store
        = once.store.updateAll (registry.mode.storeKey key)
            (registry.updates collect (cache.view read) (registry.mode.storeKey key)
              blocks.toList) := by
          rw [← same]
          exact registry.enrich_store readAgain collect key blocks once.store cacheAgain
      _ = once.store := sound.updateAll_of_settled settled
  · calc again.result
        = resultOf (registry.mode.storeKey key)
            (registry.updates collect (cache.view read) (registry.mode.storeKey key)
              blocks.toList) := by
          rw [← same]
          exact registry.enrich_result readAgain collect key blocks once.store cacheAgain
      _ = once.result := (registry.enrich_result read collect key blocks store cache).symm

end Registry

/-- **A call and the same call once more.**  In whatever store a run has led to, the second
call leaves the store as the first one has left it, with the same keys, categories, ids and
entries in the same order at all three levels, and it returns the same. -/
theorem enrich_idempotent (registry : Registry) (read : TextReader) (collect : Bool)
    (key : DefinitionKey) (blocks : BlocksByCategory) {store : ContextStore}
    (reachable : store.Reachable) (cache : SourceCache) :
    let once := registry.enrich read collect key blocks store cache
    let twice := registry.enrich read collect key blocks once.store once.cache
    twice.store = once.store ∧ twice.result = once.result := by
  intro once twice
  exact registry.enrich_again read collect key blocks cache reachable read once.cache
    (registry.view_enrich read collect key blocks store cache)

/-- Parsers for resources and data that both fail always. -/
def failingParsers : List (String × CategoryParser) :=
  [("resource", .failing (.settings (.stated "broken"))),
    ("data", .failing (.settings (.stated "broken")))]

/-- A call that fails as a whole takes the key away, and fails once more without it. -/
theorem enrich_bareStore_twice :
    bareStore.Reachable ∧ bareStore.keys = [.file "main.tf"] ∧
      let registry := Registry.ofRegistrations .filePath .standard failingParsers
      let once := registry.enrich (fun _ => .error .notFound) true ⟨"main.tf", []⟩ bareBlocks
        bareStore .empty
      let twice := registry.enrich (fun _ => .error .notFound) true ⟨"main.tf", []⟩ bareBlocks
        once.store once.cache
      twice.store = .empty ∧
        twice.result = .error (.enrichmentFailed "main.tf" [
          ("data", "Invalid configuration: broken"),
          ("resource", "Invalid configuration: broken")]) := by
  have reachable : bareStore.Reachable := .enrich _ _ _ _ _ _ .empty
  obtain ⟨sameStore, sameResult⟩ := enrich_idempotent
    (.ofRegistrations .filePath .standard failingParsers) (fun _ => .error .notFound) true
    ⟨"main.tf", []⟩ bareBlocks reachable .empty
  refine ⟨reachable, by decide +kernel, sameStore.trans ?_, sameResult.trans ?_⟩
  · decide +kernel
  · rfl

end InfraScan
