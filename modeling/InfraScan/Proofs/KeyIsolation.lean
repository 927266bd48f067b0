import InfraScan.Command.Run
import InfraScan.Proofs.Enrichment
import Mathlib.Data.List.Induction

/-!
# Keys do not influence each other

A run makes many calls of enrichment on one store and with one cache.  Calls for different
keys share both, and a key may go and come back in the course of a run; even so, what a key
holds in the end is what its own calls have made of it.

* `EnrichCall`, `Registry.enrichCalls` — the calls of a run, and the run
* `Registry.callUpdates` — the updates of a call, from what files were seen as before the run
* `Registry.enrichCalls_store`, `Registry.enrichCalls_results` — a run in terms of updates
* `Registry.get?_enrichCalls` — what a key holds after a run
* `qualify` — the name that a path takes when instances are kept apart
* `runs_isolate_keys` — a run seen from one key, and the same run in either key mode

### What is load-bearing

The cache fills differently when calls are left out, but no path is seen as anything else for
it (`Registry.view_enrich`).  The updates of a call are therefore known before the run, and
both runs that are compared carry out the same updates on the key in question.
-/

namespace InfraScan

/-! ### Runs -/

/-- One call of enrichment: a file instance, its raw blocks, and whether checks are
collected. -/
structure EnrichCall where
  key : DefinitionKey
  blocks : BlocksByCategory
  collect : Bool

/-- What a run leaves behind, and the result of each call under the key that it was for. -/
structure EnrichRun where
  store : ContextStore
  cache : SourceCache
  results : List (StoreKey × Except Fault Unit)

namespace Registry

/-- **The calls of a run**, one after another, each with the store and the cache that the one
before has left.  A call that fails does not end the run. -/
def enrichCalls (registry : Registry) (read : TextReader) (store : ContextStore)
    (cache : SourceCache) : List EnrichCall → EnrichRun
  | [] => ⟨store, cache, []⟩
  | call :: rest =>
    let done := registry.enrich read call.collect call.key call.blocks store cache
    let later := registry.enrichCalls read done.store done.cache rest
    { later with results := (registry.mode.storeKey call.key, done.result) :: later.results }

/-- The updates of a call, when files are seen as they were with the cache before the run. -/
def callUpdates (registry : Registry) (read : TextReader) (cache : SourceCache)
    (call : EnrichCall) : List SlotUpdate :=
  registry.updates call.collect (cache.view read) (registry.mode.storeKey call.key)
    call.blocks.toList

variable (registry : Registry) (read : TextReader)

/-- The enrichment of several dumps is a run of their calls, with nothing in store or cache
before. -/
theorem fst_enrichAll (collect : Bool) (dumps : List Dump) :
    (Command.enrichAll registry read collect dumps).1 =
      (registry.enrichCalls read .empty .empty
        (dumps.map fun dump => ⟨dump.key, dump.blocks, collect⟩)).store := by
  unfold Command.enrichAll
  -- The induction needs any state of the loop, and the run sees two of its three parts.
  show _ =
    (registry.enrichCalls read (ContextStore.empty, SourceCache.empty, ([] : List Event)).1
      (ContextStore.empty, SourceCache.empty, ([] : List Event)).2.1 _).store
  generalize (ContextStore.empty, SourceCache.empty, ([] : List Event)) = state
  induction dumps generalizing state with
  | nil => rfl
  | cons dump rest ih => exact ih _

/-- A fuller cache that shows the same gives the same updates. -/
theorem callUpdates_congr {cache fuller : SourceCache}
    (same : fuller.view read = cache.view read) :
    registry.callUpdates read fuller = registry.callUpdates read cache := by
  funext call
  unfold callUpdates
  rw [same]

/-- **The store after a run** has taken the updates of one call after another. -/
theorem enrichCalls_store (calls : List EnrichCall) (store : ContextStore)
    (cache : SourceCache) :
    (registry.enrichCalls read store cache calls).store =
      calls.foldl (fun acc call => acc.updateAll (registry.mode.storeKey call.key)
        (registry.callUpdates read cache call)) store := by
  induction calls generalizing store cache with
  | nil => rfl
  | cons call rest ih =>
    have same := registry.callUpdates_congr read
      (registry.view_enrich read call.collect call.key call.blocks store cache)
    rw [enrichCalls, ih, same, enrich_store, List.foldl_cons]
    rfl

/-- **The results of a run** are those of its calls, and the store has no part in them. -/
theorem enrichCalls_results (calls : List EnrichCall) (store : ContextStore)
    (cache : SourceCache) :
    (registry.enrichCalls read store cache calls).results =
      calls.map fun call => (registry.mode.storeKey call.key,
        resultOf (registry.mode.storeKey call.key)
          (registry.callUpdates read cache call)) := by
  induction calls generalizing store cache with
  | nil => rfl
  | cons call rest ih =>
    have same := registry.callUpdates_congr read
      (registry.view_enrich read call.collect call.key call.blocks store cache)
    rw [enrichCalls, ih, same, enrich_result, List.map_cons]
    rfl

/-! ### One key -/

/-- The calls of a run that are for one key of the store. -/
def callsFor (registry : Registry) (storeKey : StoreKey) (calls : List EnrichCall) :
    List EnrichCall :=
  calls.filter fun call => registry.mode.storeKey call.key = storeKey

/-- **What a key holds after a run**: what its own calls have made of it, one after
another. -/
theorem get?_enrichCalls (calls : List EnrichCall) (store : ContextStore)
    (cache : SourceCache) (storeKey : StoreKey) :
    (registry.enrichCalls read store cache calls).store.get? storeKey =
      (registry.callsFor storeKey calls).foldl (fun held call =>
        (registry.callUpdates read cache call).foldl ContextStore.revise held)
          (store.get? storeKey) := by
  rw [enrichCalls_store]
  induction calls generalizing store with
  | nil => rfl
  | cons call rest ih =>
    unfold callsFor at ih ⊢
    rw [List.foldl_cons, ih, ContextStore.get?_updateAll, List.filter_cons]
    -- A call for another key leaves this one as it is, and is left out on the right.
    by_cases own : registry.mode.storeKey call.key = storeKey
    · rw [if_pos own, if_pos (by simpa using own), List.foldl_cons, own]
    · rw [if_neg own, if_neg (by simpa using own)]

theorem callsFor_callsFor (storeKey : StoreKey) (calls : List EnrichCall) :
    registry.callsFor storeKey (registry.callsFor storeKey calls) =
      registry.callsFor storeKey calls := by
  rw [callsFor, callsFor, List.filter_filter]
  simp only [Bool.and_self]

/-- The key holds the same after the run of its own calls. -/
theorem get?_enrichCalls_callsFor (calls : List EnrichCall) (store : ContextStore)
    (cache : SourceCache) (storeKey : StoreKey) :
    (registry.enrichCalls read store cache calls).store.get? storeKey =
      (registry.enrichCalls read store cache (registry.callsFor storeKey calls)).store.get?
        storeKey := by
  rw [get?_enrichCalls, get?_enrichCalls, callsFor_callsFor]

/-- The calls for a key have the same results in the run of these calls. -/
theorem results_enrichCalls_callsFor (calls : List EnrichCall) (store : ContextStore)
    (cache : SourceCache) (storeKey : StoreKey) :
    ((registry.enrichCalls read store cache calls).results.filter fun entry =>
        entry.1 = storeKey) =
      (registry.enrichCalls read store cache (registry.callsFor storeKey calls)).results := by
  rw [enrichCalls_results, enrichCalls_results, callsFor, List.filter_map]
  rfl

/-- A run brings in the keys of its calls only. -/
theorem mem_keys_enrichCalls {calls : List EnrichCall} {store : ContextStore}
    {cache : SourceCache} {storeKey : StoreKey}
    (present : storeKey ∈ (registry.enrichCalls read store cache calls).store.keys) :
    storeKey ∈ store.keys ∨ ∃ call ∈ calls, registry.mode.storeKey call.key = storeKey := by
  rw [enrichCalls_store] at present
  induction calls generalizing store with
  | nil => exact Or.inl present
  | cons call rest ih =>
    rcases ih present with earlier | ⟨later, mem, own⟩
    · rcases ContextStore.mem_keys_of_updateAll _ earlier with own | before
      · exact Or.inr ⟨call, List.mem_cons_self, own.symm⟩
      · exact Or.inl before
    · exact Or.inr ⟨later, List.mem_cons_of_mem _ mem, own⟩

/-! ### The two key modes -/

/-- The registry in another key mode. -/
def withMode (registry : Registry) (mode : KeyMode) : Registry :=
  { registry with mode := mode }

/-- **In either key mode a call does the same to its slots.**  A parser that goes by the shape
of blocks looks at the file of the key only; one that always fails may word its fault by the
key, which the store does not hold. -/
theorem BlocksOrFailing.effect_callUpdates {registry : Registry}
    (sound : registry.BlocksOrFailing) (read : TextReader) (cache : SourceCache)
    (mode mode' : KeyMode) (call : EnrichCall) :
    ((registry.withMode mode).callUpdates read cache call).map SlotUpdate.effect =
      ((registry.withMode mode').callUpdates read cache call).map SlotUpdate.effect := by
  have each (category : String × List Json) :
      (((registry.withMode mode).update? call.collect (cache.view read)
          (mode.storeKey call.key) category).map SlotUpdate.effect) =
        ((registry.withMode mode').update? call.collect (cache.view read)
          (mode'.storeKey call.key) category).map SlotUpdate.effect := by
    unfold update? withMode
    cases registered : registry.parsers.get? category.1 with
    | none => rfl
    | some parser =>
      rcases sound _ _ registered with ⟨blockParser, rfl⟩ | fails
      · have sameFile : (mode.storeKey call.key).filePath =
            (mode'.storeKey call.key).filePath := by
          rw [KeyMode.filePath_storeKey, KeyMode.filePath_storeKey]
        simp only [Option.map_some, CategoryParser.slot_blocks_congr _ _ _ _ sameFile]
      · obtain ⟨cause, failed⟩ := fails.slot read registry.scanner call.collect
          (mode.storeKey call.key) category.2 cache
        obtain ⟨cause', failed'⟩ := fails.slot read registry.scanner call.collect
          (mode'.storeKey call.key) category.2 cache
        simp only [Option.map_some, failed, failed']
        rfl
  unfold callUpdates updates
  rw [List.map_filterMap, List.map_filterMap]
  exact congrArg (call.blocks.toList.filterMap ·) (funext each)

end Registry

/-- **The name that a path takes when instances are kept apart**: the first instance of the
file among the calls. -/
def qualify (calls : List EnrichCall) : StoreKey → StoreKey
  | .file path =>
    .definition (((calls.find? fun call => call.key.filePath = path).map EnrichCall.key).getD
      ⟨path, []⟩)
  | .definition key => .definition key

/-- Where each file has one instance, a path takes the name of that instance. -/
theorem qualify_file {calls : List EnrichCall}
    (unambiguous : ∀ a ∈ calls, ∀ b ∈ calls, a.key.filePath = b.key.filePath → a.key = b.key)
    {call : EnrichCall} (mem : call ∈ calls) :
    qualify calls (.file call.key.filePath) = .definition call.key := by
  rw [qualify]
  cases found : calls.find? fun other => other.key.filePath = call.key.filePath with
  | none =>
    have missed := List.find?_eq_none.1 found call mem
    simp at missed
  | some first =>
    have samePath : first.key.filePath = call.key.filePath := by
      simpa using List.find?_some found
    rw [Option.map_some, Option.getD_some,
      unambiguous first (List.mem_of_find?_eq_some found) call mem samePath]

namespace Registry

/-- **The same run in either key mode.**  The induction is from the last call backwards: what
the calls before it have put in goes by their paths, and no two of these take one name. -/
theorem BlocksOrFailing.renamedBy_enrichCalls {registry : Registry}
    (sound : registry.BlocksOrFailing) (read : TextReader) {rename : StoreKey → StoreKey}
    (cache : SourceCache) (calls : List EnrichCall)
    (renames : ∀ call ∈ calls, rename (.file call.key.filePath) = .definition call.key) :
    ContextStore.RenamedBy rename
      ((registry.withMode .filePath).enrichCalls read .empty cache calls).store
      ((registry.withMode .qualified).enrichCalls read .empty cache calls).store := by
  induction calls using List.reverseRecOn with
  | nil => rfl
  | append_singleton front call ih =>
    have earlier := ih fun other mem => renames other (List.mem_append_left _ mem)
    have mine := renames call (List.mem_append_right _ List.mem_cons_self)
    -- An earlier path that takes the same name belongs to the same instance.
    have apart : ∀ k ∈
        ((registry.withMode .filePath).enrichCalls read .empty cache front).store.keys,
        rename k = rename (.file call.key.filePath) → k = .file call.key.filePath := by
      intro k present same
      rcases mem_keys_enrichCalls _ _ present with atStart | ⟨other, mem, rfl⟩
      · cases atStart
      · have theirs := renames other (List.mem_append_left _ mem)
        change rename (.file other.key.filePath) = _ at same
        rw [theirs, mine] at same
        exact congrArg (fun key : DefinitionKey => StoreKey.file key.filePath)
          (StoreKey.definition.inj same)
    rw [enrichCalls_store] at earlier apart
    rw [enrichCalls_store] at earlier
    rw [enrichCalls_store, enrichCalls_store, List.foldl_append, List.foldl_append]
    have next := earlier.updateAll apart
      ((registry.withMode .filePath).callUpdates read cache call)
    rw [mine, ContextStore.updateAll_congr _ (.definition call.key)
      (sound.effect_callUpdates read cache .filePath .qualified call)] at next
    exact next

end Registry

/-! ### Whole runs -/

/-- **Keys do not influence each other.**  Take any registry, any calls and any cache to begin
with.

* What a key holds at the end of the run from the empty store, and the results of the calls
  that are for it, are those of the run of these calls alone; where instances are kept apart,
  these are the calls for one instance.
* Where each file has one instance, and every parser goes by the shape of blocks or always
  fails, the run by paths and the run by instances lead to the same store in the same order,
  up to the names of the keys. -/
theorem runs_isolate_keys (registry : Registry) (read : TextReader) (cache : SourceCache)
    (calls : List EnrichCall) :
    let run := fun mode => (registry.withMode mode).enrichCalls read .empty cache
    (∀ mode (storeKey : StoreKey),
      let own := calls.filter fun call => mode.storeKey call.key = storeKey
      (run mode calls).store.get? storeKey = (run mode own).store.get? storeKey ∧
      ((run mode calls).results.filter fun entry => entry.1 = storeKey) =
        (run mode own).results) ∧
    (∀ key : DefinitionKey,
      let own := calls.filter fun call => call.key = key
      (run .qualified calls).store.get? (.definition key) =
        (run .qualified own).store.get? (.definition key) ∧
      ((run .qualified calls).results.filter fun entry => entry.1 = .definition key) =
        (run .qualified own).results) ∧
    ((∀ a ∈ calls, ∀ b ∈ calls, a.key.filePath = b.key.filePath → a.key = b.key) →
      (∀ call ∈ calls, qualify calls (.file call.key.filePath) = .definition call.key) ∧
      (∀ storeKey ∈ (run .filePath calls).store.keys,
        ∃ call ∈ calls, storeKey = .file call.key.filePath) ∧
      (registry.BlocksOrFailing →
        (run .qualified calls).store.entries.toList =
          (run .filePath calls).store.entries.toList.map (Prod.map (qualify calls) id))) := by
  intro run
  have isolated (mode : KeyMode) (storeKey : StoreKey) :
      (run mode calls).store.get? storeKey =
          (run mode ((registry.withMode mode).callsFor storeKey calls)).store.get? storeKey ∧
        ((run mode calls).results.filter fun entry => entry.1 = storeKey) =
          (run mode ((registry.withMode mode).callsFor storeKey calls)).results :=
    ⟨Registry.get?_enrichCalls_callsFor _ read calls .empty cache storeKey,
      Registry.results_enrichCalls_callsFor _ read calls .empty cache storeKey⟩
  refine ⟨isolated, fun key => ?_, fun unambiguous => ⟨?_, ?_, ?_⟩⟩
  · have own : (registry.withMode .qualified).callsFor (.definition key) calls =
        calls.filter fun call => call.key = key := by
      refine List.filter_congr fun call _ => ?_
      simp [Registry.withMode, KeyMode.storeKey]
    have instances := isolated .qualified (.definition key)
    rw [own] at instances
    exact instances
  · intro call mem
    exact qualify_file unambiguous mem
  · intro storeKey present
    rcases Registry.mem_keys_enrichCalls _ _ present with atStart | ⟨call, mem, own⟩
    · cases atStart
    · exact ⟨call, mem, own.symm⟩
  · intro sound
    exact sound.renamedBy_enrichCalls read cache calls fun call mem =>
      qualify_file unambiguous mem

/-- A registry that reads resources and fails on data. -/
def resourcesOnly : Registry :=
  .ofRegistrations .filePath .standard
    [("resource", .blocks ⟨"resource", .typed⟩),
      ("data", .failing (.settings (.stated "broken")))]

theorem blocksOrFailing_resourcesOnly : resourcesOnly.BlocksOrFailing := by
  refine Registry.blocksOrFailing_ofRegistrations fun entry mem => ?_
  rcases List.mem_pair.1 mem with rfl | rfl
  · exact .inl ⟨_, rfl⟩
  · exact .inr (CategoryParser.alwaysFails_failing _)

/-- Calls for two files; the first file is called again after the other one, and nothing of
that call can be read. -/
def mixedCalls : List EnrichCall := [
  ⟨⟨"main.tf", []⟩, .ofList [("data", []), ("resource", [])], true⟩,
  ⟨⟨"net.tf", [⟨"main.tf", "net"⟩]⟩, .ofList [("resource", [])], false⟩,
  ⟨⟨"main.tf", []⟩, .ofList [("data", [])], true⟩]

/-- Kept apart or not, the two files hold what their own calls have made of them. -/
theorem mixedCalls_isolated :
    resourcesOnly.BlocksOrFailing ∧
      (∀ a ∈ mixedCalls, ∀ b ∈ mixedCalls, a.key.filePath = b.key.filePath → a.key = b.key) ∧
      ((resourcesOnly.withMode .qualified).enrichCalls (fun _ => .error .notFound)
        .empty .empty mixedCalls).store.keys =
          [.definition ⟨"main.tf", []⟩, .definition ⟨"net.tf", [⟨"main.tf", "net"⟩]⟩] := by
  have unambiguous : ∀ a ∈ mixedCalls, ∀ b ∈ mixedCalls,
      a.key.filePath = b.key.filePath → a.key = b.key := by
    decide
  obtain ⟨-, -, renamed⟩ :=
    runs_isolate_keys resourcesOnly (fun _ => .error .notFound) .empty mixedCalls
  obtain ⟨-, -, sameOrder⟩ := renamed unambiguous
  refine ⟨blocksOrFailing_resourcesOnly, unambiguous, ?_⟩
  rw [ContextStore.keys, OrderedMap.keys, sameOrder blocksOrFailing_resourcesOnly]
  decide +kernel

end InfraScan
