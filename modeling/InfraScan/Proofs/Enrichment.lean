import InfraScan.Proofs.Inquiries
import InfraScan.Proofs.Store

/-!
# Enrichment as a list of updates

A call threads a store, a cache, a count and a list of failures through its categories.  This
module takes the thread apart: what a call does to the store is the list `Registry.updates`,
which is computed from the raw blocks and from what files are seen as before the store is
touched, and the outcome of the call is a function of the same list.

* `Registry.BlocksOnly`, `Registry.BlocksOrFailing` — registries with certain parsers only
* `Registry.ofRegistrations` — the registry that a list of registrations leads to
* `Registry.updates` — the updates of a call, one for each registered category
* `failuresOf`, `resultOf` — the failures among them, and the result of a call
* `Progress.Advances` — the invariant of the loop over the categories
* `Registry.enrich_store`, `Registry.enrich_result`, `Registry.view_enrich` — a call in these
  terms
* `ContextStore.Reachable` — the stores that runs lead to; none of them has a hollow key

### What is load-bearing

The categories of one call share a cache, so the text that a later category sees might depend
on what an earlier one has read.  It does not, as long as the files stay as they are
(`Advances.seen`), and that is what lets the updates of all categories be computed from the
cache before the call.
-/

namespace InfraScan

/-! ### Registries -/

namespace Registry

/-- Every parser goes by the shape of blocks. -/
def BlocksOnly (registry : Registry) : Prop :=
  ∀ category parser, registry.parsers.get? category = some parser →
    ∃ blockParser, parser = .blocks blockParser

theorem blocksOnly_bare (mode : KeyMode) (scanner : DirectiveScanner) :
    (bare mode scanner).BlocksOnly := by
  intro category parser registered
  simp [bare] at registered

theorem BlocksOnly.register {registry : Registry} (sound : registry.BlocksOnly)
    (category : String) (parser : BlockParser) :
    (registry.register category (.blocks parser)).BlocksOnly := by
  intro other found registered
  rw [Registry.register, OrderedMap.get?_insert] at registered
  split at registered
  · exact ⟨parser, (Option.some.inj registered).symm⟩
  · exact sound other found registered

/-- The parsers of the usual categories all go by the shape of blocks. -/
theorem blocksOnly_standard (mode : KeyMode) (scanner : DirectiveScanner) :
    (standard mode scanner).BlocksOnly := by
  have eachRegistered (parsers : List BlockParser) (registry : Registry)
      (sound : registry.BlocksOnly) :
      (parsers.foldl (fun registry parser =>
        registry.register parser.category (.blocks parser)) registry).BlocksOnly := by
    induction parsers generalizing registry with
    | nil => exact sound
    | cons parser rest ih => exact ih _ (sound.register parser.category parser)
  exact eachRegistered _ _ (blocksOnly_bare mode scanner)

/-- **Every parser goes by the shape of blocks or always fails.** -/
def BlocksOrFailing (registry : Registry) : Prop :=
  ∀ category parser, registry.parsers.get? category = some parser →
    (∃ blockParser, parser = .blocks blockParser) ∨ parser.AlwaysFails

theorem BlocksOnly.blocksOrFailing {registry : Registry} (blocksOnly : registry.BlocksOnly) :
    registry.BlocksOrFailing :=
  fun category parser registered => .inl (blocksOnly category parser registered)

/-- **The registry made by a list of registrations**, one after another. -/
def ofRegistrations (mode : KeyMode) (scanner : DirectiveScanner)
    (registrations : List (String × CategoryParser)) : Registry :=
  registrations.foldl (fun registry entry => registry.register entry.1 entry.2)
    (bare mode scanner)

theorem ofRegistrations_eq (mode : KeyMode) (scanner : DirectiveScanner)
    (registrations : List (String × CategoryParser)) :
    ofRegistrations mode scanner registrations =
      ⟨OrderedMap.ofList registrations, mode, scanner⟩ := by
  have fromAny (parsers : OrderedMap String CategoryParser) :
      registrations.foldl (fun registry entry => registry.register entry.1 entry.2)
        ⟨parsers, mode, scanner⟩ =
          (⟨parsers.insertAll registrations, mode, scanner⟩ : Registry) := by
    induction registrations generalizing parsers with
    | nil => rfl
    | cons entry rest ih => exact ih (parsers.insert entry.1 entry.2)
  exact fromAny ∅

@[simp] theorem mode_ofRegistrations (mode : KeyMode) (scanner : DirectiveScanner)
    (registrations : List (String × CategoryParser)) :
    (ofRegistrations mode scanner registrations).mode = mode := by
  rw [ofRegistrations_eq]

/-- **Of several parsers registered for a category, the last one counts.** -/
theorem get?_ofRegistrations (mode : KeyMode) (scanner : DirectiveScanner)
    (registrations : List (String × CategoryParser)) (category : String) :
    (ofRegistrations mode scanner registrations).parsers.get? category =
      OrderedMap.look category registrations.reverse := by
  rw [ofRegistrations_eq, OrderedMap.get?_ofList]

/-- A registry is of block parsers and failing ones if only such parsers were registered. -/
theorem blocksOrFailing_ofRegistrations {mode : KeyMode} {scanner : DirectiveScanner}
    {registrations : List (String × CategoryParser)}
    (each : ∀ entry ∈ registrations,
      (∃ blockParser, entry.2 = .blocks blockParser) ∨ entry.2.AlwaysFails) :
    (ofRegistrations mode scanner registrations).BlocksOrFailing := by
  intro category parser registered
  rw [ofRegistrations_eq] at registered
  exact each (category, parser) (OrderedMap.mem_of_get?_ofList registered)

/-! ### The updates of a call -/

/-- The update for one category, if it has a parser. -/
def update? (registry : Registry) (collect : Bool) (view : SourceView) (key : StoreKey)
    (category : String × List Json) : Option SlotUpdate :=
  (registry.parsers.get? category.1).map fun parser =>
    (category.1, parser.slot registry.scanner collect view key category.2)

/-- **The updates of a call**, one for each category that has a parser, in order. -/
def updates (registry : Registry) (collect : Bool) (view : SourceView) (key : StoreKey)
    (blocks : List (String × List Json)) : List SlotUpdate :=
  blocks.filterMap (registry.update? collect view key)

theorem updates_cons (registry : Registry) (collect : Bool) (view : SourceView)
    (key : StoreKey) (category : String × List Json) (rest : List (String × List Json)) :
    registry.updates collect view key (category :: rest) =
      (registry.update? collect view key category).toList ++
        registry.updates collect view key rest := by
  rw [updates, updates, List.filterMap_cons]
  cases registry.update? collect view key category <;> rfl

end Registry

/-- The failures among the updates of a call: the category, and the wording of what went
wrong. -/
def failuresOf (changes : List SlotUpdate) : List (String × String) :=
  changes.filterMap fun change =>
    match change.2 with
    | .ok _ => none
    | .error cause => some (change.1, cause.message)

/-- The update drops its slot. -/
def SlotUpdate.fails (change : SlotUpdate) : Prop := ∃ cause, change.2 = .error cause

/-- A failure is the name of an update that fails, with the wording of its fault. -/
theorem mem_failuresOf {changes : List SlotUpdate} {failure : String × String} :
    failure ∈ failuresOf changes ↔
      ∃ cause, (failure.1, .error cause) ∈ changes ∧ failure.2 = cause.message := by
  rw [failuresOf, List.mem_filterMap]
  constructor
  · rintro ⟨⟨category, result⟩, mem, noted⟩
    cases result with
    | ok slot => cases noted
    | error cause =>
      obtain rfl := Option.some.inj noted
      exact ⟨cause, mem, rfl⟩
  · rintro ⟨cause, mem, worded⟩
    exact ⟨(failure.1, .error cause), mem, congrArg some (Prod.ext rfl worded.symm)⟩

/-- As many failures as updates means that every update fails. -/
theorem length_failuresOf_eq_iff (changes : List SlotUpdate) :
    (failuresOf changes).length = changes.length ↔
      ∀ change ∈ changes, SlotUpdate.fails change := by
  rw [failuresOf, List.length_filterMap_eq_countP, List.countP_eq_length]
  refine forall₂_congr fun change mem => ?_
  obtain ⟨category, result⟩ := change
  cases result <;> simp [SlotUpdate.fails]

/-- Where every update fails, the failures name all the categories in order. -/
theorem map_fst_failuresOf {changes : List SlotUpdate}
    (failed : ∀ change ∈ changes, SlotUpdate.fails change) :
    (failuresOf changes).map Prod.fst = changes.map Prod.fst := by
  induction changes with
  | nil => rfl
  | cons change rest ih =>
    obtain ⟨category, result⟩ := change
    obtain ⟨cause, fault⟩ := failed _ List.mem_cons_self
    obtain rfl : result = .error cause := fault
    have later := ih fun change mem => failed change (List.mem_cons_of_mem _ mem)
    simpa [failuresOf] using later

/-- The result of a call with these updates: it fails when there are any and all of them
fail. -/
def resultOf (key : StoreKey) (changes : List SlotUpdate) : Except Fault Unit :=
  if changes ≠ [] ∧ (failuresOf changes).length = changes.length then
    .error (.enrichmentFailed key.render (failuresOf changes))
  else .ok ()

theorem resultOf_eq_error_iff {key : StoreKey} {changes : List SlotUpdate} {fault : Fault} :
    resultOf key changes = .error fault ↔
      (changes ≠ [] ∧ ∀ change ∈ changes, SlotUpdate.fails change) ∧
        fault = .enrichmentFailed key.render (failuresOf changes) := by
  rw [resultOf, ← length_failuresOf_eq_iff]
  by_cases failed : changes ≠ [] ∧ (failuresOf changes).length = changes.length
  · rw [if_pos failed, Except.error.injEq, and_iff_right failed]
    exact eq_comm
  · rw [if_neg failed]
    constructor
    · intro impossible
      cases impossible
    · intro given
      exact absurd given.1 failed

/-! ### The loop over the categories -/

/-- **The invariant of the loop**: between two points of an enrichment the store has taken a
list of updates, each of them was counted, the failures among them were noted, and no path is
seen as anything else. -/
structure Progress.Advances (read : TextReader) (key : StoreKey) (before : Progress)
    (changes : List SlotUpdate) (after : Progress) : Prop where
  store : after.store = before.store.updateAll key changes
  attempted : after.attempted = before.attempted + changes.length
  failures : after.failures = before.failures ++ failuresOf changes
  seen : after.cache.view read = before.cache.view read

namespace Progress.Advances

variable {read : TextReader} {key : StoreKey} {a b c : Progress}
  {changes more : List SlotUpdate}

theorem refl (read : TextReader) (key : StoreKey) (a : Progress) : Advances read key a [] a :=
  ⟨rfl, rfl, (List.append_nil _).symm, rfl⟩

theorem trans (first : Advances read key a changes b) (second : Advances read key b more c) :
    Advances read key a (changes ++ more) c where
  store := by
    rw [second.store, first.store, ContextStore.updateAll, ContextStore.updateAll,
      ContextStore.updateAll, List.foldl_append]
  attempted := by
    rw [second.attempted, first.attempted, List.length_append, Nat.add_assoc]
  failures := by
    rw [second.failures, first.failures, failuresOf, failuresOf, failuresOf,
      List.filterMap_append, List.append_assoc]
  seen := second.seen.trans first.seen

end Progress.Advances

namespace Registry

variable (registry : Registry) (read : TextReader) (collect : Bool)

/-- **One category advances the loop by its own update.** -/
theorem advances_enrichCategory (storeKey : StoreKey) (progress : Progress)
    (category : String × List Json) :
    Progress.Advances read storeKey progress
      (registry.update? collect (progress.cache.view read) storeKey category).toList
      (registry.enrichCategory read collect storeKey progress category) := by
  obtain ⟨name, raw⟩ := category
  cases registered : registry.parsers.get? name with
  | none =>
    -- A category without a parser leaves an event, which the invariant does not speak of.
    simp only [update?, registered, enrichCategory]
    exact ⟨rfl, rfl, (List.append_nil _).symm, rfl⟩
  | some parser =>
    have outcome := parser.map_collapse_run read registry.scanner collect storeKey raw
      progress.cache
    have seen := parser.view_run read registry.scanner collect storeKey raw progress.cache
    cases ran : (parser.run read registry.scanner collect storeKey raw
      progress.cache).result with
    | ok contexts =>
      rw [ran, Except.map] at outcome
      simp only [update?, registered, Option.map_some, enrichCategory, ran, ← outcome]
      exact ⟨rfl, rfl, (List.append_nil _).symm, seen⟩
    | error cause =>
      rw [ran, Except.map] at outcome
      simp only [update?, registered, Option.map_some, enrichCategory, ran, ← outcome]
      exact ⟨rfl, rfl, rfl, seen⟩

/-- **The whole loop**, by induction on the categories.  What the first of them leaves in the
cache does not change what the updates of the others are computed from. -/
theorem advances_foldl (storeKey : StoreKey) (blocks : List (String × List Json))
    (progress : Progress) :
    Progress.Advances read storeKey progress
      (registry.updates collect (progress.cache.view read) storeKey blocks)
      (blocks.foldl (registry.enrichCategory read collect storeKey) progress) := by
  induction blocks generalizing progress with
  | nil => exact .refl read storeKey progress
  | cons category rest ih =>
    have first := registry.advances_enrichCategory read collect storeKey progress category
    have others := ih (registry.enrichCategory read collect storeKey progress category)
    rw [first.seen] at others
    have both := first.trans others
    rwa [← updates_cons] at both

/-! ### Calls -/

variable (key : DefinitionKey) (blocks : BlocksByCategory) (store : ContextStore)
  (cache : SourceCache)

theorem advances_enrich :
    Progress.Advances read (registry.mode.storeKey key) ⟨store, cache, [], 0, []⟩
      (registry.updates collect (cache.view read) (registry.mode.storeKey key) blocks.toList)
      (blocks.toList.foldl (registry.enrichCategory read collect (registry.mode.storeKey key))
        ⟨store, cache, [], 0, []⟩) :=
  registry.advances_foldl read collect (registry.mode.storeKey key) blocks.toList
    ⟨store, cache, [], 0, []⟩

/-- **The store after a call.** -/
theorem enrich_store :
    (registry.enrich read collect key blocks store cache).store =
      store.updateAll (registry.mode.storeKey key)
        (registry.updates collect (cache.view read)
          (registry.mode.storeKey key) blocks.toList) :=
  (registry.advances_enrich read collect key blocks store cache).store

/-- No path is seen as anything else after a call. -/
theorem view_enrich :
    (registry.enrich read collect key blocks store cache).cache.view read = cache.view read :=
  (registry.advances_enrich read collect key blocks store cache).seen

theorem source?_enrich (path : String) :
    (registry.enrich read collect key blocks store cache).cache.source? read path =
      cache.source? read path := by
  rw [← SourceCache.toOption_view, view_enrich, SourceCache.toOption_view]

/-- **A call loads files and does nothing else to the cache**: what holds of a cache and is
kept when a file is loaded holds after the call. -/
theorem enrich_cache {P : SourceCache → Prop}
    (kept : ∀ path cache, P cache → P (cache.load read path).2) (holds : P cache) :
    P (registry.enrich read collect key blocks store cache).cache := by
  have walk (progress : Progress) (before : P progress.cache)
      (categories : List (String × List Json)) :
      P (categories.foldl (registry.enrichCategory read collect (registry.mode.storeKey key))
        progress).cache := by
    induction categories generalizing progress with
    | nil => exact before
    | cons category rest ih =>
      refine ih _ ?_
      unfold enrichCategory
      cases registered : registry.parsers.get? category.1 with
      | none => exact before
      | some parser =>
        have ran := parser.run_cache read registry.scanner collect
          (registry.mode.storeKey key) category.2 kept before
        cases outcome : (parser.run read registry.scanner collect (registry.mode.storeKey key)
          category.2 progress.cache).result <;> simpa only [outcome] using ran
  exact walk ⟨store, cache, [], 0, []⟩ holds blocks.toList

/-- **The result of a call** depends on its updates alone, and not on what the store held. -/
theorem enrich_result :
    (registry.enrich read collect key blocks store cache).result =
      resultOf (registry.mode.storeKey key)
        (registry.updates collect (cache.view read) (registry.mode.storeKey key)
          blocks.toList) := by
  have whole := registry.advances_enrich read collect key blocks store cache
  have attempted := whole.attempted
  have failures := whole.failures
  rw [Nat.zero_add] at attempted
  rw [List.nil_append] at failures
  simp only [enrich, resultOf, attempted, failures, ne_eq, List.length_eq_zero_iff]

/-! ### Updates by category -/

/-- The categories that are updated are the registered ones, in order. -/
theorem map_fst_updates (view : SourceView) (storeKey : StoreKey)
    (blocks : List (String × List Json)) :
    (registry.updates collect view storeKey blocks).map Prod.fst =
      (blocks.map Prod.fst).filter registry.isRegistered := by
  induction blocks with
  | nil => rfl
  | cons category rest ih =>
    rw [updates] at ih
    rw [updates, List.map_cons, List.filterMap_cons, List.filter_cons, isRegistered,
      OrderedMap.contains, update?]
    cases registry.parsers.get? category.1 with
    | none => simpa using ih
    | some parser => simpa using ih

theorem nodup_map_fst_updates (view : SourceView) (storeKey : StoreKey) :
    ((registry.updates collect view storeKey blocks.toList).map Prod.fst).Nodup := by
  rw [map_fst_updates]
  exact blocks.nodup_keys.filter _

/-- An update comes from a category that is there and has a parser. -/
theorem mem_updates_iff {view : SourceView} {storeKey : StoreKey} {change : SlotUpdate} :
    change ∈ registry.updates collect view storeKey blocks.toList ↔
      ∃ raw parser, blocks.get? change.1 = some raw ∧
        registry.parsers.get? change.1 = some parser ∧
        change.2 = parser.slot registry.scanner collect view storeKey raw := by
  rw [updates, List.mem_filterMap]
  constructor
  · rintro ⟨⟨category, raw⟩, mem, given⟩
    obtain ⟨parser, registered, rfl⟩ := Option.map_eq_some_iff.1 given
    exact ⟨raw, parser, OrderedMap.mem_toList_iff.1 mem, registered, rfl⟩
  · rintro ⟨raw, parser, present, registered, outcome⟩
    refine ⟨(change.1, raw), OrderedMap.mem_toList_iff.2 present, ?_⟩
    rw [update?, registered, Option.map_some, ← outcome]

/-- **The slot of a category after a call** is what its own parser made of its own raw
blocks. -/
theorem category?_enrich {category : String} {raw : List Json} {parser : CategoryParser}
    (present : blocks.get? category = some raw)
    (registered : registry.parsers.get? category = some parser) :
    (registry.enrich read collect key blocks store cache).store.category?
        (registry.mode.storeKey key) category =
      (parser.slot registry.scanner collect (cache.view read) (registry.mode.storeKey key)
        raw).toOption := by
  have updated : (category, parser.slot registry.scanner collect (cache.view read)
      (registry.mode.storeKey key) raw) ∈ registry.updates collect (cache.view read)
        (registry.mode.storeKey key) blocks.toList :=
    (registry.mem_updates_iff collect blocks).2 ⟨raw, parser, present, registered, rfl⟩
  rw [enrich_store]
  exact store.category?_updateAll _
    (registry.nodup_map_fst_updates collect blocks _ _) updated

end Registry

/-! ### Runs -/

/-- **The stores that runs lead to.**  A run begins with an empty store, also after a reset;
calls may be made with any registry, and stores of workers are merged. -/
inductive ContextStore.Reachable : ContextStore → Prop
  | empty : Reachable .empty
  | enrich {store : ContextStore} (registry : Registry) (read : TextReader) (collect : Bool)
      (key : DefinitionKey) (blocks : BlocksByCategory) (cache : SourceCache) :
      Reachable store → Reachable (registry.enrich read collect key blocks store cache).store
  | merge {lower upper : ContextStore} :
      Reachable lower → Reachable upper → Reachable (lower.merge upper)

/-- **No run leads to a store with a hollow key.** -/
theorem ContextStore.Reachable.noHollowKey {store : ContextStore}
    (reachable : store.Reachable) : store.NoHollowKey := by
  induction reachable with
  | empty => exact noHollowKey_empty
  | enrich registry read collect key blocks cache _ ih =>
    rw [Registry.enrich_store]
    exact ih.updateAll _ _
  | merge _ _ below above => exact below.merge above

end InfraScan
