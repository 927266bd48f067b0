import InfraScan.Proofs.Store

/-!
# Merging stores

Merging writes the slots of one store over another and drops none.  Both levels of a store
keep their order: what is below stays where it is, and what only the upper store has follows
in the order in which it stands there.

* `ContextStore.ext_keys_get?` — a store is known by its keys and by what they hold
* `ContextStore.keys_merge`, `ContextStore.get?_merge`, `ContextStore.category?_merge` — the
  keys, the categories of a key, and the slots of a merged store
* `ContextStore.merge_hold_some`, `ContextStore.merge_hold_of_absent` — giving a key other
  categories, before a merge or after it
* `ContextStore.merge_update`, `ContextStore.merge_updateAll` — updates before a merge or
  after it
* `ContextStore.merge_foldl_updateAll` — the same for updates of many keys
* `ContextStore.merge_assoc`, `ContextStore.empty_merge`, `ContextStore.merge_self` — stores
  may be merged in any grouping, and a store twice
* `ContextStore.merge_idempotent_monoid` — the laws of merging together

### What is load-bearing

An update of the upper store comes to the same update of the merged store, with one exception:
dropping a slot that the lower store has as well.  Before the merge nothing is dropped from
the lower store, after it the slot is gone.  So an update has to write, or its key has to be
absent below.
-/

namespace InfraScan.ContextStore

/-- **A store is known by its keys in order and by what they hold.** -/
theorem ext_keys_get? {a b : ContextStore} (sameKeys : a.keys = b.keys)
    (sameHeld : ∀ key, a.get? key = b.get? key) : a = b := by
  obtain ⟨left⟩ := a
  obtain ⟨right⟩ := b
  exact congrArg ContextStore.mk (OrderedMap.ext_keys_get? sameKeys sameHeld)

/-! ### What a merged store holds -/

theorem get?_overlayKey (store : ContextStore) (key other : StoreKey)
    (categories : FileContexts) :
    (store.overlayKey key categories).get? other =
      if key = other then some (((store.get? key).getD ∅).overlay categories)
      else store.get? other :=
  OrderedMap.get?_insert _ _ _ _

/-- **The keys of a merged store**: those below, then those that only the upper store has. -/
theorem keys_merge (lower upper : ContextStore) :
    (lower.merge upper).keys = lower.keys ++ upper.keys.filter fun key => key ∉ lower.keys :=
  OrderedMap.keys_foldl (fun store _ => OrderedMap.keys_insert store.entries _ _)
    upper.entries.nodup_keys lower

/-- **What a key of a merged store holds**: the categories of the upper store over those
below. -/
theorem get?_merge (lower upper : ContextStore) (key : StoreKey) :
    (lower.merge upper).get? key =
      ((upper.get? key).map ((lower.get? key).getD ∅).overlay).or (lower.get? key) := by
  have distinct := upper.entries.nodup_keys
  rw [merge]
  show _ =
    ((OrderedMap.look key upper.entries.toList).map ((lower.get? key).getD ∅).overlay).or
      (lower.get? key)
  generalize upper.entries.toList = entries at distinct ⊢
  induction entries generalizing lower with
  | nil => rfl
  | cons entry rest ih =>
    obtain ⟨k, categories⟩ := entry
    rw [List.map_cons, List.nodup_cons] at distinct
    rw [List.foldl_cons, ih _ distinct.2, get?_overlayKey]
    by_cases same : k = key
    · -- The key comes once, so nothing later is written over it.
      subst same
      simp [OrderedMap.look, OrderedMap.look_eq_none_iff.2 distinct.1]
    · simp [OrderedMap.look, same]

/-- **A slot of a merged store** is that of the upper store if it has one.  Slots are not
mixed. -/
theorem category?_merge (lower upper : ContextStore) (key : StoreKey) (category : String) :
    (lower.merge upper).category? key category =
      (upper.category? key category).or (lower.category? key category) := by
  rw [category?, get?_merge, category?, category?]
  cases upper.get? key <;> cases lower.get? key <;> simp

/-- The categories of a key, in order; none when the key is not held. -/
def categoriesAt (store : ContextStore) (key : StoreKey) : List String :=
  ((store.get? key).map OrderedMap.keys).getD []

/-- **The categories of a key of a merged store**: those below, then those that only the upper
store has under this key. -/
theorem categoriesAt_merge (lower upper : ContextStore) (key : StoreKey) :
    (lower.merge upper).categoriesAt key =
      lower.categoriesAt key ++
        (upper.categoriesAt key).filter fun category =>
          category ∉ lower.categoriesAt key := by
  unfold categoriesAt
  rw [get?_merge]
  cases lower.get? key <;> cases upper.get? key <;> simp [OrderedMap.keys_overlay]

theorem merge_empty (lower : ContextStore) : lower.merge empty = lower := rfl

theorem empty_merge (upper : ContextStore) : empty.merge upper = upper := by
  refine ext_keys_get? ?_ fun key => ?_
  · rw [keys_merge]
    exact List.filter_eq_self.2 fun key _ => rfl
  · have nothing : empty.get? key = none := rfl
    rw [get?_merge, nothing]
    cases upper.get? key <;> simp

/-! ### Updates before a merge -/

theorem keys_hold_some (store : ContextStore) (key : StoreKey) (categories : FileContexts) :
    (store.hold key (some categories)).keys =
      if key ∈ store.keys then store.keys else store.keys ++ [key] :=
  OrderedMap.keys_insert store.entries key categories

theorem keys_hold_none (store : ContextStore) (key : StoreKey) :
    (store.hold key none).keys = store.keys.filter fun k => k ≠ key :=
  OrderedMap.keys_erase store.entries key

/-- Categories given to a key of the upper store are written over those below. -/
theorem merge_hold_some (lower upper : ContextStore) (key : StoreKey)
    (categories : FileContexts) :
    lower.merge (upper.hold key (some categories)) =
      (lower.merge upper).hold key (some (((lower.get? key).getD ∅).overlay categories)) := by
  refine ext_keys_get? ?_ fun other => ?_
  · rw [keys_merge, keys_hold_some, keys_hold_some, keys_merge]
    by_cases above : key ∈ upper.keys <;> by_cases below : key ∈ lower.keys <;>
      simp [above, below, List.filter_append]
  · rw [get?_merge, get?_hold, get?_hold, get?_merge]
    by_cases same : key = other
    · subst same
      simp
    · simp [same]

/-- A key that the lower store does not hold may be given other categories, or none, before a
merge or after it. -/
theorem merge_hold_of_absent {lower : ContextStore} (upper : ContextStore) {key : StoreKey}
    (absent : lower.get? key = none) (held : Option FileContexts) :
    lower.merge (upper.hold key held) = (lower.merge upper).hold key held := by
  cases held with
  | some categories =>
    rw [merge_hold_some, absent, Option.getD_none, OrderedMap.empty_overlay]
  | none =>
    have below : ∀ k ∈ lower.keys, decide (k ≠ key) = true := by
      intro k mem
      have different : k ≠ key :=
        fun same => OrderedMap.get?_eq_none_iff.1 absent (same ▸ mem)
      simpa using different
    refine ext_keys_get? ?_ fun other => ?_
    · rw [keys_merge, keys_hold_none, keys_hold_none, keys_merge, List.filter_append,
        List.filter_eq_self.2 below, List.filter_filter, List.filter_filter]
      simp only [Bool.and_comm]
    · rw [get?_merge, get?_hold, get?_hold, get?_merge]
      by_cases same : key = other
      · subst same
        simp [absent]
      · simp [same]

/-- **An update before a merge is the same update after it**, provided it writes its slot or
the lower store does not hold its key. -/
theorem merge_update {lower : ContextStore} (upper : ContextStore) {key : StoreKey}
    {change : SlotUpdate}
    (kept : lower.get? key = none ∨ ∃ slot, change.2 = .ok slot) :
    lower.merge (upper.update key change) = (lower.merge upper).update key change := by
  rw [update_eq_hold, update_eq_hold]
  rcases kept with absent | ⟨slot, writes⟩
  · have held : (lower.merge upper).get? key = upper.get? key := by
      rw [get?_merge, absent]
      cases upper.get? key <;> simp
    rw [merge_hold_of_absent upper absent, held]
  · have revised (held : Option FileContexts) :
        revise held change = some ((held.getD ∅).insert change.1 slot) := by
      rw [revise, writes]
    rw [revised, revised, merge_hold_some, OrderedMap.overlay_insert, get?_merge]
    cases upper.get? key <;> simp

theorem merge_updateAll {lower : ContextStore} (upper : ContextStore) {key : StoreKey}
    {changes : List SlotUpdate}
    (kept : lower.get? key = none ∨ ∀ change ∈ changes, ∃ slot, change.2 = .ok slot) :
    lower.merge (upper.updateAll key changes) =
      (lower.merge upper).updateAll key changes := by
  induction changes generalizing upper with
  | nil => rfl
  | cons change rest ih =>
    have first := kept.imp_right fun writes => writes change List.mem_cons_self
    have others := kept.imp_right fun writes other mem =>
      writes other (List.mem_cons_of_mem _ mem)
    rw [updateAll_cons, updateAll_cons, ih _ others, merge_update upper first]

/-- **Updates of many keys before a merge are the same updates after it**, under the same
proviso for each of them. -/
theorem merge_foldl_updateAll {lower : ContextStore} (upper : ContextStore)
    {updates : List (StoreKey × List SlotUpdate)}
    (kept : ∀ entry ∈ updates, lower.get? entry.1 = none ∨
      ∀ change ∈ entry.2, ∃ slot, change.2 = .ok slot) :
    lower.merge (updates.foldl (fun acc entry => acc.updateAll entry.1 entry.2) upper) =
      updates.foldl (fun acc entry => acc.updateAll entry.1 entry.2) (lower.merge upper) := by
  induction updates generalizing upper with
  | nil => rfl
  | cons entry rest ih =>
    have later := ih (upper.updateAll entry.1 entry.2) fun other mem =>
      kept other (List.mem_cons_of_mem _ mem)
    rw [merge_updateAll upper (kept entry List.mem_cons_self)] at later
    exact later

/-! ### The laws of merging -/

theorem merge_self (store : ContextStore) : store.merge store = store := by
  refine ext_keys_get? ?_ fun key => ?_
  · simp [keys_merge]
  · rw [get?_merge]
    cases store.get? key <;> simp

/-- **Stores may be merged in any grouping.** -/
theorem merge_assoc (lower middle upper : ContextStore) :
    (lower.merge middle).merge upper = lower.merge (middle.merge upper) := by
  refine ext_keys_get? ?_ fun key => ?_
  · rw [keys_merge, keys_merge, keys_merge, keys_merge]
    exact OrderedMap.append_filter_notMem_assoc lower.keys middle.keys upper.keys
  · rw [get?_merge, get?_merge, get?_merge, get?_merge]
    cases lower.get? key <;> cases middle.get? key <;> cases upper.get? key <;>
      simp [OrderedMap.overlay_assoc]

/-- **Merging is a monoid in which every store is idempotent**, and keeps positions.  The
stores may be any stores, with or without a scan that leads to them.

* Three stores are merged to the same store in either grouping.
* The empty store changes nothing, neither as the upper nor as the lower one, and a store that
  is merged into itself is unchanged.
* A slot is that of the upper store if it has one, and else that of the lower store.  Slots
  are taken whole, so the blocks of one slot are never mixed with those of another.
* The keys of the lower store stand where they stood, and so do the categories of each key;
  what only the upper store has follows in the order in which it stands there. -/
theorem merge_idempotent_monoid (lower middle upper : ContextStore) :
    (lower.merge middle).merge upper = lower.merge (middle.merge upper) ∧
    lower.merge empty = lower ∧
    empty.merge lower = lower ∧
    lower.merge lower = lower ∧
    (∀ key category, (lower.merge upper).category? key category =
      (upper.category? key category).or (lower.category? key category)) ∧
    (lower.merge upper).keys = lower.keys ++ upper.keys.filter (fun key => key ∉ lower.keys) ∧
    ∀ key, (lower.merge upper).categoriesAt key =
      lower.categoriesAt key ++
        (upper.categoriesAt key).filter fun category => category ∉ lower.categoriesAt key :=
  ⟨merge_assoc lower middle upper, merge_empty lower, empty_merge lower, merge_self lower,
    category?_merge lower upper, keys_merge lower upper, categoriesAt_merge lower upper⟩

end InfraScan.ContextStore
