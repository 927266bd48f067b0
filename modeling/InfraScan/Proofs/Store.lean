import InfraScan.Fault
import InfraScan.Proofs.OrderedMap
import InfraScan.Store

/-!
# Updates of a store

Enrichment changes a store in one way only: for one key and one category it either writes a
slot or drops it.  Such a change is an `update` here, and every law of enrichment is a law of
updates carried along a list of them.

* `SlotUpdate`, `ContextStore.update`, `ContextStore.updateAll` — one change and several
* `ContextStore.updateAll_congr` — why a slot is dropped does not matter
* `ContextStore.update_eq_hold` — an update as the one new thing that its key holds
* `ContextStore.get?_updateAll`, `ContextStore.category?_updateAll` — what is held afterwards
* `ContextStore.keys_updateAll_others` — the other keys keep their order
* `ContextStore.NoHollowKey` — no key is held without a category
* `ContextStore.updateAll_of_settled` — updates that are done already
* `ContextStore.mapEntries` — the same store with other entries
* `ContextStore.RenamedBy` — the same store under other keys

### What is load-bearing

Dropping the last category of a key removes the key.  `revise` says what that means for the
categories of the one key concerned, with no store around it, so that two stores which agree
on a key go on agreeing on it whatever else they hold.
-/

namespace InfraScan

/-- What happens to one category of a key: its slot is written, or dropped for a fault. -/
abbrev SlotUpdate := String × Except Fault CategoryContexts

/-- The update with other entries. -/
def SlotUpdate.mapEntries (f : BlockEntry → BlockEntry) (change : SlotUpdate) : SlotUpdate :=
  (change.1, change.2.map (OrderedMap.mapValues f))

/-- What an update does: the contexts that its slot gets, or nothing where it drops the
slot. -/
def SlotUpdate.effect (change : SlotUpdate) : String × Option CategoryContexts :=
  (change.1, change.2.toOption)

namespace ContextStore

/-- One update of a key. -/
def update (store : ContextStore) (key : StoreKey) (change : SlotUpdate) : ContextStore :=
  match change.2 with
  | .ok slot => store.setCategory key change.1 slot
  | .error _ => store.removeCategory key change.1

/-- Several updates of a key, one after another. -/
def updateAll (store : ContextStore) (key : StoreKey) (changes : List SlotUpdate) :
    ContextStore :=
  changes.foldl (fun acc change => acc.update key change) store

@[simp] theorem updateAll_nil (store : ContextStore) (key : StoreKey) :
    store.updateAll key [] = store := rfl

@[simp] theorem updateAll_cons (store : ContextStore) (key : StoreKey) (change : SlotUpdate)
    (rest : List SlotUpdate) :
    store.updateAll key (change :: rest) = (store.update key change).updateAll key rest := rfl

theorem update_congr (store : ContextStore) (key : StoreKey) {change change' : SlotUpdate}
    (same : change.effect = change'.effect) :
    store.update key change = store.update key change' := by
  obtain ⟨category, result⟩ := change
  obtain ⟨category', result'⟩ := change'
  obtain ⟨rfl, outcomes⟩ := Prod.mk.inj same
  cases result <;> cases result' <;> cases outcomes <;> rfl

/-- **For the store it makes no difference why a slot is dropped.** -/
theorem updateAll_congr (store : ContextStore) (key : StoreKey)
    {changes changes' : List SlotUpdate}
    (same : changes.map SlotUpdate.effect = changes'.map SlotUpdate.effect) :
    store.updateAll key changes = store.updateAll key changes' := by
  induction changes generalizing changes' store with
  | nil =>
    obtain rfl := List.map_eq_nil_iff.1 same.symm
    rfl
  | cons change rest ih =>
    obtain ⟨change', rest', rfl, sameHead, sameRest⟩ := List.map_eq_cons_iff.1 same.symm
    rw [updateAll_cons, updateAll_cons, store.update_congr key sameHead, ih _ sameRest.symm]

/-! ### What an update is -/

/-- **What an update makes of the categories held at its key.**  A key is held only as long as
it has a category. -/
def revise (held : Option FileContexts) (change : SlotUpdate) : Option FileContexts :=
  match change.2 with
  | .ok slot => some ((held.getD ∅).insert change.1 slot)
  | .error _ => (held.map (·.erase change.1)).filter fun left => !left.isEmpty

/-- The store with other categories at one key, or without the key. -/
def hold (store : ContextStore) (key : StoreKey) : Option FileContexts → ContextStore
  | some categories => ⟨store.entries.insert key categories⟩
  | none => ⟨store.entries.erase key⟩

/-- **An update gives its key what `revise` makes of it**, and does nothing else.  Dropping a
slot of a key that is not held comes to removing the key once more. -/
theorem update_eq_hold (store : ContextStore) (key : StoreKey) (change : SlotUpdate) :
    store.update key change = store.hold key (revise (store.get? key) change) := by
  obtain ⟨category, result⟩ := change
  cases result with
  | ok slot => rfl
  | error cause =>
    cases held : store.get? key with
    | none =>
      have absent : store.entries.erase key = store.entries :=
        OrderedMap.erase_of_get?_eq_none held
      simp [update, removeCategory, held, revise, hold, absent]
    | some categories =>
      cases hollow : (categories.erase category).isEmpty <;>
        simp [update, removeCategory, held, hollow, revise, Option.filter_some, hold]

theorem get?_hold (store : ContextStore) (key other : StoreKey) (held : Option FileContexts) :
    (store.hold key held).get? other = if key = other then held else store.get? other := by
  cases held with
  | none => exact OrderedMap.get?_erase _ _ _
  | some categories => exact OrderedMap.get?_insert _ _ _ _

/-! ### What is held at a key -/

/-- **An update changes what its own key holds, and nothing else.** -/
theorem get?_update (store : ContextStore) (key other : StoreKey) (change : SlotUpdate) :
    (store.update key change).get? other =
      if key = other then revise (store.get? key) change else store.get? other := by
  rw [update_eq_hold, get?_hold]

/-- Several updates revise what their key holds in turn. -/
theorem get?_updateAll (store : ContextStore) (key other : StoreKey)
    (changes : List SlotUpdate) :
    (store.updateAll key changes).get? other =
      if key = other then changes.foldl revise (store.get? key) else store.get? other := by
  induction changes generalizing store with
  | nil => by_cases same : key = other <;> simp [same]
  | cons change rest ih =>
    rw [updateAll_cons, ih, get?_update, get?_update, List.foldl_cons]
    by_cases same : key = other <;> simp [same]

/-! ### What is held in a slot -/

/-- The slot of a category among the categories held at a key. -/
theorem bind_revise (held : Option FileContexts) (change : SlotUpdate) (category : String) :
    (revise held change).bind (·.get? category) =
      if change.1 = category then change.2.toOption else held.bind (·.get? category) := by
  obtain ⟨changed, result⟩ := change
  cases result with
  | ok slot =>
    cases held with
    | none => by_cases same : changed = category <;> simp [revise, same, Except.toOption]
    | some categories =>
      by_cases same : changed = category <;> simp [revise, same, Except.toOption]
  | error cause =>
    cases held with
    | none => simp [revise, Except.toOption]
    | some categories =>
      cases hollow : (categories.erase changed).isEmpty with
      | false =>
        by_cases same : changed = category <;>
          simp [revise, Option.filter_some, hollow, same, Except.toOption]
      | true =>
        -- The key goes with its last category, so the slot asked for was that one or was
        -- absent.
        have absent := OrderedMap.isEmpty_iff.1 hollow category
        rw [OrderedMap.get?_erase] at absent
        by_cases same : changed = category
        · simp [revise, Option.filter_some, same, Except.toOption]
        · simpa [revise, Option.filter_some, hollow, same] using absent.symm

/-- **A slot after an update**: the one written or dropped, or else what it was. -/
theorem category?_update (store : ContextStore) (key other : StoreKey) (change : SlotUpdate)
    (category : String) :
    (store.update key change).category? other category =
      if key = other ∧ change.1 = category then change.2.toOption
      else store.category? other category := by
  rw [category?, get?_update]
  by_cases same : key = other
  · subst same
    simp [bind_revise, category?]
  · simp [same, category?]

/-- The slots of other keys, and the slots of other categories of the same key, are not
touched. -/
theorem category?_updateAll_of_not (store : ContextStore) (key other : StoreKey)
    (changes : List SlotUpdate) (category : String)
    (elsewhere : ¬(key = other ∧ category ∈ changes.map Prod.fst)) :
    (store.updateAll key changes).category? other category =
      store.category? other category := by
  induction changes generalizing store with
  | nil => rfl
  | cons change rest ih =>
    rw [List.map_cons, List.mem_cons] at elsewhere
    rw [updateAll_cons, ih _ fun later =>
      elsewhere ⟨later.1, Or.inr later.2⟩, category?_update,
      if_neg fun now => elsewhere ⟨now.1, Or.inl now.2.symm⟩]

/-- Where each category is updated once, its slot is what its own update made of it. -/
theorem category?_updateAll (store : ContextStore) (key : StoreKey)
    {changes : List SlotUpdate} (distinct : (changes.map Prod.fst).Nodup)
    {change : SlotUpdate} (mem : change ∈ changes) :
    (store.updateAll key changes).category? key change.1 = change.2.toOption := by
  induction changes generalizing store with
  | nil => simp at mem
  | cons first rest ih =>
    rw [List.map_cons, List.nodup_cons] at distinct
    rw [updateAll_cons]
    rcases List.mem_cons.1 mem with rfl | later
    · rw [category?_updateAll_of_not _ _ _ _ _ fun later =>
        distinct.1 later.2, category?_update, if_pos ⟨rfl, rfl⟩]
    · exact ih _ distinct.2 later

/-! ### The order of the keys -/

/-- The keys after an update: its key stands where it stood, or last, or is gone. -/
theorem keys_update (store : ContextStore) (key : StoreKey) (change : SlotUpdate) :
    (store.update key change).keys = store.keys ∨
      (store.update key change).keys = store.keys ++ [key] ∨
      (store.update key change).keys = store.keys.filter fun k => k ≠ key := by
  rw [update_eq_hold]
  cases revise (store.get? key) change with
  | none => exact Or.inr (Or.inr (OrderedMap.keys_erase store.entries key))
  | some categories =>
    -- Writing a key that is there does not move it; a key that went earlier comes back last.
    have written := OrderedMap.keys_insert store.entries key categories
    by_cases present : key ∈ store.entries.keys
    · rw [if_pos present] at written
      exact Or.inl written
    · rw [if_neg present] at written
      exact Or.inr (Or.inl written)

/-- **The other keys keep their order.** -/
theorem keys_updateAll_others (store : ContextStore) (key : StoreKey)
    (changes : List SlotUpdate) :
    ((store.updateAll key changes).keys.filter fun k => k ≠ key) =
      store.keys.filter fun k => k ≠ key := by
  induction changes generalizing store with
  | nil => rfl
  | cons change rest ih =>
    rw [updateAll_cons, ih]
    rcases keys_update store key change with same | added | removed
    · rw [same]
    · simp [added, List.filter_append]
    · simp [removed, List.filter_filter]

/-- Updates of a key bring in no other key. -/
theorem mem_keys_of_updateAll {store : ContextStore} {key other : StoreKey}
    (changes : List SlotUpdate) (present : other ∈ (store.updateAll key changes).keys) :
    other = key ∨ other ∈ store.keys := by
  by_cases same : other = key
  · exact Or.inl same
  · have kept : other ∈ (store.updateAll key changes).keys.filter fun k => k ≠ key :=
      List.mem_filter.2 ⟨present, by simpa using same⟩
    rw [keys_updateAll_others] at kept
    exact Or.inr (List.mem_filter.1 kept).1

/-! ### Keys without categories -/

/-- **No key is held without a category.** -/
def NoHollowKey (store : ContextStore) : Prop :=
  ∀ key categories, store.get? key = some categories → categories.isEmpty = false

theorem noHollowKey_empty : NoHollowKey empty := by
  intro key categories held
  simp [get?, empty] at held

theorem NoHollowKey.update {store : ContextStore} (sound : store.NoHollowKey) (key : StoreKey)
    (change : SlotUpdate) : (store.update key change).NoHollowKey := by
  intro other categories held
  rw [get?_update] at held
  split at held
  · obtain ⟨category, result⟩ := change
    cases result with
    | ok slot =>
      obtain rfl := Option.some.inj held
      exact OrderedMap.isEmpty_insert _ _ _
    | error cause =>
      -- What is left of a key after a removal is held only if it is not empty.
      simpa using (Option.filter_eq_some_iff.1 held).2
  · exact sound other categories held

theorem NoHollowKey.updateAll {store : ContextStore} (sound : store.NoHollowKey)
    (key : StoreKey) (changes : List SlotUpdate) :
    (store.updateAll key changes).NoHollowKey := by
  induction changes generalizing store with
  | nil => exact sound
  | cons change rest ih => exact ih (sound.update key change)

theorem NoHollowKey.overlayKey {store : ContextStore} (sound : store.NoHollowKey)
    (key : StoreKey) {categories : FileContexts} (inhabited : categories.isEmpty = false) :
    (store.overlayKey key categories).NoHollowKey := by
  intro other held found
  change (store.entries.insert key _).get? other = some held at found
  rw [OrderedMap.get?_insert] at found
  split at found
  · obtain rfl := Option.some.inj found
    exact OrderedMap.isEmpty_overlay _ inhabited
  · exact sound other held found

/-- Merging brings in only keys that are held with a category. -/
theorem NoHollowKey.merge {lower upper : ContextStore} (below : lower.NoHollowKey)
    (above : upper.NoHollowKey) : (lower.merge upper).NoHollowKey := by
  have inhabited : ∀ entry ∈ upper.entries.toList, entry.2.isEmpty = false :=
    fun entry mem => above entry.1 entry.2 (OrderedMap.mem_toList_iff.1 mem)
  rw [ContextStore.merge]
  generalize upper.entries.toList = entries at inhabited ⊢
  induction entries generalizing lower with
  | nil => exact below
  | cons entry rest ih =>
    exact ih (below.overlayKey entry.1 (inhabited entry List.mem_cons_self))
      fun other mem => inhabited other (List.mem_cons_of_mem _ mem)

/-- Where no key is hollow, a key is held exactly as long as one of its slots is. -/
theorem NoHollowKey.mem_keys_iff {store : ContextStore} (sound : store.NoHollowKey)
    (key : StoreKey) :
    key ∈ store.keys ↔ ∃ category, (store.category? key category).isSome = true := by
  rw [keys, OrderedMap.mem_keys_iff]
  constructor
  · intro present
    obtain ⟨categories, held⟩ := Option.isSome_iff_exists.1 present
    have inhabited := sound key categories held
    rw [Bool.eq_false_iff, ne_eq, OrderedMap.isEmpty_iff, not_forall] at inhabited
    obtain ⟨category, slot⟩ := inhabited
    refine ⟨category, ?_⟩
    rw [category?, get?, held]
    exact Option.ne_none_iff_isSome.1 slot
  · rintro ⟨category, slot⟩
    cases held : store.entries.get? key with
    | none => simp [category?, get?, held] at slot
    | some categories => rfl

/-! ### Updates that are done already -/

/-- Giving a key what it holds changes nothing. -/
theorem hold_get? (store : ContextStore) (key : StoreKey) :
    store.hold key (store.get? key) = store := by
  cases held : store.get? key with
  | none => exact congrArg ContextStore.mk (OrderedMap.erase_of_get?_eq_none held)
  | some categories => exact congrArg ContextStore.mk (OrderedMap.insert_of_get?_eq_some held)

/-- **An update whose slot is as it leaves it changes nothing**, not even a position. -/
theorem NoHollowKey.update_of_settled {store : ContextStore} (sound : store.NoHollowKey)
    {key : StoreKey} {change : SlotUpdate}
    (settled : store.category? key change.1 = change.2.toOption) :
    store.update key change = store := by
  have unchanged : revise (store.get? key) change = store.get? key := by
    obtain ⟨category, result⟩ := change
    rw [category?] at settled
    cases held : store.get? key with
    | none =>
      rw [held] at settled
      cases result with
      | ok slot => cases settled
      | error cause => rfl
    | some categories =>
      rw [held, Option.bind_some] at settled
      cases result with
      | ok slot => exact congrArg some (OrderedMap.insert_of_get?_eq_some settled)
      | error cause =>
        -- Nothing is there to be dropped, and the key is not empty to begin with.
        rw [revise, Option.map_some, OrderedMap.erase_of_get?_eq_none settled,
          Option.filter_some, sound key categories held]
        rfl
  rw [update_eq_hold, unchanged, hold_get?]

theorem NoHollowKey.updateAll_of_settled {store : ContextStore} (sound : store.NoHollowKey)
    {key : StoreKey} {changes : List SlotUpdate}
    (settled : ∀ change ∈ changes, store.category? key change.1 = change.2.toOption) :
    store.updateAll key changes = store := by
  induction changes with
  | nil => rfl
  | cons change rest ih =>
    rw [updateAll_cons, sound.update_of_settled (settled change List.mem_cons_self)]
    exact ih fun other mem => settled other (List.mem_cons_of_mem _ mem)

/-! ### Other entries under the same ids -/

/-- **The store with other entries.**  Keys, categories and block ids stay where they are. -/
def mapEntries (f : BlockEntry → BlockEntry) (store : ContextStore) : ContextStore :=
  ⟨store.entries.mapValues (OrderedMap.mapValues (OrderedMap.mapValues f))⟩

theorem get?_mapEntries (f : BlockEntry → BlockEntry) (store : ContextStore)
    (key : StoreKey) :
    (store.mapEntries f).get? key =
      (store.get? key).map (OrderedMap.mapValues (OrderedMap.mapValues f)) :=
  OrderedMap.get?_mapValues _ _ _

theorem mapEntries_hold (f : BlockEntry → BlockEntry) (store : ContextStore) (key : StoreKey)
    (held : Option FileContexts) :
    (store.hold key held).mapEntries f =
      (store.mapEntries f).hold key
        (held.map (OrderedMap.mapValues (OrderedMap.mapValues f))) := by
  cases held with
  | none => exact congrArg ContextStore.mk (OrderedMap.mapValues_erase _ _ _)
  | some categories => exact congrArg ContextStore.mk (OrderedMap.mapValues_insert _ _ _ _)

theorem map_revise (f : BlockEntry → BlockEntry) (held : Option FileContexts)
    (change : SlotUpdate) :
    (revise held change).map (OrderedMap.mapValues (OrderedMap.mapValues f)) =
      revise (held.map (OrderedMap.mapValues (OrderedMap.mapValues f)))
        (SlotUpdate.mapEntries f change) := by
  obtain ⟨category, result⟩ := change
  cases result with
  | ok slot =>
    cases held with
    | none => exact congrArg some (OrderedMap.mapValues_insert _ _ _ _)
    | some categories => exact congrArg some (OrderedMap.mapValues_insert _ _ _ _)
  | error cause =>
    cases held with
    | none => rfl
    | some categories =>
      cases hollow : (categories.erase category).isEmpty <;>
        simp [revise, SlotUpdate.mapEntries, Except.map, Option.filter_some, hollow,
          ← OrderedMap.mapValues_erase]

theorem mapEntries_updateAll (f : BlockEntry → BlockEntry) (store : ContextStore)
    (key : StoreKey) (changes : List SlotUpdate) :
    (store.updateAll key changes).mapEntries f =
      (store.mapEntries f).updateAll key (changes.map (SlotUpdate.mapEntries f)) := by
  induction changes generalizing store with
  | nil => rfl
  | cons change rest ih =>
    rw [updateAll_cons, ih, List.map_cons, updateAll_cons, update_eq_hold, update_eq_hold,
      mapEntries_hold, map_revise, get?_mapEntries]

/-! ### Other names for the keys -/

/-- **The same store under other keys**: one key after another is renamed, and what it holds
stays. -/
def RenamedBy (rename : StoreKey → StoreKey) (store renamed : ContextStore) : Prop :=
  renamed.entries.toList = store.entries.toList.map (Prod.map rename id)

namespace RenamedBy

variable {rename : StoreKey → StoreKey} {store renamed : ContextStore}

theorem get? (alike : RenamedBy rename store renamed) {key : StoreKey}
    (apart : ∀ k ∈ store.keys, rename k = rename key → k = key) :
    renamed.get? (rename key) = store.get? key := by
  have found := OrderedMap.look_map rename (id : FileContexts → FileContexts)
    fun entry mem => apart entry.1 (List.mem_map_of_mem mem)
  rw [Option.map_id_fun, id, ← alike] at found
  exact found

theorem hold (alike : RenamedBy rename store renamed) {key : StoreKey}
    (apart : ∀ k ∈ store.keys, rename k = rename key → k = key) (held : Option FileContexts) :
    RenamedBy rename (store.hold key held) (renamed.hold (rename key) held) := by
  have apart' : ∀ entry ∈ store.entries.toList, rename entry.1 = rename key → entry.1 = key :=
    fun entry mem => apart entry.1 (List.mem_map_of_mem mem)
  cases held with
  | none =>
    have dropped := OrderedMap.map_drop rename (id : FileContexts → FileContexts) apart'
    rw [← alike] at dropped
    exact dropped.symm
  | some categories =>
    have written :=
      OrderedMap.map_put rename (id : FileContexts → FileContexts) categories apart'
    rw [← alike] at written
    exact written.symm

/-- Updates of a key and the same updates of the renamed key keep two stores alike, provided
no other key of the store takes the new name. -/
theorem updateAll (alike : RenamedBy rename store renamed) {key : StoreKey}
    (apart : ∀ k ∈ store.keys, rename k = rename key → k = key) (changes : List SlotUpdate) :
    RenamedBy rename (store.updateAll key changes)
      (renamed.updateAll (rename key) changes) := by
  induction changes generalizing store renamed with
  | nil => exact alike
  | cons change rest ih =>
    rw [updateAll_cons, updateAll_cons]
    refine ih ?_ fun k mem => ?_
    · rw [update_eq_hold, update_eq_hold, alike.get? apart]
      exact alike.hold apart _
    · rcases mem_keys_of_updateAll [change] mem with same | earlier
      · exact fun _ => same
      · exact apart k earlier

end RenamedBy

end ContextStore

end InfraScan
