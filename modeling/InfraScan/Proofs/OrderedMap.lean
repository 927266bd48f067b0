import InfraScan.OrderedMap
import Mathlib.Data.List.Nodup

/-!
# Laws of maps in insertion order

`InfraScan.OrderedMap` says of each operation what it does to the list of entries.  This
module turns that into laws of the two views that everything above works with: what a look-up
finds, and in which order the keys stand.

* `drop_eq_filter` — removal keeps the order of what stays
* `get?_erase`, `get?_swapErase`, `get?_insertAll`, `get?_ofList` — the look-ups after each
  operation
* `keys_swapErase` — the order of keys after one is removed by a swap
* `mem_toList_iff` — an entry of the list is a look-up that succeeds
* `ext_keys_get?` — a map is known by its keys and its look-ups
* `keys_overlay`, `get?_overlay` — one map written over another
* `overlay_assoc`, `overlay_self` — several maps written over another, and one over itself
* `mapValues` — another value at every key, all positions kept
* `map_put`, `map_drop`, `look_map` — keys renamed without a clash
-/

namespace InfraScan.OrderedMap

universe u v w

variable {κ : Type u} {ν : Type v} {μ : Type w}

/-! ### Look-ups in lists of pairs -/

section Pairs

variable [DecidableEq κ]

theorem look_eq_none_iff {key : κ} {pairs : List (κ × ν)} :
    look key pairs = none ↔ key ∉ pairs.map Prod.fst := by
  induction pairs with
  | nil => simp [look]
  | cons pair rest ih =>
    obtain ⟨k, v⟩ := pair
    by_cases same : k = key
    · simp [look, same]
    · simp [look, same, ih, Ne.symm same]

theorem look_append (key : κ) (front back : List (κ × ν)) :
    look key (front ++ back) = (look key front).or (look key back) := by
  induction front with
  | nil => simp [look]
  | cons pair rest ih =>
    obtain ⟨k, v⟩ := pair
    by_cases same : k = key
    · simp [look, same]
    · simp [look, same, ih]

theorem mem_of_look {key : κ} {value : ν} {pairs : List (κ × ν)}
    (found : look key pairs = some value) : (key, value) ∈ pairs := by
  induction pairs with
  | nil => simp [look] at found
  | cons pair rest ih =>
    obtain ⟨k, v⟩ := pair
    unfold look at found
    split at found
    · rename_i same
      simp only [Option.some.injEq] at found
      rw [same, found]
      exact List.mem_cons_self
    · exact List.mem_cons_of_mem _ (ih found)

/-- Where keys are distinct, a pair of the list is what a look-up finds. -/
theorem look_eq_some_iff {key : κ} {value : ν} {pairs : List (κ × ν)}
    (distinct : (pairs.map Prod.fst).Nodup) :
    look key pairs = some value ↔ (key, value) ∈ pairs := by
  refine ⟨mem_of_look, fun mem => ?_⟩
  induction pairs with
  | nil => simp at mem
  | cons pair rest ih =>
    obtain ⟨k, v⟩ := pair
    rw [List.map_cons, List.nodup_cons] at distinct
    rcases List.mem_cons.1 mem with here | later
    · obtain ⟨rfl, rfl⟩ := Prod.mk.inj here
      simp [look]
    · have different : k ≠ key := fun same =>
        distinct.1 (List.mem_map.2 ⟨_, later, same.symm⟩)
      simp [look, different, ih distinct.2 later]

/-- Where keys are distinct, the order of the pairs does not matter to a look-up. -/
theorem look_perm {key : κ} {front back : List (κ × ν)} (perm : front.Perm back)
    (distinct : (front.map Prod.fst).Nodup) : look key front = look key back := by
  have distinct' := (perm.map Prod.fst).nodup_iff.1 distinct
  refine Option.ext fun value => ?_
  rw [look_eq_some_iff distinct, look_eq_some_iff distinct', perm.mem_iff]

theorem look_filter_ne (key k : κ) (pairs : List (κ × ν)) :
    look k (pairs.filter fun pair => pair.1 ≠ key) =
      if key = k then none else look k pairs := by
  induction pairs with
  | nil => simp [look]
  | cons pair rest ih =>
    obtain ⟨k', v⟩ := pair
    by_cases dropped : k' = key
    · subst dropped
      rw [List.filter_cons_of_neg (by simp), ih]
      by_cases same : k' = k <;> simp [look, same]
    · rw [List.filter_cons_of_pos (by simpa using dropped)]
      by_cases here : k' = k
      · subst here
        simp [look, Ne.symm dropped]
      · simp only [look, here, if_false]
        exact ih

/-- **Removal keeps the order of what stays.** -/
theorem drop_eq_filter {key : κ} {pairs : List (κ × ν)}
    (distinct : (pairs.map Prod.fst).Nodup) :
    drop key pairs = pairs.filter fun pair => pair.1 ≠ key := by
  induction pairs with
  | nil => rfl
  | cons pair rest ih =>
    obtain ⟨k, v⟩ := pair
    rw [List.map_cons, List.nodup_cons] at distinct
    by_cases same : k = key
    · subst same
      have others : ∀ pair ∈ rest, decide (pair.1 ≠ k) = true := by
        intro pair mem
        have different : pair.1 ≠ k := fun same => distinct.1 (List.mem_map.2 ⟨_, mem, same⟩)
        simpa using different
      rw [List.filter_cons_of_neg (by simp), List.filter_eq_self.2 others]
      simp [drop]
    · rw [List.filter_cons_of_pos (by simpa using same), ← ih distinct.2]
      simp [drop, same]

end Pairs

/-! ### Look-ups and order -/

section Keyed

variable [DecidableEq κ]

theorem mem_toList_iff {map : OrderedMap κ ν} {key : κ} {value : ν} :
    (key, value) ∈ map.toList ↔ map.get? key = some value :=
  (look_eq_some_iff map.nodup_keys).symm

theorem get?_eq_none_iff {map : OrderedMap κ ν} {key : κ} :
    map.get? key = none ↔ key ∉ map.keys := look_eq_none_iff

theorem mem_keys_iff {map : OrderedMap κ ν} {key : κ} :
    key ∈ map.keys ↔ (map.get? key).isSome = true := by
  rw [← Option.ne_none_iff_isSome, ne_eq, get?_eq_none_iff, not_not]

theorem isEmpty_iff {map : OrderedMap κ ν} :
    map.isEmpty = true ↔ ∀ key, map.get? key = none := by
  constructor
  · intro nothing key
    rw [isEmpty, List.isEmpty_iff] at nothing
    simp [get?, nothing, look]
  · intro absent
    rw [isEmpty, List.isEmpty_iff, List.eq_nil_iff_forall_not_mem]
    rintro ⟨key, value⟩ mem
    rw [mem_toList_iff, absent key] at mem
    cases mem

@[simp] theorem get?_emptyCollection (key : κ) : (∅ : OrderedMap κ ν).get? key = none := rfl

@[simp] theorem get?_erase (map : OrderedMap κ ν) (key k : κ) :
    (map.erase key).get? k = if key = k then none else map.get? k := by
  show look k (drop key map.toList) = _
  rw [drop_eq_filter map.nodup_keys, look_filter_ne]
  rfl

/-- The key that is removed is absent afterwards, wherever the last entry went. -/
@[simp] theorem get?_swapErase (map : OrderedMap κ ν) (key k : κ) :
    (map.swapErase key).get? k = if key = k then none else map.get? k := by
  show look k (dropSwap key map.toList) = _
  rw [look_perm (perm_dropSwap key map.toList) (nodup_dropSwap map.nodup_keys key)]
  exact get?_erase map key k

theorem keys_erase (map : OrderedMap κ ν) (key : κ) :
    (map.erase key).keys = map.keys.filter fun k => k ≠ key := by
  show (drop key map.toList).map Prod.fst = _
  rw [drop_eq_filter map.nodup_keys, keys, List.filter_map]
  rfl

/-- Keys after one more has arrived: one that is there keeps its place, another one goes
last. -/
def arrived (key : κ) (keys : List κ) : List κ := if key ∈ keys then keys else keys ++ [key]

theorem keys_insert_eq_arrived (map : OrderedMap κ ν) (key : κ) (value : ν) :
    (map.insert key value).keys = arrived key map.keys := map.keys_insert key value

/-- **One key is gone, and the last one has moved into its place**, unless it was the last one
itself or was not there. -/
inductive FilledUp (gone : κ) : List κ → List κ → Prop
  | absent {keys : List κ} (absent : gone ∉ keys) : FilledUp gone keys keys
  | last {front : List κ} (first : gone ∉ front) : FilledUp gone (front ++ [gone]) front
  | moved {front middle : List κ} {last : κ} (first : gone ∉ front) :
      FilledUp gone (front ++ gone :: (middle ++ [last])) (front ++ last :: middle)

omit [DecidableEq κ] in
theorem FilledUp.cons {gone key : κ} {keys left : List κ} (different : gone ≠ key)
    (filled : FilledUp gone keys left) : FilledUp gone (key :: keys) (key :: left) := by
  have apart {front : List κ} (first : gone ∉ front) : gone ∉ key :: front := by
    rw [List.mem_cons, not_or]
    exact ⟨different, first⟩
  cases filled with
  | absent absent => exact .absent (apart absent)
  | last first => exact @FilledUp.last _ _ (key :: left) (apart first)
  | @moved front middle last first =>
    exact @FilledUp.moved _ _ (key :: front) middle last (apart first)

theorem filledUp_dropSwap (key : κ) (pairs : List (κ × ν)) :
    FilledUp key (pairs.map Prod.fst) ((dropSwap key pairs).map Prod.fst) := by
  induction pairs with
  | nil => exact .absent List.not_mem_nil
  | cons pair rest ih =>
    obtain ⟨k, v⟩ := pair
    by_cases same : k = key
    · subst same
      rw [dropSwap, if_pos rfl]
      cases ends : rest.getLast? with
      | none =>
        obtain rfl := List.getLast?_eq_none_iff.1 ends
        exact @FilledUp.last _ _ [] List.not_mem_nil
      | some last =>
        obtain ⟨middle, rfl⟩ := List.getLast?_eq_some_iff.1 ends
        simp only [List.map_cons, List.map_append, List.map_nil, List.dropLast_concat]
        exact @FilledUp.moved _ _ [] (middle.map Prod.fst) last.1 List.not_mem_nil
    · rw [dropSwap, if_neg same]
      exact ih.cons (Ne.symm same)

/-- **The last key moves into the place of the one that is removed.** -/
theorem keys_swapErase (map : OrderedMap κ ν) (key : κ) :
    FilledUp key map.keys (map.swapErase key).keys :=
  filledUp_dropSwap key map.toList

/-- Removing a key that is absent changes nothing. -/
theorem erase_of_get?_eq_none {map : OrderedMap κ ν} {key : κ}
    (absent : map.get? key = none) :
    map.erase key = map := by
  refine ext ((drop_eq_filter map.nodup_keys).trans (List.filter_eq_self.2 ?_))
  intro pair mem
  have different : pair.1 ≠ key := fun same =>
    get?_eq_none_iff.1 absent (List.mem_map.2 ⟨pair, mem, same⟩)
  simpa using different

theorem isEmpty_insert (map : OrderedMap κ ν) (key : κ) (value : ν) :
    (map.insert key value).isEmpty = false := by
  rw [Bool.eq_false_iff, ne_eq, isEmpty_iff, not_forall]
  exact ⟨key, by simp⟩

/-- Writing pairs into a map empties no map that has an entry. -/
theorem isEmpty_insertAll {map : OrderedMap κ ν} (inhabited : map.isEmpty = false)
    (pairs : List (κ × ν)) : (map.insertAll pairs).isEmpty = false := by
  induction pairs generalizing map with
  | nil => exact inhabited
  | cons pair rest ih => exact ih (isEmpty_insert map pair.1 pair.2)

/-- A map with an entry leaves an entry wherever it is written over. -/
theorem isEmpty_overlay (lower : OrderedMap κ ν) {upper : OrderedMap κ ν}
    (inhabited : upper.isEmpty = false) : (lower.overlay upper).isEmpty = false := by
  rw [overlay]
  cases pairs : upper.toList with
  | nil => simp [isEmpty, pairs] at inhabited
  | cons pair rest => exact isEmpty_insertAll (isEmpty_insert lower pair.1 pair.2) rest

/-- Of several values written at a key, the last one is read back. -/
theorem get?_insertAll (map : OrderedMap κ ν) (pairs : List (κ × ν)) (key : κ) :
    (map.insertAll pairs).get? key = (look key pairs.reverse).or (map.get? key) := by
  induction pairs generalizing map with
  | nil => simp [look]
  | cons pair rest ih =>
    rw [insertAll_cons, ih, List.reverse_cons, look_append, Option.or_assoc, get?_insert]
    obtain ⟨k, v⟩ := pair
    by_cases same : k = key <;> simp [look, same]

theorem get?_ofList (pairs : List (κ × ν)) (key : κ) :
    (ofList pairs).get? key = look key pairs.reverse := by
  simp [ofList, get?_insertAll]

/-- A map made of a list holds pairs of the list only. -/
theorem mem_of_get?_ofList {pairs : List (κ × ν)} {key : κ} {value : ν}
    (found : (ofList pairs).get? key = some value) : (key, value) ∈ pairs := by
  rw [get?_ofList] at found
  exact List.mem_reverse.1 (mem_of_look found)

/-! ### A map by its keys and its look-ups -/

theorem toList_eq_filterMap_keys (map : OrderedMap κ ν) :
    map.toList = map.keys.filterMap fun key => (map.get? key).map (Prod.mk key) := by
  have each : ∀ pair ∈ map.toList, (map.get? pair.1).map (Prod.mk pair.1) = some pair := by
    intro pair mem
    rw [mem_toList_iff.1 mem, Option.map_some]
  rw [keys, List.filterMap_map]
  exact (List.filterMap_some.symm.trans
    (List.filterMap_congr fun pair mem => (each pair mem).symm))

/-- **A map is known by its keys in order and by its look-ups.** -/
theorem ext_keys_get? {a b : OrderedMap κ ν} (sameKeys : a.keys = b.keys)
    (sameValues : ∀ key, a.get? key = b.get? key) : a = b := by
  refine ext ?_
  rw [toList_eq_filterMap_keys a, toList_eq_filterMap_keys b, sameKeys, funext sameValues]

/-- Writing the value that is there changes nothing. -/
theorem insert_of_get?_eq_some {map : OrderedMap κ ν} {key : κ} {value : ν}
    (present : map.get? key = some value) : map.insert key value = map := by
  refine ext_keys_get? ?_ fun k => ?_
  · rw [keys_insert, if_pos (mem_keys_iff.2 (Option.isSome_of_eq_some present))]
  · rw [get?_insert]
    split
    · rename_i same
      rw [← same, present]
    · rfl

/-- Nothing moves where nothing is removed. -/
theorem swapErase_of_get?_eq_none {map : OrderedMap κ ν} {key : κ}
    (absent : map.get? key = none) : map.swapErase key = map := by
  refine ext_keys_get? ?_ fun k => ?_
  · have notThere := get?_eq_none_iff.1 absent
    have filled := map.keys_swapErase key
    generalize map.keys = keys, (map.swapErase key).keys = left at notThere filled ⊢
    cases filled with
    | absent => rfl
    | last | moved => simp at notThere
  · rw [get?_swapErase]
    split
    · rename_i same
      rw [← same, absent]
    · rfl

/-! ### One map over another -/

/-- **Keys that arrive one after another**: those that are there stay where they are, the
others follow in the order of their arrival. -/
theorem keys_foldl {σ : Type w} {keysOf : σ → List κ} {step : σ → κ × ν → σ}
    (grows : ∀ state pair, keysOf (step state pair) =
      if pair.1 ∈ keysOf state then keysOf state else keysOf state ++ [pair.1])
    {pairs : List (κ × ν)} (distinct : (pairs.map Prod.fst).Nodup) (state : σ) :
    keysOf (pairs.foldl step state) =
      keysOf state ++ (pairs.map Prod.fst).filter fun key => key ∉ keysOf state := by
  induction pairs generalizing state with
  | nil => simp
  | cons pair rest ih =>
    rw [List.map_cons, List.nodup_cons] at distinct
    rw [List.foldl_cons, ih distinct.2, grows, List.map_cons]
    by_cases present : pair.1 ∈ keysOf state
    · rw [if_pos present, List.filter_cons_of_neg (by simpa using present)]
    · -- The keys still to come are others than the one that has just arrived.
      have others : ∀ key ∈ rest.map Prod.fst,
          decide (key ∉ keysOf state ++ [pair.1]) = decide (key ∉ keysOf state) := by
        intro key mem
        have different : key ≠ pair.1 := fun same => distinct.1 (same ▸ mem)
        simp [different]
      rw [if_neg present, List.filter_cons_of_pos (by simpa using present),
        List.filter_congr others, List.append_assoc, List.singleton_append]

theorem keys_overlay (lower upper : OrderedMap κ ν) :
    (lower.overlay upper).keys =
      lower.keys ++ upper.keys.filter fun key => key ∉ lower.keys :=
  keys_foldl (fun map pair => keys_insert map pair.1 pair.2) upper.nodup_keys lower

/-- **The upper map wins** wherever it has a value. -/
@[simp] theorem get?_overlay (lower upper : OrderedMap κ ν) (key : κ) :
    (lower.overlay upper).get? key = (upper.get? key).or (lower.get? key) := by
  have distinct : (upper.toList.reverse.map Prod.fst).Nodup := by
    rw [List.map_reverse, List.nodup_reverse]
    exact upper.nodup_keys
  rw [overlay, get?_insertAll, look_perm (List.reverse_perm _) distinct]
  rfl

@[simp] theorem overlay_empty (map : OrderedMap κ ν) : map.overlay ∅ = map := rfl

@[simp] theorem empty_overlay (map : OrderedMap κ ν) :
    (∅ : OrderedMap κ ν).overlay map = map := by
  refine ext_keys_get? ?_ fun key => ?_
  · rw [keys_overlay]
    exact List.filter_eq_self.2 fun key _ => rfl
  · rw [get?_overlay, get?_emptyCollection, Option.or_none]

/-- What is written last can be written to the upper map or to the result. -/
theorem overlay_insert (lower upper : OrderedMap κ ν) (key : κ) (value : ν) :
    lower.overlay (upper.insert key value) = (lower.overlay upper).insert key value := by
  refine ext_keys_get? ?_ fun k => ?_
  · rw [keys_overlay, keys_insert, keys_insert, keys_overlay]
    by_cases above : key ∈ upper.keys <;> by_cases below : key ∈ lower.keys <;>
      simp [above, below, List.filter_append]
  · rw [get?_overlay, get?_insert, get?_insert, get?_overlay]
    split <;> rfl

/-- **Keys that arrive in two batches** come to stand as if the second batch had joined the
first one before. -/
theorem append_filter_notMem_assoc (first second third : List κ) :
    first ++ second.filter (fun key => key ∉ first) ++
        third.filter (fun key => key ∉ first ++ second.filter fun key => key ∉ first) =
      first ++ (second ++ third.filter fun key => key ∉ second).filter fun key =>
        key ∉ first := by
  have fresh : ∀ key ∈ third,
      decide (key ∉ first ++ second.filter fun key => key ∉ first) =
        (decide (key ∉ first) && decide (key ∉ second)) := by
    intro key _
    by_cases early : key ∈ first <;> simp [early]
  rw [List.filter_congr fresh, List.append_assoc, List.filter_append, List.filter_filter]

theorem overlay_assoc (lower middle upper : OrderedMap κ ν) :
    (lower.overlay middle).overlay upper = lower.overlay (middle.overlay upper) := by
  refine ext_keys_get? ?_ fun key => ?_
  · rw [keys_overlay, keys_overlay, keys_overlay, keys_overlay]
    exact append_filter_notMem_assoc lower.keys middle.keys upper.keys
  · rw [get?_overlay, get?_overlay, get?_overlay, get?_overlay, Option.or_assoc]

@[simp] theorem overlay_self (map : OrderedMap κ ν) : map.overlay map = map := by
  refine ext_keys_get? ?_ fun key => ?_
  · simp [keys_overlay]
  · rw [get?_overlay, Option.or_self]

end Keyed

/-! ### Other values at the same keys -/

/-- **The map with another value at every key.**  All keys keep their positions. -/
def mapValues (f : ν → μ) (map : OrderedMap κ ν) : OrderedMap κ μ where
  toList := map.toList.map (Prod.map id f)
  nodup_keys := by
    rw [List.map_map]
    exact map.nodup_keys

@[simp] theorem toList_mapValues (f : ν → μ) (map : OrderedMap κ ν) :
    (map.mapValues f).toList = map.toList.map (Prod.map id f) := rfl

theorem mapValues_mapValues {ξ : Type u} (g : μ → ξ) (f : ν → μ) (map : OrderedMap κ ν) :
    (map.mapValues f).mapValues g = map.mapValues (g ∘ f) := by
  refine ext ?_
  rw [toList_mapValues, toList_mapValues, List.map_map, Prod.map_comp_map]
  rfl

@[simp] theorem isEmpty_mapValues (f : ν → μ) (map : OrderedMap κ ν) :
    (map.mapValues f).isEmpty = map.isEmpty := by
  simp [isEmpty]

section Keyed

variable [DecidableEq κ]

/-! ### Keys renamed -/

section Renamed

variable {κ' : Type u} [DecidableEq κ'] (rename : κ → κ')

/-- A renamed key is found where the key was, provided no other key takes its new name. -/
theorem look_map (f : ν → μ) {key : κ} {pairs : List (κ × ν)}
    (apart : ∀ pair ∈ pairs, rename pair.1 = rename key → pair.1 = key) :
    look (rename key) (pairs.map (Prod.map rename f)) = (look key pairs).map f := by
  induction pairs with
  | nil => rfl
  | cons pair rest ih =>
    obtain ⟨k, v⟩ := pair
    have later := ih fun pair mem => apart pair (List.mem_cons_of_mem _ mem)
    by_cases same : k = key
    · simp [look, same]
    · have different : rename k ≠ rename key := fun equal =>
        same (apart (k, v) List.mem_cons_self equal)
      simp [look, same, different, later]

theorem map_put (f : ν → μ) {key : κ} (value : ν) {pairs : List (κ × ν)}
    (apart : ∀ pair ∈ pairs, rename pair.1 = rename key → pair.1 = key) :
    (put key value pairs).map (Prod.map rename f) =
      put (rename key) (f value) (pairs.map (Prod.map rename f)) := by
  induction pairs with
  | nil => rfl
  | cons pair rest ih =>
    obtain ⟨k, v⟩ := pair
    have later := ih fun pair mem => apart pair (List.mem_cons_of_mem _ mem)
    by_cases same : k = key
    · simp [put, same]
    · have different : rename k ≠ rename key := fun equal =>
        same (apart (k, v) List.mem_cons_self equal)
      simp [put, same, different, later]

theorem map_drop (f : ν → μ) {key : κ} {pairs : List (κ × ν)}
    (apart : ∀ pair ∈ pairs, rename pair.1 = rename key → pair.1 = key) :
    (drop key pairs).map (Prod.map rename f) =
      drop (rename key) (pairs.map (Prod.map rename f)) := by
  induction pairs with
  | nil => rfl
  | cons pair rest ih =>
    obtain ⟨k, v⟩ := pair
    have later := ih fun pair mem => apart pair (List.mem_cons_of_mem _ mem)
    by_cases same : k = key
    · simp [drop, same]
    · have different : rename k ≠ rename key := fun equal =>
        same (apart (k, v) List.mem_cons_self equal)
      simp [drop, same, different, later]

end Renamed

/-! ### The operations under `mapValues` -/

@[simp] theorem get?_mapValues (f : ν → μ) (map : OrderedMap κ ν) (key : κ) :
    (map.mapValues f).get? key = (map.get? key).map f :=
  look_map id f fun _ _ same => same

theorem mapValues_insert (f : ν → μ) (map : OrderedMap κ ν) (key : κ) (value : ν) :
    (map.insert key value).mapValues f = (map.mapValues f).insert key (f value) :=
  ext (map_put id f value fun _ _ same => same)

theorem mapValues_erase (f : ν → μ) (map : OrderedMap κ ν) (key : κ) :
    (map.erase key).mapValues f = (map.mapValues f).erase key :=
  ext (map_drop id f fun _ _ same => same)

theorem mapValues_insertAll (f : ν → μ) (map : OrderedMap κ ν) (pairs : List (κ × ν)) :
    (map.insertAll pairs).mapValues f =
      (map.mapValues f).insertAll (pairs.map (Prod.map id f)) := by
  induction pairs generalizing map with
  | nil => rfl
  | cons pair rest ih =>
    rw [insertAll_cons, ih, mapValues_insert, List.map_cons, insertAll_cons]
    rfl

theorem mapValues_ofList (f : ν → μ) (pairs : List (κ × ν)) :
    (ofList pairs).mapValues f = ofList (pairs.map (Prod.map id f)) :=
  mapValues_insertAll f empty pairs

end Keyed

end InfraScan.OrderedMap
