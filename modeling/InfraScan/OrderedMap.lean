/-!
# Maps in insertion order

A map from keys to values that remembers the order in which its keys first arrived.  Writing
to a key that is present replaces its value and keeps its position; a new key goes last.

* `OrderedMap` — the type; distinctness of the keys is part of it
* `OrderedMap.insert`, `OrderedMap.erase`, `OrderedMap.swapErase` — the three ways of changing
  a map
* `OrderedMap.ofList` — all pairs of a list written in turn, so the last value of a key wins
  and its first position stays
* `OrderedMap.overlay` — all entries of one map written over another

The view of a map is its list of entries `toList`; each operation has one lemma that says what
it does to `keys` and one that says what it does to `get?`.
-/

namespace InfraScan

/-- **A map in insertion order.**  Its entries form a list of pairs whose keys are
distinct. -/
structure OrderedMap (κ : Type u) (ν : Type v) where
  toList : List (κ × ν)
  nodup_keys : (toList.map Prod.fst).Nodup

namespace OrderedMap

variable {κ : Type u} {ν : Type v}

/-! ### Lists of pairs -/

/-- The value of the first pair at `key`. -/
def look [DecidableEq κ] (key : κ) : List (κ × ν) → Option ν
  | [] => none
  | (k, v) :: rest => if k = key then some v else look key rest

/-- Write `value` at `key`: in place when the key is present, else at the end. -/
def put [DecidableEq κ] (key : κ) (value : ν) : List (κ × ν) → List (κ × ν)
  | [] => [(key, value)]
  | (k, v) :: rest => if k = key then (key, value) :: rest else (k, v) :: put key value rest

/-- The pairs without the first one at `key`, the others in order. -/
def drop [DecidableEq κ] (key : κ) : List (κ × ν) → List (κ × ν)
  | [] => []
  | (k, v) :: rest => if k = key then rest else (k, v) :: drop key rest

/-- The pairs without the first one at `key`; the last pair moves into the hole. -/
def dropSwap [DecidableEq κ] (key : κ) : List (κ × ν) → List (κ × ν)
  | [] => []
  | (k, v) :: rest =>
    if k = key then
      match rest.getLast? with
      | none => []
      | some last => last :: rest.dropLast
    else (k, v) :: dropSwap key rest

theorem map_fst_put [DecidableEq κ] (key : κ) (value : ν) (pairs : List (κ × ν)) :
    (put key value pairs).map Prod.fst =
      if key ∈ pairs.map Prod.fst then pairs.map Prod.fst
      else pairs.map Prod.fst ++ [key] := by
  induction pairs with
  | nil => simp [put]
  | cons pair rest ih =>
    obtain ⟨k, v⟩ := pair
    by_cases h : k = key
    · simp [put, h]
    · have h' : ¬ key = k := fun e => h e.symm
      simp only [put, h, if_false, List.map_cons, ih, List.mem_cons, h', false_or]
      split <;> simp

theorem nodup_put [DecidableEq κ] {pairs : List (κ × ν)} (h : (pairs.map Prod.fst).Nodup)
    (key : κ) (value : ν) : ((put key value pairs).map Prod.fst).Nodup := by
  rw [map_fst_put]
  split
  · exact h
  · rename_i absent
    rw [List.nodup_append]
    refine ⟨h, by simp, ?_⟩
    intro a ha b hb
    simp only [List.mem_singleton] at hb
    subst hb
    exact fun e => absent (e ▸ ha)

theorem sublist_drop [DecidableEq κ] (key : κ) (pairs : List (κ × ν)) :
    (drop key pairs).Sublist pairs := by
  induction pairs with
  | nil => simp [drop]
  | cons pair rest ih =>
    obtain ⟨k, v⟩ := pair
    unfold drop
    split
    · exact List.sublist_cons_self _ _
    · exact ih.cons_cons _

theorem nodup_drop [DecidableEq κ] {pairs : List (κ × ν)} (h : (pairs.map Prod.fst).Nodup)
    (key : κ) : ((drop key pairs).map Prod.fst).Nodup :=
  h.sublist ((sublist_drop key pairs).map _)

theorem perm_dropSwap [DecidableEq κ] (key : κ) (pairs : List (κ × ν)) :
    (dropSwap key pairs).Perm (drop key pairs) := by
  induction pairs with
  | nil => simp [drop, dropSwap]
  | cons pair rest ih =>
    obtain ⟨k, v⟩ := pair
    unfold drop dropSwap
    split
    · split
      · rename_i h
        simp [List.getLast?_eq_none_iff.1 h]
      · rename_i last h
        obtain ⟨front, rfl⟩ := List.getLast?_eq_some_iff.1 h
        simpa using (List.perm_append_comm : ([last] ++ front).Perm (front ++ [last]))
    · exact ih.cons _

theorem nodup_dropSwap [DecidableEq κ] {pairs : List (κ × ν)} (h : (pairs.map Prod.fst).Nodup)
    (key : κ) : ((dropSwap key pairs).map Prod.fst).Nodup :=
  ((perm_dropSwap key pairs).map _).nodup_iff.2 (nodup_drop h key)

/-! ### The operations -/

/-- The map without entries. -/
def empty : OrderedMap κ ν := ⟨[], List.nodup_nil⟩

instance : EmptyCollection (OrderedMap κ ν) := ⟨empty⟩

instance : Inhabited (OrderedMap κ ν) := ⟨empty⟩

instance [DecidableEq κ] [DecidableEq ν] : DecidableEq (OrderedMap κ ν) := fun a b =>
  decidable_of_iff (a.toList = b.toList) (by cases a; cases b; simp)

/-- The keys in insertion order. -/
def keys (map : OrderedMap κ ν) : List κ := map.toList.map Prod.fst

/-- The values in insertion order of their keys. -/
def values (map : OrderedMap κ ν) : List ν := map.toList.map Prod.snd

/-- The number of entries. -/
def size (map : OrderedMap κ ν) : Nat := map.toList.length

/-- The map has no entry. -/
def isEmpty (map : OrderedMap κ ν) : Bool := map.toList.isEmpty

section Keyed

variable [DecidableEq κ]

/-- The value at a key. -/
def get? (map : OrderedMap κ ν) (key : κ) : Option ν := look key map.toList

/-- The key has a value. -/
def contains (map : OrderedMap κ ν) (key : κ) : Bool := (map.get? key).isSome

/-- Write a value at a key.  A key that is present keeps its position, a new one goes last. -/
def insert (map : OrderedMap κ ν) (key : κ) (value : ν) : OrderedMap κ ν :=
  ⟨put key value map.toList, nodup_put map.nodup_keys key value⟩

/-- Remove a key; the other entries keep their order. -/
def erase (map : OrderedMap κ ν) (key : κ) : OrderedMap κ ν :=
  ⟨drop key map.toList, nodup_drop map.nodup_keys key⟩

/-- Remove a key by moving the last entry into its place. -/
def swapErase (map : OrderedMap κ ν) (key : κ) : OrderedMap κ ν :=
  ⟨dropSwap key map.toList, nodup_dropSwap map.nodup_keys key⟩

/-- Write all pairs of a list in turn. -/
def insertAll (map : OrderedMap κ ν) (pairs : List (κ × ν)) : OrderedMap κ ν :=
  pairs.foldl (fun acc pair => acc.insert pair.1 pair.2) map

/-- The map of a list of pairs: a repeated key has its first position and its last value. -/
def ofList (pairs : List (κ × ν)) : OrderedMap κ ν := empty.insertAll pairs

/-- Write all entries of `upper` over `lower`. -/
def overlay (lower upper : OrderedMap κ ν) : OrderedMap κ ν := lower.insertAll upper.toList

end Keyed

/-! ### The view -/

theorem ext {a b : OrderedMap κ ν} (h : a.toList = b.toList) : a = b := by
  cases a; cases b; simp_all

@[simp] theorem toList_empty : (empty : OrderedMap κ ν).toList = [] := rfl

@[simp] theorem toList_emptyCollection : (∅ : OrderedMap κ ν).toList = [] := rfl

section Keyed

variable [DecidableEq κ]

theorem look_put (key k : κ) (value : ν) (pairs : List (κ × ν)) :
    look k (put key value pairs) = if key = k then some value else look k pairs := by
  induction pairs with
  | nil => simp [put, look]
  | cons pair rest ih =>
    obtain ⟨k', v'⟩ := pair
    by_cases h : k' = key
    · subst h
      by_cases hk : k' = k <;> simp [put, look, hk]
    · by_cases hk : k' = k
      · subst hk
        simp [put, look, h, Ne.symm h]
      · simp [put, look, h, hk, ih]

/-- A value that was written is read back, and no other key is affected. -/
@[simp] theorem get?_insert (map : OrderedMap κ ν) (key k : κ) (value : ν) :
    (map.insert key value).get? k = if key = k then some value else map.get? k :=
  look_put key k value map.toList

/-- A key that is present keeps its position, a new one goes last. -/
theorem keys_insert (map : OrderedMap κ ν) (key : κ) (value : ν) :
    (map.insert key value).keys = if key ∈ map.keys then map.keys else map.keys ++ [key] :=
  map_fst_put key value map.toList

@[simp] theorem get?_empty (key : κ) : (empty : OrderedMap κ ν).get? key = none := rfl

@[simp] theorem insertAll_nil (map : OrderedMap κ ν) : map.insertAll [] = map := rfl

@[simp] theorem insertAll_cons (map : OrderedMap κ ν) (pair : κ × ν) (rest : List (κ × ν)) :
    map.insertAll (pair :: rest) = (map.insert pair.1 pair.2).insertAll rest := rfl

end Keyed

end OrderedMap

end InfraScan
