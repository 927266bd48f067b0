import InfraScan.Proofs.Enrichment
import InfraScan.Proofs.JsonViews
import InfraScan.Proofs.Merge
import InfraScan.Proofs.Text

/-!
# Keys as text

A report is an object whose members are the keys of the store as text.  Two keys with the same
text would come out as two members of one name, and a reader keeps only one of them.

* `DefinitionKey.Legible` — a key that can be read off its text
* `DefinitionKey.render_inj` — legible keys with the same text are the same key
* `Json.Unrepeated` — no object in a value repeats a member
* `Json.ofMapBy`, `Json.leads_ofMapBy_iff` — a map as an object, and what its members are
* `ContextStore.FilledFrom` — the stores of one key mode that are filled from certain keys
* `rendered_keys_faithful` — a store of legible keys as an object

### What is load-bearing

A path may hold slashes, so the slash between two hops of a chain cannot be found from the
front.  The number sign of the first hop can, and after it the first slash ends the name.  For
this the last hop should end like the others: `ModuleCall.closed` puts a slash behind each
hop, and a chain with one more slash at its end is the hops closed one by one.
-/

namespace InfraScan

/-! ### Chains of calls -/

namespace ModuleCall

/-- **A hop whose parts can be told**: no number sign stands in the path, and no slash in the
name. -/
structure Legible (call : ModuleCall) : Prop where
  path : '#' ∉ call.path.toList
  name : '/' ∉ call.name.toList

instance : DecidablePred Legible := fun call =>
  decidable_of_iff ('#' ∉ call.path.toList ∧ '/' ∉ call.name.toList)
    ⟨fun both => ⟨both.1, both.2⟩, fun legible => ⟨legible.path, legible.name⟩⟩

/-- The letters of a hop, with a slash behind them. -/
def closed (call : ModuleCall) : List Char :=
  call.path.toList ++ '#' :: (call.name.toList ++ ['/'])

/-- **The first of some closed hops can be read back**, and so can what stands behind it. -/
theorem closed_append_inj {call call' : ModuleCall} {behind behind' : List Char}
    (legible : call.Legible) (legible' : call'.Legible) :
    call.closed ++ behind = call'.closed ++ behind' ↔ call = call' ∧ behind = behind' := by
  have letters (hop : ModuleCall) (rest : List Char) : hop.closed ++ rest =
      hop.path.toList ++ '#' :: (hop.name.toList ++ '/' :: rest) := by
    simp [closed]
  obtain ⟨path, name⟩ := call
  obtain ⟨path', name'⟩ := call'
  rw [letters, letters, Text.append_mark_inj legible.path legible'.path,
    Text.append_mark_inj legible.name legible'.name, String.toList_inj, String.toList_inj,
    ModuleCall.mk.injEq, and_assoc]

/-- **Closed hops can be read back**, one after another from the front. -/
theorem flatMap_closed_inj {calls calls' : List ModuleCall}
    (legible : ∀ call ∈ calls, call.Legible) (legible' : ∀ call ∈ calls', call.Legible) :
    calls.flatMap closed = calls'.flatMap closed ↔ calls = calls' := by
  refine ⟨fun same => ?_, fun same => same ▸ rfl⟩
  induction calls generalizing calls' with
  | nil =>
    cases calls' with
    | nil => rfl
    | cons call' rest' => simp [closed] at same
  | cons call rest ih =>
    cases calls' with
    | nil => simp [closed] at same
    | cons call' rest' =>
      rw [List.forall_mem_cons] at legible legible'
      rw [List.flatMap_cons, List.flatMap_cons,
        closed_append_inj legible.1 legible'.1] at same
      obtain ⟨rfl, later⟩ := same
      rw [ih legible.2 legible'.2 later]

/-- The letters of a chain: its hops with slashes between them. -/
def chain (calls : List ModuleCall) : List Char :=
  ['/'].intercalate (calls.map fun call => call.render.toList)

/-- **A chain with one more slash at its end** is its hops, closed one by one. -/
theorem chain_append_slash {calls : List ModuleCall} (present : calls ≠ []) :
    chain calls ++ ['/'] = calls.flatMap closed := by
  have hop (call : ModuleCall) : call.render.toList ++ ['/'] = call.closed := by
    simp [render, closed]
  induction calls with
  | nil => exact absurd rfl present
  | cons call rest ih =>
    cases rest with
    | nil => simp [chain, hop]
    | cons next more =>
      have later := ih (List.cons_ne_nil next more)
      rw [List.flatMap_cons, ← later, ← hop]
      simp [chain, List.intercalate_cons_cons]

theorem chain_inj {calls calls' : List ModuleCall} (present : calls ≠ [])
    (present' : calls' ≠ []) (legible : ∀ call ∈ calls, call.Legible)
    (legible' : ∀ call ∈ calls', call.Legible) :
    chain calls = chain calls' ↔ calls = calls' := by
  rw [← flatMap_closed_inj legible legible', ← chain_append_slash present,
    ← chain_append_slash present', List.append_left_inj]

end ModuleCall

/-! ### Keys -/

namespace DefinitionKey

/-- **A key that can be read off its text**: no bracket opens in the path of its file, and its
hops can be told. -/
structure Legible (key : DefinitionKey) : Prop where
  filePath : '[' ∉ key.filePath.toList
  modules : ∀ call ∈ key.modules, call.Legible

instance : DecidablePred Legible := fun key =>
  decidable_of_iff ('[' ∉ key.filePath.toList ∧ ∀ call ∈ key.modules, call.Legible)
    ⟨fun both => ⟨both.1, both.2⟩, fun legible => ⟨legible.filePath, legible.modules⟩⟩

theorem toList_render_of_chain (path : String) {modules : List ModuleCall}
    (present : modules ≠ []) : (DefinitionKey.mk path modules).render.toList =
      path.toList ++ '[' :: (ModuleCall.chain modules ++ [']']) := by
  simp [render, present, ModuleCall.chain, String.toList_intercalate, Function.comp_def]

/-- **Legible keys with the same text are the same key.** -/
theorem render_inj {key key' : DefinitionKey} (legible : key.Legible)
    (legible' : key'.Legible) :
    key.render = key'.render ↔ key = key' := by
  refine ⟨fun same => ?_, fun same => same ▸ rfl⟩
  obtain ⟨path, modules⟩ := key
  obtain ⟨path', modules'⟩ := key'
  have letters := congrArg String.toList same
  by_cases present : modules = [] <;> by_cases present' : modules' = []
  · subst present present'
    rw [show path = path' from same]
  · -- A key without a chain is its path, in which no bracket opens.
    subst present
    rw [toList_render_of_chain path' present'] at letters
    have opened : '[' ∈ path.toList := letters ▸ by simp
    exact absurd opened legible.filePath
  · subst present'
    rw [toList_render_of_chain path present] at letters
    have opened : '[' ∈ path'.toList := letters ▸ by simp
    exact absurd opened legible'.filePath
  · rw [toList_render_of_chain path present, toList_render_of_chain path' present',
      Text.append_mark_inj legible.filePath legible'.filePath, List.append_left_inj,
      ModuleCall.chain_inj present present' legible.modules legible'.modules,
        String.toList_inj]
      at letters
    obtain ⟨rfl, rfl⟩ := letters
    rfl

/-- A path with a bracket may have the text of a path with a chain. -/
example :
    (DefinitionKey.mk "a" [⟨"b", "c"⟩]).render = (DefinitionKey.mk "a[b#c]" []).render := by
  decide

end DefinitionKey

/-- **In either key mode, store keys of legible keys with the same text are the same key.** -/
theorem KeyMode.render_storeKey_inj (mode : KeyMode) {key key' : DefinitionKey}
    (legible : key.Legible) (legible' : key'.Legible) :
    (mode.storeKey key).render = (mode.storeKey key').render ↔
      mode.storeKey key = mode.storeKey key' := by
  cases mode with
  | filePath => simp [KeyMode.storeKey, StoreKey.render]
  | qualified =>
    simpa [KeyMode.storeKey, StoreKey.render] using DefinitionKey.render_inj legible legible'

/-! ### Maps as objects -/

namespace Json

/-- **No object in a value repeats a member**, at any depth. -/
inductive Unrepeated : Json → Prop
  | null : Unrepeated .null
  | bool (b : Bool) : Unrepeated (.bool b)
  | num (n : Number) : Unrepeated (.num n)
  | str (s : String) : Unrepeated (.str s)
  | arr {items : List Json} (each : ∀ item ∈ items, Unrepeated item) : Unrepeated (.arr items)
  | obj {fields : List (String × Json)} (apart : (fields.map Prod.fst).Nodup)
      (each : ∀ field ∈ fields, Unrepeated field.2) : Unrepeated (.obj fields)

section Maps

universe u v

variable {κ : Type u} {ν : Type v} {name : κ → String} {shown : ν → Json}
  {map : OrderedMap κ ν}

/-- A map as an object, with its keys as text. -/
def ofMapBy (name : κ → String) (shown : ν → Json) (map : OrderedMap κ ν) : Json :=
  .obj (map.toList.map (Prod.map name shown))

/-- The members of a map as an object are its keys as text. -/
theorem map_fst_ofMapBy (name : κ → String) (shown : ν → Json) (map : OrderedMap κ ν) :
    (map.toList.map (Prod.map name shown)).map Prod.fst = map.keys.map name := by
  simp [OrderedMap.keys, Function.comp_def]

/-- Keys that are text already are distinct. -/
theorem nodup_map_id (map : OrderedMap String ν) : (map.keys.map id).Nodup := by
  rw [List.map_id]
  exact map.nodup_keys

theorem Unrepeated.ofMapBy (apart : (map.keys.map name).Nodup)
    (each : ∀ value ∈ map.values, (shown value).Unrepeated) :
    (ofMapBy name shown map).Unrepeated := by
  refine .obj ?_ fun field mem => ?_
  · rwa [map_fst_ofMapBy]
  · obtain ⟨pair, held, rfl⟩ := List.mem_map.1 mem
    exact each pair.2 (List.mem_map_of_mem held)

/-- **Where the texts of the keys are distinct, every value is found under the text of its
key**, and nothing else is found. -/
theorem leads_ofMapBy_iff [DecidableEq κ] (apart : (map.keys.map name).Nodup) {first : String}
    {rest : List String} {found : Json} :
    (ofMapBy name shown map).Leads (first :: rest) found ↔
      ∃ key value, name key = first ∧ map.get? key = some value ∧
        (shown value).Leads rest found := by
  rw [← map_fst_ofMapBy name shown] at apart
  rw [leads_cons_iff]
  constructor
  · rintro ⟨inner, held, further⟩
    obtain ⟨⟨key, value⟩, mem, same⟩ := List.mem_map.1 (OrderedMap.mem_of_look held)
    obtain ⟨rfl, rfl⟩ := Prod.mk.inj same
    exact ⟨key, value, rfl, OrderedMap.mem_toList_iff.1 mem, further⟩
  · rintro ⟨key, value, rfl, held, further⟩
    refine ⟨shown value, (OrderedMap.look_eq_some_iff apart).2 ?_, further⟩
    exact List.mem_map.2 ⟨(key, value), OrderedMap.mem_toList_iff.2 held, rfl⟩

end Maps

end Json

theorem SkippedCheck.unrepeated_toJson (check : SkippedCheck) : check.toJson.Unrepeated := by
  refine .obj (show ["id", "suppress_comment"].Nodup by decide) fun field mem => ?_
  simp only [List.mem_cons, List.not_mem_nil, or_false] at mem
  rcases mem with rfl | rfl
  · exact .str _
  · show ((check.comment.map Json.str).getD .null).Unrepeated
    cases check.comment with
    | none => exact .null
    | some text => exact .str text

theorem BlockEntry.unrepeated_toJson (entry : BlockEntry) : entry.toJson.Unrepeated := by
  have line (numbered : Nat × String) :
      (Json.arr [.ofNat numbered.1, .str numbered.2]).Unrepeated := by
    refine .arr fun item mem => ?_
    simp only [List.mem_cons, List.not_mem_nil, or_false] at mem
    rcases mem with rfl | rfl
    · exact .num _
    · exact .str _
  refine .obj
    (show ["start_line", "end_line", "code_lines", "skipped_checks"].Nodup by decide)
    fun field mem => ?_
  simp only [List.mem_cons, List.not_mem_nil, or_false] at mem
  rcases mem with rfl | rfl | rfl | rfl
  · exact .num _
  · exact .num _
  · exact .arr (List.forall_mem_map.2 fun numbered _ => line numbered)
  · exact .arr (List.forall_mem_map.2 fun check _ => check.unrepeated_toJson)

/-! ### Stores -/

namespace ContextStore

/-- **The stores that are filled in one key mode from certain keys.**  A store begins empty,
also after a reset; calls may be made with any registry of the mode, and stores of workers are
merged. -/
inductive FilledFrom (mode : KeyMode) (allowed : DefinitionKey → Prop) : ContextStore → Prop
  | empty : FilledFrom mode allowed .empty
  | enrich {store : ContextStore} (registry : Registry) (read : TextReader) (collect : Bool)
      {key : DefinitionKey} (blocks : BlocksByCategory) (cache : SourceCache)
      (ofMode : registry.mode = mode) (given : allowed key) :
      FilledFrom mode allowed store →
        FilledFrom mode allowed (registry.enrich read collect key blocks store cache).store
  | merge {lower upper : ContextStore} : FilledFrom mode allowed lower →
      FilledFrom mode allowed upper → FilledFrom mode allowed (lower.merge upper)

/-- **Every key of such a store is that of a call.** -/
theorem FilledFrom.exists_of_mem_keys {mode : KeyMode} {allowed : DefinitionKey → Prop}
    {store : ContextStore} (filled : store.FilledFrom mode allowed) {storeKey : StoreKey}
    (mem : storeKey ∈ store.keys) : ∃ key, allowed key ∧ mode.storeKey key = storeKey := by
  induction filled with
  | empty => cases mem
  | @enrich store registry read collect key blocks cache ofMode given _ ih =>
    rw [Registry.enrich_store] at mem
    rcases mem_keys_of_updateAll _ mem with rfl | earlier
    · exact ⟨key, given, ofMode ▸ rfl⟩
    · exact ih earlier
  | merge _ _ below above =>
    rw [keys_merge, List.mem_append, List.mem_filter] at mem
    rcases mem with lower | ⟨upper, -⟩
    · exact below lower
    · exact above upper

/-- **No two keys of a store of legible keys have the same text.** -/
theorem FilledFrom.nodup_render {mode : KeyMode} {store : ContextStore}
    (filled : store.FilledFrom mode DefinitionKey.Legible) :
    (store.keys.map StoreKey.render).Nodup := by
  refine store.entries.nodup_keys.map_on fun first mem second mem' same => ?_
  obtain ⟨key, legible, rfl⟩ := filled.exists_of_mem_keys mem
  obtain ⟨key', legible', rfl⟩ := filled.exists_of_mem_keys mem'
  exact (mode.render_storeKey_inj legible legible').1 same

/-- A store as a value is three maps as objects, one inside another. -/
theorem toJson_eq (store : ContextStore) : store.toJson =
    Json.ofMapBy StoreKey.render (Json.ofMapBy id (Json.ofMapBy id BlockEntry.toJson))
      store.entries := rfl

theorem unrepeated_toJson {store : ContextStore}
    (apart : (store.keys.map StoreKey.render).Nodup) :
    store.toJson.Unrepeated :=
  .ofMapBy apart fun categories _ => .ofMapBy (Json.nodup_map_id categories) fun contexts _ =>
    .ofMapBy (Json.nodup_map_id contexts) fun entry _ => entry.unrepeated_toJson

theorem entry?_eq_some_iff {store : ContextStore} {key : StoreKey} {category id : String}
    {entry : BlockEntry} :
    store.entry? key category id = some entry ↔
      ∃ categories contexts, store.entries.get? key = some categories ∧
        categories.get? category = some contexts ∧ contexts.get? id = some entry := by
  simp only [ContextStore.entry?, category?, get?, Option.bind_eq_some_iff]
  tauto

/-- **Where the keys have distinct texts, the object of a store has every entry** under the
text of its key, its category and its block id, and has no other. -/
theorem leads_toJson_iff {store : ContextStore}
    (apart : (store.keys.map StoreKey.render).Nodup) {name category id : String}
    {found : Json} :
    store.toJson.Leads [name, category, id] found ↔
      ∃ key entry, key.render = name ∧ store.entry? key category id = some entry ∧
        entry.toJson = found := by
  rw [toJson_eq, Json.leads_ofMapBy_iff apart]
  constructor
  · rintro ⟨key, categories, rfl, held, inCategories⟩
    obtain ⟨category, contexts, rfl, slot, inContexts⟩ :=
      (Json.leads_ofMapBy_iff (Json.nodup_map_id categories)).1 inCategories
    obtain ⟨id, entry, rfl, present, atEntry⟩ :=
      (Json.leads_ofMapBy_iff (Json.nodup_map_id contexts)).1 inContexts
    cases atEntry
    exact ⟨key, entry, rfl, entry?_eq_some_iff.2
      ⟨categories, contexts, held, slot, present⟩, rfl⟩
  · rintro ⟨key, entry, rfl, present, rfl⟩
    obtain ⟨categories, contexts, held, slot, present⟩ := entry?_eq_some_iff.1 present
    refine ⟨key, categories, rfl, held, ?_⟩
    refine (Json.leads_ofMapBy_iff (Json.nodup_map_id categories)).2
      ⟨category, contexts, rfl, slot, ?_⟩
    exact (Json.leads_ofMapBy_iff (Json.nodup_map_id contexts)).2
      ⟨id, entry, rfl, present, .here entry.toJson⟩

end ContextStore

/-! ### The law of rendered keys -/

/-- **Rendered keys keep keys apart.**

* Two legible keys with the same text are the same key, however long their chains are.
* A store that is filled in one key mode from legible keys, by calls and merges in any order,
  is shown as an object whose members are its keys as text; no object in it repeats a member.
* An entry of the store is found under the text of its key, its category and its block id, and
  nothing else is found there. -/
theorem rendered_keys_faithful :
    (∀ key key' : DefinitionKey, key.Legible → key'.Legible →
      (key.render = key'.render ↔ key = key')) ∧
    ∀ (mode : KeyMode) (store : ContextStore), store.FilledFrom mode DefinitionKey.Legible →
      (store.toJson.fields?.map fun fields => fields.map Prod.fst) =
          some (store.keys.map StoreKey.render) ∧
        store.toJson.Unrepeated ∧
        ∀ name category id found, store.toJson.Leads [name, category, id] found ↔
          ∃ key entry, key.render = name ∧ store.entry? key category id = some entry ∧
            entry.toJson = found := by
  refine ⟨fun key key' legible legible' => DefinitionKey.render_inj legible legible',
    fun mode store filled => ?_⟩
  have apart := filled.nodup_render
  refine ⟨?_, ContextStore.unrepeated_toJson apart, fun name category id found =>
    ContextStore.leads_toJson_iff apart⟩
  rw [ContextStore.toJson_eq]
  exact congrArg some (Json.map_fst_ofMapBy _ _ store.entries)

/-- A file brought in by one call.  The path of the hop holds a slash, and its name a number
sign. -/
def directKey : DefinitionKey := ⟨"vpc.tf", [⟨"live/a.tf", "net#b"⟩]⟩

/-- The same file brought in by two calls, the first of them from the same path. -/
def nestedKey : DefinitionKey := ⟨"vpc.tf", [⟨"live/a.tf", "net"⟩, ⟨"b", "c"⟩]⟩

/-- The stores of two workers, who have each read the file for one of the keys, merged. -/
def twoKeyStore : ContextStore :=
  let work (key : DefinitionKey) := (Registry.standard .qualified .standard).enrich
    (fun _ => .error .notFound) true key
    (OrderedMap.ofList [("module", [.obj [
      ("subnet", .obj [(startMarker, .ofNat 1), (endMarker, .ofNat 2)])]])]) .empty .empty
  (work directKey).store.merge (work nestedKey).store

/-- The two keys have texts of their own, and the entry of the second is found under its
text. -/
theorem twoKeyStore_shown :
    directKey.Legible ∧ nestedKey.Legible ∧ directKey.render ≠ nestedKey.render ∧
      twoKeyStore.FilledFrom .qualified DefinitionKey.Legible ∧
      twoKeyStore.toJson.Unrepeated ∧
      ∃ entry, twoKeyStore.entry? (.definition nestedKey) "module" "subnet" = some entry ∧
        twoKeyStore.toJson.Leads ["vpc.tf[live/a.tf#net/b#c]", "module", "subnet"]
          entry.toJson := by
  have direct : directKey.Legible := by decide
  have nested : nestedKey.Legible := by decide
  have filled : twoKeyStore.FilledFrom .qualified DefinitionKey.Legible :=
    .merge (.enrich _ _ _ _ _ rfl direct .empty) (.enrich _ _ _ _ _ rfl nested .empty)
  have present :
      (twoKeyStore.entry? (.definition nestedKey) "module" "subnet").isSome = true := by
    decide +kernel
  obtain ⟨entry, found⟩ := Option.isSome_iff_exists.1 present
  obtain ⟨-, once, entries⟩ := rendered_keys_faithful.2 _ _ filled
  refine ⟨direct, nested, ?_, filled, once, entry, found, ?_⟩
  · rw [ne_eq, rendered_keys_faithful.1 _ _ direct nested]
    decide
  · exact (entries _ _ _ _).2 ⟨.definition nestedKey, entry, by decide, found, rfl⟩

end InfraScan
