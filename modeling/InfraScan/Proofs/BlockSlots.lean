import InfraScan.Proofs.BlockIdentity
import InfraScan.Proofs.CallReports
import InfraScan.Proofs.Survey

/-!
# Slots by identity

A call of enrichment fills the slot of a category with the contexts of its blocks, one after
another.  Of two contexts under one id the slot keeps the place of the first and the contents
of the second, and this is meant for a block that is written again.  No other blocks are lost
that way.

* `OrderedMap.keys_ofList`, `OrderedMap.get?_ofList_last` — a map that is filled by a list
* `Registry.collapse_located` — a slot in terms of identities
* `blockIds_tell_blocks_apart` — ids, slots and numbers of blocks
-/

namespace InfraScan

/-! ### Maps that are filled by a list -/

namespace OrderedMap

variable {κ : Type u} {ν : Type v} [DecidableEq κ]

/-- **Keys that are written one after another** stand where they came first. -/
theorem keys_insertAll (map : OrderedMap κ ν) (pairs : List (κ × ν)) :
    (map.insertAll pairs).keys = firstOccurrences (map.keys ++ pairs.map Prod.fst) := by
  induction pairs generalizing map with
  | nil =>
    rw [insertAll_nil, List.map_nil, List.append_nil]
    exact (firstOccurrences_of_nodup map.nodup_keys).symm
  | cons pair rest ih =>
    have joined : map.keys ++ (pair :: rest).map Prod.fst =
        (map.keys ++ [pair.1]) ++ rest.map Prod.fst := by
      simp
    rw [insertAll_cons, ih, keys_insert, joined]
    split
    · rename_i present
      have again : [pair.1] ⊆ map.keys := by simpa using present
      rw [firstOccurrences_append (map.keys ++ [pair.1]),
        firstOccurrences_append_of_subset again, firstOccurrences_append]
      congr 1
      refine List.filter_congr fun key _ => ?_
      by_cases same : key = pair.1 <;> simp [same, present]
    · rfl

theorem keys_ofList (pairs : List (κ × ν)) :
    (ofList pairs).keys = firstOccurrences (pairs.map Prod.fst) :=
  keys_insertAll empty pairs

/-- **What was written last at a key** is read back. -/
theorem get?_ofList_last {front back : List (κ × ν)} {key : κ} (value : ν)
    (last : key ∉ back.map Prod.fst) :
    (ofList (front ++ (key, value) :: back)).get? key = some value := by
  have later : look key back.reverse = none := by
    rw [look_eq_none_iff, List.map_reverse, List.mem_reverse]
    exact last
  rw [get?_ofList, List.reverse_append, List.reverse_cons, List.append_assoc,
    look_append, later, Option.none_or, List.singleton_append, look, if_pos rfl]

end OrderedMap

/-! ### Slots -/

namespace Registry

variable {parser : BlockParser} {raw : List Json} (source : Option (List String))
  (scanner : DirectiveScanner) (collect : Bool)

/-- The identities of well-formed blocks are those of blocks. -/
theorem exists_block_of_mem_located {identity : BlockIdentity}
    (mem : identity ∈ (parser.located source scanner collect raw).map Prod.fst) :
    ∃ block ∈ parser.foundBlocks raw, block.identity parser = identity := by
  obtain ⟨⟨other, entry⟩, pair, rfl⟩ := List.mem_map.1 mem
  obtain ⟨block, found, given⟩ := List.mem_filterMap.1 pair
  obtain ⟨entry', -, same⟩ := Option.map_eq_some_iff.1 given
  exact ⟨block, found, congrArg Prod.fst same⟩

/-- No two identities of well-formed blocks have one id. -/
theorem blockId_injOn_located (undotted : parser.Undotted raw) :
    ∀ a ∈ (parser.located source scanner collect raw).map Prod.fst,
      ∀ b ∈ (parser.located source scanner collect raw).map Prod.fst,
        a.blockId parser = b.blockId parser → a = b := by
  intro a memA b memB same
  obtain ⟨first, foundA, rfl⟩ := exists_block_of_mem_located source scanner collect memA
  obtain ⟨second, foundB, rfl⟩ := exists_block_of_mem_located source scanner collect memB
  rw [first.blockId_identity, second.blockId_identity] at same
  exact (BlockParser.id_eq_iff undotted foundA foundB).1 same

/-- **The slot of a category** is filled by the identities of the well-formed blocks. -/
theorem collapse_located (parser : BlockParser) (raw : List Json) :
    collapse ((parser.shape.candidates raw).filterMap
        (Candidate.context? parser source scanner collect)) =
      OrderedMap.ofList ((parser.located source scanner collect raw).map fun block =>
        (block.1.blockId parser, block.2)) := by
  rw [BlockParser.filterMap_candidates_eq, collapse, List.map_map]
  rfl

/-- **A slot has each identity once**, where it came first. -/
theorem keys_ofList_located (undotted : parser.Undotted raw) :
    (OrderedMap.ofList ((parser.located source scanner collect raw).map fun block =>
        (block.1.blockId parser, block.2))).keys =
      (firstOccurrences ((parser.located source scanner collect raw).map Prod.fst)).map
        (BlockIdentity.blockId parser) := by
  rw [OrderedMap.keys_ofList, List.map_map,
    ← firstOccurrences_map (blockId_injOn_located source scanner collect undotted),
    List.map_map]
  rfl

/-- **A slot has the last context of each identity.** -/
theorem get?_ofList_located (undotted : parser.Undotted raw)
    {front back : List (BlockIdentity × BlockEntry)} {identity : BlockIdentity}
    {entry : BlockEntry}
    (given : parser.located source scanner collect raw = front ++ (identity, entry) :: back)
    (last : identity ∉ back.map Prod.fst) :
    (OrderedMap.ofList ((parser.located source scanner collect raw).map fun block =>
        (block.1.blockId parser, block.2))).get? (identity.blockId parser) = some entry := by
  have apart := blockId_injOn_located source scanner collect undotted
  rw [given] at apart
  rw [given, List.map_append, List.map_cons]
  refine OrderedMap.get?_ofList_last entry fun again => last ?_
  rw [List.map_map] at again
  obtain ⟨other, mem, same⟩ := List.mem_map.1 again
  have later : other.1 ∈ back.map Prod.fst := List.mem_map_of_mem mem
  rwa [apart other.1 (by simp [later]) identity (by simp) same] at later

end Registry

/-! ### Ids, slots and numbers -/

/-- **Ids tell blocks apart, and a slot loses repetitions only.**  Take any block parser and
any raw blocks in which no type has a dot, nor any name of a provider.

* Without names, blocks have different ids, and the id of a block depends on the number of
  mappings before it alone.
* With types, two blocks have one id if and only if they have the same type and the same name.
* With names, two blocks have one id if and only if they have the same name and, for
  providers, the same alias or none.
* A block is well-formed when it has a range, and the contexts of a run are those of the
  well-formed blocks.
* In any call of enrichment with this parser and these raw blocks, the slot of the category
  has one entry for each identity of a well-formed block, in the order in which they came
  first, and the entry is that of the last block with the identity.  The number that is
  reported is the size of the slot. -/
theorem blockIds_tell_blocks_apart (parser : BlockParser) (raw : List Json)
    (undotted : parser.Undotted raw) :
    let found := parser.foundBlocks raw
    (parser.shape = .unnamed →
      (found.map (FoundBlock.id parser)).Nodup ∧ ∀ block ∈ found,
        block.id parser = parser.unnamedId ((raw.take block.place.index).countP isMapping)) ∧
    (parser.shape = .typed → ∀ a ∈ found, ∀ b ∈ found,
      (∃ type name, a.place.path = [type, name]) ∧
      (a.id parser = b.id parser ↔ a.place.path = b.place.path)) ∧
    (parser.shape = .named → ∀ a ∈ found, ∀ b ∈ found,
      (∃ name, a.place.path = [name]) ∧
      (a.id parser = b.id parser ↔ a.place.path = b.place.path ∧
        (parser.category = "provider" → a.alias? = b.alias?))) ∧
    ∀ (registry : Registry) (read : TextReader) (collect : Bool) (key : DefinitionKey)
      (blocks : BlocksByCategory) (store : ContextStore) (cache : SourceCache)
      (category : String),
      blocks.get? category = some raw →
        registry.parsers.get? category = some (.blocks parser) →
      let source := cache.source? read key.filePath
      let storeKey := registry.mode.storeKey key
      let after := registry.enrich read collect key blocks store cache
      let located := parser.located source registry.scanner collect raw
      let identities := firstOccurrences (located.map Prod.fst)
      (∀ block ∈ found,
        (block.located? parser source registry.scanner collect).isSome = true ↔
        ∃ startLine endLine, HasRange block.place.value startLine endLine) ∧
      (parser.run read registry.scanner collect storeKey raw cache).contexts =
        located.map (fun block => ⟨block.1.blockId parser, block.2⟩) ∧
      ∃ slot, after.store.category? storeKey category = some slot ∧
        slot.keys = identities.map (BlockIdentity.blockId parser) ∧
        slot.size = identities.length ∧
        (∀ front identity entry back, located = front ++ (identity, entry) :: back →
          identity ∉ back.map Prod.fst → slot.get? (identity.blockId parser) = some entry) ∧
        ∀ count, .categoryEnriched storeKey.render category count ∈ after.events ↔
          count = slot.size := by
  intro found
  have depth {block : FoundBlock} (mem : block ∈ found) :
      block.place.path.length = parser.shape.depth := BlockParser.length_path mem
  refine ⟨fun unnamed => ⟨BlockParser.nodup_ids unnamed, fun block mem => ?_⟩,
    fun typed a memA b memB => ⟨?_, ?_⟩, fun named a memA b memB => ⟨?_, ?_⟩, ?_⟩
  · have noName := depth mem
    rw [unnamed, BlockShape.depth, List.length_eq_zero_iff] at noName
    rw [← BlockParser.earlier_eq mem, FoundBlock.id, Candidate.blockId, noName]
  · have names := depth memA
    rwa [typed, BlockShape.depth, List.length_eq_two] at names
  · rw [BlockParser.id_eq_iff undotted memA memB,
      BlockParser.identity_eq_iff (by simp [typed]) memA memB]
    simp [typed]
  · have names := depth memA
    rwa [named, BlockShape.depth, List.length_eq_one_iff] at names
  · rw [BlockParser.id_eq_iff undotted memA memB,
      BlockParser.identity_eq_iff (by simp [named]) memA memB]
    simp [named]
  · intro registry read collect key blocks store cache category present registered
      source storeKey after located identities
    have contexts :=
      parser.run_contexts_candidates read registry.scanner collect storeKey raw cache
    rw [KeyMode.filePath_storeKey, BlockParser.filterMap_candidates_eq] at contexts
    have keys := Registry.keys_ofList_located source registry.scanner collect undotted
    have given : (CategoryParser.blocks parser).slot registry.scanner collect
        (cache.view read) storeKey raw =
          .ok (OrderedMap.ofList (located.map fun block =>
            (block.1.blockId parser, block.2))) := by
      rw [CategoryParser.slot, SourceCache.toOption_view, KeyMode.filePath_storeKey,
        BlockParser.filterMap_steps, Registry.collapse_located]
    refine ⟨fun block _ =>
        BlockParser.isSome_located?_iff source registry.scanner collect block,
      contexts, _, ?_, keys, ?_, ?_, fun count => ?_⟩
    · rw [registry.category?_enrich read collect key blocks store cache present registered,
        given]
      rfl
    · have lengths := congrArg List.length keys
      rwa [OrderedMap.keys, List.length_map, List.length_map] at lengths
    · intro front identity entry back split last
      exact Registry.get?_ofList_located source registry.scanner collect undotted split last
    · exact registry.mem_reports_iff read collect present registered given

/-- A body with markers and other members. -/
def markedBody (startLine endLine : Nat) (others : List (String × Json)) : Json :=
  .obj ((startMarker, .ofNat startLine) :: (endMarker, .ofNat endLine) :: others)

/-- Blocks of one provider, of which the last is the first one again, with its alias in a
list. -/
def repeatedProvider : List Json :=
  [.obj [("aws", markedBody 1 2 [("alias", .str "west")])],
   .obj [("aws", markedBody 4 5 [])],
   .obj [("aws", markedBody 7 9 [("alias", .arr [.str "west"])])]]

/-- The slot has two entries, and the alias leads to the last block. -/
theorem repeatedProvider_slot :
    let parser : BlockParser := ⟨"provider", .named⟩
    let registry :=
      Registry.ofRegistrations .filePath .standard [("provider", .blocks parser)]
    let after := registry.enrich (fun _ => .error .notFound) true ⟨"main.tf", []⟩
      (.ofList [("provider", repeatedProvider)]) .empty .empty
    parser.Undotted repeatedProvider ∧
      ∃ slot, after.store.category? (.file "main.tf") "provider" = some slot ∧
        slot.keys = ["aws.west", "aws"] ∧
        slot.get? "aws.west" = some ⟨7, 9, [], []⟩ ∧
        slot.get? "aws" = some ⟨4, 5, [], []⟩ ∧
        ∀ count, .categoryEnriched "main.tf" "provider" count ∈ after.events ↔ count = 2 := by
  intro parser registry after
  have undotted : parser.Undotted repeatedProvider := by
    intro _ block mem heading isHeading
    have paths : ∀ block ∈ parser.foundBlocks repeatedProvider,
        block.place.path.head? = some "aws" := by
      simp [parser, BlockParser.foundBlocks, repeatedProvider, BlockShape.candidates,
        BlockShape.candidatesFrom, BlockShape.candidatesOf, markedBody]
    rw [paths block mem, Option.mem_some_iff] at isHeading
    rw [← isHeading]
    decide
  obtain ⟨-, -, -, inCalls⟩ := blockIds_tell_blocks_apart parser repeatedProvider undotted
  obtain ⟨-, -, slot, held, keys, size, last, counted⟩ :=
    inCalls registry (fun _ => .error .notFound)
    true ⟨"main.tf", []⟩
      (.ofList [("provider", repeatedProvider)]) .empty .empty "provider" rfl rfl
  have three : parser.located
      (SourceCache.empty.source? (fun _ => .error .notFound) "main.tf")
      registry.scanner true repeatedProvider =
        [(.named "aws" (some "west"), ⟨1, 2, [], []⟩), (.named "aws" none, ⟨4, 5, [], []⟩),
          (.named "aws" (some "west"), ⟨7, 9, [], []⟩)] := rfl
  refine ⟨undotted, slot, held, keys.trans ?_, ?_, ?_, fun count => ?_⟩
  · rw [three]
    rfl
  · exact last [_, _] (.named "aws" (some "west")) _ [] three (by decide)
  · exact last [_] (.named "aws" none) _ [_] three (by decide)
  · rw [three] at size
    exact (counted count).trans (by rw [size]; rfl)

end InfraScan
