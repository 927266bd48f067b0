import InfraScan.Proofs.Enrichment

/-!
# Suppressions of stored blocks

A check that is missing from a report must be missing because somebody wrote so inside the
block concerned.  The path from a directive to a stored entry leads through the flattening of
raw blocks, the validation of line markers, the clamped slice of the source, the scanner, and
the map that collapses repeated ids; this module follows it and shows that nothing is lost on
the way and nothing comes in from a neighbouring line.

* `checksInRange` — the checks taken off by the lines of a range
* `BlockStep.context?_eq_some` — what a context says about the step that it comes from
* `CategoryParser.slot_plain` — a slot is the same without checks when nothing is collected
* `enrich_skippedChecks_exact` — the checks stored for a block are those of its own lines
-/

namespace InfraScan

/-! ### The checks of a range -/

/-- **The checks taken off in a range of a file**: those of each line, in the order of the
lines; none when the file cannot be read. -/
def checksInRange (scanner : DirectiveScanner) (source : Option (List String))
    (startLine endLine : Nat) : List SkippedCheck :=
  match source with
  | none => []
  | some lines =>
    (lineNumbers startLine endLine lines.length).flatMap fun number =>
      scanner.scanLine (lineText lines number)

/-- A check is taken off in a range when a line of the range has a directive for it. -/
theorem mem_checksInRange {scanner : DirectiveScanner} {source : Option (List String)}
    {startLine endLine : Nat} {check : SkippedCheck} :
    check ∈ checksInRange scanner source startLine endLine ↔
      ∃ lines number, source = some lines ∧ max startLine 1 ≤ number ∧
        number ≤ min endLine lines.length ∧
          check ∈ scanner.scanLine (lineText lines number) := by
  cases source with
  | none => simp [checksInRange]
  | some lines => simp [checksInRange, List.mem_flatMap, mem_lineNumbers, and_assoc]

/-- Scanning the lines of a slice comes to scanning the lines of the range by number. -/
theorem scan_slice (scanner : DirectiveScanner) (source : Option (List String))
    (startLine endLine : Nat) :
    scanner.scan
        (((source.map fun lines => slice lines startLine endLine).getD []).map Prod.snd) =
      checksInRange scanner source startLine endLine := by
  cases source with
  | none => rfl
  | some lines =>
    rw [Option.map_some, Option.getD_some, slice_eq_map, List.map_map, checksInRange,
      DirectiveScanner.scan, List.flatMap_map]
    rfl

/-! ### The checks of a slot -/

/-- The entry without its checks. -/
def BlockEntry.plain (entry : BlockEntry) : BlockEntry := { entry with skippedChecks := [] }

namespace BlockStep

/-- **A context comes from a step that located its block**, and its checks are those of the
range. -/
theorem context?_eq_some {source : Option (List String)} {scanner : DirectiveScanner}
    {step : BlockStep} {context : BlockContext}
    (given : context? source scanner true step = some context) :
    step = .locate context.id context.entry.startLine context.entry.endLine ∧
      context.entry.skippedChecks =
        checksInRange scanner source context.entry.startLine context.entry.endLine := by
  cases step with
  | skip index defect => cases given
  | locate id startLine endLine =>
    obtain rfl := Option.some.inj given
    exact ⟨rfl, scan_slice scanner source startLine endLine⟩

/-- Without collecting, a step gives the same context less its checks. -/
theorem context?_plain (source : Option (List String)) (scanner : DirectiveScanner)
    (step : BlockStep) :
    context? source scanner false step =
      (context? source scanner true step).map fun context =>
        ⟨context.id, context.entry.plain⟩ := by
  cases step <;> rfl

end BlockStep

namespace CategoryParser

/-- **An entry of a slot belongs to a block that was located**, and its checks are those of
the range of that block. -/
theorem entry_of_slot {parser : BlockParser} {scanner : DirectiveScanner} {view : SourceView}
    {key : StoreKey} {raw : List Json} {slot : CategoryContexts}
    (given : (CategoryParser.blocks parser).slot scanner true view key raw = .ok slot)
    {id : String} {entry : BlockEntry} (found : slot.get? id = some entry) :
    .locate id entry.startLine entry.endLine ∈ parser.steps raw ∧
      entry.skippedChecks =
        checksInRange scanner (view key.filePath).toOption entry.startLine entry.endLine := by
  obtain ⟨step, stepMem, stepGives⟩ := CategoryParser.exists_step_of_slot given found
  obtain ⟨rfl, checks⟩ := BlockStep.context?_eq_some stepGives
  exact ⟨stepMem, checks⟩

/-- **A parser of blocks that collects nothing gives the same slot without checks.** -/
theorem slot_plain (parser : BlockParser) (scanner : DirectiveScanner) (view : SourceView)
    (key : StoreKey) (raw : List Json) :
    (CategoryParser.blocks parser).slot scanner false view key raw =
      ((CategoryParser.blocks parser).slot scanner true view key raw).map
        (OrderedMap.mapValues BlockEntry.plain) := by
  let source := (view key.filePath).toOption
  have contexts : (parser.steps raw).filterMap (BlockStep.context? source scanner false) =
      ((parser.steps raw).filterMap (BlockStep.context? source scanner true)).map
        fun context => ⟨context.id, context.entry.plain⟩ := by
    rw [List.map_filterMap, funext (BlockStep.context?_plain source scanner)]
  rw [slot, slot, contexts, Except.map, Registry.collapse, Registry.collapse,
    OrderedMap.mapValues_ofList, List.map_map, List.map_map]
  rfl

end CategoryParser

namespace Registry

/-- The updates of a call that collects nothing are those of one that does, without checks. -/
theorem BlocksOnly.updates_plain {registry : Registry} (blocksOnly : registry.BlocksOnly)
    (view : SourceView) (key : StoreKey) (blocks : List (String × List Json)) :
    registry.updates false view key blocks =
      (registry.updates true view key blocks).map
        (SlotUpdate.mapEntries BlockEntry.plain) := by
  have each (category : String × List Json) :
      registry.update? false view key category =
        (registry.update? true view key category).map
          (SlotUpdate.mapEntries BlockEntry.plain) := by
    unfold update?
    cases registered : registry.parsers.get? category.1 with
    | none => rfl
    | some parser =>
      obtain ⟨blockParser, rfl⟩ := blocksOnly category.1 parser registered
      rw [Option.map_some, Option.map_some, Option.map_some, CategoryParser.slot_plain]
      rfl
  unfold updates
  rw [List.map_filterMap, funext each]

end Registry

/-! ### The checks of a store -/

/-- Taking the checks away twice comes to taking them away once. -/
theorem SlotUpdate.mapEntries_plain_plain (change : SlotUpdate) :
    SlotUpdate.mapEntries BlockEntry.plain (SlotUpdate.mapEntries BlockEntry.plain change) =
      SlotUpdate.mapEntries BlockEntry.plain change := by
  obtain ⟨category, result⟩ := change
  cases result with
  | error cause => rfl
  | ok slot =>
    simp only [SlotUpdate.mapEntries, Except.map, OrderedMap.mapValues_mapValues]
    rfl

/-- Up to the checks, a call leaves the same store whether it collects or not. -/
theorem Registry.BlocksOnly.mapEntries_plain_enrich {registry : Registry}
    (blocksOnly : registry.BlocksOnly) (read : TextReader) (key : DefinitionKey)
    (blocks : BlocksByCategory) (store : ContextStore) (cache : SourceCache) :
    (registry.enrich read false key blocks store cache).store.mapEntries BlockEntry.plain =
      (registry.enrich read true key blocks store cache).store.mapEntries
        BlockEntry.plain := by
  rw [enrich_store, enrich_store, ContextStore.mapEntries_updateAll,
    ContextStore.mapEntries_updateAll, blocksOnly.updates_plain, List.map_map]
  congr 2
  exact funext SlotUpdate.mapEntries_plain_plain

/-- **The checks stored for a block are those of its own lines.**  Whatever else is in the
store, in the cache and in the raw blocks, a call that collects gives every registered
category a slot, each entry of which belongs to a block of that category that was located and
carries the checks of the lines in the block's own range, in order: a check is recorded for a
block exactly when a line of its range has a directive for it.  A call that does not collect
leaves the same store up to the checks, and its slots carry none. -/
theorem enrich_skippedChecks_exact (registry : Registry) (blocksOnly : registry.BlocksOnly)
    (read : TextReader) (key : DefinitionKey) (blocks : BlocksByCategory)
    (store : ContextStore) (cache : SourceCache) :
    let storeKey := registry.mode.storeKey key
    let source := cache.source? read key.filePath
    let collected := (registry.enrich read true key blocks store cache).store
    let plain := (registry.enrich read false key blocks store cache).store
    (∀ category raw, blocks.get? category = some raw → registry.isRegistered category = true →
      ∃ parser slot, registry.parsers.get? category = some (.blocks parser) ∧
        collected.category? storeKey category = some slot ∧
        ∀ id entry, slot.get? id = some entry →
          .locate id entry.startLine entry.endLine ∈ parser.steps raw ∧
          entry.skippedChecks =
            checksInRange registry.scanner source entry.startLine entry.endLine ∧
          ∀ check, check ∈ entry.skippedChecks ↔
            ∃ lines number, source = some lines ∧ max entry.startLine 1 ≤ number ∧
              number ≤ min entry.endLine lines.length ∧
              check ∈ registry.scanner.scanLine (lineText lines number)) ∧
    plain.mapEntries BlockEntry.plain = collected.mapEntries BlockEntry.plain ∧
    (∀ category raw, blocks.get? category = some raw → registry.isRegistered category = true →
      ∃ slot, plain.category? storeKey category = some slot ∧
        ∀ id entry, slot.get? id = some entry → entry.skippedChecks = []) := by
  intro storeKey source collected plain
  have parserOf (category : String) (present : registry.isRegistered category = true) :
      ∃ parser, registry.parsers.get? category = some (.blocks parser) := by
    obtain ⟨parser, registered⟩ := Option.isSome_iff_exists.1 present
    obtain ⟨blockParser, rfl⟩ := blocksOnly category parser registered
    exact ⟨blockParser, registered⟩
  refine ⟨?_, blocksOnly.mapEntries_plain_enrich read key blocks store cache, ?_⟩
  · intro category raw present isRegistered
    obtain ⟨parser, registered⟩ := parserOf category isRegistered
    have held := registry.category?_enrich read true key blocks store cache present registered
    refine ⟨parser, _, registered, held, fun id entry found => ?_⟩
    obtain ⟨located, checks⟩ := CategoryParser.entry_of_slot rfl found
    rw [SourceCache.toOption_view, KeyMode.filePath_storeKey] at checks
    exact ⟨located, checks, fun check => by rw [checks, mem_checksInRange]⟩
  · intro category raw present isRegistered
    obtain ⟨parser, registered⟩ := parserOf category isRegistered
    have held := registry.category?_enrich read false key blocks store cache
      present registered
    rw [CategoryParser.slot_plain] at held
    refine ⟨_, held, fun id entry found => ?_⟩
    rw [OrderedMap.get?_mapValues] at found
    obtain ⟨collectedEntry, -, rfl⟩ := Option.map_eq_some_iff.1 found
    rfl

/-- A file in which one block stands inside another, with a directive in either. -/
def nestedFile : TextReader := fun path =>
  if path = "main.tf" then
    .ok ("outer \x7b\n# resgraph:skip=CKV_1: why\n" ++
      "inner \x7b\n# resgraph:skip=CKV_2\n\x7d\n\x7d\n")
  else .error .notFound

/-- The two blocks of `nestedFile`. -/
def nestedBlocks : BlocksByCategory :=
  OrderedMap.ofList [("resource", [.obj [("a", .obj [
    ("outer", .obj [(startMarker, .ofNat 1), (endMarker, .ofNat 6)]),
    ("inner", .obj [(startMarker, .ofNat 3), (endMarker, .ofNat 5)])])]])]

/-- What a call makes of `nestedBlocks`. -/
def nestedStore : ContextStore :=
  ((Registry.standard .filePath .standard).enrich nestedFile true ⟨"main.tf", []⟩ nestedBlocks
    .empty .empty).store

/-- The directive of the outer block does not reach the inner one. -/
theorem nested_skippedChecks :
    (Registry.standard .filePath .standard).BlocksOnly ∧
      ∃ entry, nestedStore.entry? (.file "main.tf") "resource" "a.inner" = some entry ∧
        entry.skippedChecks = [⟨"CKV_2", none⟩] := by
  refine ⟨Registry.blocksOnly_standard _ _, ?_⟩
  obtain ⟨parser, slot, -, held, entries⟩ :=
    (enrich_skippedChecks_exact (Registry.standard .filePath .standard)
      (Registry.blocksOnly_standard _ _) nestedFile
        ⟨"main.tf", []⟩ nestedBlocks .empty .empty).1
      "resource" _ rfl rfl
  change nestedStore.category? (.file "main.tf") "resource" = some slot at held
  have range : (nestedStore.category? (.file "main.tf") "resource").bind
      (fun slot => (slot.get? "a.inner").map fun entry => (entry.startLine, entry.endLine)) =
        some (3, 5) := by
    decide +kernel
  rw [held, Option.bind_some, Option.map_eq_some_iff] at range
  obtain ⟨entry, found, bounds⟩ := range
  obtain ⟨first, last⟩ := Prod.mk.inj bounds
  obtain ⟨-, checks, -⟩ := entries "a.inner" entry found
  refine ⟨entry, by rw [ContextStore.entry?, held]; exact found, ?_⟩
  rw [checks, first, last]
  decide +kernel

end InfraScan
