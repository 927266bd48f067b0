import InfraScan.Proofs.BrokenBlocks
import InfraScan.Proofs.Enrichment

/-!
# What a call reports

Besides its result a call of enrichment has events.  Those of the parsers are about raw blocks
and sources; for each category that was attempted there is one more, about what has become of
it.

* `Event.isOutcome` — the event says what has become of a category
* `SlotUpdate.report` — the event for an update
* `Registry.reports_enrich` — the reports of a call are those of its updates, in order
* `Registry.mem_reports_iff` — the number of blocks that is reported for a category
-/

namespace InfraScan

/-- The event says what has become of a category. -/
def Event.isOutcome : Event → Bool
  | .categoryEnriched .. | .categoryFailed .. => true
  | _ => false

/-- **The report of an update**: how many blocks the slot has, or why there is no slot. -/
def SlotUpdate.report (key : StoreKey) (change : SlotUpdate) : Event :=
  match change.2 with
  | .ok slot => .categoryEnriched key.render change.1 slot.size
  | .error cause => .categoryFailed key.render change.1 cause

/-- Parsers do not say what has become of their category. -/
theorem CategoryParser.filter_isOutcome_run (parser : CategoryParser) (read : TextReader)
    (scanner : DirectiveScanner) (collect : Bool) (key : StoreKey) (blocks : List Json)
    (cache : SourceCache) :
    (parser.run read scanner collect key blocks cache).events.filter Event.isOutcome =
      [] := by
  cases parser with
  | custom inquire => rw [run, Inquiry.events_run, List.filter_nil]
  | blocks parser =>
    rw [List.filter_eq_nil_iff]
    intro event mem
    have kind := parser.kind_of_mem_follow read scanner collect key
      (parser.steps blocks) false cache event mem
    cases event with
    | blockSkipped | sourceUnavailable => exact Bool.false_ne_true
    | _ => simp [Event.isBlockSkipped, Event.isSourceUnavailable] at kind

namespace Registry

variable (registry : Registry) (read : TextReader) (collect : Bool)

/-- **One category is reported by its update**, if it has one. -/
theorem reports_enrichCategory (storeKey : StoreKey) (progress : Progress)
    (category : String × List Json) :
    (registry.enrichCategory read collect storeKey progress category).events.filter
        Event.isOutcome =
      progress.events.filter Event.isOutcome ++
        (registry.update? collect (progress.cache.view read) storeKey category).toList.map
          (SlotUpdate.report storeKey) := by
  obtain ⟨name, raw⟩ := category
  cases registered : registry.parsers.get? name with
  | none =>
    simp only [update?, registered, enrichCategory, List.filter_append]
    rfl
  | some parser =>
    have outcome := parser.map_collapse_run read registry.scanner collect storeKey raw
      progress.cache
    have silent := parser.filter_isOutcome_run read registry.scanner collect storeKey raw
      progress.cache
    cases ran : (parser.run read registry.scanner collect storeKey raw
      progress.cache).result with
    | ok contexts =>
      rw [ran, Except.map] at outcome
      simp only [update?, registered, Option.map_some, enrichCategory, ran, ← outcome,
        List.filter_append, silent, List.append_nil]
      rfl
    | error cause =>
      rw [ran, Except.map] at outcome
      simp only [update?, registered, Option.map_some, enrichCategory, ran, ← outcome,
        List.filter_append, silent, List.append_nil]
      rfl

/-- The whole loop, by induction on the categories. -/
theorem reports_foldl (storeKey : StoreKey) (blocks : List (String × List Json))
    (progress : Progress) :
    (blocks.foldl (registry.enrichCategory read collect storeKey) progress).events.filter
        Event.isOutcome =
      progress.events.filter Event.isOutcome ++
        (registry.updates collect (progress.cache.view read) storeKey blocks).map
          (SlotUpdate.report storeKey) := by
  induction blocks generalizing progress with
  | nil => exact (List.append_nil _).symm
  | cons category rest ih =>
    have first := registry.advances_enrichCategory read collect storeKey progress category
    rw [List.foldl_cons, ih, reports_enrichCategory, first.seen, List.append_assoc,
      ← List.map_append, updates_cons]

variable (key : DefinitionKey) (blocks : BlocksByCategory) (store : ContextStore)
  (cache : SourceCache)

/-- **The reports of a call** are those of its updates, in order. -/
theorem reports_enrich :
    (registry.enrich read collect key blocks store cache).events.filter Event.isOutcome =
      (registry.updates collect (cache.view read)
        (registry.mode.storeKey key) blocks.toList).map
        (SlotUpdate.report (registry.mode.storeKey key)) :=
  registry.reports_foldl read collect (registry.mode.storeKey key) blocks.toList
    ⟨store, cache, [], 0, []⟩

variable {key blocks store cache}

/-- **The number of blocks that is reported for a category** is the size of its slot. -/
theorem mem_reports_iff {category : String} {raw : List Json} {parser : CategoryParser}
    {slot : CategoryContexts} (present : blocks.get? category = some raw)
    (registered : registry.parsers.get? category = some parser)
    (given : parser.slot registry.scanner collect (cache.view read)
      (registry.mode.storeKey key) raw = .ok slot)
    {count : Nat} :
    .categoryEnriched (registry.mode.storeKey key).render category count ∈
        (registry.enrich read collect key blocks store cache).events ↔
      count = slot.size := by
  have reported : .categoryEnriched (registry.mode.storeKey key).render category count ∈
        (registry.enrich read collect key blocks store cache).events ↔
      .categoryEnriched (registry.mode.storeKey key).render category count ∈
        (registry.updates collect (cache.view read)
          (registry.mode.storeKey key) blocks.toList).map
          (SlotUpdate.report (registry.mode.storeKey key)) := by
    rw [← registry.reports_enrich read collect key blocks store cache, List.mem_filter,
      Event.isOutcome, and_iff_left rfl]
  rw [reported, List.mem_map]
  constructor
  · rintro ⟨⟨name, result⟩, mem, same⟩
    cases result with
    | error cause => cases same
    | ok slot' =>
      obtain ⟨-, rfl, rfl⟩ := Event.categoryEnriched.inj same
      obtain ⟨raw', parser', present', registered', outcome⟩ :=
        (registry.mem_updates_iff collect blocks).1 mem
      obtain rfl := Option.some.inj (present.symm.trans present')
      obtain rfl := Option.some.inj (registered.symm.trans registered')
      rw [Except.ok.inj (given.symm.trans outcome.symm)]
  · rintro rfl
    exact ⟨(category, .ok slot),
      (registry.mem_updates_iff collect blocks).2
        ⟨raw, parser, present, registered, given.symm⟩, rfl⟩

end Registry

end InfraScan
