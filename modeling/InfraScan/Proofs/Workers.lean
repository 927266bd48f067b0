import InfraScan.Proofs.KeyIsolation
import InfraScan.Proofs.Merge

/-!
# Workers and a single scan

The calls of a scan can be shared out among workers.  Each worker has a store and a cache of
its own, and the stores are merged afterwards.  A merge knows nothing of the slots that a
worker has dropped on its way, so it is not evident that the result is the store of a single
scan, let alone in the same order; this module says when it is.

* `Registry.enrichCalls_append_store` — a run that is carried on
* `Registry.BlocksOnly.writes` — parsers that go by the shape of blocks drop nothing
* `Registry.merge_enrichCalls` — a run before a merge is the same run after it
* `merge_workers_eq_sequential` — two workers and a single scan
* `not_forall_merge_eq_sequential` — the proviso of it is needed
-/

namespace InfraScan

namespace Registry

variable (registry : Registry) (read : TextReader)

/-- **A run that is carried on** leaves the store of the longer run.  What the first part has
put into the cache makes no difference to the second. -/
theorem enrichCalls_append_store (store : ContextStore) (cache : SourceCache)
    (earlier later : List EnrichCall) :
    (registry.enrichCalls read store cache (earlier ++ later)).store =
      (registry.enrichCalls read (registry.enrichCalls read store cache earlier).store cache
        later).store := by
  rw [enrichCalls_store, enrichCalls_store, enrichCalls_store, List.foldl_append]

/-- **Parsers that go by the shape of blocks drop nothing**: whatever the raw blocks are, each
update of a call writes its slot. -/
theorem BlocksOnly.writes {registry : Registry} (blocksOnly : registry.BlocksOnly)
    {collect : Bool} {view : SourceView} {key : StoreKey}
    {blocks : List (String × List Json)} {change : SlotUpdate}
    (mem : change ∈ registry.updates collect view key blocks) :
    ∃ slot, change.2 = .ok slot := by
  obtain ⟨category, -, given⟩ := List.mem_filterMap.1 mem
  obtain ⟨parser, registered, rfl⟩ := Option.map_eq_some_iff.1 given
  obtain ⟨blockParser, rfl⟩ := blocksOnly category.1 parser registered
  exact ⟨_, rfl⟩

/-- **A run before a merge is the same run after it**, provided each of its calls is for a key
that the lower store does not hold, or drops nothing. -/
theorem merge_enrichCalls {lower : ContextStore} (upper : ContextStore) (cache : SourceCache)
    {calls : List EnrichCall}
    (kept : ∀ call ∈ calls, lower.get? (registry.mode.storeKey call.key) = none ∨
      ∀ change ∈ registry.callUpdates read cache call, ∃ slot, change.2 = .ok slot) :
    lower.merge (registry.enrichCalls read upper cache calls).store =
      (registry.enrichCalls read (lower.merge upper) cache calls).store := by
  have updates (store : ContextStore) :
      (registry.enrichCalls read store cache calls).store =
        (calls.map fun call => (registry.mode.storeKey call.key,
          registry.callUpdates read cache call)).foldl
            (fun acc entry => acc.updateAll entry.1 entry.2) store := by
    rw [enrichCalls_store, List.foldl_map]
  rw [updates, updates]
  refine ContextStore.merge_foldl_updateAll upper fun entry mem => ?_
  obtain ⟨call, called, rfl⟩ := List.mem_map.1 mem
  exact kept call called

end Registry

/-- **Two workers leave the store of a single scan.**  Both begin with an empty store and with
the cache that the single scan begins with, and go on by themselves.  If no key of the first
worker is a key of the second, or if no parser can fail, then the second store written over
the first one is the store of the calls of both made one after another: the same keys,
categories, ids and entries, in the same order at every level. -/
theorem merge_workers_eq_sequential (registry : Registry) (read : TextReader)
    (cache : SourceCache) (xs ys : List EnrichCall)
    (independent : (∀ x ∈ xs, ∀ y ∈ ys,
      registry.mode.storeKey x.key ≠ registry.mode.storeKey y.key) ∨ registry.BlocksOnly) :
    let scan := fun calls => (registry.enrichCalls read .empty cache calls).store
    (scan xs).merge (scan ys) = scan (xs ++ ys) := by
  intro scan
  have kept : ∀ call ∈ ys, (scan xs).get? (registry.mode.storeKey call.key) = none ∨
      ∀ change ∈ registry.callUpdates read cache call, ∃ slot, change.2 = .ok slot := by
    intro call called
    rcases independent with apart | blocksOnly
    · refine Or.inl (OrderedMap.get?_eq_none_iff.2 fun present => ?_)
      -- A key of the first worker's store is the key of one of its calls.
      rcases registry.mem_keys_enrichCalls read present with atStart | ⟨x, mem, same⟩
      · cases atStart
      · exact apart x mem call called same
    · exact Or.inr fun change mem => blocksOnly.writes mem
  calc (scan xs).merge (scan ys)
      = (registry.enrichCalls read ((scan xs).merge .empty) cache ys).store :=
        registry.merge_enrichCalls read .empty cache kept
    _ = (registry.enrichCalls read (scan xs) cache ys).store := by
      rw [ContextStore.merge_empty]
    _ = scan (xs ++ ys) := (registry.enrichCalls_append_store read .empty cache xs ys).symm

/-- A parser that fails when there are no raw blocks, and gives no contexts for any others. -/
def blocksWanted : CategoryParser := .custom fun _ _ key blocks => .done <|
  if blocks.isEmpty then
    .error (.malformedBlock ⟨"data", 0, .stated ("nothing to parse in " ++ key.render)⟩)
  else .ok []

/-- A registry with a parser that fails on some of its inputs. -/
def pickyRegistry : Registry :=
  .ofRegistrations .filePath .standard
    [("resource", .blocks ⟨"resource", .typed⟩), ("data", blocksWanted)]

/-- The store of a scan in which no file can be read. -/
def blindScan (registry : Registry) (calls : List EnrichCall) : ContextStore :=
  (registry.enrichCalls (fun _ => .error .notFound) .empty .empty calls).store

/-- **Without the proviso a merge may differ from the single scan**: there a call of the
second worker drops a slot that the first one has written, and a merge brings it back. -/
theorem not_forall_merge_eq_sequential :
    ¬∀ (registry : Registry) (read : TextReader) (cache : SourceCache)
      (xs ys : List EnrichCall),
      let scan := fun calls => (registry.enrichCalls read .empty cache calls).store
      (scan xs).merge (scan ys) = scan (xs ++ ys) := by
  intro always
  let call (raw : List Json) : EnrichCall := ⟨⟨"main.tf", []⟩, .ofList [("data", raw)], true⟩
  have same : (blindScan pickyRegistry [call [.null]]).merge
      (blindScan pickyRegistry [call []]) =
      blindScan pickyRegistry [call [.null], call []] :=
    always pickyRegistry _ .empty [call [.null]] [call []]
  have brought : ((blindScan pickyRegistry [call [.null]]).merge
      (blindScan pickyRegistry [call []])).keys = [.file "main.tf"] := by
    decide +kernel
  have dropped : (blindScan pickyRegistry [call [.null], call []]).keys = [] := by
    decide +kernel
  rw [same, dropped] at brought
  cases brought

/-- Calls for two files. -/
def firstCalls : List EnrichCall := [
  ⟨⟨"main.tf", []⟩, .ofList [("resource", [])], true⟩,
  ⟨⟨"net.tf", []⟩, .ofList [("output", []), ("variable", [])], true⟩]

/-- Calls for the same files the other way round, with other categories, and for one file
more. -/
def secondCalls : List EnrichCall := [
  ⟨⟨"net.tf", []⟩, .ofList [("data", []), ("output", [])], true⟩,
  ⟨⟨"dns.tf", []⟩, .ofList [("module", [])], true⟩,
  ⟨⟨"main.tf", []⟩, .ofList [("variable", [])], true⟩]

/-- Calls for another file, of which the second drops what the first one has written. -/
def apartCalls : List EnrichCall := [
  ⟨⟨"dns.tf", []⟩, .ofList [("data", [.null])], true⟩,
  ⟨⟨"dns.tf", []⟩, .ofList [("data", []), ("resource", [])], true⟩]

/-- Workers on different files one of whose parsers fails at times, and workers on the same
files whose parsers cannot fail. -/
theorem merge_firstCalls :
    (∀ x ∈ firstCalls, ∀ y ∈ apartCalls,
        pickyRegistry.mode.storeKey x.key ≠ pickyRegistry.mode.storeKey y.key) ∧
      ((blindScan pickyRegistry firstCalls).merge
          (blindScan pickyRegistry apartCalls)).entries.toList.map
            (fun entry => (entry.1, entry.2.keys)) =
        [(.file "main.tf", ["resource"]), (.file "dns.tf", ["resource"])] ∧
      (Registry.standard .filePath .standard).BlocksOnly ∧
      ((blindScan (.standard .filePath .standard) firstCalls).merge
          (blindScan (.standard .filePath .standard) secondCalls)).entries.toList.map
            (fun entry => (entry.1, entry.2.keys)) =
        [(.file "main.tf", ["resource", "variable"]),
          (.file "net.tf", ["output", "variable", "data"]),
          (.file "dns.tf", ["module"])] := by
  have apart : ∀ x ∈ firstCalls, ∀ y ∈ apartCalls,
      pickyRegistry.mode.storeKey x.key ≠ pickyRegistry.mode.storeKey y.key := by
    decide
  have blocksOnly := Registry.blocksOnly_standard .filePath .standard
  refine ⟨apart, ?_, blocksOnly, ?_⟩
  · have same : (blindScan pickyRegistry firstCalls).merge
        (blindScan pickyRegistry apartCalls) =
        blindScan pickyRegistry (firstCalls ++ apartCalls) :=
      merge_workers_eq_sequential pickyRegistry _ .empty firstCalls apartCalls (Or.inl apart)
    rw [same]
    decide +kernel
  · have same : (blindScan (.standard .filePath .standard) firstCalls).merge
        (blindScan (.standard .filePath .standard) secondCalls) =
          blindScan (.standard .filePath .standard) (firstCalls ++ secondCalls) :=
      merge_workers_eq_sequential _ _ .empty firstCalls secondCalls (Or.inr blocksOnly)
    rw [same]
    decide +kernel

end InfraScan
