import InfraScan.Proofs.Candidates
import InfraScan.Proofs.Directive
import InfraScan.Proofs.KeyIsolation
import InfraScan.Proofs.Merge

/-!
# What every entry of a store is like

Line markers come from outside and may be anything that JSON can hold: zero, a number beyond
every file, or the wrong way round.  Whatever they are, an entry that reaches a store has a
range in order, numbered lines of its own file inside that range, and checks in good form; and
it stays like that while slots are replaced, dropped and merged.

* `SourceCache.Reachable` — the caches of scans; all that is in them are lines of texts
* `BlockEntry.MadeFrom` — an entry that was made from a source
* `ContextStore.EveryEntry` — a property of all entries of a store
* `ContextStore.Scanned` — the stores of scans, with what their calls have seen of the files
* `Registry.BlocksOrFailing.scanned_enrichCalls` — the store of a run is one of them
* `scanned_store_sound` — what holds of every such store

### What is load-bearing

Which text an entry was made from is not stored with it.  `Scanned` therefore keeps account of
what the calls of a scan have seen (`seen`), so that an entry can be held against the length
of the file that its own call has read, and not of some text that happens to fit.
-/

namespace InfraScan

/-! ### The caches of scans -/

namespace SourceCache

/-- **The caches of scans.**  A cache begins empty; texts are put in, and files are loaded
from a disk that may give something else each time. -/
inductive Reachable : SourceCache → Prop
  | empty : Reachable .empty
  | insert {cache : SourceCache} (path text : String) :
      Reachable cache → Reachable (cache.insert path text)
  | load {cache : SourceCache} (read : TextReader) (path : String) :
      Reachable cache → Reachable (cache.load read path).2

/-- All that is in a cache are lines of texts. -/
def OnlyTexts (cache : SourceCache) : Prop :=
  ∀ path lines, cache.get? path = some lines → ∃ text, lines = splitSource text

theorem OnlyTexts.insert {cache : SourceCache} (only : cache.OnlyTexts) (path text : String) :
    (cache.insert path text).OnlyTexts := by
  intro other lines cached
  change (cache.files.insert path (splitSource text)).get? other = some lines at cached
  rw [OrderedMap.get?_insert] at cached
  split at cached
  · exact ⟨text, (Option.some.inj cached).symm⟩
  · exact only other lines cached

/-- Loading a file puts its text in, or leaves the cache as it is. -/
theorem load_eq_self_or_insert (cache : SourceCache) (read : TextReader) (path : String) :
    (cache.load read path).2 = cache ∨
      ∃ text, (cache.load read path).2 = cache.insert path text := by
  unfold load
  split
  · exact .inl rfl
  · split
    · exact .inl rfl
    · rename_i text given
      exact .inr ⟨text, rfl⟩

theorem Reachable.onlyTexts {cache : SourceCache} (reachable : cache.Reachable) :
    cache.OnlyTexts := by
  induction reachable with
  | empty =>
    intro path lines cached
    cases cached
  | insert path text _ ih => exact ih.insert path text
  | @load earlier read path _ ih =>
    rcases earlier.load_eq_self_or_insert read path with same | ⟨text, inserted⟩
    · rwa [same]
    · rw [inserted]
      exact ih.insert path text

/-- **What is seen of a file are the lines of a text.** -/
theorem Reachable.exists_text_of_source? {cache : SourceCache} (reachable : cache.Reachable)
    {read : TextReader} {path : String} {lines : List String}
    (seen : cache.source? read path = some lines) : ∃ text, lines = splitSource text := by
  rcases Option.or_eq_some_iff.1 seen with cached | ⟨-, given⟩
  · exact reachable.onlyTexts path lines cached
  · obtain ⟨text, -, rfl⟩ := Option.map_eq_some_iff.1 given
    exact ⟨text, rfl⟩

/-- A call of enrichment leaves such a cache. -/
theorem Reachable.enrich {cache : SourceCache} (reachable : cache.Reachable)
    (registry : Registry) (read : TextReader) (collect : Bool) (key : DefinitionKey)
    (blocks : BlocksByCategory) (store : ContextStore) :
    (registry.enrich read collect key blocks store cache).cache.Reachable :=
  registry.enrich_cache read collect key blocks store cache
    (fun path _ earlier => .load read path earlier) reachable

/-- **No line of a source holds a line feed or ends in a carriage return.** -/
theorem clean_of_mem_splitSource {text line : String} (mem : line ∈ splitSource text) :
    '\n' ∉ line.toList ∧ line.toList.getLast? ≠ some '\r' := by
  obtain ⟨chars, inText, rfl⟩ := List.mem_map.1 mem
  rw [String.toList_ofList]
  constructor
  · intro here
    exact Text.newline_not_mem_of_mem_lines inText ((Text.dropTail_prefix _ _).subset here)
  · intro last
    have kept := Text.not_of_getLast?_dropTail last
    simp at kept

end SourceCache

/-! ### The entries of a call -/

/-- **An entry that was made from a source**, or from none: its range is in order, its lines
are those of the range, and its checks are in good form. -/
structure BlockEntry.MadeFrom (source : Option (List String)) (entry : BlockEntry) :
    Prop where
  ordered : entry.startLine ≤ entry.endLine
  codeLines : entry.codeLines =
    (source.map fun lines => slice lines entry.startLine entry.endLine).getD []
  checks : ∀ check ∈ entry.skippedChecks, check.Sound

/-- **Every located block of a category has its range in order.** -/
theorem BlockParser.le_of_locate_mem_steps {parser : BlockParser} {raw : List Json}
    {id : String} {startLine endLine : Nat}
    (mem : .locate id startLine endLine ∈ parser.steps raw) :
    startLine ≤ endLine := by
  obtain ⟨candidate, -, located⟩ := List.mem_map.1 ((parser.steps_perm raw).mem_iff.1 mem)
  exact (Candidate.hasRange_of_step_eq_locate located).le

theorem BlockStep.madeFrom_of_context? {source : Option (List String)}
    {scanner : DirectiveScanner} {collect : Bool} {id : String} {startLine endLine : Nat}
    {context : BlockContext} (ordered : startLine ≤ endLine)
    (given : context? source scanner collect (.locate id startLine endLine) = some context) :
    context.entry.MadeFrom source := by
  obtain rfl := Option.some.inj given
  refine ⟨ordered, rfl, fun check mem => ?_⟩
  cases collect with
  | false => cases mem
  | true => exact DirectiveScanner.sound_of_mem_scan mem

/-- **Every entry that a call makes of raw blocks is made from the source that the call
sees.** -/
theorem CategoryParser.madeFrom_of_slot {parser : BlockParser} {scanner : DirectiveScanner}
    {collect : Bool} {view : SourceView} {key : StoreKey} {raw : List Json}
    {slot : CategoryContexts}
    (given : (CategoryParser.blocks parser).slot scanner collect view key raw = .ok slot)
    {id : String} {entry : BlockEntry} (found : slot.get? id = some entry) :
    entry.MadeFrom (view key.filePath).toOption := by
  obtain ⟨step, mem, gives⟩ := exists_step_of_slot given found
  cases step with
  | skip index defect => cases gives
  | locate id startLine endLine =>
    exact BlockStep.madeFrom_of_context? (BlockParser.le_of_locate_mem_steps mem) gives

/-! ### The entries of a store -/

namespace ContextStore

/-- **Every entry of a store** has a property, which may depend on the key that it is held
under. -/
def EveryEntry (P : StoreKey → BlockEntry → Prop) (store : ContextStore) : Prop :=
  ∀ key category id entry, store.entry? key category id = some entry → P key entry

variable {P : StoreKey → BlockEntry → Prop}

theorem everyEntry_empty (P : StoreKey → BlockEntry → Prop) : EveryEntry P empty := by
  intro key category id entry found
  cases found

/-- A slot that is written brings in its own entries, and one that is dropped brings in
none. -/
theorem EveryEntry.update {store : ContextStore} (every : store.EveryEntry P)
    {key : StoreKey} {change : SlotUpdate}
    (written : ∀ slot, change.2 = .ok slot → ∀ id entry,
      slot.get? id = some entry → P key entry) :
    (store.update key change).EveryEntry P := by
  intro other category id entry found
  rw [ContextStore.entry?, category?_update] at found
  split at found
  · rename_i own
    obtain ⟨slot, outcome, inSlot⟩ := Option.bind_eq_some_iff.1 found
    obtain ⟨changed, result⟩ := change
    cases result with
    | error cause => cases outcome
    | ok contexts =>
      obtain rfl := Option.some.inj outcome
      exact own.1 ▸ written contexts rfl id entry inSlot
  · exact every other category id entry found

theorem EveryEntry.updateAll {store : ContextStore} (every : store.EveryEntry P)
    {key : StoreKey} {changes : List SlotUpdate}
    (written : ∀ change ∈ changes, ∀ slot, change.2 = .ok slot → ∀ id entry,
      slot.get? id = some entry → P key entry) :
    (store.updateAll key changes).EveryEntry P := by
  induction changes generalizing store with
  | nil => exact every
  | cons change rest ih =>
    exact ih (every.update (written change List.mem_cons_self)) fun other mem =>
      written other (List.mem_cons_of_mem _ mem)

/-- Slots are not mixed, so every entry of a merged store is an entry of one of the two. -/
theorem EveryEntry.merge {lower upper : ContextStore} (below : lower.EveryEntry P)
    (above : upper.EveryEntry P) : (lower.merge upper).EveryEntry P := by
  intro key category id entry found
  rw [ContextStore.entry?, category?_merge] at found
  cases slot : upper.category? key category with
  | some contexts =>
    rw [slot, Option.some_or, ← slot] at found
    exact above key category id entry found
  | none =>
    rw [slot, Option.none_or] at found
    exact below key category id entry found

/-! ### The stores of scans -/

/-- **The stores of scans.**  A scan begins with an empty store, also after a reset; it makes
calls with any registries of block parsers and failing ones, with any caches of scans and from
any disk, and stores of workers are merged.  `seen` says of a path as what it was seen by a
call that was made for it. -/
inductive Scanned (seen : String → Option (List String) → Prop) : ContextStore → Prop
  | empty : Scanned seen .empty
  | enrich {store : ContextStore} {cache : SourceCache} (registry : Registry)
      (read : TextReader) (collect : Bool) (key : DefinitionKey) (blocks : BlocksByCategory) :
      registry.BlocksOrFailing → Scanned seen store → cache.Reachable →
      seen key.filePath (cache.source? read key.filePath) →
      Scanned seen (registry.enrich read collect key blocks store cache).store
  | merge {lower upper : ContextStore} :
      Scanned seen lower → Scanned seen upper → Scanned seen (lower.merge upper)

namespace Scanned

variable {seen : String → Option (List String) → Prop} {store : ContextStore}

theorem reachable (scanned : store.Scanned seen) : store.Reachable := by
  induction scanned with
  | empty => exact .empty
  | enrich registry read collect key blocks _ _ _ _ ih =>
    exact .enrich registry read collect key blocks _ ih
  | merge _ _ below above => exact .merge below above

/-- **Every entry was made from a source that a call for its file has seen**, and that source
was the lines of a text, or nothing. -/
theorem everyEntry (scanned : store.Scanned seen) :
    store.EveryEntry fun key entry => ∃ source, seen key.filePath source ∧
      entry.MadeFrom source ∧
      ∀ lines, source = some lines → ∃ text, lines = SourceCache.splitSource text := by
  induction scanned with
  | empty => exact everyEntry_empty _
  | @enrich _ cache registry read collect key blocks blocksOrFailing _ reachable sees ih =>
    rw [Registry.enrich_store]
    refine ih.updateAll fun change mem slot outcome id entry found => ?_
    obtain ⟨raw, parser, -, registered, made⟩ :=
      (registry.mem_updates_iff collect blocks).1 mem
    rw [outcome] at made
    rcases blocksOrFailing _ parser registered with ⟨blockParser, rfl⟩ | fails
    · have madeFrom := CategoryParser.madeFrom_of_slot made.symm found
      rw [SourceCache.toOption_view, KeyMode.filePath_storeKey] at madeFrom
      rw [KeyMode.filePath_storeKey]
      exact ⟨_, sees, madeFrom, fun lines shown => reachable.exists_text_of_source? shown⟩
    · -- A parser that always fails writes no slot.
      obtain ⟨cause, failed⟩ := fails.slot read registry.scanner collect _ raw cache
      rw [failed] at made
      cases made
  | merge _ _ below above => exact below.merge above

end Scanned

end ContextStore

/-- **The store of a run is the store of a scan**, and its cache is one of a scan as well. -/
theorem Registry.BlocksOrFailing.scanned_enrichCalls {registry : Registry}
    (sound : registry.BlocksOrFailing) (read : TextReader)
    {seen : String → Option (List String) → Prop} {store : ContextStore} {cache : SourceCache}
    (scanned : store.Scanned seen) (reachable : cache.Reachable) (calls : List EnrichCall)
    (sees : ∀ call ∈ calls, seen call.key.filePath (cache.source? read call.key.filePath)) :
    (registry.enrichCalls read store cache calls).store.Scanned seen ∧
      (registry.enrichCalls read store cache calls).cache.Reachable := by
  induction calls generalizing store cache with
  | nil => exact ⟨scanned, reachable⟩
  | cons call rest ih =>
    refine ih (.enrich registry read call.collect call.key call.blocks sound scanned reachable
      (sees call List.mem_cons_self)) (reachable.enrich registry read _ _ _ store) ?_
    intro other mem
    -- What the first call has put into the cache does not change what the others see.
    rw [registry.source?_enrich]
    exact sees other (List.mem_cons_of_mem _ mem)

/-! ### What an entry is like -/

namespace BlockEntry.MadeFrom

variable {source : Option (List String)} {entry : BlockEntry}

/-- The numbers of the lines are consecutive, and end with the range or with the file. -/
theorem map_fst_codeLines (made : entry.MadeFrom source) :
    entry.codeLines.map Prod.fst =
      (source.map fun lines =>
        lineNumbers entry.startLine entry.endLine lines.length).getD [] := by
  rw [made.codeLines]
  cases source with
  | none => rfl
  | some lines =>
    rw [Option.map_some, Option.map_some, Option.getD_some, Option.getD_some, map_fst_slice]

theorem mem_source (made : entry.MadeFrom source) {line : Nat × String}
    (mem : line ∈ entry.codeLines) :
    ∃ lines, source = some lines ∧
      line.1 ∈ lineNumbers entry.startLine entry.endLine lines.length ∧
      line.2 ∈ lines := by
  rw [made.codeLines] at mem
  cases source with
  | none => cases mem
  | some lines =>
    rw [Option.map_some, Option.getD_some, slice_eq_map] at mem
    obtain ⟨number, inRange, rfl⟩ := List.mem_map.1 mem
    obtain ⟨low, high⟩ := mem_lineNumbers.1 inRange
    have inside : number - 1 < lines.length := by omega
    refine ⟨lines, rfl, inRange, ?_⟩
    have text : lineText lines number = lines[number - 1] := by simp [lineText, inside]
    exact text ▸ List.getElem_mem inside

/-- There are as many lines as the part of the range that lies in the file. -/
theorem length_codeLines (made : entry.MadeFrom source) :
    entry.codeLines.length = (source.map fun lines =>
      min entry.endLine lines.length + 1 - max entry.startLine 1).getD 0 := by
  have numbers := congrArg List.length made.map_fst_codeLines
  rw [List.length_map] at numbers
  rw [numbers]
  cases source <;> simp [lineNumbers]

end BlockEntry.MadeFrom

/-- **What every entry of a store is like.**  In whatever store a scan has led to, no key is
held without a category, and of each entry under a key the following is true.

* The range is in order.
* Some call for the file of the key has seen it as `source`; the lines of the entry are
  numbered from the first to the last line of the range as far as it lies in that source, and
  there are none without a source.  If the range lies in the source as a whole, all of its
  lines are there.
* The numbers lie in the range, and there are not more of them than the range is long.
* No line holds a line feed or ends in a carriage return.
* Every check has a word for its id, and a trimmed reason or none. -/
theorem scanned_store_sound {seen : String → Option (List String) → Prop}
    {store : ContextStore} (scanned : store.Scanned seen) :
    (∀ key categories, store.get? key = some categories → categories.isEmpty = false) ∧
    ∀ key category id entry, store.entry? key category id = some entry →
      entry.startLine ≤ entry.endLine ∧
      (∃ source, seen key.filePath source ∧
        entry.codeLines.map Prod.fst =
          (source.map fun lines =>
            lineNumbers entry.startLine entry.endLine lines.length).getD [] ∧
        ∀ lines, source = some lines → 1 ≤ entry.startLine → entry.endLine ≤ lines.length →
          entry.codeLines.length = entry.endLine - entry.startLine + 1) ∧
      (∀ line ∈ entry.codeLines, entry.startLine ≤ line.1 ∧ line.1 ≤ entry.endLine) ∧
      entry.codeLines.length ≤ entry.endLine - entry.startLine + 1 ∧
      (∀ line ∈ entry.codeLines, '\n' ∉ line.2.toList ∧ line.2.toList.getLast? ≠ some '\r') ∧
      ∀ check ∈ entry.skippedChecks, check.Sound := by
  refine ⟨scanned.reachable.noHollowKey, fun key category id entry found => ?_⟩
  obtain ⟨source, sees, made, fromText⟩ := scanned.everyEntry key category id entry found
  have ordered := made.ordered
  have count := made.length_codeLines
  refine ⟨ordered, ⟨source, sees, made.map_fst_codeLines, ?_⟩, ?_, ?_, ?_, made.checks⟩
  · rintro lines rfl inFile whole
    rw [count, Option.map_some, Option.getD_some, Nat.min_eq_left whole,
      Nat.max_eq_left inFile]
    omega
  · intro line mem
    obtain ⟨lines, -, inRange, -⟩ := made.mem_source mem
    obtain ⟨low, high⟩ := mem_lineNumbers.1 inRange
    exact ⟨by omega, by omega⟩
  · rw [count]
    cases source with
    | none => exact Nat.zero_le _
    | some lines =>
      rw [Option.map_some, Option.getD_some]
      omega
  · intro line mem
    obtain ⟨lines, shown, -, inSource⟩ := made.mem_source mem
    obtain ⟨text, rfl⟩ := fromText lines shown
    exact SourceCache.clean_of_mem_splitSource inSource

/-- A file of two lines, the second of which ends in carriage returns and in no line feed. -/
def shortFile : TextReader := fun path =>
  if path = "vars.tf" then .ok "region\r\n# resgraph:skip=CKV_9: why \r\r"
  else .error .notFound

/-- A block whose markers reach beyond both ends of `shortFile`. -/
def wideBlocks : BlocksByCategory :=
  OrderedMap.ofList [("variable", [.obj [
    ("region", .obj [(startMarker, .ofNat 0), (endMarker, .ofNat 9)])]])]

/-- What a call makes of `wideBlocks`. -/
def wideStore : ContextStore :=
  ((Registry.standard .qualified .standard).enrich shortFile true ⟨"vars.tf", []⟩ wideBlocks
    .empty .empty).store

/-- The entry has the two lines that the file has, and not the ten that its range has. -/
theorem wideStore_lines :
    wideStore.Scanned (fun path source => source = SourceCache.empty.source? shortFile path) ∧
      ∃ entry, wideStore.entry?
        (.definition ⟨"vars.tf", []⟩) "variable" "region" = some entry ∧
        entry.codeLines.map Prod.fst = [1, 2] ∧
        ∀ check ∈ entry.skippedChecks, check.Sound := by
  have scanned : wideStore.Scanned
      fun path source => source = SourceCache.empty.source? shortFile path :=
    .enrich _ _ _ _ _ (Registry.blocksOnly_standard _ _).blocksOrFailing .empty .empty rfl
  have range : (wideStore.entry? (.definition ⟨"vars.tf", []⟩) "variable" "region").map
      (fun entry => (entry.startLine, entry.endLine)) = some (0, 9) := by
    decide +kernel
  obtain ⟨entry, found, bounds⟩ := Option.map_eq_some_iff.1 range
  obtain ⟨first, last⟩ := Prod.mk.inj bounds
  obtain ⟨-, ⟨source, seen, numbers, -⟩, -, -, -, checks⟩ :=
    (scanned_store_sound scanned).2 _ _ _ entry found
  refine ⟨scanned, entry, found, ?_, checks⟩
  rw [numbers, seen, first, last]
  decide +kernel

end InfraScan
