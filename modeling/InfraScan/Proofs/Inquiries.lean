import InfraScan.Enrichment
import InfraScan.Proofs.BlockContexts

/-!
# What a parser makes of its category

A parser that does not go by the shape of blocks may ask for lines of any file, and what it
asks next may depend on the last answer.  Every question can put a file into the cache, so
that later questions meet a fuller one.  None of it shows in the result, which is a function
of what the parser is given and of what the files are seen as before the first question.

* `Inquiry.answer` — the result of an inquiry, when files are seen in a given way
* `Inquiry.result_run`, `Inquiry.run_cache` — an inquiry through the cache
* `CategoryParser.slot` — what one parser makes of the raw blocks of its category
* `CategoryParser.map_collapse_run`, `CategoryParser.run_cache` — a run in these terms
* `CategoryParser.AlwaysFails` — a parser that gives no contexts, whatever it is given
-/

namespace InfraScan

/-! ### Inquiries -/

namespace Inquiry

/-- **The result of an inquiry**, when files are seen as `view` has them. -/
def answer (view : SourceView) : Inquiry → Except Fault (List BlockContext)
  | .done result => result
  | .lines path startLine endLine next =>
    (next ((view path).map fun all => slice all startLine endLine)).answer view

variable (inquiry : Inquiry) (read : TextReader) (cache : SourceCache)

/-- **The result of an inquiry through the cache**, by induction on the questions.  Those that
follow the first one meet a cache that shows the same. -/
theorem result_run : (inquiry.run read cache).result = inquiry.answer (cache.view read) := by
  induction inquiry generalizing cache with
  | done result => rfl
  | lines path startLine endLine next ih =>
    have asked := cache.view_load read path
    rw [run, answer, ih, SourceCache.lines, asked]
    rfl

@[simp] theorem events_run : (inquiry.run read cache).events = [] := by
  induction inquiry generalizing cache with
  | done result => rfl
  | lines path startLine endLine next ih =>
    rw [run]
    exact ih _ _

/-- **An inquiry loads files and does nothing else to the cache**: what holds of a cache and
is kept when a file is loaded holds afterwards. -/
theorem run_cache {P : SourceCache → Prop}
    (kept : ∀ path cache, P cache → P (cache.load read path).2) {cache : SourceCache}
    (holds : P cache) : P (inquiry.run read cache).cache := by
  induction inquiry generalizing cache with
  | done result => exact holds
  | lines path startLine endLine next ih =>
    rw [run]
    exact ih _ (kept path cache holds)

end Inquiry

/-! ### Parsers -/

namespace CategoryParser

/-- **What a parser makes of the raw blocks of its category**, when files are seen as `view`
has them. -/
def slot (parser : CategoryParser) (scanner : DirectiveScanner) (collect : Bool)
    (view : SourceView) (key : StoreKey) (blocks : List Json) :
    Except Fault CategoryContexts :=
  match parser with
  | .blocks parser =>
    .ok (Registry.collapse ((parser.steps blocks).filterMap
      (BlockStep.context? (view key.filePath).toOption scanner collect)))
  | .custom inquire =>
    ((inquire scanner collect key blocks).answer view).map Registry.collapse

variable (parser : CategoryParser) (read : TextReader) (scanner : DirectiveScanner)
  (collect : Bool) (key : StoreKey) (blocks : List Json) (cache : SourceCache)

/-- **The slot that a run leads to** is known before it, from what files are seen as. -/
theorem map_collapse_run :
    (parser.run read scanner collect key blocks cache).result.map Registry.collapse =
      parser.slot scanner collect (cache.view read) key blocks := by
  cases parser with
  | blocks parser =>
    rw [run, slot, SourceCache.toOption_view, ← BlockParser.run_contexts]
    rfl
  | custom inquire => rw [run, slot, Inquiry.result_run]

/-- **A run loads files and does nothing else to the cache.** -/
theorem run_cache {P : SourceCache → Prop}
    (kept : ∀ path cache, P cache → P (cache.load read path).2) {cache : SourceCache}
    (holds : P cache) : P (parser.run read scanner collect key blocks cache).cache := by
  cases parser with
  | blocks parser =>
    exact parser.follow_cache read scanner collect key (kept key.filePath)
      (parser.steps blocks) false holds
  | custom inquire => exact (inquire scanner collect key blocks).run_cache read kept holds

/-- A run changes what no path is seen as. -/
theorem view_run :
    (parser.run read scanner collect key blocks cache).cache.view read = cache.view read :=
  parser.run_cache read scanner collect key blocks
    (P := fun after => after.view read = cache.view read)
    (fun path after same => (after.view_load read path).trans same) rfl

/-- **A slot of raw blocks goes by the file of the key alone**, and not by the rest of the
key. -/
theorem slot_blocks_congr (parser : BlockParser) (scanner : DirectiveScanner) (collect : Bool)
    (view : SourceView) {key other : StoreKey} (same : other.filePath = key.filePath)
    (blocks : List Json) :
    (CategoryParser.blocks parser).slot scanner collect view other blocks =
      (CategoryParser.blocks parser).slot scanner collect view key blocks := by
  rw [slot, slot, same]

/-- **An entry of a slot comes from a step for its block.** -/
theorem exists_step_of_slot {parser : BlockParser} {scanner : DirectiveScanner}
    {collect : Bool} {view : SourceView} {key : StoreKey} {raw : List Json}
    {slot : CategoryContexts}
    (given : (CategoryParser.blocks parser).slot scanner collect view key raw = .ok slot)
    {id : String} {entry : BlockEntry} (found : slot.get? id = some entry) :
    ∃ step ∈ parser.steps raw,
      step.context? (view key.filePath).toOption scanner collect = some ⟨id, entry⟩ := by
  obtain rfl := Except.ok.inj given
  have pair := OrderedMap.mem_of_get?_ofList found
  obtain ⟨context, mem, same⟩ := List.mem_map.1 pair
  obtain ⟨rfl, rfl⟩ := Prod.mk.inj same
  exact List.mem_filterMap.1 mem

/-! ### Parsers that always fail -/

/-- **A parser that gives no contexts, whatever it is given.**  The fault may depend on the
key, on the raw blocks and on the sources. -/
def AlwaysFails (parser : CategoryParser) : Prop :=
  ∀ read scanner collect key blocks cache, ∃ cause,
    (parser.run read scanner collect key blocks cache).result = .error cause

theorem alwaysFails_failing (cause : Fault) : (failing cause).AlwaysFails :=
  fun _ _ _ _ _ _ => ⟨cause, rfl⟩

theorem AlwaysFails.slot {parser : CategoryParser} (fails : parser.AlwaysFails)
    (read : TextReader) (scanner : DirectiveScanner) (collect : Bool) (key : StoreKey)
    (blocks : List Json) (cache : SourceCache) :
    ∃ cause, parser.slot scanner collect (cache.view read) key blocks = .error cause := by
  obtain ⟨cause, failed⟩ := fails read scanner collect key blocks cache
  refine ⟨cause, ?_⟩
  rw [← map_collapse_run, failed, Except.map]

end CategoryParser

end InfraScan
