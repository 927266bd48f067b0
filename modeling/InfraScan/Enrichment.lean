import InfraScan.Block.Parser
import InfraScan.Definition.Dump
import InfraScan.Store

/-!
# Enrichment

Enrichment takes the raw blocks of one file instance, runs the parser registered for each
category, and records the contexts in the store.  A category that fails loses its slot and
nothing else; the call fails only when every registered category that is present failed.

* `Inquiry` — what a parser asks of the sources on the way to its result
* `CategoryParser` — a parser of one category
* `Registry` — the parsers of a run, with its key mode and its directive scanner
* `Registry.enrichCategory` — the step for one category
* `Registry.enrich` — all categories of one file instance

A registry may hold parsers that go by the shape of blocks, and any others.  Of another parser
nothing is known but that its result follows from what it is given and from the lines that it
asks for.
-/

namespace InfraScan

/-! ### Parsers -/

/-- The contexts that a parser gives, the events, and the cache afterwards. -/
structure ParserRun where
  result : Except Fault (List BlockContext)
  events : List Event
  cache : SourceCache

/-- **What a parser asks of the sources on the way to its result.**  It may want lines of any
file, and goes on with what it is given, be it the lines or the fault.  The sources are there
to be read only: an inquiry puts in no text of its own, and does not ask what has been
loaded. -/
inductive Inquiry where
  | done (result : Except Fault (List BlockContext))
  | lines (path : String) (startLine endLine : Nat)
      (next : Except Fault (List (Nat × String)) → Inquiry)

/-- The result of an inquiry, and the cache after all of its requests. -/
def Inquiry.run (read : TextReader) : Inquiry → SourceCache → ParserRun
  | .done result, cache => ⟨result, [], cache⟩
  | .lines path startLine endLine next, cache =>
    let asked := cache.lines read path startLine endLine
    (next asked.1).run read asked.2

/-- **A parser of one category**: one that goes by the shape of blocks, or another one, which
makes an inquiry of the scanner, the flag for checks, the key and the raw blocks. -/
inductive CategoryParser where
  | blocks (parser : BlockParser)
  | custom (inquire : DirectiveScanner → Bool → StoreKey → List Json → Inquiry)

namespace CategoryParser

/-- A parser whose categories cannot be read at all. -/
def failing (cause : Fault) : CategoryParser := .custom fun _ _ _ _ => .done (.error cause)

/-- Run a parser on the raw blocks of its category. -/
def run (parser : CategoryParser) (read : TextReader) (scanner : DirectiveScanner)
    (collect : Bool) (key : StoreKey) (blocks : List Json) (cache : SourceCache) :
    ParserRun :=
  match parser with
  | .blocks parser =>
    let parsed := parser.run read scanner collect key blocks cache
    ⟨.ok parsed.contexts, parsed.events, parsed.cache⟩
  | .custom inquire => (inquire scanner collect key blocks).run read cache

end CategoryParser

/-! ### Registries -/

/-- **The parsers of a run.**  Key mode and scanner are fixed when the registry is made. -/
structure Registry where
  parsers : OrderedMap String CategoryParser
  mode : KeyMode
  scanner : DirectiveScanner

namespace Registry

/-- A registry without parsers. -/
def bare (mode : KeyMode) (scanner : DirectiveScanner) : Registry := ⟨∅, mode, scanner⟩

/-- Register a parser for a category in place of any earlier one. -/
def register (registry : Registry) (category : String) (parser : CategoryParser) : Registry :=
  { registry with parsers := registry.parsers.insert category parser }

/-- A registry with the parsers of the usual categories. -/
def standard (mode : KeyMode) (scanner : DirectiveScanner) : Registry :=
  BlockParser.standard.foldl (fun registry parser =>
    registry.register parser.category (.blocks parser)) (bare mode scanner)

/-- A category has a parser. -/
def isRegistered (registry : Registry) (category : String) : Bool :=
  registry.parsers.contains category

/-- The registered categories in alphabetical order. -/
def categories (registry : Registry) : List String :=
  registry.parsers.keys.mergeSort fun a b => !(b < a)

end Registry

/-! ### Calls -/

/-- How far an enrichment has come. -/
structure Progress where
  store : ContextStore
  cache : SourceCache
  events : List Event
  attempted : Nat
  failures : List (String × String)

/-- What an enrichment leaves behind. -/
structure Enriched where
  result : Except Fault Unit
  store : ContextStore
  cache : SourceCache
  events : List Event

namespace Registry

/-- The contexts of a category by block id: a repeated id has its first position and its last
context. -/
def collapse (contexts : List BlockContext) : CategoryContexts :=
  OrderedMap.ofList (contexts.map fun context => (context.id, context.entry))

/-- **The step for one category.** -/
def enrichCategory (registry : Registry) (read : TextReader) (collect : Bool) (key : StoreKey)
    (progress : Progress) (category : String × List Json) : Progress :=
  match registry.parsers.get? category.1 with
  | none =>
    { progress with
      events := progress.events ++ [.categoryUnregistered key.render category.1] }
  | some parser =>
    let ran := parser.run read registry.scanner collect key category.2 progress.cache
    match ran.result with
    | .ok contexts =>
      let slot := collapse contexts
      { progress with
        store := progress.store.setCategory key category.1 slot
        cache := ran.cache
        events := progress.events ++ ran.events ++
          [.categoryEnriched key.render category.1 slot.size]
        attempted := progress.attempted + 1 }
    | .error cause =>
      { store := progress.store.removeCategory key category.1
        cache := ran.cache
        events := progress.events ++ ran.events ++
          [.categoryFailed key.render category.1 cause]
        attempted := progress.attempted + 1
        failures := progress.failures ++ [(category.1, cause.message)] }

/-- **All categories of one file instance**, in their order. -/
def enrich (registry : Registry) (read : TextReader) (collect : Bool) (key : DefinitionKey)
    (blocks : BlocksByCategory) (store : ContextStore) (cache : SourceCache) : Enriched :=
  let storeKey := registry.mode.storeKey key
  let progress := blocks.toList.foldl (registry.enrichCategory read collect storeKey)
    ⟨store, cache, [], 0, []⟩
  let result : Except Fault Unit :=
    if progress.attempted ≠ 0 ∧ progress.failures.length = progress.attempted then
      .error (.enrichmentFailed storeKey.render progress.failures)
    else .ok ()
  ⟨result, progress.store, progress.cache, progress.events⟩

/-- Enrichment with the raw blocks of a dump. -/
def enrichDump (registry : Registry) (read : TextReader) (collect : Bool) (dump : Dump)
    (store : ContextStore) (cache : SourceCache) : Enriched :=
  registry.enrich read collect dump.key dump.blocks store cache

end Registry

end InfraScan
