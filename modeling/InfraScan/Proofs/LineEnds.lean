import InfraScan.Manifest.Document
import InfraScan.Proofs.KeyIsolation
import InfraScan.Proofs.SourceRuns
import InfraScan.Proofs.TextLines

/-!
# Line ends

The same file may come with a line feed at the end of each line, or with a carriage return
before it.  A scan of sources gives the same either way, step by step, also where only some of
the files have been changed over; and so does the reading of a manifest.

* `Text.withReturns` — a text with a carriage return before every line feed
* `Text.lines_withReturns`, `Text.map_dropTail_lines_withReturns` — its lines
* `SourceCache.ShowAlike` — disks whose files have the same lines
* `Registry.enrich_of_showAlike` — a call does not tell such disks apart
* `ScanState.step`, `ScanState.run` — a scan with a cache, a disk and a store
* `ScanState.Recoded.run` — a scan of texts that have been changed over, step by step
* `line_ends_irrelevant` — sources and manifests

### What is load-bearing

A source gives up all carriage returns at the end of a line, a manifest only the one that goes
with the line feed.  So a source may have had carriage returns before, and may even be changed
over twice, while a manifest has to be free of them: the second one would be left to the
reader of its documents.
-/

namespace InfraScan

/-! ### Texts -/

namespace Text

variable {line text : List Char}

/-- **The text with a carriage return before every line feed.** -/
def withReturns (text : List Char) : List Char :=
  text.flatMap fun c => if c = '\n' then ['\r', '\n'] else [c]

/-- `withReturns` on strings. -/
def returned (text : String) : String := String.ofList (withReturns text.toList)

theorem withReturns_of_clean (clean : '\n' ∉ line) : withReturns line = line := by
  have each : ∀ c ∈ line, (if c = '\n' then ['\r', '\n'] else [c]) = [c] := by
    intro c mem
    apply if_neg
    rintro rfl
    exact clean mem
  rw [withReturns, List.flatMap_congr each, List.flatMap_singleton']

theorem withReturns_clean_append (clean : '\n' ∉ line) (rest : List Char) :
    withReturns (line ++ '\n' :: rest) = (line ++ ['\r']) ++ '\n' :: withReturns rest := by
  have ends : withReturns ('\n' :: rest) = '\r' :: '\n' :: withReturns rest := rfl
  rw [withReturns, List.flatMap_append, ← withReturns, ← withReturns,
    withReturns_of_clean clean, ends, List.append_assoc, List.singleton_append]

theorem lines_clean_append (clean : '\n' ∉ line) (rest : List Char) :
    lines (line ++ '\n' :: rest) = dropReturn line :: lines rest := by
  rw [lines_append_newline, pieces_of_clean clean, List.map_singleton, List.singleton_append]

/-- The first line of a text with returns. -/
theorem lines_return_append (clean : '\n' ∉ line) (rest : List Char) :
    lines ((line ++ ['\r']) ++ '\n' :: rest) = line :: lines rest := by
  have clean' : '\n' ∉ line ++ ['\r'] := by simpa using clean
  rw [lines_clean_append clean', dropReturn, List.getLast?_concat, if_pos rfl,
    List.dropLast_concat]

theorem dropReturn_of_not_mem (plain : '\r' ∉ line) : dropReturn line = line := by
  apply if_neg
  intro last
  exact plain (List.mem_of_getLast? last)

/-- **A text without carriage returns has the same lines when they are put in.** -/
theorem lines_withReturns (plain : '\r' ∉ text) : lines (withReturns text) = lines text := by
  induction text using newline_induction with
  | last line clean => rw [withReturns_of_clean clean]
  | more line rest clean ih =>
    have plainLine : '\r' ∉ line := fun here => plain (List.mem_append_left _ here)
    have plainRest : '\r' ∉ rest := fun here =>
      plain (List.mem_append_right _ (List.mem_cons_of_mem _ here))
    rw [withReturns_clean_append clean, lines_return_append clean, lines_clean_append clean,
      ih plainRest, dropReturn_of_not_mem plainLine]

/-- **A text of any kind has the same lines up to the carriage returns at their ends.** -/
theorem map_dropTail_lines_withReturns (text : List Char) :
    (lines (withReturns text)).map (dropTail (· = '\r')) =
      (lines text).map (dropTail (· = '\r')) := by
  induction text using newline_induction with
  | last line clean => rw [withReturns_of_clean clean]
  | more line rest clean ih =>
    rw [withReturns_clean_append clean, lines_return_append clean, lines_clean_append clean,
      List.map_cons, List.map_cons, ih, dropTail_dropReturn]

/-- **The text, or the text with returns.** -/
def Recoded (text other : String) : Prop := other = text ∨ other = returned text

end Text

/-! ### Sources -/

namespace SourceCache

/-- **The lines of a source do not tell how they end.** -/
theorem splitSource_returned (text : String) :
    splitSource (Text.returned text) = splitSource text := by
  have stripped (lines : List (List Char)) :
      lines.map (fun line => String.ofList (Text.dropTail (· = '\r') line)) =
        (lines.map (Text.dropTail (· = '\r'))).map String.ofList := by
    rw [List.map_map]
    rfl
  rw [splitSource, splitSource, Text.returned, String.toList_ofList, stripped, stripped,
    Text.map_dropTail_lines_withReturns]

theorem splitSource_of_recoded {text other : String} (recoded : Text.Recoded text other) :
    splitSource other = splitSource text := by
  rcases recoded with rfl | rfl
  · rfl
  · exact splitSource_returned text

/-- **Two disks show alike** if they have the same files with the same lines, and the same
reasons for those that cannot be read. -/
def ShowAlike (read other : TextReader) : Prop :=
  ∀ path, (other path).map splitSource = (read path).map splitSource

variable {read other : TextReader}

/-- A cache takes over the lines of a file, and not its text. -/
theorem load_of_showAlike (alike : ShowAlike read other) (cache : SourceCache)
    (path : String) :
    cache.load other path = cache.load read path := by
  have same := alike path
  unfold load
  cases cache.get? path with
  | some lines => rfl
  | none =>
    cases here : read path <;> cases there : other path <;> simp_all [Except.map]

theorem lines_of_showAlike (alike : ShowAlike read other) (cache : SourceCache)
    (path : String) (startLine endLine : Nat) :
    cache.lines other path startLine endLine = cache.lines read path startLine endLine := by
  rw [lines, lines, load_of_showAlike alike]

end SourceCache

section Calls

variable {read other : TextReader} (alike : SourceCache.ShowAlike read other)

include alike

theorem BlockParser.follow_of_showAlike (parser : BlockParser) (scanner : DirectiveScanner)
    (collect : Bool) (key : StoreKey) (steps : List BlockStep) (missing : Bool)
    (cache : SourceCache) :
    parser.follow other scanner collect key missing cache steps =
      parser.follow read scanner collect key missing cache steps := by
  induction steps generalizing missing cache with
  | nil => rfl
  | cons step rest ih =>
    cases step with
    | skip index defect => rw [follow, follow, ih]
    | locate id startLine endLine =>
      rw [follow, follow, SourceCache.lines_of_showAlike alike]
      simp only [ih]

theorem Inquiry.run_of_showAlike (inquiry : Inquiry) (cache : SourceCache) :
    inquiry.run other cache = inquiry.run read cache := by
  induction inquiry generalizing cache with
  | done result => rfl
  | lines path startLine endLine next ih =>
    rw [run, run, SourceCache.lines_of_showAlike alike]
    exact ih _ _

theorem CategoryParser.run_of_showAlike (parser : CategoryParser) (scanner : DirectiveScanner)
    (collect : Bool) (key : StoreKey) (blocks : List Json) (cache : SourceCache) :
    parser.run other scanner collect key blocks cache =
      parser.run read scanner collect key blocks cache := by
  cases parser with
  | custom inquire =>
    rw [run, run, (inquire scanner collect key blocks).run_of_showAlike alike]
  | blocks parser =>
    rw [run, run, BlockParser.run, BlockParser.run, parser.follow_of_showAlike alike]

/-- **A call of enrichment does not tell disks apart that show alike**, neither in what it
leaves behind nor in what it reports. -/
theorem Registry.enrich_of_showAlike (registry : Registry) (collect : Bool)
    (key : DefinitionKey) (blocks : BlocksByCategory) (store : ContextStore)
    (cache : SourceCache) :
    registry.enrich other collect key blocks store cache =
      registry.enrich read collect key blocks store cache := by
  have each (storeKey : StoreKey) :
      registry.enrichCategory other collect storeKey =
        registry.enrichCategory read collect storeKey := by
    funext progress category
    unfold enrichCategory
    cases registry.parsers.get? category.1 with
    | none => rfl
    | some parser => simp only [parser.run_of_showAlike alike]
  simp only [enrich, each]

end Calls

/-! ### Scans -/

/-- A step of a scan: a step of its source cache, or a call of enrichment. -/
inductive ScanStep where
  | source (step : SourceStep)
  | enrich (registry : Registry) (call : EnrichCall)

/-- What a step gives back; a call gives back its result, the store and the reports. -/
inductive ScanAnswer where
  | source (answer : SourceAnswer)
  | enriched (result : Except Fault Unit) (store : ContextStore) (reports : List Event)
  deriving DecidableEq

/-- **A scan at a moment**: its source cache in front of a disk, and its store. -/
structure ScanState where
  source : SourceState
  store : ContextStore

namespace ScanState

/-- **One step.** -/
def step (state : ScanState) : ScanStep → ScanAnswer × ScanState
  | .source step =>
    let asked := state.source.step step
    (.source asked.1, { state with source := asked.2 })
  | .enrich registry call =>
    let done := registry.enrich state.source.disk call.collect call.key
      call.blocks state.store state.source.cache
    (.enriched done.result done.store done.events,
      ⟨⟨done.cache, state.source.disk⟩, done.store⟩)

/-- Several steps, one after another, with what each of them gives back. -/
def run (state : ScanState) : List ScanStep → List ScanAnswer × ScanState
  | [] => ([], state)
  | first :: rest =>
    let next := state.step first
    let later := next.2.run rest
    (next.1 :: later.1, later.2)

end ScanState

/-- **A disk some of whose files have been changed over.** -/
def TextReader.Recoded (disk other : TextReader) : Prop :=
  ∀ path, other path = disk path ∨ other path = (disk path).map Text.returned

/-- **A step whose texts may have been changed over.** -/
inductive ScanStep.Recoded : ScanStep → ScanStep → Prop
  | same (step : ScanStep) : Recoded step step
  | insert (path : String) {text other : String} (recoded : Text.Recoded text other) :
      Recoded (.source (.insert path text)) (.source (.insert path other))
  | change {disk other : TextReader} (recoded : disk.Recoded other) :
      Recoded (.source (.change disk)) (.source (.change other))

/-- **A scan in front of a disk some of whose files have been changed over.** -/
structure ScanState.Recoded (state other : ScanState) : Prop where
  cache : other.source.cache = state.source.cache
  disk : state.source.disk.Recoded other.source.disk
  store : other.store = state.store

theorem TextReader.Recoded.showAlike {disk other : TextReader}
    (recoded : disk.Recoded other) :
    SourceCache.ShowAlike disk other := by
  intro path
  rcases recoded path with same | returned
  · rw [same]
  · rw [returned]
    cases disk path with
    | error cause => rfl
    | ok text => exact congrArg Except.ok (SourceCache.splitSource_returned text)

namespace ScanState

/-- **A step of texts that have been changed over** gives back the same, and puts the same
into the cache and the store. -/
theorem Recoded.step {state other : ScanState} (recoded : state.Recoded other)
    {first first' : ScanStep} (steps : first.Recoded first') :
    (other.step first').1 = (state.step first).1 ∧
      (state.step first).2.Recoded (other.step first').2 := by
  obtain ⟨⟨cache, disk⟩, store⟩ := state
  obtain ⟨⟨cache', disk'⟩, store'⟩ := other
  obtain ⟨rfl, disks, rfl⟩ := recoded
  have alike : SourceCache.ShowAlike disk disk' := disks.showAlike
  cases steps with
  | insert path texts =>
    have same : cache'.insert path _ = cache'.insert path _ :=
      congrArg (fun all => SourceCache.mk (cache'.files.insert path all))
        (SourceCache.splitSource_of_recoded texts)
    exact ⟨rfl, same, disks, rfl⟩
  | change changed => exact ⟨rfl, rfl, changed, rfl⟩
  | same =>
    cases first with
    | enrich registry call =>
      have same := registry.enrich_of_showAlike alike call.collect call.key call.blocks
        store' cache'
      simp only [ScanState.step, same]
      exact ⟨trivial, rfl, disks, rfl⟩
    | source step =>
      cases step with
      | lines path startLine endLine =>
        have same := SourceCache.lines_of_showAlike alike cache' path startLine endLine
        simp only [ScanState.step, SourceState.step, same]
        exact ⟨trivial, rfl, disks, rfl⟩
      | change new => exact ⟨rfl, rfl, fun _ => .inl rfl, rfl⟩
      | insert | contains => exact ⟨rfl, rfl, disks, rfl⟩

/-- **A scan of texts that have been changed over**, by induction along the steps. -/
theorem Recoded.run {state other : ScanState} (recoded : state.Recoded other)
    {steps steps' : List ScanStep} (each : List.Forall₂ ScanStep.Recoded steps steps') :
    (other.run steps').1 = (state.run steps).1 ∧
      (state.run steps).2.Recoded (other.run steps').2 := by
  induction each generalizing state other with
  | nil => exact ⟨rfl, recoded⟩
  | cons first rest ih =>
    obtain ⟨answer, next⟩ := recoded.step first
    obtain ⟨answers, final⟩ := ih next
    exact ⟨congrArg₂ List.cons answer answers, final⟩

end ScanState

/-! ### Manifests -/

/-- A manifest without carriage returns is cut into the same parts when they are put in. -/
theorem Manifest.cut_withReturns {text : List Char} (plain : '\r' ∉ text) :
    cut (Text.withReturns text) = cut text := by
  rw [cut, cut, Text.lines_withReturns plain]

/-- **Line ends do not matter.**

* Take a scan, and the same scan with some of its texts changed over: files of the disk that
  it begins with or of a later one, or texts that are put in.  Step by step, both give back
  the same, which are the lines that are asked for, and the result, the store and the reports
  of every call.  They end with the same store and the same cache.
* A manifest without carriage returns gives the same documents, or the same fault, after it
  has been changed over, whatever the reader of its documents is. -/
theorem line_ends_irrelevant :
    (∀ (state other : ScanState) (steps steps' : List ScanStep), state.Recoded other →
      List.Forall₂ ScanStep.Recoded steps steps' →
        (other.run steps').1 = (state.run steps).1 ∧
        (other.run steps').2.store = (state.run steps).2.store ∧
        (other.run steps').2.source.cache = (state.run steps).2.source.cache) ∧
    ∀ (reader : String → Except String Json) (text path : String), '\r' ∉ text.toList →
      Manifest.parse reader (Text.returned text) path = Manifest.parse reader text path := by
  constructor
  · intro state other steps steps' recoded each
    obtain ⟨answers, final⟩ := recoded.run each
    exact ⟨answers, final.store, final.cache⟩
  · intro reader text path plain
    rw [Manifest.parse, Text.returned, String.toList_ofList, Manifest.cut_withReturns plain,
      Manifest.parse]

/-- A carriage return that was there before goes to the reader of the document. -/
example :
    (Manifest.cut (Text.withReturns "a\r\nb".toList)).map Manifest.Part.text =
      ["a\r\nb"] := by
  decide +kernel

/-- A disk with one file, whose block takes a check off at the end of a line. -/
def markedDisk : TextReader := fun path =>
  if path = "main.tf" then .ok "web \x7b\n  # resgraph:skip=CKV_1: why\n\x7d\n"
  else .error .notFound

/-- A call for that block, and a draft whose lines end in several ways. -/
def markedSteps (draft : String) : List ScanStep := [
  .enrich (.standard .filePath .standard) ⟨⟨"main.tf", []⟩, .ofList [("module", [.obj [
    ("web", .obj [(startMarker, .ofNat 1), (endMarker, .ofNat 3)])]])], true⟩,
  .source (.insert "draft.tf" draft),
  .source (.lines "draft.tf" 0 9)]

/-- Whether the file and the draft are changed over or not, the reason for the check is the
same, and so are the lines of the draft; and a manifest of two documents has both of them
either way. -/
theorem markedSteps_recoded :
    let disk : TextReader := fun path => (markedDisk path).map Text.returned
    let before : ScanState := ⟨.start markedDisk, .empty⟩
    let after : ScanState := ⟨.start disk, .empty⟩
    let draft := "one\r\n\ntwo\r"
    let steps := markedSteps (Text.returned draft)
    before.Recoded after ∧ List.Forall₂ ScanStep.Recoded (markedSteps draft) steps ∧
      (after.run steps).1[2]? =
        some (.source (.lines (.ok [(1, "one"), (2, ""), (3, "two")]))) ∧
      (after.run steps).2.store.skippedChecks (.file "main.tf") "module" "web" =
        [⟨"CKV_1", some "why"⟩] ∧
      (Manifest.parse (fun text => .ok (.obj [("kind", .str text)]))
        (Text.returned "a\nb\n--- # c\n\nd") "x.yaml").map (List.map ManifestDocument.kind) =
          .ok ["a\nb", "\nd"] := by
  intro disk before after draft steps
  have recoded : before.Recoded after := ⟨rfl, fun _ => .inr rfl, rfl⟩
  have each : List.Forall₂ ScanStep.Recoded (markedSteps draft) steps :=
    .cons (.same _) (.cons (.insert _ (.inr rfl)) (.cons (.same _) .nil))
  obtain ⟨answers, store, -⟩ := line_ends_irrelevant.1 _ _ _ _ recoded each
  refine ⟨recoded, each, ?_, ?_, ?_⟩
  · rw [answers]
    decide +kernel
  · rw [store]
    decide +kernel
  · rw [line_ends_irrelevant.2 _ _ _ (by decide)]
    decide +kernel

end InfraScan
