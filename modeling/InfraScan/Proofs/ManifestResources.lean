import InfraScan.Proofs.DocumentRanges
import InfraScan.Proofs.JsonViews

/-!
# What a manifest stands for

A manifest is read as a whole or not at all.  A part that carries content and has no value is
the fault of the manifest; if there is none, the parts give their resources one after another,
and what a part gives depends on the shape of its value alone.

* `IsResource` — a value that is a resource
* `Picks` — the resources among the items of a list, in order
* `StandsFor` — the resources that a value stands for, with one clause for each shape
* `standsFor_iff` — they are the ones that are read off the value
* `Part.Refused`, `firstRefused?` — a part that is the fault of its manifest, and the first
  one
* `Part.Gives` — the documents that a part gives
* `parsePart_eq_ok_iff`, `parsePart_eq_error_iff` — what comes of one part
* `parseParts_eq_ok_iff`, `parseParts_eq_error_iff` — what comes of several
* `parse_all_or_nothing` — what comes of a manifest

### What is load-bearing

Whether a part is refused is seen from this part alone, and a part that gives documents never
is (`Part.Gives.not_refused`).  So the fault of a manifest is found by looking for the first
part that is refused, and not by reading the parts in turn (`parseParts_eq_error_iff`).
-/

namespace InfraScan.Manifest

/-! ### Resources of a value -/

/-- **A value that is a resource**: a mapping that names its kind. -/
structure IsResource (value : Json) (kind : String) (body : Attributes) : Prop where
  mapping : ∃ fields, value = .obj fields ∧ OrderedMap.ofList fields = body
  kind : body.get? "kind" = some (.str kind)

/-- The value is no resource. -/
def Untyped (value : Json) : Prop := ∀ kind body, ¬IsResource value kind body

/-- **The resources among the items of a list**, in order. -/
inductive Picks : List Json → List (String × Attributes) → Prop where
  | nil : Picks [] []
  | take {item : Json} {kind : String} {body : Attributes} {items : List Json}
      {found : List (String × Attributes)} (typed : IsResource item kind body)
      (others : Picks items found) : Picks (item :: items) ((kind, body) :: found)
  | skip {item : Json} {items : List Json} {found : List (String × Attributes)}
      (untyped : Untyped item) (others : Picks items found) : Picks (item :: items) found

/-- **The resources that a value stands for.**  A value that is no resource stands for
nothing, and a resource for itself, unless it is a list; a list stands for the resources among
its items. -/
inductive StandsFor (value : Json) : List (String × Attributes) → Prop where
  | untyped (nothing : Untyped value) : StandsFor value []
  | single {kind : String} {body : Attributes} (typed : IsResource value kind body)
      (single : kind ≠ "List") : StandsFor value [(kind, body)]
  | list {body : Attributes} {items : List Json} {found : List (String × Attributes)}
      (typed : IsResource value "List" body) (listed : body.get? "items" = some (.arr items))
      (picked : Picks items found) : StandsFor value found
  | itemless {body : Attributes} (typed : IsResource value "List" body)
      (nothing : ∀ items, body.get? "items" ≠ some (.arr items)) : StandsFor value []

/-- The resource that a value is. -/
def resource? (value : Json) : Option (String × Attributes) :=
  (body? value).bind fun body => (kind? body).map (·, body)

theorem body?_eq_some_iff {value : Json} {body : Attributes} :
    body? value = some body ↔
      ∃ fields, value = .obj fields ∧ OrderedMap.ofList fields = body := by
  rw [body?, Option.map_eq_some_iff]
  simp only [Json.fields?_eq_some_iff]

theorem kind?_eq_some_iff {body : Attributes} {kind : String} :
    kind? body = some kind ↔ body.get? "kind" = some (.str kind) := by
  rw [kind?, Option.bind_eq_some_iff]
  simp only [Json.str?_eq_some_iff, exists_eq_right]

theorem resource?_eq_some_iff {value : Json} {kind : String} {body : Attributes} :
    resource? value = some (kind, body) ↔ IsResource value kind body := by
  rw [resource?, Option.bind_eq_some_iff]
  constructor
  · rintro ⟨other, mapping, given⟩
    obtain ⟨word, named, same⟩ := Option.map_eq_some_iff.1 given
    obtain ⟨rfl, rfl⟩ := Prod.mk.inj same
    exact ⟨body?_eq_some_iff.1 mapping, kind?_eq_some_iff.1 named⟩
  · intro typed
    refine ⟨body, body?_eq_some_iff.2 typed.mapping, ?_⟩
    rw [kind?_eq_some_iff.2 typed.kind, Option.map_some]

theorem resource?_eq_none_iff {value : Json} : resource? value = none ↔ Untyped value := by
  rw [Option.eq_none_iff_forall_ne_some]
  constructor
  · intro absent kind body typed
    exact absent _ (resource?_eq_some_iff.2 typed)
  · intro untyped found same
    exact untyped found.1 found.2 (resource?_eq_some_iff.1 same)

/-- **The resources among items are those that are read off them.** -/
theorem picks_iff {items : List Json} {found : List (String × Attributes)} :
    Picks items found ↔ items.filterMap resource? = found := by
  constructor
  · intro picks
    induction picks with
    | nil => rfl
    | take typed _ ih => rw [List.filterMap_cons, resource?_eq_some_iff.2 typed, ih]
    | skip untyped _ ih => rw [List.filterMap_cons, resource?_eq_none_iff.2 untyped, ih]
  · rintro rfl
    induction items with
    | nil => exact .nil
    | cons item items ih =>
      rw [List.filterMap_cons]
      cases read : resource? item with
      | none => exact .skip (resource?_eq_none_iff.1 read) ih
      | some typed => exact .take (resource?_eq_some_iff.1 read) ih

theorem resources_of_untyped {value : Json} (untyped : Untyped value) :
    resources value = [] := by
  unfold resources
  split
  · rfl
  · rename_i body mapping
    split
    · rfl
    · rename_i kind named
      exact (untyped kind body ⟨body?_eq_some_iff.1 mapping, kind?_eq_some_iff.1 named⟩).elim

/-- What a resource stands for is read off its body. -/
theorem resources_of_isResource {value : Json} {kind : String} {body : Attributes}
    (typed : IsResource value kind body) :
    resources value = (bodies kind body).filterMap fun item =>
      (kind? item).map (·, item) := by
  have mapping := body?_eq_some_iff.2 typed.mapping
  have named := kind?_eq_some_iff.2 typed.kind
  simp only [resources, mapping, named]

theorem resources_of_ne_list {value : Json} {kind : String} {body : Attributes}
    (typed : IsResource value kind body) (single : kind ≠ "List") :
    resources value = [(kind, body)] := by
  have alone : bodies kind body = [body] := if_neg single
  rw [resources_of_isResource typed, alone, List.filterMap_cons,
    kind?_eq_some_iff.2 typed.kind]
  rfl

theorem resources_of_list {value : Json} {body : Attributes}
    (typed : IsResource value "List" body) :
    resources value =
      (((body.get? "items").bind Json.items?).getD []).filterMap resource? := by
  have items : bodies "List" body =
      (((body.get? "items").bind Json.items?).getD []).filterMap body? := if_pos rfl
  rw [resources_of_isResource typed, items, List.filterMap_filterMap]
  rfl

/-- **What a value stands for is what is read off it.** -/
theorem standsFor_iff {value : Json} {found : List (String × Attributes)} :
    StandsFor value found ↔ resources value = found := by
  have listed {body : Attributes} {items : List Json} :
      (body.get? "items").bind Json.items? = some items ↔
        body.get? "items" = some (.arr items) := by
    rw [Option.bind_eq_some_iff]
    simp only [Json.items?_eq_some_iff, exists_eq_right]
  constructor
  · intro stands
    cases stands with
    | untyped nothing => exact resources_of_untyped nothing
    | single typed single => exact resources_of_ne_list typed single
    | list typed given picked =>
      rw [resources_of_list typed, listed.2 given]
      exact picks_iff.1 picked
    | itemless typed nothing =>
      have unlisted := Option.eq_none_iff_forall_ne_some.2 fun items given =>
        nothing items (listed.1 given)
      rw [resources_of_list typed, unlisted]
      rfl
  · rintro rfl
    cases read : resource? value with
    | none =>
      have nothing := resource?_eq_none_iff.1 read
      rw [resources_of_untyped nothing]
      exact .untyped nothing
    | some resource =>
      have typed : IsResource value resource.1 resource.2 := resource?_eq_some_iff.1 read
      by_cases single : resource.1 = "List"
      · rw [single] at typed
        rw [resources_of_list typed]
        cases given : (resource.2.get? "items").bind Json.items? with
        | none => exact .itemless typed fun items same =>
          nomatch given.symm.trans (listed.2 same)
        | some items => exact .list typed (listed.1 given) (picks_iff.2 rfl)
      · rw [resources_of_ne_list typed single]
        exact .single typed single

/-- The resources among the items of a list have the kinds that they name. -/
theorem Picks.kind {items : List Json} {found : List (String × Attributes)}
    (picks : Picks items found) {resource : String × Attributes} (mem : resource ∈ found) :
    resource.2.get? "kind" = some (.str resource.1) := by
  induction picks with
  | nil => cases mem
  | take typed _ ih =>
    rcases List.mem_cons.1 mem with rfl | later
    · exact typed.kind
    · exact ih later
  | skip _ _ ih => exact ih mem

/-- The resources that a value stands for have the kinds that they name. -/
theorem StandsFor.kind {value : Json} {found : List (String × Attributes)}
    (stands : StandsFor value found) {resource : String × Attributes}
    (mem : resource ∈ found) :
    resource.2.get? "kind" = some (.str resource.1) := by
  cases stands with
  | untyped => cases mem
  | single typed =>
    obtain rfl := List.mem_singleton.1 mem
    exact typed.kind
  | list _ _ picked => exact picked.kind mem
  | itemless => cases mem

/-! ### Parts -/

namespace Part

variable {reader : String → Except String Json} {path : String} {part : Part}

/-- **The first and the last line of a part that carry content.** -/
structure Spans (part : Part) (startLine endLine : Nat) : Prop where
  first : startLine ∈ part.contentLines
  last : endLine ∈ part.contentLines
  between : ∀ number ∈ part.contentLines, startLine ≤ number ∧ number ≤ endLine

/-- **A part that is the fault of its manifest**: it carries content, and its text has no
value. -/
def Refused (reader : String → Except String Json) (part : Part) : Prop :=
  part.contentLines ≠ [] ∧ ∃ message, reader part.text = .error message

theorem refused_iff {reader : String → Except String Json} {part : Part} :
    part.Refused reader ↔ part.contentLines ≠ [] ∧ (reader part.text).isOk = false := by
  rw [Refused]
  cases reader part.text <;> simp [Except.isOk, Except.toBool]

instance (reader : String → Except String Json) (part : Part) :
    Decidable (part.Refused reader) :=
  decidable_of_iff _ refused_iff.symm

/-- **The documents that a part gives**: none if it carries no content, and else what its
value stands for, at the range of the part and with the path of the file. -/
inductive Gives (reader : String → Except String Json) (path : String) (part : Part) :
    List ManifestDocument → Prop where
  | blank (nothing : part.contentLines = []) : Gives reader path part []
  | read {startLine endLine : Nat} {value : Json} {found : List (String × Attributes)}
      (spans : part.Spans startLine endLine) (given : reader part.text = .ok value)
      (stands : StandsFor value found) :
      Gives reader path part
        (found.map fun resource => ⟨path, resource.1, startLine, endLine, resource.2⟩)

theorem range?_eq_some_iff_spans {startLine endLine : Nat} :
    part.range? = some (startLine, endLine) ↔ part.Spans startLine endLine :=
  range?_eq_some_iff.trans
    ⟨fun ⟨first, last, between⟩ => ⟨first, last, between⟩,
      fun spans => ⟨spans.first, spans.last, spans.between⟩⟩

end Part

variable {reader : String → Except String Json} {path : String}

/-- **A part is read** exactly when it gives documents, and then these come of it. -/
theorem parsePart_eq_ok_iff {part : Part} {documents : List ManifestDocument} :
    parsePart reader path part = .ok documents ↔ part.Gives reader path documents := by
  constructor
  · intro parsed
    unfold parsePart at parsed
    split at parsed
    · rename_i nothing
      obtain rfl := Except.ok.inj parsed
      exact .blank (Part.range?_eq_none_iff.1 nothing)
    · rename_i startLine endLine range
      split at parsed
      · cases parsed
      · rename_i value given
        obtain rfl := Except.ok.inj parsed
        exact .read (Part.range?_eq_some_iff_spans.1 range) given (standsFor_iff.2 rfl)
  · intro gives
    cases gives with
    | blank nothing => rw [parsePart, Part.range?_eq_none_iff.2 nothing]
    | read spans given stands =>
      simp only [parsePart, Part.range?_eq_some_iff_spans.2 spans, given,
        standsFor_iff.1 stands]

/-- **A part is a fault** exactly when it carries content and is refused by the reader.  The
fault is at the first line with content, and says what the reader says. -/
theorem parsePart_eq_error_iff {part : Part} {fault : Fault} :
    parsePart reader path part = .error fault ↔
      ∃ startLine endLine message, part.Spans startLine endLine ∧
        reader part.text = .error message ∧
          fault = @Fault.manifest path startLine message := by
  constructor
  · intro failed
    unfold parsePart at failed
    split at failed
    · cases failed
    · rename_i startLine endLine range
      split at failed
      · rename_i message unread
        exact ⟨startLine, endLine, message, Part.range?_eq_some_iff_spans.1 range, unread,
          (Except.error.inj failed).symm⟩
      · cases failed
  · rintro ⟨startLine, endLine, message, spans, unread, rfl⟩
    simp only [parsePart, Part.range?_eq_some_iff_spans.2 spans, unread]

/-- A part that is a fault is refused. -/
theorem refused_of_parsePart {part : Part} {fault : Fault}
    (failed : parsePart reader path part = .error fault) : part.Refused reader := by
  obtain ⟨startLine, endLine, message, spans, unread, -⟩ := parsePart_eq_error_iff.1 failed
  exact ⟨List.ne_nil_of_mem spans.first, message, unread⟩

/-- A part that is refused is a fault. -/
theorem Part.Refused.exists_error {part : Part} (refused : part.Refused reader)
    (path : String) :
    ∃ startLine endLine message, part.Spans startLine endLine ∧
      reader part.text = .error message ∧
      parsePart reader path part = .error (@Fault.manifest path startLine message) := by
  obtain ⟨content, message, unread⟩ := refused
  cases range : part.range? with
  | none => exact absurd (Part.range?_eq_none_iff.1 range) content
  | some lines =>
    have spans : part.Spans lines.1 lines.2 := Part.range?_eq_some_iff_spans.1 range
    exact ⟨lines.1, lines.2, message, spans, unread,
      parsePart_eq_error_iff.2 ⟨lines.1, lines.2, message, spans, unread, rfl⟩⟩

/-- A part that gives documents is not refused. -/
theorem Part.Gives.not_refused {part : Part} {documents : List ManifestDocument}
    (gives : part.Gives reader path documents) : ¬part.Refused reader := by
  intro refused
  obtain ⟨startLine, endLine, message, -, -, failed⟩ := refused.exists_error path
  rw [parsePart_eq_ok_iff.2 gives] at failed
  cases failed

/-! ### Manifests -/

/-- **Several parts are read** exactly when each of them gives documents, and these follow one
another. -/
theorem parseParts_eq_ok_iff {parts : List Part} {documents : List ManifestDocument} :
    parseParts reader path parts = .ok documents ↔
      ∃ found, List.Forall₂ (Part.Gives reader path) parts found ∧
        documents = found.flatten := by
  induction parts generalizing documents with
  | nil =>
    constructor
    · intro parsed
      exact ⟨[], .nil, (Except.ok.inj parsed).symm⟩
    · rintro ⟨found, gives, rfl⟩
      cases gives
      rfl
  | cons part rest ih =>
    rw [parseParts_cons_eq_ok]
    constructor
    · rintro ⟨first, others, parsed, later, rfl⟩
      obtain ⟨found, gives, rfl⟩ := ih.1 later
      exact ⟨first :: found, .cons (parsePart_eq_ok_iff.1 parsed) gives, rfl⟩
    · rintro ⟨found, gives, rfl⟩
      cases gives with
      | cons first others =>
        exact ⟨_, _, parsePart_eq_ok_iff.2 first, ih.2 ⟨_, others, rfl⟩, rfl⟩

/-- **The fault of several parts** is that of the first one that is refused. -/
theorem parseParts_eq_error_iff {parts : List Part} {fault : Fault} :
    parseParts reader path parts = .error fault ↔
      ∃ part, parts.find? (fun part => part.Refused reader) = some part ∧
        parsePart reader path part = .error fault := by
  induction parts with
  | nil => simp [parseParts]
  | cons part rest ih =>
    rw [parseParts]
    cases parsed : parsePart reader path part with
    | error other =>
      have refused := refused_of_parsePart parsed
      simp [refused, parsed]
    | ok documents =>
      have accepted := (parsePart_eq_ok_iff.1 parsed).not_refused
      rw [List.find?_cons_of_neg (by simpa using accepted), ← ih]
      cases parseParts reader path rest <;> simp [Except.map]

/-- **The first part of a text that is refused.** -/
def firstRefused? (reader : String → Except String Json) (text : String) : Option Part :=
  (cut text.toList).find? fun part => part.Refused reader

/-- **A manifest is read as a whole or not at all.**  Take any text and any reader.

* The manifest is a fault exactly when one of its parts is refused: it carries content and its
  text has no value.
* The fault names the file and the first line with content of the first such part, and says
  what the reader says of it.
* The manifest is read exactly when each of its parts gives documents, and then these follow
  one another.  A part without content gives none; any other part gives what its value stands
  for.
* Every document has the path of the file, the first and the last line with content of a part,
  and a body that the value of this part stands for; its kind is the one that its body
  names. -/
theorem parse_all_or_nothing (reader : String → Except String Json) (text path : String) :
    ((∃ fault, parse reader text path = .error fault) ↔
      ∃ part ∈ cut text.toList, part.Refused reader) ∧
    (∀ part, firstRefused? reader text = some part → ∃ startLine endLine message,
      part.Spans startLine endLine ∧ reader part.text = .error message ∧
      parse reader text path = .error (@Fault.manifest path startLine message)) ∧
    (∀ documents, parse reader text path = .ok documents ↔
      ∃ found, List.Forall₂ (Part.Gives reader path) (cut text.toList) found ∧
        documents = found.flatten) ∧
    ∀ documents, parse reader text path = .ok documents → ∀ document ∈ documents,
      document.filePath = path ∧
      document.body.get? "kind" = some (.str document.kind) ∧
      ∃ part ∈ cut text.toList, part.Spans document.startLine document.endLine ∧
        ∃ value found, reader part.text = .ok value ∧ StandsFor value found ∧
          (document.kind, document.body) ∈ found := by
  have refusedIf {part : Part} (first : firstRefused? reader text = some part) :
      part.Refused reader := by
    simpa using List.find?_some first
  have fails {part : Part} (first : firstRefused? reader text = some part) :
      ∃ startLine endLine message, part.Spans startLine endLine ∧
        reader part.text = .error message ∧
        parse reader text path = .error (@Fault.manifest path startLine message) := by
    obtain ⟨startLine, endLine, message, spans, unread, failed⟩ :=
      (refusedIf first).exists_error path
    exact ⟨startLine, endLine, message, spans, unread,
      parseParts_eq_error_iff.2 ⟨part, first, failed⟩⟩
  refine ⟨⟨?_, ?_⟩, fun part => fails, fun documents => parseParts_eq_ok_iff, ?_⟩
  · rintro ⟨fault, failed⟩
    obtain ⟨part, first, -⟩ := parseParts_eq_error_iff.1 failed
    exact ⟨part, List.mem_of_find?_eq_some first, refusedIf first⟩
  · rintro ⟨part, present, refused⟩
    have some : (firstRefused? reader text).isSome = true :=
      List.find?_isSome.2 ⟨part, present, by simpa using refused⟩
    obtain ⟨first, isFirst⟩ := Option.isSome_iff_exists.1 some
    obtain ⟨startLine, -, message, -, -, failed⟩ := fails isFirst
    exact ⟨_, failed⟩
  · intro documents parsed document mem
    obtain ⟨part, present, holds⟩ := holds_of_mem_parse parsed mem
    obtain ⟨value, given, listed⟩ := holds.value
    have stands : StandsFor value (resources value) := standsFor_iff.2 rfl
    exact ⟨holds.filePath, stands.kind listed, part, present,
      Part.range?_eq_some_iff_spans.1 holds.range, value, _, given, stands, listed⟩

/-- A text of four parts, of which one carries no content. -/
def mixedText : String := "# none\n---\nlist\n---\nplain\n---\nnull\n"

/-- A reader of four texts.  One is a list with items of all sorts, among them another list;
one is a mapping without a kind. -/
def mixedReader : String → Except String Json
  | "list" => .ok (.obj [("kind", .str "List"), ("items", .arr [
      .obj [("kind", .str "Pod")], .null, .obj [("kind", .ofNat 3)],
      .obj [("kind", .str "List"), ("items", .arr [.obj [("kind", .str "Job")]])]])])
  | "plain" => .ok (.obj [("name", .str "List")])
  | "null" => .ok .null
  | "# none" => .ok (.obj [("kind", .str "Pod")])
  | text => .error ("no value in " ++ text)

/-- Two resources come of the list and none of the other parts.  Once a part without a value
follows, nothing comes of the text. -/
theorem mixedText_resources :
    (∃ documents, parse mixedReader mixedText "a.yaml" = .ok documents ∧
      documents.map ManifestDocument.kind = ["Pod", "List"] ∧
      ∀ document ∈ documents, document.filePath = "a.yaml" ∧
        document.body.get? "kind" = some (.str document.kind)) ∧
    firstRefused? mixedReader (mixedText ++ "---\n\nbroken\n") =
      some ⟨9, [[], "broken".toList]⟩ ∧
    parse mixedReader (mixedText ++ "---\n\nbroken\n") "a.yaml" =
      .error (@Fault.manifest "a.yaml" 10 "no value in \nbroken") := by
  have kinds : (parse mixedReader mixedText "a.yaml").map (List.map ManifestDocument.kind) =
      .ok ["Pod", "List"] := by
    decide +kernel
  have first : firstRefused? mixedReader (mixedText ++ "---\n\nbroken\n") =
      some ⟨9, [[], "broken".toList]⟩ := by
    decide +kernel
  obtain ⟨startLine, endLine, message, spans, unread, failed⟩ :=
    (parse_all_or_nothing mixedReader (mixedText ++ "---\n\nbroken\n") "a.yaml").2.1 _ first
  have content : Part.contentLines ⟨9, [[], "broken".toList]⟩ = [10] := by decide
  obtain rfl : startLine = 10 := List.mem_singleton.1 (content ▸ spans.first)
  have worded : mixedReader "\nbroken" = .error "no value in \nbroken" := by rfl
  have same : "no value in \nbroken" = message := Except.error.inj (worded.symm.trans unread)
  rw [← same] at failed
  refine ⟨?_, first, failed⟩
  cases parsed : parse mixedReader mixedText "a.yaml" with
  | error fault =>
    rw [parsed] at kinds
    cases kinds
  | ok documents =>
    rw [parsed] at kinds
    refine ⟨documents, rfl, Except.ok.inj kinds, fun document mem => ?_⟩
    obtain ⟨filePath, kind, -⟩ :=
      (parse_all_or_nothing mixedReader mixedText "a.yaml").2.2.2 documents
        parsed document mem
    exact ⟨filePath, kind⟩

end InfraScan.Manifest
