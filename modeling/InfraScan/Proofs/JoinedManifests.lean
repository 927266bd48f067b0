import InfraScan.Proofs.ManifestResources

/-!
# Manifests that are joined

Two manifests are joined by a separator between them.  The joined manifest has the parts of
both, and those of the second one stand as many lines farther down as the first one and the
separator take.  What is read off a part does not depend on where it stands, except for the
line numbers.

* `Part.moved`, `ManifestDocument.moved`, `Fault.moved` — the same some lines farther down
* `cutFrom_append_separator`, `cutFrom_moved`, `cut_joined` — the parts of the joined manifest
* `parsePart_moved`, `parseParts_moved` — reading parts that have been moved
* `parseParts_append` — reading some parts and then others
* `parse_joined` — reading the joined manifest

### What is load-bearing

The first manifest must end its last line, for otherwise the dashes would belong to that line
and would separate nothing.  Nothing is asked of the second one, nor of the reader.
-/

namespace InfraScan

/-- The document, found some lines farther down. -/
def ManifestDocument.moved (document : ManifestDocument) (count : Nat) : ManifestDocument :=
  { document with
    startLine := document.startLine + count
    endLine := document.endLine + count }

/-- The fault, found some lines farther down if it has a line. -/
def Fault.moved (fault : Fault) (count : Nat) : Fault :=
  match fault with
  | @Fault.manifest filePath line message => @Fault.manifest filePath (line + count) message
  | other => other

namespace Manifest

/-- What is read some lines farther down. -/
def movedResult (count : Nat) :
    Except Fault (List ManifestDocument) → Except Fault (List ManifestDocument)
  | .error fault => .error (fault.moved count)
  | .ok documents => .ok (documents.map (·.moved count))

/-! ### Parts -/

/-- The part, some lines farther down. -/
def Part.moved (part : Part) (count : Nat) : Part :=
  { part with firstLine := part.firstLine + count }

@[simp] theorem Part.text_moved (part : Part) (count : Nat) :
    (part.moved count).text = part.text :=
  rfl

theorem Part.contentLines_moved (part : Part) (count : Nat) :
    (part.moved count).contentLines = part.contentLines.map (· + count) := by
  obtain ⟨first, lines⟩ := part
  show (Part.mk (first + count) lines).contentLines = _
  induction lines generalizing first with
  | nil => rfl
  | cons line rest ih =>
    have later := ih (first + 1)
    rw [Nat.add_right_comm] at later
    rw [contentLines_cons, contentLines_cons, later, List.map_append]
    split <;> rfl

/-- **The range of a part moves with it.** -/
theorem Part.range?_moved (part : Part) (count : Nat) :
    (part.moved count).range? =
      part.range?.map fun range => (range.1 + count, range.2 + count) := by
  rw [range?, range?, contentLines_moved, List.head?_map, List.getLast?_map]
  cases part.contentLines.head? with
  | none => rfl
  | some first =>
    cases part.contentLines.getLast? with
    | none => rfl
    | some last => rfl

theorem Part.refused_moved_iff {reader : String → Except String Json} {part : Part}
    {count : Nat} :
    (part.moved count).Refused reader ↔ part.Refused reader := by
  simp [Refused, contentLines_moved]

/-- **The parts before a separator and those behind it.** -/
theorem cutFrom_append_separator {separator : List Char}
    (separates : isSeparator separator = true) (front back : List (List Char)) (first : Nat) :
    cutFrom first (front ++ separator :: back) =
      cutFrom first front ++ cutFrom (first + front.length + 1) back := by
  induction front using run_induction generalizing first with
  | last run unseparated =>
    rw [cutFrom_append unseparated separates, cutFrom_run unseparated, List.singleton_append]
  | more run other rest unseparated separates' ih =>
    have behind : first + run.length + 1 + rest.length + 1 =
        first + (run ++ other :: rest).length + 1 := by
      rw [List.length_append, List.length_cons]
      omega
    rw [List.append_assoc, List.cons_append, cutFrom_append unseparated separates',
      cutFrom_append unseparated separates', ih, behind, List.cons_append]

/-- **Lines that stand farther down have the same parts, farther down.** -/
theorem cutFrom_moved (first count : Nat) (lines : List (List Char)) :
    cutFrom (first + count) lines = (cutFrom first lines).map (·.moved count) := by
  induction lines using run_induction generalizing first with
  | last run unseparated =>
    rw [cutFrom_run unseparated, cutFrom_run unseparated]
    rfl
  | more run separator rest unseparated separates ih =>
    have behind : first + count + run.length + 1 = first + run.length + 1 + count := by omega
    rw [cutFrom_append unseparated separates,
      cutFrom_append unseparated separates, behind, ih]
    rfl

/-- **The parts of the joined text** are those of both texts. -/
theorem cut_joined {first : String} (whole : Text.Whole first.toList) (second : String) :
    cut (first ++ "---\n" ++ second).toList =
      cut first.toList ++
        (cut second.toList).map (·.moved ((Text.lines first.toList).length + 1)) := by
  have lines : Text.lines (first ++ "---\n" ++ second).toList =
      Text.lines first.toList ++ "---".toList :: Text.lines second.toList := by
    have separator : Text.Whole "---\n".toList := .inr (by decide)
    rw [String.toList_append, String.toList_append, List.append_assoc,
      Text.lines_append whole, Text.lines_append separator]
    rfl
  rw [cut, lines, cutFrom_append_separator (by decide), Nat.add_assoc, cutFrom_moved]
  rfl

/-! ### Reading -/

variable {reader : String → Except String Json} {path : String}

/-- **Where a part stands shows in the line numbers only.** -/
theorem parsePart_moved (part : Part) (count : Nat) :
    parsePart reader path (part.moved count) =
      movedResult count (parsePart reader path part) := by
  rw [parsePart, parsePart, Part.range?_moved, Part.text_moved]
  cases part.range? with
  | none => rfl
  | some range =>
    rw [Option.map_some]
    cases reader part.text with
    | error message => rfl
    | ok value =>
      show Except.ok _ = Except.ok _
      rw [List.map_map]
      rfl

theorem parseParts_moved (parts : List Part) (count : Nat) :
    parseParts reader path (parts.map (·.moved count)) =
      movedResult count (parseParts reader path parts) := by
  induction parts with
  | nil => rfl
  | cons part rest ih =>
    rw [List.map_cons, parseParts, parseParts, parsePart_moved, ih]
    cases parsePart reader path part with
    | error fault => rfl
    | ok documents =>
      cases parseParts reader path rest with
      | error fault => rfl
      | ok others =>
        show Except.ok _ = Except.ok _
        rw [List.map_append]

/-- **Reading some parts and then others.**  The others are looked at if there is no fault
before. -/
theorem parseParts_append (front back : List Part) :
    parseParts reader path (front ++ back) =
      (parseParts reader path front).bind fun documents =>
        (parseParts reader path back).map (documents ++ ·) := by
  induction front with
  | nil =>
    rw [List.nil_append]
    cases parseParts reader path back <;> rfl
  | cons part rest ih =>
    rw [List.cons_append, parseParts, parseParts, ih]
    cases parsePart reader path part with
    | error fault => rfl
    | ok documents =>
      cases parseParts reader path rest with
      | error fault => rfl
      | ok others =>
        cases parseParts reader path back with
        | error fault => rfl
        | ok more =>
          exact congrArg Except.ok (List.append_assoc documents others more).symm

theorem parse_append_separator {first : String} (whole : Text.Whole first.toList)
    (second : String) :
    parse reader (first ++ "---\n" ++ second) path =
      (parse reader first path).bind fun documents =>
        (movedResult ((Text.lines first.toList).length + 1) (parse reader second path)).map
          (documents ++ ·) := by
  rw [parse, cut_joined whole, parseParts_append, parseParts_moved]
  rfl

/-- **Reading is compositional at separators.**  Take a text of whole lines, and any other
text to be joined to it.

* A fault of the first text is the fault of the joined text.
* If the first text is read, a fault of the second text is the fault of the joined text, with
  the same words of the reader, farther down by the lines of the first text and the separator.
* If both are read, the documents are those of the first text and then those of the second
  one; these are the same but for their line numbers, which are larger by as much.
* The part that is refused first is the same in any case, with the same text. -/
theorem parse_joined (reader : String → Except String Json) (path : String) {first : String}
    (whole : Text.Whole first.toList) (second : String) :
    let count := (Text.lines first.toList).length + 1
    let joined := first ++ "---\n" ++ second
    (∀ fault, parse reader first path = .error fault →
      parse reader joined path = .error fault) ∧
    (∀ documents, parse reader first path = .ok documents →
      (∀ fault, parse reader second path = .error fault → ∃ line message,
        fault = @Fault.manifest path line message ∧
        parse reader joined path = .error (@Fault.manifest path (line + count) message)) ∧
      ∀ others, parse reader second path = .ok others →
        parse reader joined path = .ok (documents ++ others.map (·.moved count))) ∧
    firstRefused? reader joined =
      (firstRefused? reader first).or
        ((firstRefused? reader second).map (·.moved count)) := by
  intro count joined
  have composed : parse reader joined path = _ := parse_append_separator whole second
  refine ⟨fun fault failed => ?_, fun documents read => ⟨fun fault failed => ?_, ?_⟩, ?_⟩
  · rw [composed, failed]
    rfl
  · obtain ⟨part, -, refused⟩ := parseParts_eq_error_iff.1 failed
    obtain ⟨startLine, -, message, -, -, rfl⟩ := parsePart_eq_error_iff.1 refused
    refine ⟨startLine, message, rfl, ?_⟩
    rw [composed, read, failed]
    rfl
  · intro others readToo
    rw [composed, read, readToo]
    rfl
  · have same : (fun part : Part => decide (part.Refused reader)) ∘ (Part.moved · count) =
        fun part => decide (part.Refused reader) := by
      funext part
      exact decide_eq_decide.2 Part.refused_moved_iff
    rw [firstRefused?, cut_joined whole, List.find?_append, List.find?_map, same]
    rfl

/-- Two texts behind a text of four parts: one of them is read, and the other one is not. -/
theorem parse_joined_mixedText :
    Text.Whole mixedText.toList ∧
    parse mixedReader (mixedText ++ "---\n" ++ "# c\nbroken") "a.yaml" =
      .error (@Fault.manifest "a.yaml" 10 "no value in # c\nbroken") ∧
    ∃ documents others, parse mixedReader mixedText "a.yaml" = .ok documents ∧
      parse mixedReader "list" "a.yaml" = .ok others ∧
      parse mixedReader (mixedText ++ "---\n" ++ "list") "a.yaml" =
        .ok (documents ++ others.map (·.moved 8)) := by
  have whole : Text.Whole mixedText.toList := .inr (by decide +kernel)
  have count : (Text.lines mixedText.toList).length = 7 := by decide +kernel
  have readable (text : String) (fine : (parse mixedReader text "a.yaml").isOk = true) :
      ∃ documents, parse mixedReader text "a.yaml" = .ok documents := by
    cases parsed : parse mixedReader text "a.yaml" with
    | error fault =>
      rw [parsed] at fine
      cases fine
    | ok documents => exact ⟨documents, rfl⟩
  obtain ⟨documents, first⟩ := readable mixedText (by decide +kernel)
  obtain ⟨others, second⟩ := readable "list" (by decide +kernel)
  have third : parse mixedReader "# c\nbroken" "a.yaml" =
      .error (@Fault.manifest "a.yaml" 2 "no value in # c\nbroken") := by
    rfl
  have behind (text : String) :=
    ((parse_joined mixedReader "a.yaml" whole text).2.1 documents first)
  simp only [count] at behind
  obtain ⟨line, message, same, failed⟩ := (behind "# c\nbroken").1 _ third
  obtain ⟨-, rfl, rfl⟩ := Fault.manifest.inj same
  exact ⟨whole, failed, documents, others, first, second, (behind "list").2 others second⟩

end Manifest

end InfraScan
