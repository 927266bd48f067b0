import InfraScan.Proofs.Directive

/-!
# How directives are found

A directive is a mark, blanks and an id.  What parses at the front of a text is said here
without the parser, and what is found in a text is said in terms of the places at which
nothing parses.

* `Directive.Spelled`, `Directive.parseMark_eq_some_iff` — how a directive is spelled
* `Directive.parseAt_eq_some_iff` — the first mark of the list that makes a directive
* `Directive.parseAt_eq_none_of_append` — what does not parse with more text behind it does
  not parse without
* `Directive.Quiet` — a text in which no directive starts
* `Directive.next?_eq_none_iff`, `Directive.next?_eq_some_iff` — the leftmost directive
* `Directive.lead` — the text before it
* `Directive.directives_of_next?`, `Directive.directives_append_of_quiet` — all directives

### What is load-bearing

Whether a directive starts somewhere depends on the text behind that place, and not only on
the part of it that is looked at: `Quiet` carries this text along.  It may be left out, since
a directive needs one character of an id and no more (`parseAt_eq_none_of_append`).
-/

namespace InfraScan

namespace Directive

/-! ### One directive -/

theorem isWord_iff {c : Char} : isWord c = true ↔ c.isAlphanum = true ∨ c = '_' := by
  rw [isWord, Bool.or_eq_true, decide_eq_true_eq]

theorem isId_toList_iff {id : String} :
    IsId id.toList ↔ id ≠ "" ∧ ∀ c ∈ id.toList, c.isAlphanum = true ∨ c = '_' := by
  simp only [IsId, isWord_iff, ne_eq, String.toList_eq_nil_iff]

/-- The characters of ids lie between the digit zero and the letter z. -/
theorem toNat_of_isWord {c : Char} (word : isWord c = true) :
    0x30 ≤ c.toNat ∧ c.toNat ≤ 0x7A := by
  rcases isWord_iff.1 word with alphanumeric | rfl
  · have kinds : c.isUpper = true ∨ c.isLower = true ∨ c.isDigit = true := by
      have either : ((c.isUpper || c.isLower) || c.isDigit) = true := alphanumeric
      rwa [Bool.or_assoc, Bool.or_eq_true, Bool.or_eq_true] at either
    rcases kinds with upper | lower | digit
    · have bounds : 'A'.val ≤ c.val ∧ c.val ≤ 'Z'.val := of_decide_eq_true upper
      have bounds' : 0x41 ≤ c.toNat ∧ c.toNat ≤ 0x5A := bounds
      omega
    · have bounds : (decide ('a'.val ≤ c.val) && decide (c.val ≤ 'z'.val)) = true := lower
      rw [Bool.and_eq_true, decide_eq_true_eq, decide_eq_true_eq] at bounds
      have bounds' : 0x61 ≤ c.toNat ∧ c.toNat ≤ 0x7A := bounds
      omega
    · have bounds : 0x30 ≤ c.toNat ∧ c.toNat ≤ 0x39 := Char.isDigit_iff_toNat.1 digit
      omega
  · decide

/-- A character of an id is not blank, so that the blanks before an id end where it starts. -/
theorem isBlank_of_isWord {c : Char} (word : isWord c = true) : Text.isBlank c = false := by
  obtain ⟨low, high⟩ := toNat_of_isWord word
  exact Text.isBlank_of_visible (by omega) (by omega)

/-- **How a directive is spelled** behind its mark: blanks, and an id that goes on as long as
it can. -/
structure Spelled (blanks id after : List Char) : Prop where
  blanks : ∀ c ∈ blanks, Text.isBlank c = true
  id : IsId id
  ends : ∀ c ∈ after.head?, isWord c = false

/-- The blanks behind a mark end where the id starts, and the id ends where its word does. -/
theorem Spelled.split {blanks id after : List Char} (spelled : Spelled blanks id after) :
    (blanks ++ (id ++ after)).dropWhile Text.isBlank = id ++ after ∧
      (id ++ after).takeWhile isWord = id ∧ (id ++ after).dropWhile isWord = after := by
  refine ⟨?_, ?_, ?_⟩
  · rw [List.dropWhile_append_of_pos spelled.blanks]
    refine Text.dropWhile_of_head? fun c mem => isBlank_of_isWord (spelled.id.2 c ?_)
    rw [List.head?_append_of_ne_nil _ spelled.id.1] at mem
    exact List.mem_of_mem_head? mem
  · have rest : after.takeWhile isWord = [] := by
      have whole := List.takeWhile_append_dropWhile (p := isWord) (l := after)
      rw [Text.dropWhile_of_head? spelled.ends] at whole
      exact List.append_left_eq_self.1 whole
    rw [List.takeWhile_append_of_pos spelled.id.2, rest, List.append_nil]
  · rw [List.dropWhile_append_of_pos spelled.id.2, Text.dropWhile_of_head? spelled.ends]

/-- **What parses with a mark** is the mark, and behind it what is spelled as a directive. -/
theorem parseMark_eq_some_iff {mark text id after : List Char} :
    parseMark mark text = some (id, after) ↔
      ∃ blanks, text = mark ++ (blanks ++ (id ++ after)) ∧ Spelled blanks id after := by
  constructor
  · intro parsed
    have isId := isId_of_parseMark parsed
    unfold parseMark at parsed
    split at parsed
    · rename_i here
      obtain ⟨body, rfl⟩ := List.isPrefixOf_iff_prefix.1 here
      rw [List.drop_left] at parsed
      dsimp only at parsed
      split at parsed
      · cases parsed
      · obtain ⟨rfl, rfl⟩ := Prod.mk.inj (Option.some.inj parsed)
        refine ⟨body.takeWhile Text.isBlank, ?_, fun c mem =>
          List.mem_takeWhile_imp mem, isId, Text.not_of_mem_head?_dropWhile⟩
        rw [List.takeWhile_append_dropWhile, List.takeWhile_append_dropWhile]
    · cases parsed
  · rintro ⟨blanks, rfl, spelled⟩
    obtain ⟨behindBlanks, word, behindWord⟩ := spelled.split
    have here : mark.isPrefixOf (mark ++ (blanks ++ (id ++ after))) = true :=
      List.isPrefixOf_iff_prefix.2 (List.prefix_append _ _)
    simp only [parseMark, here, if_true, List.drop_left, behindBlanks, word, behindWord,
      if_neg spelled.id.1]

/-- **What parses** does so with the first mark of the list that makes a directive. -/
theorem parseAt_eq_some_iff {marks : List (List Char)} {text id after : List Char} :
    parseAt marks text = some (id, after) ↔
      ∃ earlier mark later, marks = earlier ++ mark :: later ∧
        parseMark mark text = some (id, after) ∧
        ∀ other ∈ earlier, parseMark other text = none :=
  List.findSome?_eq_some_iff

theorem parseAt_eq_none_iff {marks : List (List Char)} {text : List Char} :
    parseAt marks text = none ↔ ∀ mark ∈ marks, parseMark mark text = none :=
  List.findSome?_eq_none_iff

/-- A directive is not lost when more text follows: its id may only go on. -/
theorem parseMark_append {mark text id after : List Char}
    (parsed : parseMark mark text = some (id, after)) (more : List Char) :
    parseMark mark (text ++ more) =
      some (id ++ (after ++ more).takeWhile isWord, (after ++ more).dropWhile isWord) := by
  obtain ⟨blanks, rfl, spelled⟩ := parseMark_eq_some_iff.1 parsed
  refine parseMark_eq_some_iff.2
    ⟨blanks, ?_, spelled.blanks, ?_, Text.not_of_mem_head?_dropWhile⟩
  · simp only [List.append_assoc, List.takeWhile_append_dropWhile]
  · refine ⟨List.append_ne_nil_of_left_ne_nil spelled.id.1 _, fun c mem => ?_⟩
    rcases List.mem_append.1 mem with inId | further
    · exact spelled.id.2 c inId
    · exact List.mem_takeWhile_imp further

/-- **What does not parse with more text behind it does not parse without.** -/
theorem parseAt_eq_none_of_append {marks : List (List Char)} {text more : List Char}
    (nothing : parseAt marks (text ++ more) = none) : parseAt marks text = none := by
  rw [parseAt_eq_none_iff] at nothing ⊢
  intro mark mem
  cases parsed : parseMark mark text with
  | none => rfl
  | some result =>
    obtain ⟨id, after⟩ := result
    have whole := nothing mark mem
    rw [parseMark_append parsed more] at whole
    cases whole

/-- An id takes up a character, so nothing parses at the end of a text. -/
theorem parseAt_nil (marks : List (List Char)) : parseAt marks [] = none := by
  cases parsed : parseAt marks [] with
  | none => rfl
  | some result => exact absurd (length_of_parseAt parsed) (Nat.not_lt_zero _)

/-! ### Texts without a directive -/

/-- **No directive starts in the text `front`** while the text `back` follows. -/
def Quiet (marks : List (List Char)) (front back : List Char) : Prop :=
  ∀ rest, rest <:+ front → rest ≠ [] → parseAt marks (rest ++ back) = none

variable {marks : List (List Char)}

theorem quiet_nil (back : List Char) : Quiet marks [] back :=
  fun _ suffix nonempty => absurd (List.suffix_nil.1 suffix) nonempty

theorem quiet_cons {c : Char} {front back : List Char} :
    Quiet marks (c :: front) back ↔
      parseAt marks (c :: (front ++ back)) = none ∧ Quiet marks front back := by
  constructor
  · intro quiet
    refine ⟨quiet _ List.suffix_rfl (List.cons_ne_nil c front), fun rest suffix => ?_⟩
    exact quiet rest (suffix.trans (List.suffix_cons c front))
  · rintro ⟨here, later⟩ rest suffix nonempty
    rcases List.suffix_cons_iff.1 suffix with rfl | inFront
    · exact here
    · exact later rest inFront nonempty

/-- No directive starts in a part of such a text, even if nothing follows it. -/
theorem Quiet.of_infix {front part back : List Char} (quiet : Quiet marks front back)
    (inside : part <:+: front) : Quiet marks part [] := by
  obtain ⟨before, after, rfl⟩ := inside
  intro rest suffix nonempty
  rw [List.append_nil]
  obtain ⟨start, rfl⟩ := suffix
  have further := quiet (rest ++ after) ⟨before ++ start, by simp only [List.append_assoc]⟩
    (List.append_ne_nil_of_left_ne_nil nonempty after)
  rw [List.append_assoc] at further
  exact parseAt_eq_none_of_append further

/-! ### The leftmost directive -/

/-- A directive at the front of a text is the leftmost one. -/
theorem next?_of_parseAt {text id after : List Char}
    (parsed : parseAt marks text = some (id, after)) :
    next? marks text = some ⟨[], id, after⟩ := by
  cases text with
  | nil =>
    rw [parseAt_nil] at parsed
    cases parsed
  | cons c rest =>
    unfold next?
    rw [parsed]

/-- The search passes over a text in which no directive starts. -/
theorem next?_append_of_quiet {front back : List Char} (quiet : Quiet marks front back) :
    next? marks (front ++ back) =
      (next? marks back).map fun found => { found with before := front ++ found.before } := by
  induction front with
  | nil => simp
  | cons c rest ih =>
    obtain ⟨here, later⟩ := quiet_cons.1 quiet
    rw [List.cons_append, next?, here, ih later, Option.map_map]
    rfl

/-- **There is no directive in a text** if none starts anywhere. -/
theorem next?_eq_none_iff {text : List Char} :
    next? marks text = none ↔ Quiet marks text [] := by
  constructor
  · intro nothing
    induction text with
    | nil => exact quiet_nil []
    | cons c rest ih =>
      unfold next? at nothing
      split at nothing
      · cases nothing
      · rename_i here
        rw [Option.map_eq_none_iff] at nothing
        exact quiet_cons.2 ⟨by rwa [List.append_nil], ih nothing⟩
  · intro quiet
    have passed := next?_append_of_quiet quiet
    rwa [List.append_nil] at passed

/-- **The leftmost directive of a text** parses behind a text in which none starts. -/
theorem next?_eq_some_iff {text : List Char} {found : Found} :
    next? marks text = some found ↔
      ∃ rest, text = found.before ++ rest ∧ Quiet marks found.before rest ∧
        parseAt marks rest = some (found.id, found.after) := by
  constructor
  · intro next
    induction text generalizing found with
    | nil => cases next
    | cons c rest ih =>
      unfold next? at next
      split at next
      · rename_i id after parsed
        obtain rfl := Option.some.inj next
        exact ⟨c :: rest, rfl, quiet_nil _, parsed⟩
      · rename_i here
        obtain ⟨later, there, rfl⟩ := Option.map_eq_some_iff.1 next
        obtain ⟨tail, rfl, quiet, parsed⟩ := ih there
        exact ⟨tail, rfl, quiet_cons.2 ⟨here, quiet⟩, parsed⟩
  · rintro ⟨rest, rfl, quiet, parsed⟩
    rw [next?_append_of_quiet quiet, next?_of_parseAt parsed, Option.map_some,
      List.append_nil]

/-! ### All directives -/

/-- The text before the leftmost directive; the whole text if there is none. -/
def lead (marks : List (List Char)) (text : List Char) : List Char :=
  match next? marks text with
  | none => text
  | some found => found.before

theorem lead_of_quiet {text : List Char} (quiet : Quiet marks text []) :
    lead marks text = text := by
  rw [lead, next?_eq_none_iff.2 quiet]

theorem lead_append_of_parseAt {front rest id after : List Char}
    (quiet : Quiet marks front rest) (parsed : parseAt marks rest = some (id, after)) :
    lead marks (front ++ rest) = front := by
  have next : next? marks (front ++ rest) = some ⟨front, id, after⟩ :=
    next?_eq_some_iff.2 ⟨rest, rfl, quiet, parsed⟩
  rw [lead, next]

theorem directives_of_quiet {text : List Char} (quiet : Quiet marks text []) :
    directives marks text = [] := by
  rw [directives, next?_eq_none_iff.2 quiet]

/-- The first directive goes with the text up to the next one. -/
theorem directives_of_next? {text : List Char} {found : Found}
    (next : next? marks text = some found) :
    directives marks text = (found.id, lead marks found.after) ::
      directives marks found.after := by
  rw [directives, next]
  rfl

/-- A text in which no directive starts may stand before others, or be left out. -/
theorem directives_append_of_quiet {front back : List Char} (quiet : Quiet marks front back) :
    directives marks (front ++ back) = directives marks back := by
  have passed := next?_append_of_quiet quiet
  cases next : next? marks back with
  | none =>
    rw [next, Option.map_none] at passed
    rw [directives_of_quiet (next?_eq_none_iff.1 passed),
      directives_of_quiet (next?_eq_none_iff.1 next)]
  | some found =>
    rw [next] at passed
    rw [directives_of_next? passed, directives_of_next? next]

end Directive

/-- A list that is not empty makes a scanner. -/
theorem DirectiveScanner.ofMarks_eq_ok {marks : List String} (nonempty : marks ≠ []) :
    DirectiveScanner.ofMarks marks = .ok ⟨marks, nonempty⟩ := dif_neg nonempty

end InfraScan
