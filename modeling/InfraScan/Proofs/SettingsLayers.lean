import InfraScan.Proofs.Text
import InfraScan.Settings

/-!
# The layers of settings

A setting comes from a variable, else from the file, else it has its default.  Each layer may
be missing, and each may be in a state in which no settings come of it: the file cannot be
read, or is not settings, or has a blank mark; a variable has a value that is no word.

* `Spells`, `wordOf_eq_iff` — the values that stand for a word
* `GoesByWords`, `goesByWords_flagOfWord`, `Framework.goesByWords_ofWord` — the values that
  parse
* `Settings.FileTells`, `Settings.FileFault` — what the file that is used tells, or why it
  tells nothing
* `Settings.Tells`, `Settings.Garbled` — what a variable tells, or that it spells no word
* `Settings.spoken` — a variable read on its own
* `Settings.resolve_eq` — all layers, each read on its own and in turn
* `Settings.resolve_by_layers` — settings and faults in terms of the layers

### What is load-bearing

A variable is read while the settings of the layers below are carried along, and writes one
field.  It could as well be read without them (`Settings.overrideApart_eq`,
`Settings.overrideFramework_eq`), and so no layer affects whether another one can be read.
-/

namespace InfraScan

/-! ### Words -/

/-- **A value spells a word** if it is the word, up to blanks around it and capitals among its
ASCII letters. -/
def Spells (value word : String) : Prop :=
  ∃ front core back, value.toList = front ++ (core ++ back) ∧
    (∀ c ∈ front, Text.isBlank c = true) ∧ (∀ c ∈ back, Text.isBlank c = true) ∧
    core.map Char.toLower = word.toList

/-- The words for truth and for falsehood. -/
def flagWords : Bool → List String
  | true => ["y", "yes", "t", "true", "on", "1"]
  | false => ["n", "no", "f", "false", "off", "0"]

/-- The words for a framework, names of libraries among them. -/
def Framework.words : Framework → List String
  | .attributed => ["attributed", "networkx"]
  | .tabular => ["tabular", "igraph"]

/-- A word has a character, and none that is blank. -/
def Solid (word : String) : Prop :=
  word.toList ≠ [] ∧ ∀ c ∈ word.toList, Text.isBlank c = false

-- The letters are gone through one by one, and not all characters that there are.
instance (word : String) : Decidable (Solid word) :=
  @instDecidableAnd _ _ inferInstance (List.decidableBAll _ word.toList)

theorem solid_of_mem_flagWords (flag : Bool) : ∀ word ∈ flagWords flag, Solid word := by
  cases flag <;> decide

theorem Framework.solid_of_mem_words (framework : Framework) :
    ∀ word ∈ framework.words, Solid word := by
  cases framework <;> decide

/-- A capital is as little blank as its small letter. -/
theorem isBlank_toLower (c : Char) : Text.isBlank c.toLower = Text.isBlank c := by
  unfold Char.toLower
  split
  · rename_i capital
    have bounds : 0x41 ≤ c.toNat ∧ c.toNat ≤ 0x5A := capital
    have small : (c.val + ('a'.val - 'A'.val)).toNat = c.toNat + 0x20 := by
      rw [UInt32.toNat_add, Nat.mod_eq_of_lt]
      · rfl
      · show c.toNat + 0x20 < 2 ^ 32
        omega
    rw [Text.isBlank_of_visible (c := c) (by omega) (by omega)]
    apply Text.isBlank_of_visible
    · show 0x21 ≤ (c.val + ('a'.val - 'A'.val)).toNat
      omega
    · show (c.val + ('a'.val - 'A'.val)).toNat ≤ 0x7E
      omega
  · rfl

/-- **A value is compared by the word that it spells.** -/
theorem wordOf_eq_iff {value word : String} (solid : Solid word) :
    wordOf value = word ↔ Spells value word := by
  constructor
  · rintro rfl
    obtain ⟨front, back, split, blankFront, blankBack⟩ :=
      Text.exists_eq_append_trim value.toList
    exact ⟨front, _, back, split, blankFront, blankBack, String.toList_ofList.symm⟩
  · rintro ⟨front, core, back, split, blankFront, blankBack, lowered⟩
    have solidCore : ∀ c ∈ core, Text.isBlank c = false := by
      intro c mem
      rw [← isBlank_toLower]
      exact solid.2 _ (lowered ▸ List.mem_map_of_mem mem)
    have inhabited : core ≠ [] := by
      rintro rfl
      exact solid.1 lowered.symm
    have trimmed : Text.trim value.toList = core := by
      rw [split]
      exact Text.trim_padded inhabited (Text.trim_of_solid solidCore) blankFront blankBack
    rw [wordOf, trimmed, lowered, String.ofList_toList]

theorem wordOf_mem_iff {words : List String} (solid : ∀ word ∈ words, Solid word)
    {value : String} :
    wordOf value ∈ words ↔ ∃ word ∈ words, Spells value word := by
  constructor
  · intro listed
    exact ⟨_, listed, (wordOf_eq_iff (solid _ listed)).1 rfl⟩
  · rintro ⟨word, listed, spelled⟩
    rwa [(wordOf_eq_iff (solid word listed)).2 spelled]

/-- **A reader of values goes by words** if it takes a value for the thing a word for which it
spells, and fails for a value that spells none. -/
structure GoesByWords {α : Type} (words : α → List String) (fault : String → SettingsFault)
    (parse : String → Except SettingsFault α) : Prop where
  ok_iff {value : String} {x : α} : parse value = .ok x ↔ ∃ word ∈ words x, Spells value word
  error_iff {value : String} {cause : SettingsFault} : parse value = .error cause ↔
    (∀ x, ∀ word ∈ words x, ¬ Spells value word) ∧ cause = fault (wordOf value)

/-- A reader that takes every word for its thing, and fails for everything else, goes by
words. -/
theorem GoesByWords.of_listed {α : Type} {words : α → List String}
    {fault : String → SettingsFault} {parse : String → Except SettingsFault α}
    (solid : ∀ x, ∀ word ∈ words x, Solid word)
    (listed : ∀ value x, wordOf value ∈ words x → parse value = .ok x)
    (unlisted : ∀ value, (∀ x, wordOf value ∉ words x) →
      parse value = .error (fault (wordOf value))) :
    GoesByWords words fault parse := by
  have spelled (value : String) (x : α) :
      wordOf value ∈ words x ↔ ∃ word ∈ words x, Spells value word := wordOf_mem_iff (solid x)
  have none_iff (value : String) :
      (∀ x, ∀ word ∈ words x, ¬ Spells value word) ↔ ∀ x, wordOf value ∉ words x := by
    simp only [spelled, not_exists, not_and]
  constructor
  · intro value x
    rw [← spelled]
    refine ⟨fun parsed => ?_, listed value x⟩
    by_cases other : ∃ y, wordOf value ∈ words y
    · obtain ⟨y, mem⟩ := other
      obtain rfl := Except.ok.inj ((listed value y mem).symm.trans parsed)
      exact mem
    · rw [unlisted value (not_exists.1 other)] at parsed
      cases parsed
  · intro value cause
    rw [none_iff]
    constructor
    · intro failed
      have absent : ∀ x, wordOf value ∉ words x := by
        intro x mem
        rw [listed value x mem] at failed
        cases failed
      rw [unlisted value absent] at failed
      exact ⟨absent, (Except.error.inj failed).symm⟩
    · rintro ⟨absent, rfl⟩
      exact unlisted value absent

/-- **The values of a truth value.** -/
theorem goesByWords_flagOfWord (name : String) :
    GoesByWords flagWords (.invalidBoolean · name) (flagOfWord name) := by
  have apart : ∀ word ∈ flagWords false, word ∉ flagWords true := by decide
  refine .of_listed solid_of_mem_flagWords ?_ ?_
  · intro value flag mem
    rw [flagOfWord]
    cases flag with
    | true => exact if_pos mem
    | false => exact (if_neg (apart _ mem)).trans (if_pos mem)
  · intro value absent
    rw [flagOfWord]
    exact (if_neg (absent true)).trans (if_neg (absent false))

/-- **The values of a framework.** -/
theorem Framework.goesByWords_ofWord :
    GoesByWords Framework.words .unknownFramework Framework.ofWord := by
  have apart : ∀ word ∈ words .tabular, word ∉ words .attributed := by decide
  refine .of_listed solid_of_mem_words ?_ ?_
  · intro value framework mem
    rw [ofWord]
    cases framework with
    | attributed => exact if_pos mem
    | tabular => exact (if_neg (apart _ mem)).trans (if_pos mem)
  · intro value absent
    rw [ofWord]
    exact (if_neg (absent .attributed)).trans (if_neg (absent .tabular))

namespace Settings

/-! ### Variables -/

section Variables

variable {α : Type} (environment : String → Option String) (name : String)
  (words : α → List String)

/-- **What a variable tells of a setting**: nothing if it is not set or blank, and else the
thing a word for which its value spells. -/
inductive Tells : Option α → Prop
  | nothing (unset : ∀ value, environment name = some value → Text.isBlankText value = true) :
      Tells none
  | thing {value word : String} {x : α} (set : environment name = some value)
      (shown : Text.isBlankText value = false) (listed : word ∈ words x)
      (spelled : Spells value word) : Tells (some x)

/-- **A variable is garbled** if it is set and not blank, and its value spells no word. -/
structure Garbled (value : String) : Prop where
  set : environment name = some value
  shown : Text.isBlankText value = false
  unlisted : ∀ x, ∀ word ∈ words x, ¬ Spells value word

/-- **A variable read on its own.** -/
def spoken (parse : String → Except SettingsFault α) : Except SettingsFault (Option α) :=
  match given? environment name with
  | none => .ok none
  | some value => (parse value).map some

theorem given?_eq_some_iff {value : String} :
    given? environment name = some value ↔
      environment name = some value ∧ Text.isBlankText value = false := by
  simp [given?, Option.filter_eq_some_iff]

theorem given?_eq_none_iff :
    given? environment name = none ↔
      ∀ value, environment name = some value → Text.isBlankText value = true := by
  simp [given?, Option.filter_eq_none_iff]

variable {environment name words} {fault : String → SettingsFault}
  {parse : String → Except SettingsFault α} {value : String}

theorem spoken_of_set (given : given? environment name = some value) :
    spoken environment name parse = (parse value).map some := by
  rw [spoken, given]

theorem spoken_of_unset (given : given? environment name = none) :
    spoken environment name parse = .ok none := by
  rw [spoken, given]

/-- **A variable is read as what it tells.** -/
theorem spoken_eq_ok_iff (goesBy : GoesByWords words fault parse) {told : Option α} :
    spoken environment name parse = .ok told ↔ Tells environment name words told := by
  constructor
  · intro read
    cases given : given? environment name with
    | none =>
      rw [spoken_of_unset given] at read
      obtain rfl := Except.ok.inj read
      exact .nothing ((given?_eq_none_iff environment name).1 given)
    | some value =>
      obtain ⟨set, shown⟩ := (given?_eq_some_iff environment name).1 given
      rw [spoken_of_set given] at read
      cases parsed : parse value with
      | error cause =>
        rw [parsed] at read
        cases read
      | ok x =>
        rw [parsed] at read
        obtain rfl := Except.ok.inj read
        obtain ⟨word, listed, spelled⟩ := goesBy.ok_iff.1 parsed
        exact .thing set shown listed spelled
  · rintro (unset | ⟨set, shown, listed, spelled⟩)
    · exact spoken_of_unset ((given?_eq_none_iff environment name).2 unset)
    · rw [spoken_of_set ((given?_eq_some_iff environment name).2 ⟨set, shown⟩),
        goesBy.ok_iff.2 ⟨_, listed, spelled⟩]
      rfl

/-- **A variable that cannot be read is garbled.** -/
theorem spoken_eq_error_iff (goesBy : GoesByWords words fault parse) {cause : SettingsFault} :
    spoken environment name parse = .error cause ↔
      ∃ value, Garbled environment name words value ∧ cause = fault (wordOf value) := by
  constructor
  · intro failed
    cases given : given? environment name with
    | none =>
      rw [spoken_of_unset given] at failed
      cases failed
    | some value =>
      obtain ⟨set, shown⟩ := (given?_eq_some_iff environment name).1 given
      rw [spoken_of_set given] at failed
      cases parsed : parse value with
      | error other =>
        rw [parsed] at failed
        obtain rfl := Except.error.inj failed
        obtain ⟨unlisted, worded⟩ := goesBy.error_iff.1 parsed
        exact ⟨value, ⟨set, shown, unlisted⟩, worded⟩
      | ok x =>
        rw [parsed] at failed
        cases failed
  · rintro ⟨value, ⟨set, shown, unlisted⟩, rfl⟩
    rw [spoken_of_set ((given?_eq_some_iff environment name).2 ⟨set, shown⟩),
      goesBy.error_iff.2 ⟨unlisted, rfl⟩]
    rfl

end Variables

/-! ### The file -/

/-- The file that is used: the one that is named, else the default one if it is a regular
file. -/
def usedFile? (isFile : String → Bool) (path : Option String) : Option String :=
  path.or (if isFile defaultPath then some defaultPath else none)

section File

variable (reader : String → Except String Record) (read : TextReader)

/-- **What the file that is used tells**: nothing if there is none, and else what its text
holds, without blank marks. -/
inductive FileTells : Option String → Record → Prop
  | nothing : FileTells none ⟨none, none, none⟩
  | record {file text : String} {record : Record} (readable : read file = .ok text)
      (accepted : reader text = .ok record)
      (marked : ∀ marks, record.marks = some marks →
        ∀ mark ∈ marks, Text.isBlankText mark = false) :
      FileTells (some file) record

/-- **Why the file that is used tells nothing**: it cannot be read, or its text is not
settings, or it has a blank mark. -/
inductive FileFault : Option String → SettingsFault → Prop
  | unreadable {file : String} {cause : ReadFault} (failed : read file = .error cause) :
      FileFault (some file) (.unreadable file cause)
  | notSettings {file text message : String} (readable : read file = .ok text)
      (refused : reader text = .error message) :
      FileFault (some file) (.inFile file (.notSettings message))
  | blankMark {file text mark : String} {record : Record} {marks : List String}
      (readable : read file = .ok text) (accepted : reader text = .ok record)
      (marked : record.marks = some marks) (mem : mark ∈ marks)
      (blank : Text.isBlankText mark = true) : FileFault (some file) (.inFile file .blankMark)

variable {reader read}

/-- A mark that is blank comes from the record, and not from the defaults. -/
theorem any_isBlankText_ofRecord (record : Record) :
    (ofRecord record).marks.any Text.isBlankText = true ↔
      ∃ marks, record.marks = some marks ∧ ∃ mark ∈ marks, Text.isBlankText mark = true := by
  obtain ⟨apart, framework, marks⟩ := record
  cases marks with
  | none =>
    refine iff_of_false ?_ fun ⟨_, impossible, _⟩ => nomatch impossible
    show ¬ standard.marks.any Text.isBlankText = true
    decide
  | some marks => simp [ofRecord]

/-- No mark of a file that tells is blank, and no default mark either. -/
theorem FileTells.marks {used : Option String} {record : Record}
    (tells : FileTells reader read used record) :
    ∀ mark ∈ (ofRecord record).marks, Text.isBlankText mark = false := by
  have unmarked : ¬ (ofRecord record).marks.any Text.isBlankText = true := by
    rw [any_isBlankText_ofRecord]
    rintro ⟨marks, held, mark, mem, blank⟩
    cases tells with
    | nothing => cases held
    | record readable accepted marked =>
      rw [marked marks held mark mem] at blank
      cases blank
  intro mark mem
  rw [Bool.eq_false_iff]
  intro blank
  exact unmarked (List.any_eq_true.2 ⟨mark, mem, blank⟩)

theorem FileTells.load {file : String} {record : Record}
    (tells : FileTells reader read (some file) record) :
    load reader read file = .ok (ofRecord record) := by
  have unmarked : ¬ (ofRecord record).marks.any Text.isBlankText = true := by
    rw [List.any_eq_true]
    rintro ⟨mark, mem, blank⟩
    rw [tells.marks mark mem] at blank
    cases blank
  cases tells with
  | record readable accepted =>
    simp only [Settings.load, readable, ofText, accepted, if_neg unmarked]
    rfl

theorem FileFault.load {file : String} {fault : SettingsFault}
    (fails : FileFault reader read (some file) fault) :
    load reader read file = .error fault := by
  cases fails with
  | unreadable failed => simp only [Settings.load, failed]
  | notSettings readable refused =>
    simp only [Settings.load, readable, ofText, refused]
    rfl
  | blankMark readable accepted marked mem blank =>
    have hit : (ofRecord _).marks.any Text.isBlankText = true :=
      (any_isBlankText_ofRecord _).2 ⟨_, marked, _, mem, blank⟩
    simp only [Settings.load, readable, ofText, accepted, if_pos hit]
    rfl

/-- A file tells something, or there is a reason why it does not. -/
theorem tells_or_fault (used : Option String) :
    (∃ record, FileTells reader read used record) ∨
      ∃ fault, FileFault reader read used fault := by
  cases used with
  | none => exact .inl ⟨_, .nothing⟩
  | some file =>
    cases readable : read file with
    | error cause => exact .inr ⟨_, .unreadable readable⟩
    | ok text =>
      cases accepted : reader text with
      | error message => exact .inr ⟨_, .notSettings readable accepted⟩
      | ok record =>
        by_cases marked : (ofRecord record).marks.any Text.isBlankText = true
        · obtain ⟨marks, held, mark, mem, blank⟩ := (any_isBlankText_ofRecord record).1 marked
          exact .inr ⟨_, .blankMark readable accepted held mem blank⟩
        · refine .inl ⟨record, .record readable accepted fun marks held mark mem => ?_⟩
          rw [Bool.eq_false_iff]
          intro blank
          exact marked ((any_isBlankText_ofRecord record).2 ⟨marks, held, mark, mem, blank⟩)

variable {isFile : String → Bool} {path : Option String}

theorem ofFile_eq :
    ofFile reader read isFile path =
      match usedFile? isFile path with
      | none => .ok standard
      | some file => load reader read file := by
  cases path with
  | some file => rfl
  | none => cases default : isFile defaultPath <;> simp [ofFile, usedFile?, default]

theorem FileTells.ofFile {record : Record}
    (tells : FileTells reader read (usedFile? isFile path) record) :
    ofFile reader read isFile path = .ok (ofRecord record) := by
  rw [ofFile_eq]
  cases used : usedFile? isFile path with
  | none =>
    rw [used] at tells
    cases tells
    rfl
  | some file => exact (used ▸ tells).load

theorem FileFault.ofFile {fault : SettingsFault}
    (fails : FileFault reader read (usedFile? isFile path) fault) :
    ofFile reader read isFile path = .error fault := by
  rw [ofFile_eq]
  cases used : usedFile? isFile path with
  | none =>
    rw [used] at fails
    cases fails
  | some file => exact (used ▸ fails).load

/-- **The file is read as what it tells.** -/
theorem ofFile_eq_ok_iff {settings : Settings} :
    Settings.ofFile reader read isFile path = .ok settings ↔
      ∃ record, FileTells reader read (usedFile? isFile path) record ∧
        settings = ofRecord record := by
  constructor
  · intro loaded
    rcases tells_or_fault (usedFile? isFile path) with ⟨record, tells⟩ | ⟨fault, fails⟩
    · exact ⟨record, tells, Except.ok.inj (loaded.symm.trans tells.ofFile)⟩
    · rw [fails.ofFile] at loaded
      cases loaded
  · rintro ⟨record, tells, rfl⟩
    exact tells.ofFile

/-- **A file that cannot be read as settings is at fault.** -/
theorem ofFile_eq_error_iff {fault : SettingsFault} :
    Settings.ofFile reader read isFile path = .error fault ↔
      FileFault reader read (usedFile? isFile path) fault := by
  refine ⟨fun failed => ?_, FileFault.ofFile⟩
  rcases tells_or_fault (usedFile? isFile path) with ⟨record, tells⟩ | ⟨other, fails⟩
  · rw [tells.ofFile] at failed
    cases failed
  · obtain rfl := Except.error.inj (failed.symm.trans fails.ofFile)
    exact fails

end File

/-! ### All layers -/

theorem overrideApart_eq (environment : String → Option String) (settings : Settings) :
    overrideApart environment settings = do
      let flag ← spoken environment apartVariable (flagOfWord apartVariable)
      return { settings with apart := flag.getD settings.apart } := by
  unfold overrideApart spoken
  cases given? environment apartVariable with
  | none => rfl
  | some value => cases parsed : flagOfWord apartVariable value <;> simp only [parsed] <;> rfl

theorem overrideFramework_eq (environment : String → Option String) (settings : Settings) :
    overrideFramework environment settings = do
      let framework ← spoken environment frameworkVariable Framework.ofWord
      return { settings with framework := framework.getD settings.framework } := by
  unfold overrideFramework spoken
  cases given? environment frameworkVariable with
  | none => rfl
  | some value => cases parsed : Framework.ofWord value <;> simp only [parsed] <;> rfl

/-- **All layers, each read on its own and in turn.** -/
theorem resolve_eq (reader : String → Except String Record) (read : TextReader)
    (isFile : String → Bool) (environment : String → Option String) (path : Option String) :
    resolve reader read isFile environment path = do
      let settings ← ofFile reader read isFile path
      let flag ← spoken environment apartVariable (flagOfWord apartVariable)
      let framework ← spoken environment frameworkVariable Framework.ofWord
      return ⟨flag.getD settings.apart, framework.getD settings.framework,
        settings.marks⟩ := by
  unfold resolve override
  cases ofFile reader read isFile path with
  | error cause => rfl
  | ok settings =>
    simp only [overrideApart_eq, overrideFramework_eq]
    cases spoken environment apartVariable (flagOfWord apartVariable) with
    | error cause => rfl
    | ok flag => cases spoken environment frameworkVariable Framework.ofWord <;> rfl

section Steps

variable {ε α β : Type} {first : Except ε α} {next : α → Except ε β}

theorem bind_eq_ok_iff {b : β} :
    (do let a ← first; next a) = .ok b ↔ ∃ a, first = .ok a ∧ next a = .ok b := by
  cases first <;> simp [bind, Except.bind]

/-- Of several steps, the first one that fails is the fault. -/
theorem bind_eq_error_iff {cause : ε} :
    (do let a ← first; next a) = .error cause ↔
      first = .error cause ∨ ∃ a, first = .ok a ∧ next a = .error cause := by
  cases first <;> simp [bind, Except.bind]

end Steps

section Resolved

variable {reader : String → Except String Record} {read : TextReader} {isFile : String → Bool}
  {environment : String → Option String} {path : Option String}

/-- **There are settings if every layer tells what it says.** -/
theorem resolve_eq_ok_iff {settings : Settings} :
    resolve reader read isFile environment path = .ok settings ↔
      ∃ record flag framework, FileTells reader read (usedFile? isFile path) record ∧
        Tells environment apartVariable flagWords flag ∧
        Tells environment frameworkVariable Framework.words framework ∧
        settings = ⟨flag.getD (ofRecord record).apart,
          framework.getD (ofRecord record).framework, (ofRecord record).marks⟩ := by
  rw [resolve_eq, bind_eq_ok_iff]
  simp only [bind_eq_ok_iff, ofFile_eq_ok_iff, spoken_eq_ok_iff (goesByWords_flagOfWord _),
    spoken_eq_ok_iff Framework.goesByWords_ofWord]
  constructor
  · rintro ⟨_, ⟨record, file, rfl⟩, flag, first, framework, second, same⟩
    exact ⟨record, flag, framework, file, first, second, (Except.ok.inj same).symm⟩
  · rintro ⟨record, flag, framework, file, first, second, rfl⟩
    exact ⟨_, ⟨record, file, rfl⟩, flag, first, framework, second, rfl⟩

/-- **The fault is that of the first layer that does not tell.** -/
theorem resolve_eq_error_iff {fault : SettingsFault} :
    resolve reader read isFile environment path = .error fault ↔
      FileFault reader read (usedFile? isFile path) fault ∨
      (∃ record, FileTells reader read (usedFile? isFile path) record) ∧
        ((∃ value, Garbled environment apartVariable flagWords value ∧
          fault = .invalidBoolean (wordOf value) apartVariable) ∨
        (∃ flag, Tells environment apartVariable flagWords flag) ∧
          ∃ value, Garbled environment frameworkVariable Framework.words value ∧
            fault = .unknownFramework (wordOf value)) := by
  rw [resolve_eq, bind_eq_error_iff]
  simp only [bind_eq_error_iff, ofFile_eq_ok_iff, ofFile_eq_error_iff,
    spoken_eq_ok_iff (goesByWords_flagOfWord _),
    spoken_eq_error_iff (goesByWords_flagOfWord _),
    spoken_eq_ok_iff Framework.goesByWords_ofWord,
    spoken_eq_error_iff Framework.goesByWords_ofWord]
  constructor
  · rintro (fails | ⟨_, ⟨record, file, rfl⟩,
      garbled | ⟨flag, first, garbled | ⟨_, _, impossible⟩⟩⟩)
    · exact .inl fails
    · exact .inr ⟨⟨record, file⟩, .inl garbled⟩
    · exact .inr ⟨⟨record, file⟩, .inr ⟨⟨flag, first⟩, garbled⟩⟩
    · cases impossible
  · rintro (fails | ⟨⟨record, file⟩, garbled | ⟨⟨flag, first⟩, garbled⟩⟩)
    · exact .inl fails
    · exact .inr ⟨_, ⟨record, file, rfl⟩, .inl garbled⟩
    · exact .inr ⟨_, ⟨record, file, rfl⟩, .inr ⟨flag, first, .inl garbled⟩⟩

/-- A file tells one thing. -/
theorem FileTells.unique {used : Option String} {first second : Record}
    (one : FileTells reader read used first) (other : FileTells reader read used second) :
    first = second := by
  cases one with
  | nothing =>
    cases other
    rfl
  | record readable accepted =>
    cases other with
    | record readable' accepted' =>
      obtain rfl := Except.ok.inj (readable.symm.trans readable')
      exact Except.ok.inj (accepted.symm.trans accepted')

end Resolved

/-- **Settings by layers.**  Take any reader of settings files, any disk, any variables and
any path.

* There are settings exactly when the file that is used tells something and so do both
  variables, and then they are these: each variable goes before the file and the file before
  the default, and the marks are those of the file or the default ones.
* There is a fault exactly when one of the three does not tell, and it is that of the file if
  it is the file, else that of the flag if it is the flag, else that of the framework.
* No mark is blank, and the marks are the same whatever the variables are.
* A value parses as a flag or as a framework exactly when it spells a word for it. -/
theorem resolve_by_layers (reader : String → Except String Record) (read : TextReader)
    (isFile : String → Bool) (environment : String → Option String) (path : Option String) :
    (∀ settings, resolve reader read isFile environment path = .ok settings ↔
      ∃ record flag framework, FileTells reader read (usedFile? isFile path) record ∧
        Tells environment apartVariable flagWords flag ∧
        Tells environment frameworkVariable Framework.words framework ∧
        settings.apart = (flag.or record.apart).getD false ∧
        settings.framework = (framework.or record.framework).getD .attributed ∧
        settings.marks = record.marks.getD ["resgraph:skip="]) ∧
    (∀ fault, resolve reader read isFile environment path = .error fault ↔
      FileFault reader read (usedFile? isFile path) fault ∨
      (∃ record, FileTells reader read (usedFile? isFile path) record) ∧
        ((∃ value, Garbled environment apartVariable flagWords value ∧
          fault = .invalidBoolean (wordOf value) apartVariable) ∨
        (∃ flag, Tells environment apartVariable flagWords flag) ∧
          ∃ value, Garbled environment frameworkVariable Framework.words value ∧
            fault = .unknownFramework (wordOf value))) ∧
    (∀ settings, resolve reader read isFile environment path = .ok settings →
      (∀ mark ∈ settings.marks, Text.isBlankText mark = false) ∧
      ∀ environment' settings', resolve reader read isFile environment' path = .ok settings' →
        settings'.marks = settings.marks) ∧
    (∀ name value flag, flagOfWord name value = .ok flag ↔
      ∃ word ∈ flagWords flag, Spells value word) ∧
    ∀ value framework, Framework.ofWord value = .ok framework ↔
      ∃ word ∈ framework.words, Spells value word := by
  refine ⟨fun settings => ?_, fun fault => resolve_eq_error_iff, fun settings resolved => ?_,
    fun name value flag => (goesByWords_flagOfWord name).ok_iff,
    fun value framework => Framework.goesByWords_ofWord.ok_iff⟩
  · have layered {α : Type} (above below : Option α) (last : α) :
        (above.or below).getD last = above.getD (below.getD last) := by
      cases above <;> rfl
    simp only [resolve_eq_ok_iff, layered]
    obtain ⟨apart, framework, marks⟩ := settings
    simp only [mk.injEq]
    rfl
  · obtain ⟨record, flag, framework, file, -, -, rfl⟩ := resolve_eq_ok_iff.1 resolved
    refine ⟨file.marks, fun environment' settings' resolved' => ?_⟩
    obtain ⟨record', flag', framework', file', -, -, rfl⟩ := resolve_eq_ok_iff.1 resolved'
    rw [file'.unique file]

/-- A settings file with two marks, and nothing else but that instances are not kept apart. -/
def twoMarksReader : String → Except String Record
  | "two marks" => .ok ⟨some false, none, some ["skip=", "#"]⟩
  | _ => .error "unknown text"

/-- Variables with capitals and blanks, of which one is a no-break space. -/
def loudVariables : String → Option String
  | "RESGRAPH_ENABLE_DEFINITION_KEY" => some "\u00a0YES\t"
  | "RESGRAPH_GRAPH_FRAMEWORK" => some " "
  | _ => none

/-- The flag comes from its variable and the marks from the file.  The framework has its
default, since its variable is blank. -/
theorem loudVariables_resolved :
    resolve twoMarksReader (fun _ => .ok "two marks") (fun _ => false) loudVariables
        (some "a") =
        .ok ⟨true, .attributed, ["skip=", "#"]⟩ ∧
      ∀ mark ∈ ["skip=", "#"], Text.isBlankText mark = false := by
  obtain ⟨settles, -, marks, parses, -⟩ := resolve_by_layers twoMarksReader
    (fun _ => .ok "two marks") (fun _ => false) loudVariables (some "a")
  have file : FileTells twoMarksReader (fun _ => .ok "two marks") (usedFile? (fun _ => false)
      (some "a")) ⟨some false, none, some ["skip=", "#"]⟩ := by
    refine .record rfl rfl fun listed held mark mem => ?_
    obtain rfl := Option.some.inj held
    revert mark
    decide
  have flag : Tells loudVariables apartVariable flagWords (some true) := by
    obtain ⟨word, listed, spelled⟩ :=
      (parses apartVariable "\u00a0YES\t" true).1 (by decide +kernel)
    exact .thing rfl (by decide +kernel) listed spelled
  have framework : Tells loudVariables frameworkVariable Framework.words none := by
    refine .nothing fun value set => ?_
    obtain rfl := Option.some.inj set
    decide
  have resolved := (settles ⟨true, .attributed, ["skip=", "#"]⟩).2
    ⟨_, _, _, file, flag, framework, rfl, rfl, rfl⟩
  exact ⟨resolved, (marks _ resolved).1⟩

end Settings

end InfraScan
