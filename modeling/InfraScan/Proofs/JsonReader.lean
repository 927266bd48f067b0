import InfraScan.Proofs.JsonLexemes
import Mathlib.Data.List.Forall2

/-!
# What the reader of JSON depends on

The reader stops where a value ends.  What stands behind the value does not matter to it, and
neither do the fuel that is left and the room for further nesting, as long as there is enough
of both.

* `Json.nesting` — how deep a value is
* `Json.ValueAt`, `Json.ItemsAt`, `Json.FieldsAt` — what the front of a text can be
* `Json.readValue_eq_some_iff`, `Json.readItems_eq_some_iff`, `Json.readFields_eq_some_iff` —
  one step of the reader
* `Json.nesting_le_of_readValue` — what is read is not nested deeper than there is room
* `Json.Settled`, `Json.readValue_append` — more text, more fuel and other room do not change
  what is read
* `Json.parse?_arrayText` — texts of values with commas between them are the text of an array

### What is load-bearing

The readers of values, items and members call one another and are fuelled.  A step of each is
laid open once, as an inductive with a clause for every way in which it succeeds; what a whole
reading keeps is an induction on the fuel of the three together, one clause at a time.
-/

namespace InfraScan.Json

/-! ### Nesting -/

mutual

/-- **How deep a value is**: the number of arrays and objects inside one another, itself
included. -/
def nesting : Json → Nat
  | .arr items => nestingItems items + 1
  | .obj fields => nestingFields fields + 1
  | _ => 0

/-- The nesting of the deepest item. -/
def nestingItems : List Json → Nat
  | [] => 0
  | item :: rest => max (nesting item) (nestingItems rest)

/-- The nesting of the deepest member. -/
def nestingFields : List (String × Json) → Nat
  | [] => 0
  | (_, value) :: rest => max (nesting value) (nestingFields rest)

end

/-! ### Steps of the reader -/

/-- **What a value can be**, by the character at its front. -/
inductive ValueAt (fuel depth : Nat) : List Char → Json → List Char → Prop
  | string {text rest chars : List Char} (read : readString fuel text = some (chars, rest)) :
      ValueAt fuel depth ('"' :: text) (.str (String.ofList chars)) rest
  | noItems {text rest : List Char} (room : 1 < depth)
      (closed : skipSpace text = ']' :: rest) :
      ValueAt fuel depth ('[' :: text) (.arr []) rest
  | items {text rest : List Char} {items : List Json} (room : 1 < depth)
      (read : readItems fuel (depth - 1) text = some (items, rest)) :
      ValueAt fuel depth ('[' :: text) (.arr items) rest
  | noFields {text rest : List Char} (room : 1 < depth)
      (closed : skipSpace text = '\x7d' :: rest) :
      ValueAt fuel depth ('\x7b' :: text) (.obj []) rest
  | fields {text rest : List Char} {fields : List (String × Json)} (room : 1 < depth)
      (read : readFields fuel (depth - 1) text = some (fields, rest)) :
      ValueAt fuel depth ('\x7b' :: text) (.obj fields) rest
  | yes {text rest : List Char} (read : expect? "rue" text = some rest) :
      ValueAt fuel depth ('t' :: text) (.bool true) rest
  | no {text rest : List Char} (read : expect? "alse" text = some rest) :
      ValueAt fuel depth ('f' :: text) (.bool false) rest
  | null {text rest : List Char} (read : expect? "ull" text = some rest) :
      ValueAt fuel depth ('n' :: text) .null rest
  | number {text rest : List Char} {n : Number} (read : Number.read text = some (n, rest)) :
      ValueAt fuel depth text (.num n) rest

theorem ValueAt.ne_nil {fuel depth : Nat} {text rest : List Char} {value : Json}
    (step : ValueAt fuel depth text value rest) : text ≠ [] := by
  cases step with
  | number read =>
    obtain ⟨c, more, rfl, -⟩ := Number.head_of_read read
    exact List.cons_ne_nil c more
  | _ => exact List.cons_ne_nil _ _

/-- No value begins with a closing bracket. -/
theorem readValue_of_bracket {fuel depth : Nat} {text rest : List Char}
    (front : skipSpace text = ']' :: rest) : readValue fuel depth text = none := by
  cases fuel with
  | zero => rfl
  | succ fuel =>
    rw [readValue, front]
    rfl

theorem readItems_of_bracket {fuel depth : Nat} {text rest : List Char}
    (front : skipSpace text = ']' :: rest) : readItems fuel depth text = none := by
  cases fuel with
  | zero => rfl
  | succ fuel => rw [readItems, readValue_of_bracket front]

theorem readFields_of_brace {fuel depth : Nat} {text rest : List Char}
    (front : skipSpace text = '\x7d' :: rest) : readFields fuel depth text = none := by
  cases fuel with
  | zero => rfl
  | succ fuel =>
    rw [readFields, front]
    rfl

/-- A reading under a map is a reading. -/
theorem map_read_eq_some_iff {α β : Type} {f : α → β} {read : Option (α × List Char)} {b : β}
    {rest : List Char} :
    (read.map fun (a, rest) => (f a, rest)) = some (b, rest) ↔
      ∃ a, read = some (a, rest) ∧ f a = b := by
  cases read with
  | none => simp
  | some found => simp [Prod.ext_iff, and_comm, eq_comm]

/-- A number begins like no other value. -/
theorem Number.front_of_read {text rest : List Char} {n : Number}
    (read : Number.read text = some (n, rest)) : ∃ c more, text = c :: more ∧
      c ≠ '"' ∧ c ≠ '[' ∧ c ≠ '\x7b' ∧ c ≠ 't' ∧ c ≠ 'f' ∧ c ≠ 'n' := by
  obtain ⟨c, more, rfl, first⟩ := Number.head_of_read read
  refine ⟨c, more, rfl, ?_⟩
  rcases first with rfl | digit
  · decide
  · refine ⟨?_, ?_, ?_, ?_, ?_, ?_⟩ <;> rintro rfl <;> exact absurd digit (by decide)

theorem valueAt_of_readValue {fuel depth : Nat} {text rest : List Char} {value : Json}
    (read : readValue (fuel + 1) depth text = some (value, rest)) :
    ValueAt fuel depth (skipSpace text) value rest := by
  rw [readValue] at read
  generalize skipSpace text = front at read ⊢
  split at read
  · obtain ⟨chars, inside, rfl⟩ :=
      (map_read_eq_some_iff (f := fun chars => str (String.ofList chars))).1 read
    exact .string inside
  · split at read
    · cases read
    · rename_i room
      split at read
      · rename_i closed
        obtain ⟨rfl, rfl⟩ := Prod.mk.inj (Option.some.inj read)
        exact .noItems (Nat.lt_of_not_le room) closed
      · obtain ⟨items, inside, rfl⟩ := map_read_eq_some_iff.1 read
        exact .items (Nat.lt_of_not_le room) inside
  · split at read
    · cases read
    · rename_i room
      split at read
      · rename_i closed
        obtain ⟨rfl, rfl⟩ := Prod.mk.inj (Option.some.inj read)
        exact .noFields (Nat.lt_of_not_le room) closed
      · obtain ⟨fields, inside, rfl⟩ := map_read_eq_some_iff.1 read
        exact .fields (Nat.lt_of_not_le room) inside
  · obtain ⟨last, inside, same⟩ := Option.map_eq_some_iff.1 read
    obtain ⟨rfl, rfl⟩ := Prod.mk.inj same
    exact .yes inside
  · obtain ⟨last, inside, same⟩ := Option.map_eq_some_iff.1 read
    obtain ⟨rfl, rfl⟩ := Prod.mk.inj same
    exact .no inside
  · obtain ⟨last, inside, same⟩ := Option.map_eq_some_iff.1 read
    obtain ⟨rfl, rfl⟩ := Prod.mk.inj same
    exact .null inside
  · obtain ⟨n, inside, rfl⟩ := map_read_eq_some_iff.1 read
    exact .number inside

theorem ValueAt.readValue {fuel depth : Nat} {text rest : List Char} {value : Json}
    (step : ValueAt fuel depth (skipSpace text) value rest) :
    readValue (fuel + 1) depth text = some (value, rest) := by
  rw [Json.readValue]
  generalize skipSpace text = front at step ⊢
  cases step with
  | string read => simp [read]
  | noItems room closed => simp [Nat.not_le.2 room, closed]
  | items room read =>
    simp only [Nat.not_le.2 room, if_false, read]
    split
    · rename_i front
      rw [readItems_of_bracket front] at read
      cases read
    · rfl
  | noFields room closed => simp [Nat.not_le.2 room, closed]
  | fields room read =>
    simp only [Nat.not_le.2 room, if_false, read]
    split
    · rename_i front
      rw [readFields_of_brace front] at read
      cases read
    · rfl
  | yes read => simp [read]
  | no read => simp [read]
  | null read => simp [read]
  | number read =>
    obtain ⟨c, more, rfl, apart⟩ := Number.front_of_read read
    simp [apart, read]

/-- **A step of the reader for a value.** -/
theorem readValue_eq_some_iff {fuel depth : Nat} {text rest : List Char} {value : Json} :
    readValue (fuel + 1) depth text = some (value, rest) ↔
      ValueAt fuel depth (skipSpace text) value rest :=
  ⟨valueAt_of_readValue, ValueAt.readValue⟩

/-- **What one or more items of an array can be.** -/
inductive ItemsAt (fuel depth : Nat) (text : List Char) : List Json → List Char → Prop
  | last {item : Json} {behind rest : List Char}
      (read : readValue fuel depth text = some (item, behind))
      (closed : skipSpace behind = ']' :: rest) : ItemsAt fuel depth text [item] rest
  | more {item : Json} {items : List Json} {behind after rest : List Char}
      (read : readValue fuel depth text = some (item, behind))
      (comma : skipSpace behind = ',' :: after)
      (others : readItems fuel depth after = some (items, rest)) :
      ItemsAt fuel depth text (item :: items) rest

/-- **A step of the reader for items.** -/
theorem readItems_eq_some_iff {fuel depth : Nat} {text rest : List Char} {items : List Json} :
    readItems (fuel + 1) depth text = some (items, rest) ↔
      ItemsAt fuel depth text items rest := by
  rw [readItems]
  constructor
  · intro read
    split at read
    · cases read
    · rename_i item behind first
      split at read
      · rename_i comma
        obtain ⟨others, later, rfl⟩ := map_read_eq_some_iff.1 read
        exact .more first comma later
      · rename_i closed
        obtain ⟨rfl, rfl⟩ := Prod.mk.inj (Option.some.inj read)
        exact .last first closed
      · cases read
  · intro step
    cases step with
    | last read closed => simp [read, closed]
    | more read comma others => simp [read, comma, others]

/-- **What one member of an object can be**: a name, a colon and a value. -/
inductive FieldAt (fuel depth : Nat) (text : List Char) : String × Json → List Char → Prop
  | mk {opened name behind after rest : List Char} {value : Json}
      (quote : skipSpace text = '"' :: opened)
      (named : readString fuel opened = some (name, behind))
      (colon : skipSpace behind = ':' :: after)
      (read : readValue fuel depth after = some (value, rest)) :
      FieldAt fuel depth text (String.ofList name, value) rest

/-- **What one or more members of an object can be.** -/
inductive FieldsAt (fuel depth : Nat) (text : List Char) :
    List (String × Json) → List Char → Prop
  | last {field : String × Json} {behind rest : List Char}
      (first : FieldAt fuel depth text field behind)
      (closed : skipSpace behind = '\x7d' :: rest) :
      FieldsAt fuel depth text [field] rest
  | more {field : String × Json} {fields : List (String × Json)}
      {behind after rest : List Char}
      (first : FieldAt fuel depth text field behind) (comma : skipSpace behind = ',' :: after)
      (others : readFields fuel depth after = some (fields, rest)) :
      FieldsAt fuel depth text (field :: fields) rest

/-- **A step of the reader for members.** -/
theorem readFields_eq_some_iff {fuel depth : Nat} {text rest : List Char}
    {fields : List (String × Json)} :
    readFields (fuel + 1) depth text = some (fields, rest) ↔
      FieldsAt fuel depth text fields rest := by
  rw [readFields]
  constructor
  · intro read
    split at read
    · rename_i quote
      split at read
      · cases read
      · rename_i named
        split at read
        · rename_i colon
          split at read
          · cases read
          · rename_i inside
            have first := FieldAt.mk quote named colon inside
            split at read
            · rename_i comma
              obtain ⟨others, later, rfl⟩ := map_read_eq_some_iff.1 read
              exact .more first comma later
            · rename_i closed
              obtain ⟨rfl, rfl⟩ := Prod.mk.inj (Option.some.inj read)
              exact .last first closed
            · cases read
        · cases read
    · cases read
  · intro step
    cases step with
    | last first closed =>
      obtain ⟨quote, named, colon, read⟩ := first
      simp [quote, named, colon, read, closed]
    | more first comma others =>
      obtain ⟨quote, named, colon, read⟩ := first
      simp [quote, named, colon, read, comma, others]

/-! ### Depth -/

/-- The depth of what is read, for values, items and members together: the three readers call
one another, and the induction is on the fuel of all of them. -/
theorem nesting_le_of_read (fuel : Nat) :
    (∀ depth text value rest, readValue fuel depth text = some (value, rest) →
      value.nesting ≤ depth - 1) ∧
    (∀ depth text items rest, readItems fuel depth text = some (items, rest) →
      nestingItems items ≤ depth - 1) ∧
    ∀ depth text fields rest, readFields fuel depth text = some (fields, rest) →
      nestingFields fields ≤ depth - 1 := by
  induction fuel with
  | zero =>
    refine ⟨fun depth text value rest read => ?_, fun depth text items rest read => ?_,
      fun depth text fields rest read => ?_⟩ <;> cases read
  | succ fuel ih =>
    obtain ⟨ofValue, ofItems, ofFields⟩ := ih
    refine ⟨fun depth text value rest read => ?_, fun depth text items rest read => ?_,
      fun depth text fields rest read => ?_⟩
    · rw [readValue_eq_some_iff] at read
      generalize skipSpace text = front at read
      cases read with
      | noItems room => exact Nat.le_sub_one_of_lt room
      | items room read =>
        have inside := ofItems _ _ _ _ read
        rw [nesting]
        omega
      | noFields room => exact Nat.le_sub_one_of_lt room
      | fields room read =>
        have inside := ofFields _ _ _ _ read
        rw [nesting]
        omega
      | _ => exact Nat.zero_le _
    · cases readItems_eq_some_iff.1 read with
      | last first => exact Nat.max_le.2 ⟨ofValue _ _ _ _ first, Nat.zero_le _⟩
      | more first _ others =>
        exact Nat.max_le.2 ⟨ofValue _ _ _ _ first, ofItems _ _ _ _ others⟩
    · cases readFields_eq_some_iff.1 read with
      | last first =>
        obtain ⟨-, -, -, read⟩ := first
        exact Nat.max_le.2 ⟨ofValue _ _ _ _ read, Nat.zero_le _⟩
      | more first _ others =>
        obtain ⟨-, -, -, read⟩ := first
        exact Nat.max_le.2 ⟨ofValue _ _ _ _ read, ofFields _ _ _ _ others⟩

/-- **What is read is not nested deeper than there is room.** -/
theorem nesting_le_of_readValue {fuel depth : Nat} {text rest : List Char} {value : Json}
    (read : readValue fuel depth text = some (value, rest)) : value.nesting ≤ depth - 1 :=
  (nesting_le_of_read fuel).1 _ _ _ _ read

/-! ### More text, more fuel, other room -/

/-- **More text behind, more fuel and other room leave alone what is read with some fuel**, if
no number runs on and the room is enough. -/
structure Settled (back : List Char) (fuel : Nat) : Prop where
  value {depth more room : Nat} {text rest : List Char} {value : Json}
    (read : readValue fuel depth text = some (value, rest)) (enough : fuel ≤ more)
    (deep : value.nesting < room) :
    readValue more room (text ++ back) = some (value, rest ++ back)
  items {depth more room : Nat} {text rest : List Char} {items : List Json}
    (read : readItems fuel depth text = some (items, rest)) (enough : fuel ≤ more)
    (deep : nestingItems items < room) :
    readItems more room (text ++ back) = some (items, rest ++ back)
  fields {depth more room : Nat} {text rest : List Char} {fields : List (String × Json)}
    (read : readFields fuel depth text = some (fields, rest)) (enough : fuel ≤ more)
    (deep : nestingFields fields < room) :
    readFields more room (text ++ back) = some (fields, rest ++ back)

section Steps

variable {back text rest : List Char} {fuel more depth room : Nat}
  (settled : Settled back fuel) (enough : fuel ≤ more)

include settled enough

theorem ValueAt.append (ends : EndsNumber back) {value : Json}
    (step : ValueAt fuel depth text value rest) (deep : value.nesting < room) :
    ValueAt more room (text ++ back) value (rest ++ back) := by
  cases step with
  | string read => exact .string (readString_append read enough back)
  | noItems _ closed => exact .noItems deep (skipSpace_append closed back)
  | items _ read =>
    rw [nesting] at deep
    exact .items (by omega) (settled.items read enough (by omega))
  | noFields _ closed => exact .noFields deep (skipSpace_append closed back)
  | fields _ read =>
    rw [nesting] at deep
    exact .fields (by omega) (settled.fields read enough (by omega))
  | yes read => exact .yes (expect?_append read back)
  | no read => exact .no (expect?_append read back)
  | null read => exact .null (expect?_append read back)
  | number read =>
    refine .number ?_
    rw [Number.read_append ends, read]
    rfl

theorem ItemsAt.append {items : List Json} (step : ItemsAt fuel depth text items rest)
    (deep : nestingItems items < room) :
    ItemsAt more room (text ++ back) items (rest ++ back) := by
  cases step with
  | last read closed =>
    exact .last (settled.value read enough (Nat.max_lt.1 deep).1)
      (skipSpace_append closed back)
  | more read comma others =>
    exact .more (settled.value read enough (Nat.max_lt.1 deep).1)
      (skipSpace_append comma back)
      (settled.items others enough (Nat.max_lt.1 deep).2)

theorem FieldAt.append {field : String × Json} (step : FieldAt fuel depth text field rest)
    (deep : field.2.nesting < room) :
    FieldAt more room (text ++ back) field (rest ++ back) := by
  obtain ⟨quote, named, colon, read⟩ := step
  exact .mk (skipSpace_append quote back) (readString_append named enough back)
    (skipSpace_append colon back) (settled.value read enough deep)

theorem FieldsAt.append {fields : List (String × Json)}
    (step : FieldsAt fuel depth text fields rest) (deep : nestingFields fields < room) :
    FieldsAt more room (text ++ back) fields (rest ++ back) := by
  cases step with
  | last first closed =>
    exact .last (first.append settled enough (Nat.max_lt.1 deep).1)
      (skipSpace_append closed back)
  | more first comma others =>
    exact .more (first.append settled enough (Nat.max_lt.1 deep).1)
      (skipSpace_append comma back)
      (settled.fields others enough (Nat.max_lt.1 deep).2)

end Steps

/-- **Whatever the fuel, what is read is settled.**  The induction is on the fuel of the three
readers together. -/
theorem settled_of_endsNumber {back : List Char} (ends : EndsNumber back) (fuel : Nat) :
    Settled back fuel := by
  induction fuel with
  | zero => constructor <;> intro _ _ _ _ _ _ read <;> cases read
  | succ fuel ih =>
    constructor <;> intro depth more room text rest result read enough deep <;>
      obtain ⟨more, rfl⟩ := Nat.exists_eq_add_of_le' (Nat.one_le_of_lt enough) <;>
      have enough := Nat.le_of_succ_le_succ enough
    · rw [readValue_eq_some_iff] at read ⊢
      obtain ⟨c, begun, front⟩ := List.exists_cons_of_ne_nil read.ne_nil
      rw [skipSpace_append front, ← front]
      exact read.append ih enough ends deep
    · rw [readItems_eq_some_iff] at read ⊢
      exact read.append ih enough deep
    · rw [readFields_eq_some_iff] at read ⊢
      exact read.append ih enough deep

/-- **What stands behind a value does not matter to it**, nor do more fuel and other room, if
the value does not run on and the room is enough. -/
theorem readValue_append {fuel depth more room : Nat} {text rest back : List Char}
    {value : Json} (read : readValue fuel depth text = some (value, rest))
    (ends : EndsNumber back) (enough : fuel ≤ more) (deep : value.nesting < room) :
    readValue more room (text ++ back) = some (value, rest ++ back) :=
  (settled_of_endsNumber ends fuel).value read enough deep

/-! ### Arrays -/

/-- The text of an array, from the texts of its items. -/
def arrayText (texts : List String) : String := "[" ++ ",".intercalate texts ++ "]"

/-- A value at the front of a text that has been read to its end, but for blanks. -/
theorem parse?_eq_some_iff {text : String} {value : Json} :
    parse? text = some value ↔
      ∃ rest, readValue (2 * text.toList.length + 2) maxDepth text.toList =
        some (value, rest) ∧ skipSpace rest = [] := by
  unfold parse?
  constructor
  · intro parsed
    split at parsed
    · rename_i front rest read
      split at parsed
      · rename_i finished
        obtain rfl := Option.some.inj parsed
        exact ⟨rest, read, by simpa [isFinished] using finished⟩
      · cases parsed
    · cases parsed
  · rintro ⟨rest, read, finished⟩
    have front : parseFront? text = some (value, rest) := read
    simp [front, isFinished, finished]

/-- No text writes a value that is nested deeper. -/
theorem nesting_lt_of_parse? {text : String} {value : Json}
    (parsed : parse? text = some value) :
    value.nesting < maxDepth := by
  obtain ⟨rest, read, -⟩ := parse?_eq_some_iff.1 parsed
  exact Nat.lt_succ_of_le (nesting_le_of_readValue read)

/-- **Items that are read one by one are read in a row**, with commas between them and a
bracket behind the last. -/
theorem readItems_intercalate {parts : List (List Char)} {values : List Json}
    {fuel room : Nat}
    (each : List.Forall₂ (fun part value => ∃ rest,
      readValue (2 * part.length + 2) maxDepth part = some (value, rest) ∧
        skipSpace rest = []) parts values)
    (present : parts ≠ []) (enough : 2 * ([','].intercalate parts).length + 3 ≤ fuel)
    (deep : nestingItems values < room) (back : List Char) :
    readItems fuel room ([','].intercalate parts ++ ']' :: back) = some (values, back) := by
  induction each generalizing fuel with
  | nil => exact absurd rfl present
  | @cons part value parts values first others ih =>
    obtain ⟨rest, read, blank⟩ := first
    obtain ⟨fuel, rfl⟩ := Nat.exists_eq_add_of_le' (Nat.one_le_of_lt enough)
    rw [readItems_eq_some_iff]
    obtain ⟨shallow, deep⟩ := Nat.max_lt.1 deep
    cases others with
    | nil =>
      rw [List.intercalate_singleton] at enough ⊢
      have inside : readValue fuel room (part ++ ']' :: back) =
          some (value, rest ++ ']' :: back) :=
        readValue_append read (endsNumber_cons.2 (by decide)) (by omega) shallow
      exact .last inside (skipSpace_append_mark blank rfl back)
    | @cons next value' parts values second others =>
      rw [List.intercalate_cons_cons, List.append_assoc, List.append_assoc,
        List.singleton_append]
      simp only [List.intercalate_cons_cons, List.length_append,
        List.length_singleton] at enough
      have later : readItems fuel room ([','].intercalate (next :: parts) ++ ']' :: back) =
          some (value' :: values, back) :=
        ih (List.cons_ne_nil next parts) (by omega) deep
      generalize [','].intercalate (next :: parts) ++ ']' :: back = further at later ⊢
      have inside : readValue fuel room (part ++ ',' :: further) =
          some (value, rest ++ ',' :: further) :=
        readValue_append read (endsNumber_cons.2 (by decide)) (by omega) shallow
      exact .more inside (skipSpace_append_mark blank rfl further) later

/-- **Texts of values make the text of their array**, if the array is not nested too deep. -/
theorem parse?_arrayText {texts : List String} {values : List Json}
    (each : List.Forall₂ (fun text value => parse? text = some value) texts values)
    (deep : (Json.arr values).nesting < maxDepth) :
    parse? (arrayText texts) = some (.arr values) := by
  have letters : (arrayText texts).toList =
      '[' :: ([','].intercalate (texts.map String.toList) ++ [']']) := by
    simp [arrayText, String.toList_intercalate]
  rw [parse?_eq_some_iff, letters]
  refine ⟨[], readValue_eq_some_iff.2 ?_, rfl⟩
  by_cases present : texts = []
  · subst present
    cases each
    exact .noItems (by decide) rfl
  · have parts : List.Forall₂ (fun part value => ∃ rest,
          readValue (2 * part.length + 2) maxDepth part = some (value, rest) ∧
            skipSpace rest = [])
        (texts.map String.toList) values :=
      List.forall₂_map_left_iff.2 (each.imp fun text value read => parse?_eq_some_iff.1 read)
    refine .items (by decide) (readItems_intercalate parts (by simpa using present) ?_ ?_ [])
    · simp only [List.length_cons, List.length_append, List.length_nil]
      omega
    · rw [nesting] at deep
      omega

end InfraScan.Json
