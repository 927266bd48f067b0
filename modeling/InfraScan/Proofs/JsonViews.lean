import InfraScan.Json.Basic
import Mathlib.Data.List.Basic

/-!
# Views of JSON values

A view of a value succeeds on the values of one shape only, so that a view that has succeeded
tells what the value is.

* `Json.str?_eq_some_iff`, `Json.nat?_eq_some_iff`, `Json.items?_eq_some_iff`,
  `Json.fields?_eq_some_iff` — the shapes
* `Json.Leads` — the value at the end of a path of members
-/

namespace InfraScan.Json

theorem str?_eq_some_iff {value : Json} {text : String} :
    value.str? = some text ↔ value = .str text := by
  cases value <;> simp [str?]

theorem nat?_eq_some_iff {value : Json} {n : Nat} :
    value.nat? = some n ↔ value = .ofNat n ∧ n < UInt64.size := by
  constructor
  · intro read
    unfold nat? at read
    split at read
    · split at read
      · rename_i fits
        obtain rfl := Option.some.inj read
        exact ⟨rfl, fits⟩
      · cases read
    · cases read
  · rintro ⟨rfl, fits⟩
    exact nat?_ofNat fits

theorem items?_eq_some_iff {value : Json} {items : List Json} :
    value.items? = some items ↔ value = .arr items := by
  cases value <;> simp [items?]

theorem fields?_eq_some_iff {value : Json} {fields : List (String × Json)} :
    value.fields? = some fields ↔ value = .obj fields := by
  cases value <;> simp [fields?]

/-- **The value at the end of a path of members.**  Every member on the way is one of an
object. -/
inductive Leads : Json → List String → Json → Prop where
  | here (value : Json) : Leads value [] value
  | member {fields : List (String × Json)} {name : String} {inner found : Json}
      {rest : List String}
      (held : OrderedMap.look name fields = some inner) (further : Leads inner rest found) :
      Leads (.obj fields) (name :: rest) found

/-- A path that leads somewhere begins with a member. -/
theorem leads_cons_iff {value found : Json} {name : String} {rest : List String} :
    value.Leads (name :: rest) found ↔
      ∃ inner, value.get? name = some inner ∧ inner.Leads rest found := by
  constructor
  · intro leads
    cases leads with
    | member held further => exact ⟨_, held, further⟩
  · rintro ⟨inner, held, further⟩
    obtain ⟨fields, shape, held⟩ := Option.bind_eq_some_iff.1 held
    obtain rfl := fields?_eq_some_iff.1 shape
    exact .member held further

/-- A path of one member leads to that member. -/
theorem leads_singleton_iff {value found : Json} {name : String} :
    value.Leads [name] found ↔ value.get? name = some found := by
  rw [leads_cons_iff]
  constructor
  · rintro ⟨inner, held, further⟩
    cases further
    exact held
  · intro held
    exact ⟨found, held, .here found⟩

end InfraScan.Json
