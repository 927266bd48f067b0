import InfraScan.Proofs.Framework

/-!
# Attributes that are null

A raw attribute can be null, and is then an attribute like any other in the map of its vertex.
A graph of attribute maps gives it to those who ask for it by its name.  A graph of columns
needs null for another purpose: its column of types holds null where a vertex has no type,
which makes the type absent.  It takes null for absent in every attribute, though, also in
those that stand in no column.

* `Graph.attribute?_attributed`, `Graph.attribute?_tabular` — one attribute on either
  framework
* `attribute_access_apart_from_null` — access by name agrees for all attributes but those
* `nullNote_not_interchangeable` — and does not agree for those

### What is load-bearing

The two columns hold what the synced map holds, as far as it is not null
(`Graph.Shows.reads`).  So what a graph of columns gives for any name is told by the map: the
value there, unless it is null.
-/

namespace InfraScan

namespace Json

/-- The value, unless it is null. -/
def present? (value : Json) : Option Json := if value.isNull then none else some value

theorem present?_null : null.present? = none := rfl

theorem present?_eq_self {value : Json} (present : value ≠ .null) :
    value.present? = some value :=
  if_neg (mt isNull_iff.1 present)

theorem bind_present? (value : Option Json) :
    value.bind present? = value.filter fun json => !json.isNull := by
  cases value with
  | none => rfl
  | some json => cases null : json.isNull <;> simp [present?, Option.filter_some, null]

end Json

namespace Graph

variable {vertices : List Vertex} {position : Nat} {vertex : Vertex}

/-- **A graph of attribute maps gives every attribute** that is in the map. -/
theorem attribute?_attributed
    (shown : (ofVertices .attributed vertices).Shows position vertex) (name : String) :
    (ofVertices .attributed vertices).attribute? position name = vertex.synced.get? name := by
  have whole := shown.attributes
  rw [ofVertices_attributed] at whole ⊢
  show ((AttributedGraph.ofVertices vertices).attributes? position).bind (·.get? name) = _
  rw [Graph.attributes?] at whole
  rw [whole, Option.bind_some]

/-- **A graph of columns gives every attribute** that is in the map, unless it is null. -/
theorem attribute?_tabular
    (shown : (ofVertices .tabular vertices).Shows position vertex) (name : String) :
    (ofVertices .tabular vertices).attribute? position name =
      (vertex.synced.get? name).bind Json.present? := by
  rw [← shown.reads Json.present? Json.present?_null, ofVertices_tabular, attribute?,
    TabularGraph.attribute?, bind_filter_isNull Json.present?_null, Json.bind_present?]

end Graph

/-- **Access to attributes agrees but for those that are null.**  Whatever vertices are
loaded, both frameworks hand out the same positions, and show the same map of attributes, the
same kind and the same type at each of them.  Of each name, the following is true.

* A graph of attribute maps gives nothing exactly when the name is not in the map.
* A graph of columns gives nothing exactly when the name is not in the map or stands for null.
* Unless the name stands for null, both give the same, and the same with any default.
* If it does, the one gives null, and the other nothing, or the default. -/
theorem attribute_access_apart_from_null (vertices : List Vertex)
    (fits : vertices.length < UInt32.size - 1) :
    let attributed := Graph.ofVertices .attributed vertices
    let tabular := Graph.ofVertices .tabular vertices
    attributed.vertices = tabular.vertices ∧
    ∀ position ∈ attributed.vertices, ∃ attributes,
      attributed.attributes? position = some attributes ∧
      tabular.attributes? position = some attributes ∧
      attributed.blockType? position = tabular.blockType? position ∧
      attributed.resourceType? position = tabular.resourceType? position ∧
      ∀ name,
        (attributed.attribute? position name = none ↔ name ∉ attributes.keys) ∧
        (tabular.attribute? position name = none ↔
          name ∉ attributes.keys ∨ attributes.get? name = some .null) ∧
        (attributes.get? name ≠ some .null →
          attributed.attribute? position name = tabular.attribute? position name ∧
          ∀ default, attributed.attributeOr position name default =
            tabular.attributeOr position name default) ∧
        (attributes.get? name = some .null →
          attributed.attribute? position name = some .null ∧
          tabular.attribute? position name = none ∧
          ∀ default, attributed.attributeOr position name default = .null ∧
            tabular.attributeOr position name default = default) := by
  intro attributed tabular
  have alike : attributed.ShowAlike tabular :=
    Graph.showAlike_ofVertices .attributed .tabular fits
  refine ⟨alike.vertices, fun position handedOut => ?_⟩
  obtain ⟨vertex, left, right⟩ := alike.shown position handedOut
  refine ⟨vertex.synced, left.attributes, right.attributes, ?_, ?_, fun name => ?_⟩
  · rw [left.blockType?, right.blockType?]
  · rw [left.resourceType?, right.resourceType?]
  · have given : attributed.attribute? position name = vertex.synced.get? name :=
      Graph.attribute?_attributed left name
    have freed : tabular.attribute? position name =
        (vertex.synced.get? name).bind Json.present? :=
      Graph.attribute?_tabular right name
    unfold Graph.attributeOr
    rw [given, freed, ← OrderedMap.get?_eq_none_iff]
    cases held : vertex.synced.get? name with
    | none => simp
    | some value =>
      by_cases null : value = .null
      · subst null
        simp [Json.present?_null]
      · simp [Json.present?_eq_self null, null]

/-- A vertex with a note that is null. -/
def nullNote : Vertex := ⟨"web", "resource", none, OrderedMap.ofList [("note", .null)]⟩

/-- The note is in the map that both frameworks show, but only one of them gives it by its
name. -/
theorem nullNote_access :
    [nullNote].length < UInt32.size - 1 ∧
      let attributed := Graph.ofVertices .attributed [nullNote]
      let tabular := Graph.ofVertices .tabular [nullNote]
      attributed.attribute? 0 "note" = some .null ∧ tabular.attribute? 0 "note" = none ∧
        attributed.attributeOr 0 "note" (.bool true) = .null ∧
        tabular.attributeOr 0 "note" (.bool true) = .bool true := by
  have fits : [nullNote].length < UInt32.size - 1 := by decide
  refine ⟨fits, ?_⟩
  have handedOut : 0 ∈ (Graph.ofVertices .attributed [nullNote]).vertices := by
    rw [Graph.vertices_ofVertices]
    decide
  obtain ⟨attributes, whole, -, -, -, named⟩ :=
    (attribute_access_apart_from_null [nullNote] fits).2 0 handedOut
  obtain rfl : nullNote.synced = attributes := Option.some.inj whole
  obtain ⟨given, absent, default⟩ := (named "note").2.2.2 rfl
  exact ⟨given, absent, default (.bool true)⟩

/-- **Access to attributes is not interchangeable**: the two frameworks disagree about the
note, and one of them gives nothing for a name that is in the map. -/
theorem nullNote_not_interchangeable :
    ¬ ∀ vertices : List Vertex, vertices.length < UInt32.size - 1 →
      ∀ position ∈ List.range vertices.length, ∀ name default,
        let attributed := Graph.ofVertices .attributed vertices
        let tabular := Graph.ofVertices .tabular vertices
        attributed.attribute? position name = tabular.attribute? position name ∧
        attributed.attributeOr position name default =
          tabular.attributeOr position name default ∧
        ∀ attributes, tabular.attributes? position = some attributes →
          (tabular.attribute? position name = none ↔ name ∉ attributes.keys) := by
  intro interchangeable
  have same := (interchangeable [nullNote] (by decide) 0 (by decide) "note" .null).1
  have given : (Graph.ofVertices .attributed [nullNote]).attribute? 0 "note" = some .null :=
    rfl
  have absent : (Graph.ofVertices .tabular [nullNote]).attribute? 0 "note" = none := rfl
  rw [given, absent] at same
  cases same

end InfraScan
