import InfraScan.Proofs.ContainerImages

/-!
# The names of resources

An image belongs to a resource, and tells which one by an id: the path of the file and the
name of the resource.  A resource goes by its own name, or else by the one in its metadata,
and either can be missing, be no text, or be empty.  What is read is the first of the two that
is a text, and only then is it asked whether the text is empty.

* `PodSpec.NamesAt`, `PodSpec.GoesBy` — a name that can be used, and the name of a resource
* `PodSpec.goesBy_iff` — every resource goes by one name
* `PodSpec.Shadows` — an empty name in front of one that can be used
* `resource_names_apart_from_shadowed` — the ids of resources but for those
* `shadowedPod_nameless` — and for one of those

### What is load-bearing

To take the first of two texts and to drop the empty ones can be done in either order, unless
the first text is empty and the second one is not (`PodSpec.filter_or_filter`).  That is the
only case in which a name is lost.
-/

namespace InfraScan

namespace PodSpec

variable {attributes : Attributes} {first name : String} {rest : List String}

/-! ### The name that a resource goes by -/

/-- **A name that can be used**, at a path into an attribute map: a text that is not empty. -/
def NamesAt (attributes : Attributes) (path : List String) (name : String) : Prop :=
  (Json.ofMap attributes).Leads path (.str name) ∧ name ≠ ""

/-- **The name that a resource goes by.**  The name in the metadata counts if the resource has
no name of its own that can be used. -/
inductive GoesBy (attributes : Attributes) : String → Prop where
  | own {name : String} (usable : NamesAt attributes ["name"] name) : GoesBy attributes name
  | inMetadata {name : String} (noOwn : ∀ other, ¬ NamesAt attributes ["name"] other)
      (usable : NamesAt attributes ["metadata", "name"] name) : GoesBy attributes name
  | nameless (noOwn : ∀ other, ¬ NamesAt attributes ["name"] other)
      (noneInMetadata : ∀ other, ¬ NamesAt attributes ["metadata", "name"] other) :
      GoesBy attributes nameless

/-- **An empty name of its own shadows the name in the metadata** of a resource. -/
structure Shadows (attributes : Attributes) (name : String) : Prop where
  empty : (Json.ofMap attributes).Leads ["name"] (.str "")
  usable : NamesAt attributes ["metadata", "name"] name

/-- A resource with a shadowed name goes by that name all the same. -/
theorem Shadows.goesBy (shadows : Shadows attributes name) : GoesBy attributes name := by
  refine .inMetadata (fun other own => own.2 ?_) shadows.usable
  have same : some (Json.str "") = some (.str other) :=
    (Json.leads_singleton_iff.1 shadows.empty).symm.trans (Json.leads_singleton_iff.1 own.1)
  injection same with same
  injection same with same
  exact same.symm

/-- The text at a path into an attribute map. -/
def textAt? (attributes : Attributes) (path : List String) : Option String :=
  (lookup? attributes path).bind Json.str?

/-- The name that can be used at a path into an attribute map. -/
def nameAt? (attributes : Attributes) (path : List String) : Option String :=
  (textAt? attributes path).filter fun text => !text.isEmpty

theorem textAt?_eq_some_iff :
    textAt? attributes (first :: rest) = some name ↔
      (Json.ofMap attributes).Leads (first :: rest) (.str name) := by
  rw [textAt?, Option.bind_eq_some_iff]
  simp only [Json.str?_eq_some_iff, exists_eq_right,
    lookup?_eq_some_iff (List.cons_ne_nil _ _)]

theorem nameAt?_eq_some_iff :
    nameAt? attributes (first :: rest) = some name ↔
      NamesAt attributes (first :: rest) name := by
  simp [nameAt?, NamesAt, Option.filter_eq_some_iff, textAt?_eq_some_iff]

theorem nameAt?_eq_none_iff :
    nameAt? attributes (first :: rest) = none ↔
      ∀ name, ¬ NamesAt attributes (first :: rest) name := by
  simp only [Option.eq_none_iff_forall_ne_some, ne_eq, nameAt?_eq_some_iff]

/-- **Every resource goes by one name**: the first one that can be used, if any. -/
theorem goesBy_iff :
    GoesBy attributes name ↔
      name = ((nameAt? attributes ["name"]).or (nameAt? attributes ["metadata", "name"])).getD
        nameless := by
  constructor
  · intro goesBy
    cases goesBy with
    | own usable => rw [nameAt?_eq_some_iff.2 usable, Option.some_or, Option.getD_some]
    | inMetadata noOwn usable =>
      rw [nameAt?_eq_none_iff.2 noOwn, Option.none_or, nameAt?_eq_some_iff.2 usable,
        Option.getD_some]
    | nameless noOwn noneInMetadata =>
      rw [nameAt?_eq_none_iff.2 noOwn, Option.none_or, nameAt?_eq_none_iff.2 noneInMetadata,
        Option.getD_none]
  · rintro rfl
    cases own : nameAt? attributes ["name"] with
    | some name => exact .own (nameAt?_eq_some_iff.1 own)
    | none =>
      have noOwn := nameAt?_eq_none_iff.1 own
      cases inMetadata : nameAt? attributes ["metadata", "name"] with
      | some name => exact .inMetadata noOwn (nameAt?_eq_some_iff.1 inMetadata)
      | none => exact .nameless noOwn (nameAt?_eq_none_iff.1 inMetadata)

/-! ### The name that is read -/

/-- **The first of two and the filter commute**, unless the filter drops the first and keeps
the second. -/
theorem filter_or_filter {α : Type} {keep : α → Bool} {a b : Option α}
    (kept : ∀ x ∈ a, keep x = true ∨ b.filter keep = none) :
    (a.or b).filter keep = (a.filter keep).or (b.filter keep) := by
  cases a with
  | none => rw [Option.none_or, Option.filter_none, Option.none_or]
  | some x =>
    rw [Option.some_or]
    rcases kept x rfl with keeps | nothing
    · rw [Option.filter_some_pos keeps, Option.some_or]
    · rw [nothing, Option.or_none]

/-- The name that is read is the first text, if it is not empty. -/
theorem resourceName?_eq (attributes : Attributes) :
    resourceName? attributes =
      ((textAt? attributes ["name"]).or (textAt? attributes ["metadata", "name"])).filter
        fun text => !text.isEmpty := by
  have own : textAt? attributes ["name"] = (attributes.get? "name").bind Json.str? := by
    simp [textAt?, lookup?, follow]
  have inMetadata : textAt? attributes ["metadata", "name"] =
      ((attributes.get? "metadata").bind (·.get? "name")).bind Json.str? := by
    simp [textAt?, lookup?, follow]
  rw [resourceName?, own, inMetadata]

/-- The name of a resource as an id has it. -/
def shownName (attributes : Attributes) : String := (resourceName? attributes).getD nameless

theorem shownName_ne_empty (attributes : Attributes) : shownName attributes ≠ "" := by
  rw [shownName]
  cases read : resourceName? attributes with
  | none => decide
  | some name =>
    have solid := (Option.filter_eq_some_iff.1 read).2
    simpa using solid

/-- **A resource is shown by the name that it goes by**, unless that name is shadowed. -/
theorem goesBy_shownName (clear : ∀ name, ¬ Shadows attributes name) :
    GoesBy attributes (shownName attributes) := by
  rw [goesBy_iff, shownName, resourceName?_eq, nameAt?, nameAt?, filter_or_filter]
  intro text own
  by_cases empty : text = ""
  · subst empty
    right
    refine nameAt?_eq_none_iff.2 fun name usable =>
      clear name ⟨textAt?_eq_some_iff.1 own, usable⟩
  · left
    simpa using empty

/-- **A resource with a shadowed name is shown without a name.** -/
theorem shownName_of_shadows (shadows : Shadows attributes name) :
    shownName attributes = nameless := by
  rw [shownName, resourceName?_eq, textAt?_eq_some_iff.2 shadows.empty]
  rfl

end PodSpec

/-- **The id of an image ends in the name that its resource goes by, unless that is
shadowed.**  Take an image that is found at a resource of any graph.

* Its id is the path of the resource, a colon, and a name that is not empty.
* The resource goes by one name: its own if that is a text that is not empty, else the one in
  its metadata if that is one, else `None`.
* The id has this name, unless the resource has an empty name of its own and a name in its
  metadata that can be used.
* If it has, the id has `None` instead of the name in the metadata. -/
theorem resource_names_apart_from_shadowed (graph : Graph) (vertex : Nat) (image : Image)
    (resource : graph.blockType? vertex = some resourceBlock)
    (found : image ∈ (PodSpec.imagesOf graph vertex).images) :
    ∃ reading name, graph.Reads vertex reading ∧ image.filePath = reading.filePath ∧
      image.relatedResourceId = reading.filePath ++ ":" ++ name ∧ name ≠ "" ∧
      (∃! expected, PodSpec.GoesBy reading.attributes expected) ∧
      ((∀ shadowed, ¬ PodSpec.Shadows reading.attributes shadowed) →
        PodSpec.GoesBy reading.attributes name) ∧
      ∀ shadowed, PodSpec.Shadows reading.attributes shadowed →
        name = PodSpec.nameless ∧ PodSpec.GoesBy reading.attributes shadowed := by
  have applied : Platform.kubernetes.applies graph vertex = true := by
    by_contra leftOut
    rw [PodSpec.imagesOf_of_not_applies resource (Bool.eq_false_iff.2 leftOut)] at found
    exact List.not_mem_nil found
  have listed : image ∈ PodSpec.imagesAt graph vertex := by
    rwa [PodSpec.imagesAt, if_pos applied]
  rw [PodSpec.imagesAt_eq] at listed
  cases read : PodSpec.reading? graph vertex with
  | none =>
    rw [read] at listed
    exact absurd listed List.not_mem_nil
  | some reading =>
    rw [read] at listed
    obtain ⟨imageName, -, rfl⟩ := List.mem_map.1 listed
    refine ⟨reading, PodSpec.shownName reading.attributes,
      PodSpec.reading?_eq_some_iff.1 read, rfl, rfl, PodSpec.shownName_ne_empty _, ?_,
        PodSpec.goesBy_shownName, ?_⟩
    · exact ⟨_, PodSpec.goesBy_iff.2 rfl, fun other goesBy => PodSpec.goesBy_iff.1 goesBy⟩
    · exact fun shadowed shadows => ⟨PodSpec.shownName_of_shadows shadows, shadows.goesBy⟩

/-- A pod with a name in its metadata, and with something in the place of its own name. -/
def webPod (own : Json) : Vertex :=
  .resource "web" (OrderedMap.ofList
    [("file_path_", .str "/pod.yaml"), ("__startline__", .ofNat 1), ("__endline__", .ofNat 9),
      ("resource_type", .str "Pod"), ("name", own), ("metadata", .obj [("name", .str "web")]),
      ("spec", .obj [("containers", .arr [.obj [("image", .str "nginx")]])])])

/-- The image that the pod names. -/
def webImage (id : String) : Image := ⟨"/pod.yaml", "nginx", 1, 9, id⟩

/-- A number is passed over for the name in the metadata. -/
theorem numberedPod_named :
    let graph := Graph.ofVertices .tabular [webPod (.ofNat 7)]
    graph.blockType? 0 = some resourceBlock ∧
      webImage "/pod.yaml:web" ∈ (PodSpec.imagesOf graph 0).images ∧
      ∃ reading, graph.Reads 0 reading ∧ PodSpec.GoesBy reading.attributes "web" := by
  intro graph
  have resource : graph.blockType? 0 = some resourceBlock := rfl
  have found : webImage "/pod.yaml:web" ∈ (PodSpec.imagesOf graph 0).images := by
    decide +kernel
  obtain ⟨reading, name, reads, path, id, -, -, clear, -⟩ :=
    resource_names_apart_from_shadowed graph 0 _ resource found
  have whole : (webPod (.ofNat 7)).synced = reading.attributes :=
    Option.some.inj reads.attributes
  have goesBy : PodSpec.GoesBy reading.attributes name := by
    apply clear
    rintro other ⟨empty, -⟩
    rw [← whole] at empty
    have number : some (Json.ofNat 7) = some (.str "") := Json.leads_singleton_iff.1 empty
    cases number
  have same : "/pod.yaml:" ++ "web" = "/pod.yaml:" ++ name := by
    rw [← path] at id
    exact id
  obtain rfl := (String.append_right_inj _).1 same
  exact ⟨resource, found, reading, reads, goesBy⟩

/-- **A shadowed name is lost**: the id of the image does not have the name that its resource
goes by. -/
theorem shadowedPod_nameless :
    ¬ ∀ (graph : Graph) (vertex : Nat) (image : Image),
      graph.blockType? vertex = some resourceBlock →
      image ∈ (PodSpec.imagesOf graph vertex).images →
      ∀ reading name, graph.Reads vertex reading → PodSpec.GoesBy reading.attributes name →
        image.relatedResourceId = reading.filePath ++ ":" ++ name := by
  intro named
  let graph := Graph.ofVertices .attributed [webPod (.str "")]
  have found : webImage "/pod.yaml:None" ∈ (PodSpec.imagesOf graph 0).images := by
    decide +kernel
  have reads : graph.Reads 0 _ := PodSpec.reading?_eq_some_iff.1 rfl
  have shadows : PodSpec.Shadows (webPod (.str "")).synced "web" :=
    ⟨PodSpec.textAt?_eq_some_iff.1 rfl, PodSpec.textAt?_eq_some_iff.1 rfl, by decide⟩
  have same : "/pod.yaml:None" = "/pod.yaml:web" :=
    named graph 0 _ rfl found _ _ reads shadows.goesBy
  exact absurd same (by decide)

end InfraScan
