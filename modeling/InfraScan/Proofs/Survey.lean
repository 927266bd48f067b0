import InfraScan.Image.Survey
import Mathlib.Data.List.Basic

/-!
# Where the findings of a survey come from

A survey goes from providers to vertices and keeps each image once.  Nothing in it makes an
image or an event of its own, except the count that each provider reports, and no image is
lost.

* `mem_firstOccurrences` — dropping repetitions loses no element
* `pairwise_idxOf_firstOccurrences` — it leaves the elements in the order of their first
  occurrences
* `firstOccurrences_append`, `firstOccurrences_flatMap` — it may be done in parts beforehand
* `filter_firstOccurrences`, `firstOccurrences_map` — and before or after elements are picked
  or renamed
* `PodSpec.readVertices_eq` — a provider reads the vertices for which it is asked
* `PodSpec.mem_images_allImages`, `PodSpec.exists_vertex_of_mem_events` — what a provider
  finds
* `PodSpec.images_allImages` — the same as a list, position by position
* `Survey.mem_images_run`, `Survey.exists_vertex_of_mem_events` — what a survey finds
* `Survey.images_run` — the images of a survey as a list
-/

namespace InfraScan

/-- **Dropping repetitions loses no element.** -/
@[simp] theorem mem_firstOccurrences [DecidableEq α] {a : α} {list : List α} :
    a ∈ firstOccurrences list ↔ a ∈ list := by
  induction list with
  | nil => rfl
  | cons b rest ih =>
    rw [firstOccurrences, List.mem_cons, List.mem_cons, List.mem_filter, ih]
    by_cases same : a = b <;> simp [same]

/-- **What is dropped behind a list** is what the list has. -/
theorem firstOccurrences_append [DecidableEq α] (front back : List α) :
    firstOccurrences (front ++ back) =
      firstOccurrences front ++ (firstOccurrences back).filter fun a => a ∉ front := by
  induction front with
  | nil => exact (List.filter_eq_self.2 fun a _ => rfl).symm
  | cons a rest ih =>
    have others : ∀ b ∈ firstOccurrences back,
        (decide (b ≠ a) && decide (b ∉ rest)) = decide (b ∉ a :: rest) := by
      intro b _
      simp
    rw [List.cons_append, firstOccurrences, ih, List.filter_append, List.filter_filter,
      List.filter_congr others]
    rfl

theorem nodup_firstOccurrences [DecidableEq α] (list : List α) :
    (firstOccurrences list).Nodup := by
  induction list with
  | nil => exact List.nodup_nil
  | cons a rest ih =>
    rw [firstOccurrences, List.nodup_cons]
    exact ⟨by simp, ih.filter _⟩

/-- **What is left stands in the order of its first occurrences.** -/
theorem pairwise_idxOf_firstOccurrences [DecidableEq α] (list : List α) :
    (firstOccurrences list).Pairwise fun a b => list.idxOf a < list.idxOf b := by
  induction list with
  | nil => exact List.Pairwise.nil
  | cons a rest ih =>
    -- Everything that is not the first element comes one place later than in the rest.
    have later : ∀ b ∈ (firstOccurrences rest).filter (· ≠ a),
        (a :: rest).idxOf b = rest.idxOf b + 1 := by
      intro b mem
      have different : b ≠ a := of_decide_eq_true (List.mem_filter.1 mem).2
      exact List.idxOf_cons_ne rest different.symm
    rw [firstOccurrences, List.pairwise_cons]
    constructor
    · intro b mem
      rw [later b mem, List.idxOf_cons_self]
      exact Nat.succ_pos _
    · refine (ih.filter _).imp_of_mem fun {b c} memB memC less => ?_
      rw [later b memB, later c memC]
      exact Nat.succ_lt_succ less

/-- A list without repetitions stays as it is. -/
theorem firstOccurrences_of_nodup [DecidableEq α] {list : List α} (distinct : list.Nodup) :
    firstOccurrences list = list := by
  induction list with
  | nil => rfl
  | cons a rest ih =>
    rw [List.nodup_cons] at distinct
    have others : ∀ b ∈ rest, decide (b ≠ a) = true := by
      intro b mem
      have different : b ≠ a := fun same => distinct.1 (same ▸ mem)
      simpa using different
    rw [firstOccurrences, ih distinct.2, List.filter_eq_self.2 others]

@[simp] theorem firstOccurrences_firstOccurrences [DecidableEq α] (list : List α) :
    firstOccurrences (firstOccurrences list) = firstOccurrences list :=
  firstOccurrences_of_nodup (nodup_firstOccurrences list)

/-- **Repetitions may be dropped in both parts beforehand.** -/
theorem firstOccurrences_append_firstOccurrences [DecidableEq α] (front back : List α) :
    firstOccurrences (firstOccurrences front ++ firstOccurrences back) =
      firstOccurrences (front ++ back) := by
  simp [firstOccurrences_append]

/-- **Repetitions may be dropped in every part beforehand.** -/
theorem firstOccurrences_flatMap [DecidableEq β] (parts : List α) (f : α → List β) :
    firstOccurrences (parts.flatMap fun part => firstOccurrences (f part)) =
      firstOccurrences (parts.flatMap f) := by
  induction parts with
  | nil => rfl
  | cons part rest ih =>
    rw [List.flatMap_cons, List.flatMap_cons, ← firstOccurrences_append_firstOccurrences,
      firstOccurrences_firstOccurrences, ih, firstOccurrences_append_firstOccurrences]

/-- What comes again brings in nothing. -/
theorem firstOccurrences_append_of_subset [DecidableEq α] {front back : List α}
    (again : back ⊆ front) : firstOccurrences (front ++ back) = firstOccurrences front := by
  have dropped : (firstOccurrences back).filter (fun a => a ∉ front) = [] := by
    rw [List.filter_eq_nil_iff]
    intro a mem
    simpa using again (mem_firstOccurrences.1 mem)
  rw [firstOccurrences_append, dropped, List.append_nil]

/-- **Where no two elements have one image**, repetitions may be dropped before or after a
map. -/
theorem firstOccurrences_map [DecidableEq α] [DecidableEq β] {f : α → β} {list : List α}
    (apart : ∀ a ∈ list, ∀ b ∈ list, f a = f b → a = b) :
    firstOccurrences (list.map f) = (firstOccurrences list).map f := by
  induction list with
  | nil => rfl
  | cons a rest ih =>
    have others : ∀ b ∈ firstOccurrences rest, decide (f b ≠ f a) = decide (b ≠ a) := by
      intro b mem
      have member := List.mem_cons_of_mem a (mem_firstOccurrences.1 mem)
      have same : f b = f a ↔ b = a :=
        ⟨apart b member a List.mem_cons_self, congrArg f⟩
      simp only [ne_eq, same]
    have later := ih fun b memB c memC =>
      apart b (List.mem_cons_of_mem a memB) c (List.mem_cons_of_mem a memC)
    rw [List.map_cons, firstOccurrences, firstOccurrences, List.map_cons, later,
      List.filter_map, Function.comp_def, List.filter_congr others]

/-- **Picking elements and dropping repetitions** may be done in either order. -/
theorem filter_firstOccurrences [DecidableEq α] (picked : α → Bool) (list : List α) :
    (firstOccurrences list).filter picked = firstOccurrences (list.filter picked) := by
  induction list with
  | nil => rfl
  | cons a rest ih =>
    rw [firstOccurrences]
    by_cases here : picked a = true
    · rw [List.filter_cons_of_pos here, List.filter_cons_of_pos here, firstOccurrences, ← ih,
        List.filter_filter, List.filter_filter]
      simp only [Bool.and_comm]
    · -- What is not picked is not there to be dropped.
      have others : ∀ b ∈ firstOccurrences rest,
          (picked b && decide (b ≠ a)) = picked b := by
        intro b _
        by_cases same : b = a
        · simp [same, here]
        · simp [same]
      rw [List.filter_cons_of_neg here, List.filter_cons_of_neg here, ← ih,
        List.filter_filter, List.filter_congr others]

/-! ### One provider -/

namespace PodSpec

variable {graph : Graph}

/-- **The provider reads the vertices for which a survey asks it**, and no others. -/
theorem readVertices_eq (graph : Graph) :
    readVertices graph = graph.vertices.filter (Platform.kubernetes.applies graph) := by
  rw [readVertices, List.filter_filter]
  refine List.filter_congr fun vertex _ => ?_
  rw [Platform.applies, Bool.and_comm]
  rfl

/-- **The images of a graph** are those of the vertices that the provider reads. -/
theorem mem_images_allImages {image : Image} :
    image ∈ (allImages graph).images ↔
      ∃ position ∈ graph.vertices, Platform.kubernetes.applies graph position = true ∧
        image ∈ (imagesOf graph position).images := by
  simp only [allImages, readVertices_eq, Extraction.concat, List.mem_flatMap, List.mem_map,
    List.mem_filter]
  constructor
  · rintro ⟨-, ⟨position, ⟨handedOut, applied⟩, rfl⟩, mem⟩
    exact ⟨position, handedOut, applied, mem⟩
  · rintro ⟨position, handedOut, applied, mem⟩
    exact ⟨_, ⟨position, ⟨handedOut, applied⟩, rfl⟩, mem⟩

/-- The images that a provider finds at one position: none unless it reads the vertex
there. -/
def imagesAt (graph : Graph) (position : Nat) : List Image :=
  if Platform.kubernetes.applies graph position then (imagesOf graph position).images else []

/-- **The images of a graph are those at its positions**, in order. -/
theorem images_allImages (graph : Graph) :
    (allImages graph).images = graph.vertices.flatMap (imagesAt graph) := by
  have anywhere (positions : List Nat) :
      ((positions.filter (Platform.kubernetes.applies graph)).map (imagesOf graph)).flatMap
          Extraction.images =
        positions.flatMap (imagesAt graph) := by
    induction positions with
    | nil => rfl
    | cons position rest ih =>
      by_cases applied : Platform.kubernetes.applies graph position = true <;>
        simp [imagesAt, applied, ← ih]
  rw [allImages, readVertices_eq]
  exact anywhere graph.vertices

/-- Every event of a graph is an event of one of its vertices. -/
theorem exists_vertex_of_mem_events {event : Event} (mem : event ∈ (allImages graph).events) :
    ∃ position ∈ graph.vertices, event ∈ (imagesOf graph position).events := by
  obtain ⟨part, found, inPart⟩ := List.mem_flatMap.1 mem
  obtain ⟨position, applied, rfl⟩ := List.mem_map.1 found
  rw [readVertices_eq] at applied
  exact ⟨position, (List.mem_filter.1 applied).1, inPart⟩

/-- A type with a place for its pod specification is a supported type. -/
theorem supports_of_path? {type : String} {path : List String}
    (place : path? type = some path) :
    supports type = true := by
  unfold path? at place
  split at place
  · subst type
    decide
  split at place
  · subst type
    decide
  split at place
  · subst type
    decide
  split at place
  · rename_i listed
    have among : ["Deployment", "DaemonSet", "StatefulSet", "ReplicaSet",
        "ReplicationController", "Job"] ⊆ supportedTypes := by decide
    exact List.contains_iff_mem.2 (among listed)
  · cases place

end PodSpec

/-! ### All providers -/

namespace Survey

variable {providers : List Platform} {graph : Graph}

/-- **The images of a survey** are those of the vertices that are read, if anybody reads
them. -/
theorem mem_images_run {image : Image} :
    image ∈ (run providers graph).images ↔
      .kubernetes ∈ providers ∧ ∃ position ∈ graph.vertices,
        Platform.kubernetes.applies graph position = true ∧
          image ∈ (PodSpec.imagesOf graph position).images := by
  rw [← PodSpec.mem_images_allImages]
  simp only [run, mem_firstOccurrences, Extraction.concat, List.mem_flatMap, List.mem_map]
  constructor
  · rintro ⟨-, ⟨platform, found, rfl⟩, mem⟩
    have asked := (List.mem_filter.1 found).1
    cases platform with
    | kubernetes => exact ⟨asked, mem⟩
  · rintro ⟨asked, mem⟩
    -- An image shows that there is a vertex to read, so the provider is not left out.
    obtain ⟨position, handedOut, applied, -⟩ := PodSpec.mem_images_allImages.1 mem
    have found : .kubernetes ∈ platforms providers graph :=
      List.mem_filter.2 ⟨asked, List.any_eq_true.2 ⟨position, handedOut, applied⟩⟩
    exact ⟨_, ⟨.kubernetes, found, rfl⟩, mem⟩

/-- **The images of a survey are those of the graph, each once**, if there is a provider at
all.  Whether a provider is left out, and how often it is asked, does not show. -/
theorem images_run (providers : List Platform) (graph : Graph) :
    (run providers graph).images =
      if providers = [] then [] else firstOccurrences (PodSpec.allImages graph).images := by
  have each (platform : Platform) :
      (provider graph platform).images = (PodSpec.allImages graph).images := by
    cases platform
    rfl
  have found : (run providers graph).images = firstOccurrences
      ((platforms providers graph).flatMap fun _ => (PodSpec.allImages graph).images) := by
    rw [run, Extraction.concat, List.flatMap_map]
    simp only [each]
  have again (asked : List Platform) :
      (asked.flatMap fun _ => (PodSpec.allImages graph).images) ⊆
        (PodSpec.allImages graph).images := by
    intro image mem
    obtain ⟨-, -, inGraph⟩ := List.mem_flatMap.1 mem
    exact inGraph
  rw [found]
  by_cases read : graph.vertices.any (Platform.kubernetes.applies graph) = true
  · have all : platforms providers graph = providers := by
      refine List.filter_eq_self.2 fun platform _ => ?_
      cases platform
      exact read
    rw [all]
    cases providers with
    | nil => rfl
    | cons platform rest =>
      rw [List.flatMap_cons, firstOccurrences_append_of_subset (again rest)]
      rfl
  · -- Where nothing is read, nothing is found, and nobody is asked.
    have nothing : (PodSpec.allImages graph).images = [] := by
      rw [List.eq_nil_iff_forall_not_mem]
      intro image mem
      obtain ⟨position, handedOut, applied, -⟩ := PodSpec.mem_images_allImages.1 mem
      exact read (List.any_eq_true.2 ⟨position, handedOut, applied⟩)
    have empty (asked : List Platform) : (asked.flatMap fun _ => ([] : List Image)) = [] := by
      simp
    rw [nothing, empty]
    split <;> rfl

/-- **Every event of a survey is a count or an event of a vertex.** -/
theorem exists_vertex_of_mem_events {event : Event}
    (mem : event ∈ (run providers graph).events) :
    (∃ platform found, event = .imagesExtracted platform found) ∨
      ∃ position ∈ graph.vertices, event ∈ (PodSpec.imagesOf graph position).events := by
  obtain ⟨part, found, inPart⟩ := List.mem_flatMap.1 mem
  obtain ⟨platform, -, rfl⟩ := List.mem_map.1 found
  rcases List.mem_append.1 inPart with inGraph | count
  · cases platform with
    | kubernetes => exact .inr (PodSpec.exists_vertex_of_mem_events inGraph)
  · exact .inl ⟨_, _, List.mem_singleton.1 count⟩

end Survey

end InfraScan
