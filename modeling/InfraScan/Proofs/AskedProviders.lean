import InfraScan.Proofs.ContainerImages

/-!
# Which providers a survey asks

A survey first looks which of its providers have a vertex to read, asks only those, and keeps
each image where it is seen first.  It could as well ask all of them: looking beforehand saves
work and changes no result.

* `PodSpec.allImages_of_unread` — a provider without a vertex to read finds nothing
* `Survey.images_of_leftOut` — a provider that is left out is one of these
* `Survey.images_run_eq_firstOccurrences` — the images of a survey are those of all its
  providers
* `survey_lists_first_occurrences` — each of them once, in the order in which they are first
  found

### What is load-bearing

A survey decides by `Platform.applies` whom it asks, and a provider picks by filters of its
own which vertices it reads.  The two agree at every vertex (`PodSpec.readVertices_eq`); were
the survey's test narrower at one of them, a provider would be left out that finds something
there.
-/

namespace InfraScan

/-- **A provider without a vertex to read finds nothing**, and reports nothing. -/
theorem PodSpec.allImages_of_unread {graph : Graph}
    (unread : ∀ position ∈ graph.vertices,
      Platform.kubernetes.applies graph position = false) :
    allImages graph = .none := by
  have noVertex : readVertices graph = [] := by
    rw [readVertices_eq, List.filter_eq_nil_iff]
    intro position handedOut
    exact Bool.eq_false_iff.1 (unread position handedOut)
  rw [allImages, noVertex]
  rfl

namespace Survey

variable {providers : List Platform} {graph : Graph} {platform : Platform}

/-- **A provider that is left out finds nothing.** -/
theorem images_of_leftOut (leftOut : graph.vertices.any (platform.applies graph) = false) :
    platform.images graph = .none := by
  rw [List.any_eq_false] at leftOut
  cases platform with
  | kubernetes =>
    exact PodSpec.allImages_of_unread fun position handedOut =>
      Bool.eq_false_iff.2 (leftOut position handedOut)

/-- A provider of the list is left out if nothing in the graph is for it. -/
theorem any_applies_of_not_mem_platforms (asked : platform ∈ providers)
    (leftOut : platform ∉ platforms providers graph) :
    graph.vertices.any (platform.applies graph) = false := by
  rw [Bool.eq_false_iff]
  intro read
  exact leftOut (List.mem_filter.2 ⟨asked, read⟩)

/-- **The images of a survey are those of all its providers**, each where it is seen first,
whether or not a provider is asked. -/
theorem images_run_eq_firstOccurrences (providers : List Platform) (graph : Graph) :
    (run providers graph).images =
      firstOccurrences (providers.flatMap fun platform =>
        (platform.images graph).images) := by
  have everybody :
      (platforms providers graph).flatMap (fun platform => (platform.images graph).images) =
        (providers.filter fun _ => true).flatMap fun platform =>
          (platform.images graph).images := by
    apply flatMap_filter_of_nothing
    · intro platform _
      rfl
    · intro platform _ leftOut
      rw [images_of_leftOut leftOut]
      rfl
  rw [List.filter_true] at everybody
  rw [← everybody, run, Extraction.concat, List.flatMap_map]
  rfl

/-- **Any providers do**, if there is one: the images are the same. -/
theorem images_run_eq_of_ne_nil {others : List Platform} (inhabited : providers ≠ [])
    (inhabited' : others ≠ []) :
    (run others graph).images = (run providers graph).images := by
  rw [images_run, images_run, if_neg inhabited, if_neg inhabited']

end Survey

/-- **A survey lists what all its providers find**, each image where it is found first.

* No image is listed twice.
* An image is listed exactly when one of the providers finds it, be the provider asked or not.
* The images stand in the order of their first occurrences among the findings of all
  providers.
* If there is a provider, it makes no difference which ones there are, and how many.
* A provider that is not asked would find nothing, and report nothing. -/
theorem survey_lists_first_occurrences (graph : Graph) (providers : List Platform) :
    let found := providers.flatMap fun platform => (platform.images graph).images
    let listed := (Survey.run providers graph).images
    listed.Nodup ∧
    (∀ image, image ∈ listed ↔ image ∈ found) ∧
    (listed.Pairwise fun a b => found.idxOf a < found.idxOf b) ∧
    (providers ≠ [] →
      (∀ others, others ≠ [] → (Survey.run others graph).images = listed) ∧
      (∀ platform, (Survey.run [platform] graph).images = listed) ∧
      (Survey.run Survey.allPlatforms graph).images = listed) ∧
    ∀ platform ∈ providers, platform ∉ Survey.platforms providers graph →
      platform.images graph = .none := by
  intro found listed
  have once : listed = firstOccurrences found :=
    Survey.images_run_eq_firstOccurrences providers graph
  refine ⟨?_, ?_, ?_, ?_, ?_⟩
  · rw [once]
    exact nodup_firstOccurrences found
  · intro image
    rw [once]
    exact mem_firstOccurrences
  · rw [once]
    exact pairwise_idxOf_firstOccurrences found
  · intro inhabited
    refine ⟨fun others inhabited' => ?_, fun platform => ?_, ?_⟩
    · exact Survey.images_run_eq_of_ne_nil inhabited inhabited'
    · exact Survey.images_run_eq_of_ne_nil inhabited (List.cons_ne_nil platform [])
    · exact Survey.images_run_eq_of_ne_nil inhabited (List.cons_ne_nil Platform.kubernetes [])
  · intro platform asked leftOut
    exact Survey.images_of_leftOut (Survey.any_applies_of_not_mem_platforms asked leftOut)

/-- A pod with an image that two of its containers name. -/
def repeatingPod : Vertex :=
  .resource "web" (OrderedMap.ofList [
    ("file_path_", .str "/pod.yaml"), ("__startline__", .ofNat 1), ("__endline__", .ofNat 9),
    ("resource_type", .str "Pod"),
    ("spec", .obj [
      ("containers", .arr [.obj [("image", .str "redis")], .obj [("image", .str "nginx")]]),
      ("initContainers", .arr [.obj [("image", .str "nginx")]])])])

/-- A resource that no provider reads. -/
def storageBucket : Vertex :=
  .resource "logs" (OrderedMap.ofList [("resource_type", .str "aws_s3_bucket")])

/-- Two providers find the image twice each; it is listed once, before the other one.  Of a
bucket they find nothing, and neither is asked. -/
theorem repeatingPod_listed :
    let pod := Graph.ofVertices .tabular [repeatingPod]
    let bucket := Graph.ofVertices .attributed [storageBucket]
    let twice := [Platform.kubernetes, .kubernetes]
    twice ≠ [] ∧
      ((Survey.run twice pod).images.map Image.name = ["nginx", "redis"] ∧
        (Survey.run Survey.allPlatforms pod).images.map Image.name = ["nginx", "redis"]) ∧
      (Platform.kubernetes ∈ twice ∧ Platform.kubernetes ∉ Survey.platforms twice bucket ∧
        Platform.kubernetes.images bucket = .none) := by
  intro pod bucket twice
  have inhabited : twice ≠ [] := List.cons_ne_nil _ _
  have asked : Platform.kubernetes ∈ twice := List.mem_cons_self
  have leftOut : Platform.kubernetes ∉ Survey.platforms twice bucket := by decide +kernel
  have names : (Survey.run twice pod).images.map Image.name = ["nginx", "redis"] := by
    decide +kernel
  obtain ⟨-, -, -, others, -⟩ := survey_lists_first_occurrences pod twice
  obtain ⟨-, -, -, -, nothing⟩ := survey_lists_first_occurrences bucket twice
  refine ⟨inhabited, ⟨names, ?_⟩, asked, leftOut, nothing .kubernetes asked leftOut⟩
  rw [(others inhabited).2.2]
  exact names

end InfraScan
