import InfraScan.Proofs.Candidates
import InfraScan.Proofs.Text

/-!
# Identities of blocks

The id of a block is a text that is glued together from names and numbers.  Where the gluing
can be undone, blocks with one id are one block written again: of the same type and name, or
of the same name and alias.

* `append_dot_inj`, `toString_nat_inj` — what can be read back from a text
* `BlockIdentity` — what makes a block the block it is; `BlockIdentity.blockId` — its text
* `BlockParser.unnamedId_inj`, `BlockParser.blockId_inj` — the gluing undone
* `FoundBlock`, `BlockParser.foundBlocks` — the blocks in raw blocks
* `BlockParser.located` — the well-formed ones, with their identities and contexts
* `BlockParser.id_eq_iff`, `BlockParser.nodup_ids` — blocks with one id
* `BlockParser.filterMap_candidates_eq` — contexts in terms of identities

### What is load-bearing

A dot may stand in a name and in an alias.  Only the part in front of the first dot can be
read back from an id, so it is types, and names of providers, that have to be without dots.
-/

namespace InfraScan

/-! ### Gluing -/

/-- **What stands before the first dot can be read back**, and so can what stands behind
it. -/
theorem append_dot_inj {front front' back back' : String} (clean : '.' ∉ front.toList)
    (clean' : '.' ∉ front'.toList) :
    front ++ "." ++ back = front' ++ "." ++ back' ↔ front = front' ∧ back = back' := by
  have letters (a b : String) : (a ++ "." ++ b).toList = a.toList ++ '.' :: b.toList := by
    simp
  rw [← String.toList_inj, letters, letters, Text.append_mark_inj clean clean',
    String.toList_inj, String.toList_inj]

/-- A text that is glued together has a dot. -/
theorem dot_mem_append (front back : String) : '.' ∈ (front ++ "." ++ back).toList := by
  simp

theorem toString_nat_inj {m n : Nat} : toString m = toString n ↔ m = n := by
  constructor
  · intro same
    have digits : Nat.toDigits 10 m = Nat.toDigits 10 n := by
      simpa only [Nat.toString_eq_repr, Nat.toList_repr] using congrArg String.toList same
    simpa using congrArg (fun digits => Nat.ofDigitChars 10 digits 0) digits
  · intro same
    rw [same]

/-! ### Identities -/

/-- **What makes a block the block it is.** -/
inductive BlockIdentity where
  /-- A block without a name is known by the number of mappings before it. -/
  | place (earlier : Nat)
  /-- A named block is known by its name, and by an alias if there is one that counts. -/
  | named (name : String) (alias? : Option String)
  /-- A block with a type is known by type and name. -/
  | typed (type name : String)
  deriving Repr, DecidableEq

/-- The id of the block with an identity. -/
def BlockIdentity.blockId (parser : BlockParser) : BlockIdentity → String
  | .place earlier => parser.unnamedId earlier
  | .named name none => name
  | .named name (some other) => name ++ "." ++ other
  | .typed type name => BlockParser.typedId type name

namespace BlockParser

variable (parser : BlockParser)

theorem unnamedId_inj {earlier other : Nat} :
    parser.unnamedId earlier = parser.unnamedId other ↔ earlier = other := by
  -- Without a number an id is shorter than with one.
  have longer (n : Nat) : parser.category ≠ parser.category ++ "#" ++ toString n := by
    intro same
    have lengths := congrArg String.length same
    rw [String.length_append, String.length_append] at lengths
    have mark : "#".length = 1 := rfl
    omega
  unfold unnamedId
  by_cases first : earlier = 0 <;> by_cases first' : other = 0
  · simp [first, first']
  · simp only [first, first', if_true, if_false, longer, false_iff]
    omega
  · simp only [first, first', if_true, if_false, (longer _).symm]
  · simp only [first, first', if_false, String.append_right_inj, toString_nat_inj]
    omega

/-- **Name and alias can be read back**, also whether there is an alias. -/
theorem blockId_named_inj {name name' : String} {alias? alias?' : Option String}
    (clean : '.' ∉ name.toList) (clean' : '.' ∉ name'.toList) :
    (BlockIdentity.named name alias?).blockId parser =
        (BlockIdentity.named name' alias?').blockId parser ↔
          name = name' ∧ alias? = alias?' := by
  cases alias? with
  | none =>
    cases alias?' with
    | none => simp [BlockIdentity.blockId]
    | some other' =>
      have different : name ≠ name' ++ "." ++ other' := fun same =>
        clean (same ▸ dot_mem_append name' other')
      simp [BlockIdentity.blockId, different]
  | some other =>
    cases alias?' with
    | none =>
      have different : name ++ "." ++ other ≠ name' := fun same =>
        clean' (same ▸ dot_mem_append name other)
      simp [BlockIdentity.blockId, different]
    | some other' =>
      rw [BlockIdentity.blockId, BlockIdentity.blockId, append_dot_inj clean clean',
        Option.some.injEq]

/-- The identity has the form that the parser gives, and its id can be read back. -/
def Readable (parser : BlockParser) : BlockIdentity → Prop
  | .place _ => parser.shape = .unnamed
  | .named name alias? =>
    parser.shape = .named ∧
      if parser.category = "provider" then '.' ∉ name.toList else alias? = none
  | .typed type _ => parser.shape = .typed ∧ '.' ∉ type.toList

/-- **The gluing of ids can be undone.** -/
theorem blockId_inj {a b : BlockIdentity} (first : parser.Readable a)
    (second : parser.Readable b) :
    a.blockId parser = b.blockId parser ↔ a = b := by
  cases a with
  | place earlier =>
    cases b with
    | place other =>
      rw [BlockIdentity.blockId, BlockIdentity.blockId, unnamedId_inj,
        BlockIdentity.place.injEq]
    | named name alias? => cases first.symm.trans second.1
    | typed type name => cases first.symm.trans second.1
  | named name alias? =>
    cases b with
    | place other => cases first.1.symm.trans second
    | named name' alias?' =>
      obtain ⟨-, first⟩ := first
      obtain ⟨-, second⟩ := second
      by_cases provider : parser.category = "provider"
      · rw [if_pos provider] at first second
        rw [blockId_named_inj parser first second, BlockIdentity.named.injEq]
      · rw [if_neg provider] at first second
        subst first second
        simp [BlockIdentity.blockId]
    | typed type name => cases first.1.symm.trans second.1
  | typed type name =>
    cases b with
    | place other => cases first.1.symm.trans second
    | named name' alias? => cases first.1.symm.trans second.1
    | typed type' name' =>
      rw [BlockIdentity.blockId, BlockIdentity.blockId, typedId, typedId,
        append_dot_inj first.2 second.2, BlockIdentity.typed.injEq]

end BlockParser

/-! ### Blocks found in raw blocks -/

/-- A candidate that is a mapping, with the mapping. -/
structure FoundBlock where
  place : Candidate
  body : List (String × Json)

namespace FoundBlock

/-- The alias of a block, if it has one. -/
def alias? (block : FoundBlock) : Option String := scalarAttribute? "alias" block.body

/-- The id that a parser gives to a block. -/
def id (parser : BlockParser) (block : FoundBlock) : String :=
  block.place.blockId parser block.body

/-- **The identity of a block**: where it stands, or how it is named.  An alias counts for
providers only. -/
def identity (parser : BlockParser) (block : FoundBlock) : BlockIdentity :=
  match block.place.path with
  | [] => .place block.place.earlier
  | [name] => .named name (if parser.category = "provider" then block.alias? else none)
  | type :: name :: _ => .typed type name

/-- The context of a block, if it is well-formed. -/
def located? (parser : BlockParser) (source : Option (List String))
    (scanner : DirectiveScanner) (collect : Bool) (block : FoundBlock) : Option BlockEntry :=
  (block.place.context? parser source scanner collect).map BlockContext.entry

theorem blockId_identity (parser : BlockParser) (block : FoundBlock) :
    (block.identity parser).blockId parser = block.id parser := by
  unfold identity id Candidate.blockId
  match block.place.path with
  | [] => rfl
  | [name] =>
    simp only [BlockParser.namedId, alias?]
    by_cases provider : parser.category = "provider"
    · rw [if_pos provider, if_pos provider]
      cases scalarAttribute? "alias" block.body <;> rfl
    · rw [if_neg provider, if_neg provider]
      rfl
  | type :: name :: _ => rfl

end FoundBlock

/-- The number of names that lead to a block inside its raw block. -/
def BlockShape.depth : BlockShape → Nat
  | .unnamed => 0
  | .named => 1
  | .typed => 2

namespace BlockParser

/-- **The blocks in a list of raw blocks**, in order. -/
def foundBlocks (parser : BlockParser) (raw : List Json) : List FoundBlock :=
  (parser.shape.candidates raw).filterMap fun place =>
    place.value.fields?.map (FoundBlock.mk place)

/-- **The well-formed blocks in a list of raw blocks**, in order, with their identities and
their contexts. -/
def located (parser : BlockParser) (source : Option (List String))
    (scanner : DirectiveScanner) (collect : Bool) (raw : List Json) :
    List (BlockIdentity × BlockEntry) :=
  (parser.foundBlocks raw).filterMap fun block =>
    (block.located? parser source scanner collect).map (Prod.mk (block.identity parser))

/-- No type has a dot in it, and where aliases count no name has. -/
def Undotted (parser : BlockParser) (raw : List Json) : Prop :=
  parser.shape = .typed ∨ parser.shape = .named ∧ parser.category = "provider" →
    ∀ block ∈ parser.foundBlocks raw, ∀ heading ∈ block.place.path.head?, '.' ∉ heading.toList

variable {parser : BlockParser} {raw : List Json}

theorem mem_foundBlocks {block : FoundBlock} :
    block ∈ parser.foundBlocks raw ↔
      block.place ∈ parser.shape.candidates raw ∧ block.place.value = .obj block.body := by
  rw [foundBlocks, List.mem_filterMap]
  constructor
  · rintro ⟨place, mem, isBlock⟩
    obtain ⟨body, fields, rfl⟩ := Option.map_eq_some_iff.1 isBlock
    exact ⟨mem, Json.fields?_eq_some_iff.1 fields⟩
  · rintro ⟨mem, isBody⟩
    exact ⟨block.place, mem, by rw [isBody, Json.fields?_obj, Option.map_some]⟩

/-- The shape of a category says how many names lead to a block. -/
theorem length_path {block : FoundBlock} (mem : block ∈ parser.foundBlocks raw) :
    block.place.path.length = parser.shape.depth := by
  obtain ⟨mem, isBody⟩ := mem_foundBlocks.1 mem
  obtain ⟨outer, -, inOuter, -⟩ := BlockShape.place_of_mem_candidates mem
  unfold BlockShape.candidatesOf at inOuter
  cases fields : outer.fields? with
  | none =>
    rw [fields] at inOuter
    rw [List.mem_singleton.1 inOuter] at isBody
    rw [Json.fields?_eq_some_iff.2 isBody] at fields
    cases fields
  | some members =>
    rw [fields] at inOuter
    cases shape : parser.shape with
    | unnamed =>
      rw [shape] at inOuter
      rw [List.mem_singleton.1 inOuter]
      rfl
    | named =>
      rw [shape] at inOuter
      obtain ⟨field, -, same⟩ := List.mem_map.1 inOuter
      rw [← same]
      rfl
    | typed =>
      rw [shape] at inOuter
      obtain ⟨field, -, inField⟩ := List.mem_flatMap.1 inOuter
      split at inField
      · rename_i noMapping
        rw [List.mem_singleton.1 inField] at isBody
        rw [Json.fields?_eq_some_iff.2 isBody] at noMapping
        cases noMapping
      · obtain ⟨entry, -, same⟩ := List.mem_map.1 inField
        rw [← same]
        rfl

/-- **The identities of blocks can be read back** where types and names are without dots. -/
theorem readable_identity (undotted : parser.Undotted raw) {block : FoundBlock}
    (mem : block ∈ parser.foundBlocks raw) : parser.Readable (block.identity parser) := by
  have depth := length_path mem
  unfold FoundBlock.identity
  match path : block.place.path with
  | [] =>
    rw [path] at depth
    cases shape : parser.shape with
    | unnamed => exact shape
    | named | typed => simp [shape, BlockShape.depth] at depth
  | [name] =>
    rw [path] at depth
    cases shape : parser.shape with
    | named =>
      refine ⟨shape, ?_⟩
      by_cases provider : parser.category = "provider"
      · rw [if_pos provider]
        exact undotted (.inr ⟨shape, provider⟩) block mem name (by simp [path])
      · rw [if_neg provider, if_neg provider]
    | unnamed | typed => simp [shape, BlockShape.depth] at depth
  | type :: name :: rest =>
    rw [path] at depth
    cases shape : parser.shape with
    | typed => exact ⟨shape, undotted (.inl shape) block mem type (by simp [path])⟩
    | unnamed | named => simp [shape, BlockShape.depth] at depth

/-- **Blocks have one id exactly when they have one identity.** -/
theorem id_eq_iff (undotted : parser.Undotted raw) {a b : FoundBlock}
    (first : a ∈ parser.foundBlocks raw) (second : b ∈ parser.foundBlocks raw) :
    a.id parser = b.id parser ↔ a.identity parser = b.identity parser := by
  rw [← a.blockId_identity, ← b.blockId_identity,
    parser.blockId_inj (readable_identity undotted first) (readable_identity undotted second)]

/-- Where blocks are named, an identity is a path, and an alias where aliases count. -/
theorem identity_eq_iff (named : parser.shape ≠ .unnamed) {a b : FoundBlock}
    (first : a ∈ parser.foundBlocks raw) (second : b ∈ parser.foundBlocks raw) :
    a.identity parser = b.identity parser ↔ a.place.path = b.place.path ∧
      (parser.shape = .named → parser.category = "provider" → a.alias? = b.alias?) := by
  have depthA := length_path first
  have depthB := length_path second
  unfold FoundBlock.identity
  cases shape : parser.shape with
  | unnamed => exact absurd shape named
  | named =>
    rw [shape, BlockShape.depth, List.length_eq_one_iff] at depthA depthB
    obtain ⟨nameA, pathA⟩ := depthA
    obtain ⟨nameB, pathB⟩ := depthB
    rw [pathA, pathB]
    by_cases provider : parser.category = "provider" <;> simp [provider]
  | typed =>
    rw [shape, BlockShape.depth, List.length_eq_two] at depthA depthB
    obtain ⟨typeA, nameA, pathA⟩ := depthA
    obtain ⟨typeB, nameB, pathB⟩ := depthB
    rw [pathA, pathB]
    simp

/-! ### Blocks without names -/

theorem earlier_eq {block : FoundBlock} (mem : block ∈ parser.foundBlocks raw) :
    block.place.earlier = (raw.take block.place.index).countP isMapping := by
  obtain ⟨-, -, -, counted⟩ := BlockShape.place_of_mem_candidates (mem_foundBlocks.1 mem).1
  exact counted

/-- The number of mappings before a block grows from one mapping to the next. -/
theorem pairwise_earlier (index earlier : Nat) (raw : List Json) :
    (BlockShape.unnamed.candidatesFrom index earlier raw).Pairwise fun a b =>
      a.value.fields?.isSome = true → a.earlier < b.earlier := by
  induction raw generalizing index earlier with
  | nil => exact .nil
  | cons block rest ih =>
    have alone : BlockShape.unnamed.candidatesOf index earlier block =
        [⟨index, earlier, [], block⟩] := by
      unfold BlockShape.candidatesOf
      cases block.fields? <;> rfl
    rw [BlockShape.candidatesFrom, alone, List.singleton_append, List.pairwise_cons]
    refine ⟨fun other mem isMap => ?_, ih _ _⟩
    obtain ⟨offset, -, -, -, -, counted⟩ := BlockShape.place_of_mem_candidatesFrom mem
    rw [if_pos isMap] at counted
    rw [counted]
    show earlier < _
    omega

/-- **Blocks without names have different ids.** -/
theorem nodup_ids (unnamed : parser.shape = .unnamed) :
    ((parser.foundBlocks raw).map (FoundBlock.id parser)).Nodup := by
  have numbered : ∀ block ∈ parser.foundBlocks raw,
      block.id parser = parser.unnamedId block.place.earlier := by
    intro block mem
    have depth := length_path mem
    rw [unnamed, BlockShape.depth, List.length_eq_zero_iff] at depth
    rw [FoundBlock.id, Candidate.blockId, depth]
  have growing : (parser.foundBlocks raw).Pairwise fun a b =>
      a.place.earlier < b.place.earlier := by
    rw [foundBlocks, List.pairwise_filterMap, unnamed]
    refine (pairwise_earlier 0 0 raw).imp fun {a b} less c isC d isD => ?_
    obtain ⟨body, fields, rfl⟩ := Option.map_eq_some_iff.1 isC
    obtain ⟨other, -, rfl⟩ := Option.map_eq_some_iff.1 isD
    exact less (Option.isSome_of_eq_some fields)
  rw [List.Nodup, List.pairwise_map]
  refine growing.imp_of_mem fun {a b} memA memB less same => ?_
  rw [numbered a memA, numbered b memB, unnamedId_inj] at same
  omega

/-! ### Contexts by identity -/

variable (source : Option (List String)) (scanner : DirectiveScanner) (collect : Bool)

/-- A context carries the id of its block. -/
theorem context?_eq {place : Candidate} {body : List (String × Json)}
    (isBody : place.value = .obj body) :
    place.context? parser source scanner collect =
      ((FoundBlock.mk place body).located? parser source scanner collect).map fun entry =>
        ⟨(FoundBlock.mk place body).id parser, entry⟩ := by
  unfold FoundBlock.located? FoundBlock.id Candidate.context? Candidate.step Candidate.found
  simp only [isBody, Json.fields?_obj]
  unfold NamedBody.step
  cases NamedBody.lineRange ⟨place.blockId parser body, body⟩ <;> rfl

/-- **The contexts of candidates** are those of the well-formed blocks, under their ids. -/
theorem filterMap_candidates_eq (parser : BlockParser) (raw : List Json) :
    (parser.shape.candidates raw).filterMap
      (Candidate.context? parser source scanner collect) =
      (parser.located source scanner collect raw).map fun block =>
        ⟨block.1.blockId parser, block.2⟩ := by
  rw [located, foundBlocks, List.filterMap_filterMap, List.map_filterMap]
  refine List.filterMap_congr fun place _ => ?_
  cases fields : place.value.fields? with
  | none =>
    -- What is no mapping gives no context.
    have malformed : ∀ startLine endLine, ¬HasRange place.value startLine endLine := by
      rintro startLine endLine ⟨body, isBody, -⟩
      rw [Json.fields?_eq_some_iff.2 isBody] at fields
      cases fields
    obtain ⟨defect, skipped⟩ := Candidate.exists_step_eq_skip parser _ malformed
    rw [Candidate.context?, skipped]
    rfl
  | some body =>
    rw [context?_eq source scanner collect (Json.fields?_eq_some_iff.1 fields)]
    simp only [Option.map_some, Option.bind_some, Option.map_map, Function.comp_def,
      FoundBlock.blockId_identity]

/-- A block is well-formed when it has a range. -/
theorem isSome_located?_iff (block : FoundBlock) :
    (block.located? parser source scanner collect).isSome = true ↔
      ∃ startLine endLine, HasRange block.place.value startLine endLine := by
  unfold FoundBlock.located? Candidate.context?
  rw [Option.isSome_map]
  constructor
  · intro given
    cases step : block.place.step parser with
    | skip index defect =>
      rw [step] at given
      cases given
    | locate id startLine endLine =>
      exact ⟨startLine, endLine, Candidate.hasRange_of_step_eq_locate step⟩
  · rintro ⟨startLine, endLine, range⟩
    obtain ⟨body, -, located⟩ := Candidate.step_of_hasRange parser range
    rw [located]
    rfl

end BlockParser

end InfraScan
