import InfraScan.Block.Entry
import InfraScan.Definition.Key
import InfraScan.Event
import InfraScan.SourceCache

/-!
# Locating blocks

A category lists raw blocks, and the shape of the category says how a raw block holds named
bodies.  Each body carries line markers; a body with a sound pair of markers gets a context,
anything else a warning, and neither affects its neighbours.

* `BlockShape` — how a category nests its blocks
* `BlockParser` — a category with its shape
* `BlockParser.bodies` — the named bodies of one raw block, and what stands in their place
  otherwise
* `BlockParser.steps` — what happens for a list of raw blocks, in order
* `BlockParser.follow` — the contexts of a list of steps
* `BlockParser.run` — the contexts of a list of raw blocks

Which bodies get a context depends on the raw blocks alone.  The source only fills in the
text, so `run` splits into the pure `steps` and a walk along them that asks for lines.
-/

namespace InfraScan

/-- The member that holds the first line of a block. -/
def startMarker : String := "__start_line__"

/-- The member that holds the last line of a block. -/
def endMarker : String := "__end_line__"

/-- **How a category nests its blocks.** -/
inductive BlockShape where
  /-- A raw block maps types to names to bodies. -/
  | typed
  /-- A raw block maps names to bodies. -/
  | named
  /-- A raw block is a body itself. -/
  | unnamed
  deriving Repr, DecidableEq

/-- A category with its shape. -/
structure BlockParser where
  category : String
  shape : BlockShape
  deriving Repr, DecidableEq

/-- A body with the id of its block. -/
structure NamedBody where
  id : String
  body : List (String × Json)

/-- A text attribute of a body, alone or as the first item of a list. -/
def scalarAttribute? (name : String) (body : List (String × Json)) : Option String :=
  match OrderedMap.look name body with
  | some (.str s) => some s
  | some (.arr (.str s :: _)) => some s
  | _ => none

namespace NamedBody

/-- A line marker of a body. -/
def marker (named : NamedBody) (name : String) : Except BlockDefect Nat :=
  match (OrderedMap.look name named.body).bind Json.nat? with
  | some n => .ok n
  | none => .error (.noMarker named.id name)

/-- The line range of a body. -/
def lineRange (named : NamedBody) : Except BlockDefect (Nat × Nat) := do
  let startLine ← named.marker startMarker
  let endLine ← named.marker endMarker
  if endLine < startLine then .error (.backwards named.id startLine endLine)
  else .ok (startLine, endLine)

end NamedBody

namespace BlockParser

/-- The parsers of the usual categories. -/
def standard : List BlockParser :=
  [⟨"resource", .typed⟩, ⟨"data", .typed⟩, ⟨"module", .named⟩, ⟨"provider", .named⟩,
   ⟨"variable", .named⟩, ⟨"output", .named⟩, ⟨"locals", .unnamed⟩, ⟨"terraform", .unnamed⟩]

/-- The id of a body without a name: the category, and a number from the second one on. -/
def unnamedId (parser : BlockParser) (earlier : Nat) : String :=
  if earlier = 0 then parser.category else parser.category ++ "#" ++ toString (earlier + 1)

/-- The id of a named body.  A provider with an alias is named by both. -/
def namedId (parser : BlockParser) (name : String) (body : List (String × Json)) : String :=
  if parser.category = "provider" then
    match scalarAttribute? "alias" body with
    | some other => name ++ "." ++ other
    | none => name
  else name

/-- The id of a body with a type and a name. -/
def typedId (type name : String) : String := type ++ "." ++ name

/-- **The named bodies of one raw block**, in order, with a defect in the place of what is not
a mapping.  `earlier` counts the mapping blocks before this one. -/
def bodies (parser : BlockParser) (earlier : Nat) (block : Json) :
    List (Except BlockDefect NamedBody) :=
  match block.fields? with
  | none => [.error .notMapping]
  | some fields =>
    match parser.shape with
    | .unnamed => [.ok ⟨parser.unnamedId earlier, fields⟩]
    | .named =>
      fields.map fun field =>
        match field.2.fields? with
        | none => .error (.entryNotMapping field.1)
        | some body => .ok ⟨parser.namedId field.1 body, body⟩
    | .typed =>
      fields.flatMap fun field =>
        match field.2.fields? with
        | none => [.error (.entryNotMapping field.1)]
        | some names =>
          names.map fun entry =>
            match entry.2.fields? with
            | none => .error (.entryNotMapping (typedId field.1 entry.1))
            | some body => .ok ⟨typedId field.1 entry.1, body⟩

end BlockParser

/-- What happens for one body: it is skipped for a defect, or its line range is known. -/
inductive BlockStep where
  | skip (index : Nat) (defect : BlockDefect)
  | locate (id : String) (startLine endLine : Nat)
  deriving Repr, DecidableEq

/-- The step for a body of the raw block at a position. -/
def NamedBody.step (index : Nat) (named : NamedBody) : BlockStep :=
  match named.lineRange with
  | .error defect => .skip index defect
  | .ok (startLine, endLine) => .locate named.id startLine endLine

namespace BlockParser

/-- The steps for one raw block: first everything that is not a mapping, then the bodies. -/
def stepsOfBlock (parser : BlockParser) (index earlier : Nat) (block : Json) :
    List BlockStep :=
  let found := parser.bodies earlier block
  (found.filterMap fun
    | .error defect => some (.skip index defect)
    | .ok _ => none) ++
  found.filterMap fun
    | .error _ => none
    | .ok named => some (named.step index)

/-- The steps for raw blocks of which the first stands at position `index` and has `earlier`
mapping blocks before it. -/
def stepsFrom (parser : BlockParser) (index earlier : Nat) : List Json → List BlockStep
  | [] => []
  | block :: rest =>
    parser.stepsOfBlock index earlier block ++
      parser.stepsFrom (index + 1)
        (if block.fields?.isSome then earlier + 1 else earlier) rest

/-- **What happens for a list of raw blocks**, in order. -/
def steps (parser : BlockParser) (blocks : List Json) : List BlockStep :=
  parser.stepsFrom 0 0 blocks

end BlockParser

/-- The context of a located body with the lines of its range. -/
def BlockContext.ofLines (scanner : DirectiveScanner) (collect : Bool) (id : String)
    (startLine endLine : Nat) (codeLines : List (Nat × String)) : BlockContext :=
  let skippedChecks := if collect then scanner.scan (codeLines.map Prod.snd) else []
  ⟨id, ⟨startLine, endLine, codeLines, skippedChecks⟩⟩

/-- What a parser gives for a list of raw blocks. -/
structure ParsedBlocks where
  contexts : List BlockContext
  events : List Event
  cache : SourceCache

namespace BlockParser

/-- **The contexts of a list of steps**, in order.  Each located body asks the cache for the
lines of its range.  Once the source turns out to be `missing` it is not asked for again, and
the ranges stand alone. -/
def follow (parser : BlockParser) (read : TextReader) (scanner : DirectiveScanner)
    (collect : Bool) (key : StoreKey) (missing : Bool) (cache : SourceCache) :
    List BlockStep → ParsedBlocks
  | [] => ⟨[], [], cache⟩
  | .skip index defect :: rest =>
    let later := parser.follow read scanner collect key missing cache rest
    { later with
      events := .blockSkipped key.render ⟨parser.category, index, defect⟩ :: later.events }
  | .locate id startLine endLine :: rest =>
    let context := BlockContext.ofLines scanner collect id startLine endLine
    if missing then
      let later := parser.follow read scanner collect key true cache rest
      { later with contexts := context [] :: later.contexts }
    else
      match cache.lines read key.filePath startLine endLine with
      | (.ok codeLines, cache) =>
        let later := parser.follow read scanner collect key false cache rest
        { later with contexts := context codeLines :: later.contexts }
      | (.error cause, cache) =>
        let later := parser.follow read scanner collect key true cache rest
        { later with
          contexts := context [] :: later.contexts
          events := .sourceUnavailable key.render cause :: later.events }

/-- **The contexts of a list of raw blocks**, in order. -/
def run (parser : BlockParser) (read : TextReader) (scanner : DirectiveScanner)
    (collect : Bool) (key : StoreKey) (blocks : List Json) (cache : SourceCache) :
    ParsedBlocks :=
  parser.follow read scanner collect key false cache (parser.steps blocks)

end BlockParser

end InfraScan
