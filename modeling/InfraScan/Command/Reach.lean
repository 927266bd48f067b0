import InfraScan.Command.Run

/-!
# What a run reads

The places on a disk that a command line can ask about, so that they can be looked up
beforehand.

* `Reach.files` — the files that an invocation names
* `Reach.sources` — the files that the dumps in a definitions file name
* `Reach.folder?` — the folder below which manifest files are looked for
-/

namespace InfraScan.Command.Reach

/-- **The files that an invocation names**, the default settings file among them. -/
def files (invocation : Invocation) : List String :=
  invocation.config.getD Settings.defaultPath ::
    match invocation.task with
    | .context path .. => [path]
    | .images path _ => [path]
    | .completions _ => []

/-- **The files that the dumps in a definitions file name.** -/
def sources (read : TextReader) (invocation : Invocation) : List String :=
  match invocation.task with
  | .context path .. =>
    match (read path).toOption.bind fun text => (Dump.parseAll text).toOption with
    | none => []
    | some dumps =>
      dumps.map fun dump => (dump.seenFrom ((Path.parent? path).getD ".")).filePath
  | _ => []

/-- A step of a path is a plain name: no character of it has a meaning in a pattern. -/
def isPlainStep (step : List Char) : Bool :=
  step.all fun c => c ≠ '?' && c ≠ '*' && c ≠ '['

/-- **The folder below which manifest files are looked for.**  It ends where a path has a step
that could stand for other names as well. -/
def folder? (invocation : Invocation) : Option String :=
  match invocation.task with
  | .images path _ =>
    let steps := (Path.pieces path.toList).takeWhile isPlainStep
    let folder := String.ofList (['/'].intercalate steps)
    some (if folder.isEmpty then (if Path.isAbsolute path then "/" else ".") else folder)
  | _ => none

end InfraScan.Command.Reach
