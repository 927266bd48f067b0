import InfraScan.Image.PodSpec
import InfraScan.Report.Style
import InfraScan.Store

/-!
# Reports

The results of a run as lines of text, or as a value.

* `contextLines` — the contexts of a store
* `imageLines` — the images of a graph
* `imageReport` — the images of a graph as a value
-/

namespace InfraScan.Report

/-- The name of the program. -/
def program : String := "resgraph"

/-- The version of the program. -/
def version : String := "0.3.0"

/-- The title of a report. -/
def title (palette : Palette) (subject : String) : String :=
  palette.paint .bold (" " ++ program ++ " v" ++ version ++ " — " ++ subject)

/-- What stands before a line that belongs to the line above it. -/
def branch (palette : Palette) : String := " " ++ palette.paint .dim "|-"

/-- The reason of a check that was taken off without one. -/
def noReason : String := "no reason given"

/-! ### Contexts -/

/-- The line of a check that was taken off. -/
def checkLine (palette : Palette) (check : SkippedCheck) : String :=
  branch palette ++ "     " ++ palette.paint .caution "SKIP" ++ " " ++ check.id ++ " " ++
    palette.paint .dim ("(" ++ check.comment.getD noReason ++ ")")

/-- The lines of a block. -/
def blockLines (palette : Palette) (id : String) (entry : BlockEntry) : List String :=
  (branch palette ++ "   " ++ id ++ " (lines " ++ toString entry.startLine ++ "-" ++
    toString entry.endLine ++ ")") :: entry.skippedChecks.map (checkLine palette)

/-- The lines of a category. -/
def categoryLines (palette : Palette) (category : String) (contexts : CategoryContexts) :
    List String :=
  (branch palette ++ " " ++ palette.paint .accent category) ::
    contexts.toList.flatMap fun block => blockLines palette block.1 block.2

/-- The lines of a key, with an empty line after them. -/
def keyLines (palette : Palette) (key : StoreKey) (categories : FileContexts) : List String :=
  (" " ++ palette.paint .heading key.render) ::
    (categories.toList.flatMap fun category => categoryLines palette category.1 category.2) ++
      [""]

/-- **The contexts of a store.** -/
def contextLines (palette : Palette) (store : ContextStore) : List String :=
  ["", title palette "Block context", ""] ++
    if store.isEmpty then [" " ++ palette.paint .dim "--" ++ " No blocks were enriched."]
    else store.entries.toList.flatMap fun entry => keyLines palette entry.1 entry.2

/-! ### Images -/

/-- The lines of an image. -/
def linesOfImage (palette : Palette) (image : Image) : List String :=
  [" " ++ palette.paint .accent "*" ++ " " ++ palette.paint .bold image.name,
   branch palette ++ " " ++ image.filePath ++ ":" ++ toString image.startLine ++ "-" ++
     toString image.endLine,
   branch palette ++ " resource: " ++ image.relatedResourceId]

/-- **The images of a graph** with some number of resources. -/
def imageLines (palette : Palette) (resources : Nat) (images : List Image) : List String :=
  ["", title palette "Image references",
    branch palette ++ " " ++ toString resources ++ " resources scanned, " ++
      toString images.length ++ " unique images", ""] ++
    if images.isEmpty then [" " ++ palette.paint .good "OK" ++ " No container images found."]
    else images.flatMap (linesOfImage palette) ++ [""]

/-- **The images of a graph as a value**, with the time of the report. -/
def imageReport (time : String) (framework : Framework) (resources : Nat)
    (images : List Image) : Json :=
  .obj [
    ("generated_at", .str time),
    ("graph_framework", .str framework.word),
    ("resource_count", .ofNat resources),
    ("images", .arr (images.map Image.toJson))]

end InfraScan.Report
