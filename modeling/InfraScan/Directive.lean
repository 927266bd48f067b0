import InfraScan.Fault
import InfraScan.Text.Blank

/-!
# Suppression directives

A comment such as `# resgraph:skip=CKV_AWS_20: public bucket is intended` takes a check off
the block it stands in.  A directive is a mark (`resgraph:skip=`), blanks, and the id of a
check; after a colon, everything up to the next directive or the end of the line is the
reason.

* `SkippedCheck` — a check taken off, with its reason
* `DirectiveScanner` — a non-empty list of marks
* `parseAt` — the directive that starts right here
* `next?` — the leftmost directive of a text
* `directives` — all directives of a text, each with the text up to the next one
* `DirectiveScanner.scanLine`, `DirectiveScanner.scan` — the checks of a line and of several
  lines
-/

namespace InfraScan

/-- A check that a directive takes off, with the reason it gives. -/
structure SkippedCheck where
  id : String
  comment : Option String
  deriving Repr, DecidableEq

namespace Directive

/-- The characters of a check id: ASCII letters, digits and the underscore. -/
def isWord (c : Char) : Bool := c.isAlphanum || c = '_'

/-- The directive with one mark that starts at the front of the text: the id and the text
after it.  Blanks between the mark and the id do not count; without an id there is no
directive. -/
def parseMark (mark text : List Char) : Option (List Char × List Char) :=
  if mark.isPrefixOf text then
    let body := (text.drop mark.length).dropWhile Text.isBlank
    let id := body.takeWhile isWord
    if id = [] then none else some (id, body.dropWhile isWord)
  else none

/-- The directive at the front of the text: the first mark of the list that makes one. -/
def parseAt (marks : List (List Char)) (text : List Char) : Option (List Char × List Char) :=
  marks.findSome? (parseMark · text)

/-- The leftmost directive of a text. -/
structure Found where
  before : List Char
  id : List Char
  after : List Char
  deriving Repr, DecidableEq

/-- **The leftmost directive of a text.** -/
def next? (marks : List (List Char)) : List Char → Option Found
  | [] => none
  | c :: rest =>
    match parseAt marks (c :: rest) with
    | some (id, after) => some ⟨[], id, after⟩
    | none => (next? marks rest).map fun found => { found with before := c :: found.before }

theorem length_of_parseMark {mark text id after : List Char}
    (h : parseMark mark text = some (id, after)) : after.length < text.length := by
  unfold parseMark at h
  split at h
  · simp only at h
    split at h
    · simp at h
    · rename_i nonempty
      simp only [Option.some.injEq, Prod.mk.injEq] at h
      obtain ⟨rfl, rfl⟩ := h
      generalize hb : (text.drop mark.length).dropWhile Text.isBlank = body at *
      have split : (body.takeWhile isWord).length + (body.dropWhile isWord).length =
          body.length := by
        rw [← List.length_append, List.takeWhile_append_dropWhile]
      have short : body.length ≤ text.length := by
        rw [← hb]
        exact Nat.le_trans (List.dropWhile_sublist _).length_le
          (by rw [List.length_drop]; exact Nat.sub_le _ _)
      have pos := List.length_pos_iff.2 nonempty
      omega
  · simp at h

theorem length_of_parseAt {marks : List (List Char)} {text id after : List Char}
    (h : parseAt marks text = some (id, after)) : after.length < text.length := by
  obtain ⟨mark, -, hm⟩ := List.exists_of_findSome?_eq_some h
  exact length_of_parseMark hm

theorem length_of_next? {marks : List (List Char)} {text : List Char} {found : Found}
    (h : next? marks text = some found) : found.after.length < text.length := by
  induction text generalizing found with
  | nil => simp [next?] at h
  | cons c rest ih =>
    unfold next? at h
    split at h
    · rename_i id after hp
      simp only [Option.some.injEq] at h
      subst h
      exact length_of_parseAt hp
    · obtain ⟨inner, hi, rfl⟩ := Option.map_eq_some_iff.1 h
      have shorter := ih hi
      exact Nat.lt_succ_of_lt shorter

/-- The directives of a text, each as its id and the text up to the next directive. -/
def directives (marks : List (List Char)) (text : List Char) : List (List Char × List Char) :=
  match _h : next? marks text with
  | none => []
  | some found =>
    let gap := match next? marks found.after with
      | none => found.after
      | some following => following.before
    (found.id, gap) :: directives marks found.after
termination_by text.length
decreasing_by exact length_of_next? _h

/-- The reason in the text after a directive's id: what follows a colon, trimmed, unless
nothing is left of it. -/
def comment? : List Char → Option (List Char)
  | ':' :: rest => if Text.trim rest = [] then none else some (Text.trim rest)
  | _ => none

/-- The check that a directive takes off. -/
def check (directive : List Char × List Char) : SkippedCheck :=
  ⟨String.ofList directive.1, (comment? directive.2).map String.ofList⟩

end Directive

/-- **A directive scanner** looks for the marks of a non-empty list. -/
structure DirectiveScanner where
  marks : List String
  marks_ne_nil : marks ≠ []
  deriving DecidableEq

namespace DirectiveScanner

/-- The mark that is used when none is configured. -/
def defaultMark : String := "resgraph:skip="

/-- The scanner for a list of marks, unless the list is empty. -/
def ofMarks (marks : List String) : Except SettingsFault DirectiveScanner :=
  if h : marks = [] then .error .noMarks else .ok ⟨marks, h⟩

/-- The scanner for the default mark alone. -/
def standard : DirectiveScanner := ⟨[defaultMark], by simp⟩

instance : Inhabited DirectiveScanner := ⟨standard⟩

/-- **The checks that the directives of a line take off**, in order. -/
def scanLine (scanner : DirectiveScanner) (line : String) : List SkippedCheck :=
  (Directive.directives (scanner.marks.map String.toList) line.toList).map Directive.check

/-- The checks of several lines, line by line. -/
def scan (scanner : DirectiveScanner) (lines : List String) : List SkippedCheck :=
  lines.flatMap scanner.scanLine

@[simp] theorem scan_nil (scanner : DirectiveScanner) : scanner.scan [] = [] := rfl

@[simp] theorem scan_append (scanner : DirectiveScanner) (xs ys : List String) :
    scanner.scan (xs ++ ys) = scanner.scan xs ++ scanner.scan ys := List.flatMap_append

end DirectiveScanner

end InfraScan
