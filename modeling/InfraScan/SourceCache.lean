import InfraScan.Fault
import InfraScan.OrderedMap
import InfraScan.Text.Lines

/-!
# The source cache

Source files are read once, when their first line is wanted, and stay as they were read from
then on.  The disk is a function that says what reading a path gives at the moment; it may be
a different function at the next call.

* `SourceCache` — the lines of every file read or put in so far
* `SourceCache.insert` — put a text in
* `SourceCache.load` — the lines of a file, from the cache if they are there
* `slice` — numbered lines of a range
* `SourceCache.lines` — numbered lines of a range of a file
-/

namespace InfraScan

/-- **The lines of every file read or put in so far.** -/
structure SourceCache where
  files : OrderedMap String (List String)
  deriving DecidableEq

namespace SourceCache

/-- The cache before anything was read. -/
def empty : SourceCache := ⟨∅⟩

instance : Inhabited SourceCache := ⟨empty⟩

/-- The lines of a source text.  Every carriage return at the end of a line is dropped. -/
def splitSource (text : String) : List String :=
  (Text.lines text.toList).map fun line => String.ofList (Text.dropTail (· = '\r') line)

/-- Put a text in for a path, whatever is there. -/
def insert (cache : SourceCache) (path text : String) : SourceCache :=
  ⟨cache.files.insert path (splitSource text)⟩

/-- The lines of a path are in the cache. -/
def contains (cache : SourceCache) (path : String) : Bool := cache.files.contains path

/-- The lines of a path that is in the cache. -/
def get? (cache : SourceCache) (path : String) : Option (List String) := cache.files.get? path

/-- **The lines of a file**, and the cache afterwards.  A file that is not in the cache is
read and stays in it; a failed read leaves no trace. -/
def load (cache : SourceCache) (read : TextReader) (path : String) :
    Except Fault (List String) × SourceCache :=
  match cache.get? path with
  | some lines => (.ok lines, cache)
  | none =>
    match read path with
    | .error cause => (.error (.sourceRead path cause), cache)
    | .ok text => (.ok (splitSource text), ⟨cache.files.insert path (splitSource text)⟩)

end SourceCache

/-- The lines `startLine` to `endLine` of a file with their numbers, which count from one.
Numbers outside the file are left out. -/
def slice (lines : List String) (startLine endLine : Nat) : List (Nat × String) :=
  let first := max startLine 1
  ((lines.take endLine).drop (first - 1)).zipIdx first |>.map fun line => (line.2, line.1)

namespace SourceCache

/-- **Numbered lines of a range of a file**, and the cache afterwards. -/
def lines (cache : SourceCache) (read : TextReader) (path : String)
    (startLine endLine : Nat) : Except Fault (List (Nat × String)) × SourceCache :=
  let loaded := cache.load read path
  (loaded.1.map fun all => slice all startLine endLine, loaded.2)

end SourceCache

example : slice ["a", "b", "c"] 0 2 = [(1, "a"), (2, "b")] := by decide

example : slice ["a", "b", "c"] 3 9 = [(3, "c")] := by decide

end InfraScan
