import Ostinato.Text.Blank

/-!
# Paths

A path is a text of segments between slashes.  An empty segment and a single dot name the directory that they are
in, two dots name the one above it.

* `splitLast`: the last segment that counts and what stands in front of it.
* `fileName?`: the name of the file that a path names.
* `partialPath`: the path of the file that is written before it takes the place of the file at a path.
-/

namespace Ostinato.Path

def segments (path : String) : List String :=
  (Text.pieces '/' path.toList).map String.ofList

/-- The segments joined by slashes. -/
def join (segments : List String) : String :=
  "/".intercalate segments

/-- Whether a segment names the directory that it is in. -/
def isHere (segment : String) : Bool :=
  segment == "" || segment == "."

/-- The last segment that does not name the directory that it is in, if there is one, and the segments in front
of it. -/
def splitLast (path : String) : List String × Option String :=
  match (segments path).reverse.dropWhile isHere with
  | [] => (segments path, none)
  | last :: front => (front.reverse, some last)

/-- The name of the file or directory that a path names, unless it ends in a step upwards or names where it
starts. -/
def fileName? (path : String) : Option String :=
  (splitLast path).2.filter (· != "..")

/-- The segments of a directory without those at their end that stay in it.  The first segment stays, whatever it
is, since it tells where the path starts. -/
def trimEnd : List String → List String
  | [] => []
  | first :: rest => first :: (rest.reverse.dropWhile isHere).reverse

/-- The path with the given file name in the place of its own, or behind it if it has none. -/
def withFileName (path name : String) : String :=
  match fileName? path with
  | some _ => join (trimEnd (splitLast path).1 ++ [name])
  | none => if path.isEmpty then name else if path.endsWith "/" then path ++ name else path ++ "/" ++ name

/-- The path of the file beside the one at `path` that is written first. -/
def partialPath (path : String) : String :=
  withFileName path ((fileName? path).getD "" ++ ".partial")

end Ostinato.Path
