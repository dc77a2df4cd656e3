import Bindery.Text.Blank

/-!
# Paths

A path is a text of names between slashes. Empty names and single dots do not count as steps, except
for a dot at the beginning.
-/
namespace Bindery.Files

/-- What stands between the slashes of a path. -/
def pieces (path : String) : List String :=
  (Text.splitBy (· == '/') path.toList).map String.ofList

def isStep (piece : String) : Bool := !(piece == "" || piece == ".")

/-- The steps of a path. -/
def steps (path : String) : List String := (pieces path).filter isStep

/-- The part of a path that cannot be dropped: the root, or a dot at the beginning. -/
def fixedPart (path : String) : List String :=
  match pieces path with
  | "" :: _ :: _ => [""]
  | "." :: _ => ["."]
  | _ => []

/-- Drops what does not count at the end. -/
def dropIdle (ps : List String) : List String := (ps.reverse.dropWhile (!isStep ·)).reverse

/-- The pieces of a path behind its fixed part, up to its last step. -/
def body (path : String) : List String :=
  dropIdle ((pieces path).drop (fixedPart path).length)

/-- The path of a fixed part and some pieces. -/
def ofPieces (fixed rest : List String) : String :=
  if fixed == [""] && rest.isEmpty then "/" else "/".intercalate (fixed ++ rest)

/-- The path without its last step. -/
def parent? (path : String) : Option String :=
  match body path with
  | [] =>
    match fixedPart path with
    | ["."] => some ""
    | _ => none
  | rest => some (ofPieces (fixedPart path) (dropIdle rest.dropLast))

/-- The last step of a path, if it is a name. -/
def fileName? (path : String) : Option String :=
  match (body path).getLast? with
  | some ".." => none
  | name => name

/-- A path below another one, or the path itself if it starts at the root. -/
def join (path name : String) : String :=
  if name.startsWith "/" || path == "" then name
  else if path.endsWith "/" then path ++ name
  else path ++ "/" ++ name

/-- Another name in the place of a path's name, or below it if it has none. -/
def withFileName (path name : String) : String :=
  match fileName? path with
  | some _ => join ((parent? path).getD "") name
  | none => join path name

end Bindery.Files
