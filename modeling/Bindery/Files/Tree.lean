import Bindery.Files.Fault
import Bindery.Files.Path

/-!
# Directory trees

A tree holds directories and files by their place, the list of names that leads to them from the
root. Paths are resolved step by step from the working directory, or from the root.
-/
namespace Bindery.Files

/-- Content that is no text is not kept. -/
inductive Node where
  | directory
  | file (text : Option String)
  deriving DecidableEq, Repr

/-- The names that lead to a node, the last one first. -/
abbrev Place := List String

/-- Directories and files by their places. Links and permissions are left out, and so are writes that
fail when the file is already there, as on a full disk: what is said to stay as it was is said of
trees without them. -/
structure Tree where
  nodes : List (Place × Node) := []
  /-- The working directory. -/
  here : Place := []
  deriving Repr

namespace Tree

/-- The node at a place. The root is always a directory. -/
def get? (t : Tree) (p : Place) : Option Node :=
  if p.isEmpty then some .directory else t.nodes.lookup p

def erase (t : Tree) (p : Place) : Tree := { t with nodes := t.nodes.filter (·.1 != p) }

def put (t : Tree) (p : Place) (n : Node) : Tree :=
  { t with nodes := (p, n) :: (t.erase p).nodes }

/-- Removes a node and all below it. -/
def eraseAll (t : Tree) (p : Place) : Tree :=
  { t with nodes := t.nodes.filter fun x => !(p.isSuffixOf x.1) }

/-! ## Resolving paths -/

/-- The longest name that a directory can hold, in bytes. -/
def nameLimit : Nat := 255

/-- The longest path, in bytes. -/
def pathLimit : Nat := 4095

/-- The last step of a path as it stands in a directory. -/
inductive Target where
  /-- A name. `slash` says that the path goes on with a slash. -/
  | name (n : String) (slash : Bool)
  /-- The directory itself, or the one above it. -/
  | dots
  deriving DecidableEq, Repr

/-- The directory that one more step leads to. -/
def descend (t : Tree) (p : Place) (name : String) : Except Fault Place :=
  if !isStep name then .ok p
  else if name == ".." then .ok p.tail
  else if name.utf8ByteSize > nameLimit then .error .nameTooLong
  else match t.get? (name :: p) with
    | some .directory => .ok (name :: p)
    | some (.file _) => .error .notDirectory
    | none => .error .notFound

/-- The steps before the last one, the last one, and whether a slash follows it. -/
def splitLast (ps : List String) : List String × Option (String × Bool) :=
  let kept := (ps.reverse.dropWhile (· == "")).reverse
  match kept.getLast? with
  | none => ([], none)
  | some name => (kept.dropLast, some (name, kept.length < ps.length))

/-- The directory that holds the end of a path, and the end. -/
def resolve (t : Tree) (path : String) : Except Fault (Place × Target) := do
  if path.toList.contains '\x00' then throw .nullInPath
  if path == "" then throw .notFound
  if path.utf8ByteSize > pathLimit then throw .nameTooLong
  let start := if path.startsWith "/" then [] else t.here
  let (front, last) := splitLast (pieces path)
  let p ← front.foldlM t.descend start
  match last with
  | none => return (p, .dots)
  | some (name, slash) =>
    if name == "." || name == ".." then return (p, .dots)
    if name.utf8ByteSize > nameLimit then throw .nameTooLong
    return (p, .name name slash)

/-- Whether a path leads to a directory. -/
def isDirectory (t : Tree) (path : String) : Bool :=
  match t.resolve path with
  | .ok (p, .name n _) => t.get? (n :: p) == some .directory
  | .ok (_, .dots) => true
  | .error _ => false

/-! ## Operations -/

def makeDirectory (t : Tree) (path : String) : Except Fault Tree := do
  match ← t.resolve path with
  | (_, .dots) => throw .alreadyExists
  | (p, .name n _) =>
    match t.get? (n :: p) with
    | some _ => throw .alreadyExists
    | none => return t.put (n :: p) .directory

/-- Makes a directory and those above it that are missing, trying at most `n` of them. What could be
made stays even if the rest fails. -/
def makeDirectoriesFrom : Nat → Tree → String → Tree × Except Fault Unit
  | 0, t, _ => (t, .error .notFound)
  | n + 1, t, path =>
    if path == "" then (t, .ok ())
    else match t.makeDirectory path with
      | .ok t => (t, .ok ())
      | .error .notFound =>
        match parent? path with
        | none => (t, .error .notFound)
        | some above =>
          match makeDirectoriesFrom n t above with
          | (t, .error why) => (t, .error why)
          | (t, .ok ()) =>
            match t.makeDirectory path with
            | .ok t => (t, .ok ())
            | .error why => (t, if t.isDirectory path then .ok () else .error why)
      | .error why => (t, if t.isDirectory path then .ok () else .error why)

def makeDirectories (t : Tree) (path : String) : Tree × Except Fault Unit :=
  makeDirectoriesFrom (path.length + 1) t path

/-- Writes a file, over an old one if there is one. -/
def write (t : Tree) (path : String) (text : Option String) : Except Fault Tree := do
  match ← t.resolve path with
  | (_, .dots) => throw .isDirectory
  | (_, .name _ true) => throw .isDirectory
  | (p, .name n false) =>
    match t.get? (n :: p) with
    | some .directory => throw .isDirectory
    | _ => return t.put (n :: p) (.file text)

/-- The text of a file. -/
def read (t : Tree) (path : String) : Except Fault String := do
  match ← t.resolve path with
  | (_, .dots) => throw .isDirectory
  | (p, .name n slash) =>
    match t.get? (n :: p) with
    | some .directory => throw .isDirectory
    | some (.file text) =>
      if slash then throw .notDirectory
      match text with
      | some text => return text
      | none => throw .notText
    | none => throw .notFound

/-- Moves a file to another path, over an old file if there is one. -/
def rename (t : Tree) (path target : String) : Except Fault Tree := do
  let (p, first) ← t.resolve path
  let (q, second) ← t.resolve target
  match first, second with
  | .name n slash, .name m slash' =>
    match t.get? (n :: p) with
    | none => throw .notFound
    | some .directory => throw .invalid
    | some (.file text) =>
      if slash || slash' then throw .notDirectory
      match t.get? (m :: q) with
      | some .directory => throw .isDirectory
      | _ => return (t.erase (n :: p)).put (m :: q) (.file text)
  | _, _ => throw .busy

/-- Removes a file. -/
def remove (t : Tree) (path : String) : Except Fault Tree := do
  match ← t.resolve path with
  | (_, .dots) => throw .isDirectory
  | (p, .name n slash) =>
    match t.get? (n :: p) with
    | none => throw .notFound
    | some .directory => throw .isDirectory
    | some (.file _) => if slash then throw .notDirectory else return t.erase (n :: p)

/-! ## Listing -/

def insertEntry (x : String × Node) : List (String × Node) → List (String × Node)
  | [] => [x]
  | y :: rest => if x.1 ≤ y.1 then x :: y :: rest else y :: insertEntry x rest

/-- All below the working directory, each with its path from there, in order. -/
def list (t : Tree) : List (String × Node) :=
  (t.nodes.filterMap fun x =>
    if t.here.isSuffixOf x.1 && x.1.length > t.here.length then
      some ("/".intercalate (x.1.take (x.1.length - t.here.length)).reverse, x.2)
    else none).foldr insertEntry []

/-- A tree whose working directory is empty. -/
def empty : Tree := ⟨[(["work"], .directory)], ["work"]⟩

end Tree

end Bindery.Files
