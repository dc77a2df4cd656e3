import Bindery.Event
import Bindery.Files.Disk
import Bindery.Keyed
import Bindery.Output

/-!
# Committing output

Output is handed over as a whole. In a directory, all files are first written beside their targets;
only when that has worked are they moved over the targets.
-/
namespace Bindery

open Files

/-- Files kept by name, sorted. -/
abbrev Shelf := Keyed String

namespace Shelf

def commit (s : Shelf) (o : Output) : Shelf :=
  o.files.foldl (fun s f => Keyed.put f.name f.content s) s

def get? (s : Shelf) (name : String) : Option String := s.lookup name

end Shelf

/-- A path beside a target, for its content until all is written. -/
def tempPath (path : String) : String := withFileName path ((fileName? path).getD "" ++ ".tmp")

namespace Commit

/-- A file on its way: where it was written, and where it belongs. -/
structure Staged where
  temp : String
  target : String
  deriving DecidableEq, Repr

variable [Monad m] [Disk m]

/-- Removes files that were written beside their targets. -/
def removeTemps : List Staged → m (List Event)
  | [] => return []
  | s :: rest => do
    let event ← match ← Disk.remove s.temp with
      | .ok () => pure []
      | .error why =>
        pure [⟨.warn, "failed to remove temp file", [("path", s.temp), ("error", why.message)]⟩]
    return event ++ (← removeTemps rest)

/-- Writes files beside their targets. `done` holds those already written. -/
def stage (dir : String) (done : List Staged) :
    List OutputFile → m (Except Failure (List Staged) × List Event)
  | [] => return (.ok done, [])
  | f :: rest => do
    let target := join dir f.name
    let temp := tempPath target
    match ← Disk.write temp f.content with
    | .ok () => stage dir (done ++ [⟨temp, target⟩]) rest
    | .error why => return (.error (.write temp why), ← removeTemps done)

/-- Moves files over their targets. At the first failure the files not yet moved are removed. -/
def move : List Staged → m (Except Failure Unit × List Event)
  | [] => return (.ok (), [])
  | s :: rest => do
    match ← Disk.rename s.temp s.target with
    | .ok () =>
      let (result, events) ← move rest
      return (result, ⟨.info, "wrote generated unit", [("path", s.target)]⟩ :: events)
    | .error why => return (.error (.write s.target why), ← removeTemps (s :: rest))

end Commit

/-- Puts output into a directory. -/
def commit [Monad m] [Disk m] (dir : String) (o : Output) :
    m (Except Failure Unit × List Event) := do
  match ← Disk.makeDirectories dir with
  | .error why => return (.error (.write dir why), [])
  | .ok () =>
    match ← Commit.stage dir [] o.files with
    | (.error why, events) => return (.error why, events)
    | (.ok staged, _) => Commit.move staged

end Bindery
