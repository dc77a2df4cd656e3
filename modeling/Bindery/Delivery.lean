import Bindery.Commit
import Bindery.Journal

/-!
# Whole runs

Code is emitted for a catalog and handed over. Nothing is handed over unless every file could be
rendered.
-/
namespace Bindery

open Files

/-- A run into a directory, with its journal. -/
def deliver [Monad m] [Disk m] (c : Catalog) (s : Settings) (dir : String) :
    m (Except Failure Output × List Event) := do
  let journal := Journal.ofRun c s
  match generate c s with
  | .error why => return (.error why, journal)
  | .ok o =>
    let (result, events) ← commit dir o
    match result with
    | .ok () => return (.ok o, journal ++ events ++ [Journal.complete o])
    | .error why => return (.error why, journal ++ events)

/-- A run into a shelf, with its journal. -/
def shelve (c : Catalog) (s : Settings) (shelf : Shelf) :
    Except Failure (Output × Shelf) × List Event :=
  let journal := Journal.ofRun c s
  match generate c s with
  | .error why => (.error why, journal)
  | .ok o => (.ok (o, shelf.commit o), journal ++ [Journal.complete o])

end Bindery
