import Bindery.Files.Tree

/-!
# Disks

What a run needs of the place where files are kept. A directory tree is such a place.
-/
namespace Bindery.Files

class Disk (m : Type → Type) where
  /-- Makes a directory and those above it that are missing. -/
  makeDirectories : String → m (Except Fault Unit)
  read : String → m (Except Fault String)
  write : String → String → m (Except Fault Unit)
  rename : String → String → m (Except Fault Unit)
  remove : String → m (Except Fault Unit)

/-- Does an operation that leaves the tree alone if it fails. -/
def change (op : Tree → Except Fault Tree) : StateM Tree (Except Fault Unit) := fun t =>
  match op t with
  | .ok t' => (.ok (), t')
  | .error why => (.error why, t)

instance : Disk (StateM Tree) where
  makeDirectories path := fun t =>
    let (t, result) := t.makeDirectories path
    (result, t)
  read path := fun t => (t.read path, t)
  write path text := change (·.write path (some text))
  rename path target := change (·.rename path target)
  remove path := change (·.remove path)

end Bindery.Files
