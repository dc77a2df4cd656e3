import Bindery.Catalog.Format
import Bindery.Command.Options
import Bindery.Delivery

/-!
# Running a command line
-/
namespace Bindery.Command

open Files

/-- What is printed, in order. Events are printed with the time in front. -/
inductive Printed where
  | text (s : String)
  | event (e : Event)
  deriving DecidableEq, Repr

/-- The end of a run: its exit code, what it printed, and what failed. -/
structure Outcome where
  exit : UInt32
  printed : List Printed := []
  failure : Option Failure := none

/-- Whether events of a level are printed. -/
def shows (verbosity : Nat) : Level → Bool
  | .warn => true
  | .info => verbosity ≥ 1
  | .debug => verbosity ≥ 2

def printedEvents (verbosity : Nat) (events : List Event) : List Printed :=
  (events.filter (shows verbosity ·.level)).map .event

/-- The exit code of a failed run. A run that fails without an error of its own is aborted. -/
def exitCode : Failure → UInt32
  | .notWord _ => 101
  | .noLayout => 101
  | _ => 1

/-- The catalog in a file. -/
def load [Monad m] [Disk m] (path : String) : m (Except Failure Catalog) := do
  match ← Disk.read path with
  | .error why => return .error (.catalog (.unreadable path why))
  | .ok text =>
    return (Catalog.parse text).mapError fun why => .catalog (.malformed path why)

def dryRunText (f : OutputFile) : String := s!"=== {f.name} ===\n{f.content}\n\n"

/-- Emits code for the catalog of the options. Which events are printed depends on how often `-v` is
given and on nothing else: no filter for events is set in the environment. -/
def execute [Monad m] [Disk m] (o : Options) : m Outcome := do
  let print := printedEvents o.verbosity
  match ← load o.catalog with
  | .error why => return ⟨exitCode why, [], some why⟩
  | .ok c =>
    let loaded : Event := ⟨.info, "loaded catalog",
      [("catalog", o.catalog), ("endpoints", toString c.endpoints.length)]⟩
    if o.dryRun then
      let journal := print (loaded :: Journal.ofRun c o.settings)
      match generate c o.settings with
      | .ok out => return ⟨0, journal ++ out.files.map fun f => .text (dryRunText f), none⟩
      | .error why => return ⟨exitCode why, journal, some why⟩
    else
      let (result, events) ← deliver c o.settings o.output
      match result with
      | .ok out =>
        let done : Event := ⟨.info, "generated bindings",
          [("files", toString out.files.length), ("output", o.output)]⟩
        return ⟨0, print (loaded :: events ++ [done]), none⟩
      | .error why => return ⟨exitCode why, print (loaded :: events), some why⟩

def run [Monad m] [Disk m] (args : List String) : m Outcome := do
  match Request.ofArgs args with
  | .run o => execute o
  | .help => return ⟨0, [.text helpText], none⟩
  | .version => return ⟨0, [.text versionText], none⟩
  | .misuse => return ⟨2, [], none⟩

end Bindery.Command
