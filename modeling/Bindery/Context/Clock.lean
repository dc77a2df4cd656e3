import Bindery.Context.Basic
import Bindery.Context.Race

/-!
# Time

Time stands still while anything can happen, and then goes on to the next time something is due.
Tasks wait for a time and then cancel a mark.
-/
namespace Bindery

/-- The time, the contexts and the tasks that will cancel marks. -/
structure Clock where
  now : Nat := 0
  contexts : Contexts := .start
  /-- Tasks that have not started, with the time they will wait. -/
  tasks : List (Nat × Mark) := []
  /-- Tasks that wait, with the time they wait for. -/
  timers : List (Nat × Mark) := []
  /-- Tasks whose time has come. -/
  due : List Mark := []

namespace Clock

def cancelMarks (clock : Clock) (marks : List Mark) : Clock :=
  { clock with contexts := marks.foldl Contexts.cancelMark clock.contexts }

/-- Lets all tasks go on until they wait. -/
def settle (clock : Clock) : Clock :=
  let prompt := (clock.tasks.filter (·.1 == 0)).map Prod.snd
  let waiting := (clock.tasks.filter (·.1 != 0)).map fun t => (clock.now + t.1, t.2)
  let clock := clock.cancelMarks (clock.due ++ prompt)
  { clock with tasks := [], timers := clock.timers ++ waiting, due := [] }

/-- Moves to a time. Tasks that waited for it are due. -/
def moveTo (clock : Clock) (time : Nat) : Clock :=
  let (fired, timers) := clock.timers.partition (·.1 ≤ time)
  { clock with now := time, timers, due := clock.due ++ fired.map Prod.snd }

/-- Moves on by a span of time. Tasks start before those that are due by then are found. -/
def advance (clock : Clock) (span : Nat) : Clock :=
  let clock := ({ clock with now := clock.now + span } : Clock).settle
  clock.moveTo clock.now

def cancel (clock : Clock) (index : Nat) : Clock :=
  { clock with contexts := clock.contexts.cancel index }

/-- Makes a context; none if its deadline lies beyond time. -/
def derive? (clock : Clock) (index : Nat) (d : Derivation) : Option Clock := do
  return { clock with contexts := ← clock.contexts.derive? clock.now index d }

/-- What is there of a race in a context for a result that is ready at a time. -/
def poll (clock : Clock) (c : Context) (ready : Nat) (result : Except Post.Fault α) : Poll α where
  cancelled := clock.contexts.isCancelled c
  expired := c.deadline.any (· ≤ clock.now)
  result := if ready ≤ clock.now then some result else none

/-- The next time at which a race may end or a task is due. -/
def next (clock : Clock) (c : Context) (ready : Nat) : Nat :=
  let times := c.deadline.toList ++ clock.timers.map Prod.fst
  times.foldl min ready

/-- Goes on with a race until it ends. Each step but the last passes a timer. -/
def raceFrom (c : Context) (ready : Nat) (result : Except Post.Fault α) :
    Nat → Clock → Except Post.Fault α × Clock
  | 0, clock => (result, clock)
  | steps + 1, clock =>
    match (clock.poll c ready result).outcome? with
    | some outcome => (outcome, clock)
    | none =>
      let clock := clock.settle
      match (clock.poll c ready result).outcome? with
      | some outcome => (outcome, clock)
      | none => raceFrom c ready result steps (clock.moveTo (clock.next c ready))

/-- Races a result that is ready after a span of time. -/
def race (clock : Clock) (c : Context) (span : Nat) (result : Except Post.Fault α) :
    Except Post.Fault α × Clock :=
  raceFrom c (clock.now + span) result (clock.tasks.length + clock.timers.length + 2) clock

/-- Starts a task that cancels the context at an index after a span of time. -/
def start (clock : Clock) (span index : Nat) : Clock :=
  match clock.contexts.made[index]? with
  | some c => { clock with tasks := clock.tasks ++ [(span, c.mark)] }
  | none => clock

end Clock

end Bindery
