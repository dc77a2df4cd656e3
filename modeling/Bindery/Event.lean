/-!
# Events

What a run reports while it works.
-/
namespace Bindery

inductive Level where
  | warn
  | info
  | debug
  deriving DecidableEq, Repr

def Level.name : Level → String
  | .warn => "WARN"
  | .info => "INFO"
  | .debug => "DEBUG"

structure Event where
  level : Level
  message : String
  fields : List (String × String) := []
  deriving DecidableEq, Repr

/-- The line of an event, without the time. -/
def Event.line (e : Event) : String :=
  String.ofList (List.replicate (5 - e.level.name.length) ' ') ++ e.level.name ++ " " ++
    " ".intercalate (e.message :: e.fields.map fun f => f.1 ++ "=" ++ f.2)

end Bindery
