import Bindery.Call.Fault
import Bindery.Form.Basic
import Bindery.Validation

/-!
# Calls

A call holds a value for each argument of its endpoint. Required arguments are given when it is
made, the others are set later. An argument that holds the empty value of its type is not set and is
not sent.

This is what the functions of a unit do when they run; their code is emitted one by one under
`Bindery.Emission`, and each definition names the code that it stands for.
-/
namespace Bindery

/-- A value of some type of objects: what it is written as, or why it cannot be. -/
abbrev Encodable := Except Json.Fault Json

/-- What an argument holds. -/
inductive Held where
  | text (s : String)
  | boolean (b : Bool)
  | integer (n : Int64)
  | list (items : List Encodable)
  | object (value : Option Encodable)

namespace Held

/-- What an argument holds that is not set, the value of `Emission.Slot.unset`. -/
def zero : ArgType → Held
  | .text => .text ""
  | .boolean => .boolean false
  | .integer => .integer 0
  | .list _ => .list []
  | .object _ => .object none

/-- The condition of `Emission.Slot.isUnset`; for an object, that the pattern of
`Emission.Slot.send` does not match. -/
def isUnset : Held → Bool
  | .text s => s.isEmpty
  | .boolean b => !b
  | .integer n => n == 0
  | .list items => items.isEmpty
  | .object value => value.isNone

/-- The text that is sent for an argument, the value of `Emission.Slot.sent`. -/
def sent : Held → Except Json.Fault String
  | .text s => .ok s
  | .boolean b => .ok (if b then "true" else "false")
  | .integer n => .ok (toString n.toInt)
  | .list items => do return Json.text (.array (← items.mapM id))
  | .object none => .ok "null"
  | .object (some value) => do return Json.text (← value)

/-- A list with one more element. -/
def append (item : Encodable) : Held → Held
  | .list items => .list (items ++ [item])
  | other => other

end Held

/-- A change to the argument of some name, by one of the functions of `Emission.Slot.setters`. -/
inductive Change where
  | set (name : String) (value : Held)
  | append (name : String) (item : Encodable)

def Change.name : Change → String
  | .set name _ => name
  | .append name _ => name

def Change.held : Change → Held → Held
  | .set _ value, _ => value
  | .append _ item, h => h.append item

structure Call where
  endpoint : Endpoint
  /-- The arguments in the order of their names, with what they hold. -/
  held : List (Argument × Held)

namespace Call

/-- Gives the required arguments the given values in turn; the others are not set. -/
def fill : List Argument → List Held → List (Argument × Held)
  | [], _ => []
  | a :: rest, given =>
    if a.required then
      match given with
      | [] => (a, .zero a.type) :: fill rest []
      | h :: more => (a, h) :: fill rest more
    else (a, .zero a.type) :: fill rest given

/-- A new call, as `Emission.startFn` makes it. -/
def start (m : Method) (given : List Held) : Call := ⟨m.endpoint, fill m.arguments given⟩

/-- A call after one function of `Emission.Slot.setters` has been called on it. -/
def change (c : Call) (ch : Change) : Call :=
  { c with held := c.held.map fun p => if p.1.name = ch.name then (p.1, ch.held p.2) else p }

/-- Puts an argument into the form, as the statements of `Emission.Slot.send` do. -/
def send (f : Form) (p : Argument × Held) : Except Fault Form :=
  if p.2.isUnset then
    if p.1.required then .error (.missingParameter p.1.name) else .ok f
  else
    match p.2.sent with
    | .ok s => .ok (f.set p.1.queryKey s)
    | .error why => .error (.encode p.1.name why)

/-- The form that is sent for a call, the result of `Emission.formFn`. -/
def form (c : Call) (tokenKey token : String) : Except Fault Form :=
  let f := if c.endpoint.skipToken then Form.empty else Form.empty.set tokenKey token
  c.held.foldlM send f

end Call

end Bindery
