import Bindery.Catalog.Basic
import Bindery.Failure
import Bindery.Naming

/-!
# Plans

A plan fixes every name and every order before code is emitted: methods lie in units, units are
sorted by name and the methods of a unit by endpoint, the arguments of a method by name.
-/
namespace Bindery

/-- One endpoint with the names it leads to and its arguments sorted by name. -/
structure Method where
  endpoint : Endpoint
  group : String
  name : String
  unit : String
  arguments : List Argument
  deriving DecidableEq, Repr

def serviceType (group : String) : String := group ++ "Service"

def sortArguments (args : List Argument) : List Argument :=
  args.mergeSort fun a b => a.name ≤ b.name

namespace Method

def ofEndpoint (e : Endpoint) : Except Failure Method :=
  match e.namespace?, e.method?, e.unit? with
  | some ns, some name, some unit =>
    let group := if e.group = "" then Naming.pascalCase ns else e.group
    .ok ⟨e, group, Naming.pascalCase name, unit, sortArguments e.arguments⟩
  | _, _, _ => .error (.endpointName e.name)

def serviceType (m : Method) : String := Bindery.serviceType m.group

def callType (m : Method) : String := m.group ++ m.name ++ "Call"

/-- The name of the function that starts a call. -/
def constructor (m : Method) : String := Naming.snakeCase m.name

def required (m : Method) : List Argument := m.arguments.filter (·.required)

def optional (m : Method) : List Argument := m.arguments.filter (!·.required)

end Method

/-- Inserts into a strictly increasing list. -/
def insertName (name : String) : List String → List String
  | [] => [name]
  | n :: rest =>
    if name < n then name :: n :: rest
    else if name == n then n :: rest
    else n :: insertName name rest

/-- The names of a list in increasing order, each once. -/
def distinctNames (names : List String) : List String := names.foldr insertName []

def sortMethods (ms : List Method) : List Method :=
  ms.mergeSort fun a b => a.endpoint.name ≤ b.endpoint.name

structure Plan where
  groups : List String
  units : List (String × List Method)
  deriving DecidableEq, Repr

namespace Plan

def ofMethods (ms : List Method) : Plan where
  groups := distinctNames (ms.map (·.group))
  units := (distinctNames (ms.map (·.unit))).map fun unit =>
    (unit, sortMethods (ms.filter (·.unit == unit)))

def ofCatalog (c : Catalog) : Except Failure Plan := do
  return ofMethods (← c.endpoints.mapM Method.ofEndpoint)

def methods (p : Plan) : List Method := p.units.flatMap (·.2)

end Plan

end Bindery
