import Bindery.Plan

/-!
# Validation of catalogs

A catalog is checked before code is emitted, so that a problem is reported with the entry that
causes it. The first problem in catalog order counts.
-/
namespace Bindery

namespace Argument

/-- The name of the setter that appends one element. -/
def appendName (a : Argument) : String := a.singular.getD (Naming.singularize a.name)

/-- The names of the functions that set an argument. Required arguments are given at the start of
a call and have none. -/
def setterNames (a : Argument) : List String :=
  if a.required then []
  else if a.type.isList then
    ["set_" ++ Naming.snakeCase a.name, Naming.snakeCase a.appendName]
  else [Naming.snakeCase a.name]

end Argument

/-- The type a text stands for. -/
def readType (endpoint type : String) : Except Failure Source.Ty :=
  match Source.Ty.read type with
  | .ok t => .ok t
  | .error why => .error (.badType endpoint type (.unreadable why))

namespace Validation

/-- The field of a call that refers to its service. -/
def serviceField : String := "service"

/-- The functions every call has besides its setters. -/
def callFunctions : List String := ["values", "execute"]

/-- Units that are emitted for every catalog. -/
def reservedUnits : List String := ["mod", "services"]

/-- Names that are taken, with the first entry that took each. -/
abbrev Taken (α : Type) := List (α × String)

/-- Takes a name for an entry. `shown` is how the name is reported. -/
def take [BEq α] (taken : Taken α) (name : α) (shown entry : String) :
    Except Failure (Taken α) :=
  match taken.lookup name with
  | some first => .error (.collision shown first entry)
  | none => .ok ((name, entry) :: taken)

def methodOf (e : Endpoint) : Except Failure Method := do
  let m ← Method.ofEndpoint e
  let parts := Text.splitBy (· == '.') (e.namespace?.getD "").toList
  if parts.all (!·.isEmpty) && Naming.isIdentifier m.group && Naming.isIdentifier m.name &&
      Naming.isIdentifier m.unit then
    return m
  throw (.endpointName e.name)

def checkSetter (e : Endpoint) (a : Argument) (taken : Taken String) (setter : String) :
    Except Failure (Taken String) := do
  if callFunctions.contains setter then throw (.reserved e.name a.name setter)
  if !Naming.isIdentifier setter then throw (.badType e.name a.type.name (.setterName setter))
  take taken setter setter a.name

/-- What the arguments before have taken. -/
structure ArgumentNames where
  names : List String := []
  fields : Taken String := []
  setters : Taken String := []

def checkArgument (s : Settings) (e : Endpoint) (seen : ArgumentNames) (a : Argument) :
    Except Failure ArgumentNames := do
  if seen.names.contains a.name then throw (.repeatedArgument e.name a.name)
  let field := Naming.snakeCase a.name
  if !Naming.isIdentifier field then throw (.badType e.name a.type.name (.argumentName a.name))
  if field = serviceField then throw (.reserved e.name a.name serviceField)
  if !e.skipToken && a.queryKey == s.tokenKey then throw (.reserved e.name a.name s.tokenKey)
  let fields ← take seen.fields field field a.name
  let setters ← a.setterNames.foldlM (checkSetter e a) seen.setters
  return ⟨a.name :: seen.names, fields, setters⟩

def checkArguments (s : Settings) (e : Endpoint) : Except Failure Unit := do
  discard (e.arguments.foldlM (checkArgument s e) {})

/-- The type texts of an endpoint. -/
def typeTexts (e : Endpoint) : List String :=
  (e.arguments.filterMap fun a =>
    match a.type with
    | .list element => some element
    | .object type => some type
    | _ => none) ++ if e.hasReturn then [e.returnType] else []

def checkTypes (e : Endpoint) : Except Failure Unit :=
  (typeTexts e).forM fun type => discard (readType e.name type)

/-- What the endpoints before have taken. -/
structure EndpointNames where
  names : List String := []
  callTypes : Taken String := []
  constructors : Taken (String × String) := []
  /-- The first endpoint of each unit comes first. -/
  units : Taken String := []

def checkEndpoint (s : Settings) (seen : EndpointNames) (e : Endpoint) :
    Except Failure EndpointNames := do
  if seen.names.contains e.name then throw (.repeatedEndpoint e.name)
  let m ← methodOf e
  checkArguments s e
  checkTypes e
  let callTypes ← take seen.callTypes m.callType m.callType e.name
  let constructors ← take seen.constructors (m.group, m.constructor)
    (m.serviceType ++ "::" ++ m.constructor) e.name
  return ⟨e.name :: seen.names, callTypes, constructors, seen.units ++ [(m.unit, e.name)]⟩

/-- Units that are emitted anyway. -/
def checkUnits (units : Taken String) : Except Failure Unit :=
  reservedUnits.forM fun unit =>
    match units.lookup unit with
    | some entry => throw (.collision (unit ++ ".rs") "generated module" entry)
    | none => pure ()

end Validation

/-- Whether code can be emitted for a catalog; if not, the first problem found. -/
def validate (c : Catalog) (s : Settings) : Except Failure Unit := do
  let seen ← c.endpoints.foldlM (Validation.checkEndpoint s) {}
  Validation.checkUnits seen.units

end Bindery
