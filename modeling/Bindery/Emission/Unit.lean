import Bindery.Emission.Post

/-!
# Emitted files

Services come in a unit of their own. The unit of a method holds its call type, the function of the
service that starts a call, and the functions of the call. An index declares the units.
-/
namespace Bindery.Emission

open Source

def derived : Attribute := listAttribute "derive" [.word "Debug", .punct ',' false, .word "Clone"]

/-! Services -/

def service (t : Target) (group : String) : Except Failure Item := do
  let name ← spelledIdent (serviceType group)
  let doc := s!" {name.text} handles {group} related endpoints."
  let shared := .path false (.cons (segmentOf (plain "std")) (.cons (segmentOf (plain "sync"))
    (.cons (segmentWith (plain "Arc") [t.type "HttpClient"]) .nil)))
  let vis := .within false (SimplePath.ofWord "crate")
  return structOf (docs [doc] ++ [derived]) publicFront name .absent
    [fieldNamed [] vis (plain "client") (pathType shared),
      fieldNamed [listAttribute "allow" [.word "dead_code"]] vis (plain "token")
        (wordType "String")]

def services (t : Target) (groups : List String) : Except Failure File := do
  return ⟨[], ← groups.mapM (service t)⟩

/-! Calls -/

def callDocs (m : Method) : List String :=
  let required := m.required.map fun a => s!"`{a.name}`"
  [s!" {m.callType} holds the arguments of a `{m.endpoint.name}` call."] ++
    (if required.isEmpty then [] else ["", " Required: " ++ ", ".intercalate required ++ "."]) ++
    ["", if m.endpoint.hasReturn then s!" `execute()` returns `{m.endpoint.returnType}`."
      else " `execute()` only reports success or failure."]

/-- The type of a service as units see it. -/
def servicePath (name : Ident) : Path :=
  extend (wordPath ["super", "services"]) [segmentOf name]

/-- The call type of a method: its service and a field for each argument. -/
def callStruct (m : Method) (name serviceName : Ident) (slots : List Slot) : Item :=
  let lifetime := plain "a"
  let borrowing := .present (.params (.cons (.lifetimeParam .nil lifetime {}) .nil) false)
  let owner := fieldNamed [] .inherited (plain "service")
    (.referenceType (some lifetime) false (pathType (servicePath serviceName)))
  structOf (docs (callDocs m) ++ [derived]) publicFront name borrowing
    (owner :: slots.map Slot.declaration)

/-- The function of a service that starts a call. -/
def startFn (m : Method) (name constructor : Ident) (slots : List Slot) : Item :=
  let new := .structExpr (.plainPlace (.path false (.cons (segmentOf name) .nil)))
    (Tree.ofList (setField (plain "service") (wordExpr "self") :: slots.map Slot.initial))
    true false .absent
  publicFn (docs [s!" Starts a `{m.endpoint.name}` call."]) {} constructor
    (selfRef :: (slots.filter (·.argument.required)).map Slot.param)
    (borrowingType name (plain "_")) [valueStmt new]

/-- The call type of a method, how a call is started, and what it does. -/
def call (t : Target) (m : Method) : Except Failure (List Item) := do
  let slots ← m.arguments.mapM (Slot.of m.endpoint.name)
  let name ← spelledIdent m.callType
  let serviceName ← spelledIdent m.serviceType
  let constructor ← nameIdent m.constructor
  let post ← postFn t m.endpoint
  let setters ← (slots.filter (!·.argument.required)).mapM Slot.setters
  return [
    callStruct m name serviceName slots,
    implOf (pathType (servicePath serviceName)) [startFn m name constructor slots],
    implOf (borrowingType name (plain "_")) (setters.flatten ++ [formFn t m slots, post])]

def unit (t : Target) (ms : List Method) : Except Failure File := do
  return ⟨[], (← ms.mapM (call t)).flatten⟩

/-! The index -/

/-- The name of the unit of all services. -/
def servicesUnit : String := "services"

def moduleItem (attrs : List Attribute) (name : Ident) : Item :=
  .moduleItem (Tree.ofList attrs) publicFront false name .absent

/-- Declares a unit. A unit that cannot be declared under its own name gets another one, with the
path of its file. -/
def declareUnit (unit : String) : Except Failure Item := do
  let name ← nameIdent unit
  let place := if Naming.isPathKeyword unit then [textAttribute "path" (unit ++ ".rs")] else []
  return moduleItem place name

def index (p : Plan) (s : Settings) : Except Failure File := do
  let units ← p.units.mapM fun u => declareUnit u.1
  let doc := .valueAttr true (SimplePath.ofWord "doc")
    (textExpr s!" Generated bindings for the `{s.label}` catalog.")
  return ⟨[doc], moduleItem [] (plain servicesUnit) :: units⟩

end Bindery.Emission
