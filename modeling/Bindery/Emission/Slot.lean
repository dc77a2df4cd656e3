import Bindery.Source.Build
import Bindery.Source.Spelling
import Bindery.Validation

/-!
# Arguments in emitted code

A slot is an argument with the identifier and the types that code for it needs: its field in the
call, its parameter if it is required, and the functions that set it otherwise. `Bindery.Call` tells
what happens when the code runs: `Call.start` for a new call, `Call.change` for the setters.
-/
namespace Bindery.Emission

open Source

/-- What all emitted code depends on. -/
structure Target where
  runtime : Path
  tokenKey : String

/-- The target of settings, if they are usable. -/
def Target.of (s : Settings) : Except Failure Target :=
  match s.check with
  | .ok path => .ok ⟨path, s.tokenKey⟩
  | .error why => .error (.settings why)

def Target.default : Target := ⟨wordPath [({} : Settings).runtime], ({} : Settings).tokenKey⟩

/-- A name of the library that emitted code runs on, as a type and as an expression. -/
def Target.type (t : Target) (w : String) : Ty := pathType (within t.runtime [w])

def Target.expr (t : Target) (words : List String) : Expr := pathExpr (within t.runtime words)

/-- The identifier for a name of its own. -/
def nameIdent (name : String) : Except Failure Ident :=
  match Ident.ofName? name with
  | some i => .ok i
  | none => .error (.notWord name)

/-- The identifier for the snake case of a catalog name. -/
def catalogIdent (name : String) : Except Failure Ident := nameIdent (Naming.snakeCase name)

/-- The identifier spelled by a text, which may have the raw mark. -/
def spelledIdent (text : String) : Except Failure Ident :=
  match text.toList with
  | 'r' :: '#' :: rest =>
    let word := String.ofList rest
    if Text.isWord rest && !(word == "_" || Naming.isPathKeyword word) then .ok ⟨word, true⟩
    else .error (.notWord text)
  | _ =>
    match Ident.ofWord? text with
    | some i => .ok i
    | none => .error (.notWord text)

/-- How an argument is stored. -/
inductive Storage where
  | text
  | boolean
  | integer
  | list (element : Ty)
  | object (type : Ty)

structure Slot where
  argument : Argument
  field : Ident
  storage : Storage

/-- The lines of a comment as documentation. -/
def commentLines (comment : String) : List String :=
  let text := Text.trim comment.toList
  if text.isEmpty then []
  else (Text.lines text).map fun line =>
    if (Text.trim line).isEmpty then "" else String.ofList (' ' :: Text.trimEnd line)

namespace Slot

def of (endpoint : String) (a : Argument) : Except Failure Slot := do
  let storage ← match a.type with
    | .text => pure .text
    | .boolean => pure .boolean
    | .integer => pure .integer
    | .list element => pure (.list (← readType endpoint element))
    | .object type => pure (.object (← readType endpoint type))
  return ⟨a, ← catalogIdent a.name, storage⟩

def fieldType (s : Slot) : Ty :=
  match s.storage with
  | .text => wordType "String"
  | .boolean => wordType "bool"
  | .integer => wordType "i64"
  | .list element => genericType "Vec" [element]
  | .object type => genericType "Option" [type]

/-- The value of a field that is not set. -/
def unset (s : Slot) : Expr :=
  match s.storage with
  | .text => callOf (pathExpr (wordPath ["String", "new"])) []
  | .boolean => .literalExpr "false"
  | .integer => .literalExpr "0"
  | .list _ => callOf (pathExpr (wordPath ["Vec", "new"])) []
  | .object _ => wordExpr "None"

/-- What a parameter that sets the field accepts. -/
def inputType (s : Slot) : Ty :=
  match s.storage with
  | .text => intoString
  | .object type => type
  | _ => s.fieldType

/-- The value of the field for such a parameter. -/
def stored (s : Slot) : Expr :=
  match s.storage with
  | .text => methodOf (nameExpr s.field) "into" []
  | .object _ => callOf (wordExpr "Some") [nameExpr s.field]
  | _ => nameExpr s.field

/-- The parameter that gives a required argument. -/
def param (s : Slot) : Tree (.one .param) := paramOf s.field s.inputType

/-- The field of a new call when its argument is given. -/
def given (s : Slot) : Tree (.one .fieldValue) :=
  match s.storage with
  | .text => setField s.field s.stored
  | .object _ => setField s.field s.stored
  | _ => sameField s.field

/-- The field of a new call. -/
def initial (s : Slot) : Tree (.one .fieldValue) :=
  if s.argument.required then s.given else setField s.field s.unset

/-- The declaration of the field. -/
def declaration (s : Slot) : Tree (.one .field) :=
  fieldNamed (docs (commentLines s.argument.comment)) .inherited s.field s.fieldType

def setterDocs (a : Argument) : List String :=
  let comment := commentLines a.comment
  [s!" Sets the `{a.queryKey}` argument."] ++
    (if comment.isEmpty then [] else "" :: comment) ++
    (if a.default = "" then [] else ["", s!" Remote default: `{a.default}`."])

/-- A function that takes a call, changes it and gives it back. -/
def setter (lines : List String) (name : Ident) (param : Tree (.one .param)) (change : Expr) :
    Item :=
  publicFn (docs lines) {} name [selfMut, param] (wordType "Self")
    [doStmt change, valueStmt (wordExpr "self")]

def isString : Ty → Bool
  | .pathType (.plainPlace (.path false (.cons (.segment n .noArgs) .nil))) => n == plain "String"
  | _ => false

/-- The functions that set an optional argument: a list can be replaced or appended to. -/
def setters (s : Slot) : Except Failure (List Item) := do
  let a := s.argument
  let field := selfField s.field
  match s.storage with
  | .list element =>
    let replace ← spelledIdent ("set_" ++ Naming.snakeCase a.name)
    let append ← catalogIdent a.appendName
    let (type, value) :=
      if isString element then (intoString, methodOf (nameExpr append) "into" [])
      else (element, nameExpr append)
    return [
      setter (setterDocs a) replace (paramOf s.field s.fieldType)
        (.assignExpr field (nameExpr s.field)),
      setter [s!" Appends one element to `{a.queryKey}`."] append (paramOf append type)
        (methodOf field "push" [value])]
  | _ => return [setter (setterDocs a) s.field s.param (.assignExpr field s.stored)]

end Slot

end Bindery.Emission
