import Bindery.Emission.Slot

/-!
# Emitted code that fills the form

Arguments are visited in order. One that is not set is left out, or ends the function if it is
required. When the code runs it does what `Call.form` does, and `Call.send` for one argument.
-/
namespace Bindery.Emission

open Source

/-- Leaves the function with an error of the runtime. -/
def failWith (t : Target) (error : String) (args : List Expr) : Stmt :=
  doStmt (.returnExpr (.present
    (callOf (wordExpr "Err") [callOf (t.expr ["MethodError", error]) args])))

/-- Turns an error into one of the runtime, with the error as its source. -/
def orFail (t : Target) (e : Expr) (error : String) (about : Ident) (value : Expr) : Expr :=
  let struct_ := .structExpr (.plainPlace (within t.runtime ["MethodError", error]))
    (.cons (setField about value) (.cons (sameField (plain "source")) .nil)) true false .absent
  .tryExpr (methodOf e "map_err"
    [.closureExpr .absent {} (.cons (namePat (plain "source")) .nil) false .absent struct_])

namespace Slot

/-- Whether the field is not set; an object is tested where it is used. -/
def isUnset (s : Slot) : Expr :=
  let field := selfField s.field
  match s.storage with
  | .boolean => negated field
  | .integer => .binaryExpr field "==" (.literalExpr "0")
  | _ => methodOf field "is_empty" []

def isSet (s : Slot) : Expr :=
  let field := selfField s.field
  match s.storage with
  | .boolean => field
  | .integer => .binaryExpr field "!=" (.literalExpr "0")
  | _ => negated s.isUnset

/-- The text that is sent for the field. -/
def sent (t : Target) (s : Slot) : Expr :=
  let field := selfField s.field
  let encoded := fun e =>
    orFail t (callOf (t.expr ["Encode", "encode"]) [e]) "Encode" (plain "field")
      (textExpr s.argument.name)
  match s.storage with
  | .text => methodOf field "as_str" []
  | .boolean => textExpr "true"
  | .integer => methodOf field "to_string" []
  | .list _ => encoded (borrowed field)
  | .object _ => encoded (wordExpr "value")

/-- The statements that put the argument into the form. -/
def send (t : Target) (s : Slot) : List Stmt :=
  let put := doStmt (methodOf (wordExpr "values") "set" [textExpr s.argument.queryKey, s.sent t])
  let missing := failWith t "MissingParameter" [textExpr s.argument.name]
  let present := .tupleStructPat (.plainPlace (wordPath ["Some"]))
    (.cons (namePat (plain "value")) .nil) false
  let field := borrowed (selfField s.field)
  match s.storage, s.argument.required with
  | .object _, true => [.letStmt .nil present (.present field) (.present (blockOf [missing])), put]
  | .object _, false => [ifStmt (.letExpr present field) [put]]
  | _, true => [ifStmt s.isUnset [missing], put]
  | _, false => [ifStmt s.isSet [put]]

end Slot

/-- The function that fills the form of a call. -/
def formFn (t : Target) (m : Method) (slots : List Slot) : Item :=
  let lines := [s!" Serializes the `{m.endpoint.name}` arguments into form values."]
  let ok := fun e => valueStmt (callOf (wordExpr "Ok") [e])
  let new := callOf (t.expr ["Values", "new"]) []
  let values := wordExpr "values"
  let token := doStmt (methodOf values "set"
    [textExpr t.tokenKey, methodOf (fieldOf (selfField (plain "service")) (plain "token")) "as_str"
      []])
  let function := fun lines stmts => publicFn (docs lines) {} (plain "values") [selfRef]
    (genericType "Result" [t.type "Values", t.type "MethodError"]) stmts
  if m.endpoint.skipToken && slots.isEmpty then function lines [ok new]
  else
    function (lines ++ ["", " ## Errors", "",
      " Returns `MethodError::MissingParameter` if a required argument is unset,",
      " or `MethodError::Encode` if a list or object argument fails to encode."])
      ([.letStmt .nil (.identPat false true (plain "values") .absent) (.present new) .absent] ++
        (if m.endpoint.skipToken then [] else [token]) ++ slots.flatMap (Slot.send t) ++
        [ok values])

end Bindery.Emission
