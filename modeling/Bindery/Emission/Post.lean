import Bindery.Emission.Form

/-!
# Emitted code that sends a call

The response is decoded as an envelope, with the payload in a field of its own, or spread over the
envelope if the endpoint names no field. When the code runs it does what `Call.execute` does, with a
response decoded as by `Response.reader`.
-/
namespace Bindery.Emission

open Source

/-- An attribute for the decoder. -/
def decodeAttribute (tokens : List Token) : Attribute := listAttribute "serde" tokens

/-- The declaration of the response that holds a payload. -/
def responseStruct (t : Target) (e : Endpoint) (payload : Ty) : Item :=
  let serde := spellTight t.runtime.tokens ++ "::serde"
  let flatten := decodeAttribute [.word "flatten"]
  let place :=
    if e.responseField = "" then flatten
    else decodeAttribute [.word "default", .punct ',' false, .word "rename", .punct '=' false,
      .literal (quote e.responseField)]
  let derive := listAttribute "derive" (within t.runtime ["serde", "Deserialize"]).tokens
  let crate := decodeAttribute [.word "crate", .punct '=' false, .literal (quote serde)]
  structOf [derive, crate] {} (plain "Response") .absent
    [fieldNamed [flatten] .inherited (plain "envelope") (t.type "ResponseEnvelope"),
      fieldNamed [place] .inherited (plain "payload") (genericType "Option" [payload])]

/-- The statements that send the form and decode the response. -/
def postStmts (t : Target) (e : Endpoint) (result : String) (response : Ty) : List Stmt :=
  let call := .methodExpr (fieldOf (selfField (plain "service")) (plain "client"))
    (plain "post_form") (.angleArgs true (.cons (.typeArg response) .nil) false)
    (.cons (wordExpr "ctx") (.cons (wordExpr "ENDPOINT") (.cons (borrowed (wordExpr "values"))
      .nil))) false
  [.itemStmt (.constItem .nil {} (plain "ENDPOINT") (referenceTo (wordType "str"))
      (.present (textExpr e.name))),
    letStmt (plain "values") (.tryExpr (methodOf (wordExpr "self") "values" [])),
    letStmt (plain result)
      (orFail t (.awaitExpr call) "Post" (plain "endpoint") (wordExpr "ENDPOINT"))]

/-- Leaves the function with the remote error if the response is not ok. -/
def checkStmt (t : Target) (envelope : Expr) : Stmt :=
  ifStmt (negated (fieldOf envelope (plain "ok")))
    [failWith t "Remote" [fieldOf envelope (plain "error")]]

/-- The function that sends a call. -/
def postFn (t : Target) (e : Endpoint) : Except Failure Item := do
  let lines := [s!" Posts the call to `{e.name}` and decodes the response.", "", " ## Errors", "",
    " Returns `MethodError::Post` if the request fails or is cancelled, and",
    " `MethodError::Remote` with the remote error string if the response is", " not ok."]
  let function := fun payload stmts => publicFn (docs lines) { async := true } (plain "execute")
    [selfRef, paramOf (plain "ctx") (referenceTo (t.type "Context"))]
    (genericType "Result" [payload, t.type "MethodError"]) stmts
  if !e.hasReturn then
    let unit : Ty := .tupleType .nil false
    return function unit (postStmts t e "envelope" (t.type "ResponseEnvelope") ++
      [checkStmt t (wordExpr "envelope"),
        valueStmt (callOf (wordExpr "Ok") [.tupleExpr .nil false])])
  let payload ← readType e.name e.returnType
  let named := if e.responseField = "" then e.returnType else e.responseField
  let missing := .structExpr (.plainPlace (within t.runtime ["MethodError", "MissingPayload"]))
    (.cons (setField (plain "endpoint") (wordExpr "ENDPOINT"))
      (.cons (setField (plain "field") (textExpr named)) .nil)) true false .absent
  let response := wordExpr "response"
  return function payload ([.itemStmt (responseStruct t e payload)] ++
    postStmts t e "response" (wordType "Response") ++
    [checkStmt t (fieldOf response (plain "envelope")),
      valueStmt (methodOf (fieldOf response (plain "payload")) "ok_or" [missing])])

end Bindery.Emission
