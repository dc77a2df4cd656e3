import Bindery.Proofs.Rereading.Form

/-!
# The code that sends a call is read again

The declaration of the response, the statements that send the form, and the function that consists
of them.
-/
namespace Bindery.Emission

open Source Source.Parser Source.Grammar

section Post

variable {g : Rules} {t : Target} {n : Nat} (ht : t.Named)

/-! Items in a block -/

/-- A struct that only the block uses. -/
theorem structStmt_rereads {attrs : List Attribute}
    (hattrs : ∀ a ∈ attrs, AttributeRereads g.above false a) (hne : attrs ≠ []) {name : Ident}
    {fields : List (Tree (.one .field))}
    (h : ItemRereads g (structOf attrs {} name .absent fields)) :
    StmtRereads g.above (.itemStmt (structOf attrs {} name .absent fields)) := by
  have htokens : ∀ rest, (structOf attrs {} name .absent fields).tokens ++ rest =
      attrs.flatMap Tree.tokens ++ (.word "struct" :: .ident name ::
        [.group .brace (commas true (fields.map Tree.tokens))] ++ rest) := fun rest => by
    have htokens := tokens_structOf_front attrs .inherited name .absent fields
    rw [htokens, List.append_assoc]
    rfl
  refine itemStmt_rereads hattrs ⟨_, htokens, fun rest => ⟨rfl, noMacro_keyword (by decide)
    (by decide), rfl, rfl⟩⟩ (fun rest => ?_) h
  obtain ⟨a, others, rfl⟩ := List.exists_cons_of_ne_nil hne
  obtain ⟨body, hbody, -⟩ := hattrs a (List.mem_cons_self ..)
  rw [htokens, List.flatMap_cons, hbody]
  rfl

/-- The constant that holds the name of the endpoint. -/
theorem endpointStmt_rereads (e : Endpoint) : StmtRereads g.above.above.above (.itemStmt
    (.constItem .nil {} (plain "ENDPOINT") (referenceTo (wordType "str"))
      (.present (textExpr e.name)))) := by
  have htype : PlainRereads g.above.above (referenceTo (wordType "str")) :=
    plain_reference none false (plain_word (by decide))
  have hnone : ∀ a ∈ ([] : List Attribute), AttributeRereads g.above.above.above false a :=
    fun _ h => absurd h List.not_mem_nil
  refine itemStmt_rereads hnone ⟨Tree.tokens (.constItem .nil {}
    (plain "ENDPOINT") (referenceTo (wordType "str")) (.present (textExpr e.name))),
    fun rest => rfl, fun rest => ⟨rfl, noMacro_keyword (by decide) (by decide), rfl, rfl⟩⟩
    (fun rest => rfl) (constItem_rereads (by decide) htype (operand_text e.name).expr)

include ht

theorem responseStruct_rereads (e : Endpoint) {payload : Ty} (hpayload : PlainRereads g payload) :
    StmtRereads g.above.above (.itemStmt (responseStruct t e payload)) := by
  have hdecode : ∀ (g : Rules) ts, AttributeRereads g false (decodeAttribute ts) :=
    fun g => listAttribute_rereads g (by decide)
  have henvelope : PlainRereads g.above (t.type "ResponseEnvelope") := plain_target ht (by decide)
  have hoption : PlainRereads g.above (genericType "Option" [payload]) :=
    plain_generic (by decide) (List.forall_mem_singleton.2 hpayload)
  have hattrs : ∀ (g : Rules) derive crate, ∀ a ∈ [listAttribute "derive" derive,
      decodeAttribute crate], AttributeRereads g false a := fun g derive crate =>
    List.forall_mem_cons.2 ⟨listAttribute_rereads g (by decide) _,
      List.forall_mem_singleton.2 (hdecode g _)⟩
  refine structStmt_rereads (hattrs _ _ _) (List.cons_ne_nil _ _) ?_
  refine structOf_rereads (hattrs _ _ _) (.inl rfl) (by decide) reads_noParams ?_
    (List.cons_ne_nil _ _)
  refine List.forall_mem_cons.2 ⟨fieldNamed_rereads (List.forall_mem_singleton.2 (hdecode _ _))
    inherited_rereads (by decide) henvelope, List.forall_mem_singleton.2 ?_⟩
  refine fieldNamed_rereads (List.forall_mem_singleton.2 ?_) inherited_rereads (by decide) hoption
  split
  · exact hdecode _ _
  · exact hdecode _ _

theorem checkStmt_rereads {envelope : Expr} {ends : List Token → Prop}
    (h : ∀ {g : Rules} {structs}, OperandRereads g structs ends envelope) :
    StmtRereads (rules (n + 6)) (checkStmt t envelope) := by
  have herror : ExprRereads (rules (n + 1)) (fieldOf envelope (plain "error")) :=
    (h.field (by decide)).expr
  have hfail : StmtRereads (rules (n + 4))
      (failWith t "Remote" [fieldOf envelope (plain "error")]) :=
    failWith_rereads ht (by decide) (List.forall_mem_singleton.2 herror)
  exact ifStmt_rereads
    (condition_negated ((h.field (by decide)).unary_condition fun _ _ => ⟨rfl, rfl⟩))
    (blockRereads (.cons hfail .nil))

theorem postStmts_reread (e : Endpoint) {result : String}
    (hresult : Ident.isKeyword (plain result) = false) {response : Ty}
    (hresponse : PlainRereads (rules (n + 3)) response) :
    ∀ x ∈ postStmts t e result response, StmtRereads (rules (n + 4)) x := by
  have hword : ∀ k w, Ident.isKeyword (plain w) = false →
      ExprRereads (rules (k + 1)) (wordExpr w) := fun k w hw => (operand_word hw).expr
  have hvalues : ExprRereads (rules (n + 4)) (.tryExpr (methodOf (wordExpr "self") "values" [])) :=
    ((operand_names isNames_self).method (by decide) (by simp)).try_.expr
  have hborrowed : ExprRereads (rules (n + 3)) (borrowed (wordExpr "values")) :=
    exprRereads_of_unary (unary_borrowed (operand_word (by decide)).unary_value (fun _ => rfl)
      (fun _ => rfl))
  have hargs : ∀ a ∈ [wordExpr "ctx", wordExpr "ENDPOINT", borrowed (wordExpr "values")],
      ExprRereads (rules (n + 3)) a := by
    simpa using ⟨hword _ _ (by decide), hword _ _ (by decide), hborrowed⟩
  have hclient : OperandRereads (rules (n + 3)) true EndsField
      (fieldOf (selfField (plain "service")) (plain "client")) :=
    (operand_selfField (by decide)).field (by decide)
  have hcall : ∀ name, Ident.isKeyword name = false → OperandRereads (rules (n + 3)) true Closed
      (.methodExpr (fieldOf (selfField (plain "service")) (plain "client")) name
        (.angleArgs true (.ofList [.typeArg response]) false)
        (.ofList [wordExpr "ctx", wordExpr "ENDPOINT", borrowed (wordExpr "values")]) false) :=
    fun name hname => hclient.genericMethod hname (reads_turbofish (List.forall_mem_singleton.2
      (argRereads_type hresponse)) rfl) hargs
  have hsent : ∀ about, Ident.isKeyword about = false → ExprRereads (rules (n + 4))
      (orFail t (.awaitExpr _) "Post" about (wordExpr "ENDPOINT")) := fun about habout =>
    (orFail_operand ht (hcall (plain "post_form") (by decide)).await (by decide) habout
      (hword n "ENDPOINT" (by decide))).expr
  simp only [postStmts, List.forall_mem_cons, List.not_mem_nil, false_imp_iff, implies_true,
    and_true]
  exact ⟨endpointStmt_rereads e, letStmt_rereads (namePat_rereads (by decide)) hvalues,
    letStmt_rereads (namePat_rereads hresult) (hsent (plain "endpoint") (by decide))⟩

/-- The function that sends a call, if the type of its payload is read again. -/
theorem postFn_rereads {e : Endpoint} {item : Item} (hitem : postFn t e = .ok item)
    (hpayload : ∀ type, readType e.name e.returnType = .ok type → e.hasReturn = true →
      Readable n type) {m : Nat} (hm : n ≤ m) : MemberRereads (rules (m + 8)) item := by
  have hfn : ∀ lines payload stmts, PlainRereads (rules (m + 7)) payload →
      StmtsReread (rules (m + 7)) stmts → MemberRereads (rules (m + 8)) (publicFn (docs lines)
        { async := true } (plain "execute")
        [selfRef, paramOf (plain "ctx") (referenceTo (t.type "Context"))]
        (genericType "Result" [payload, t.type "MethodError"]) stmts) := by
    intro lines payload stmts hpayload hstmts
    have hctx : PlainRereads (rules (m + 8)) (referenceTo (t.type "Context")) :=
      plain_reference none false (plain_target ht (by decide))
    have hparams : ∀ p ∈ [selfRef, paramOf (plain "ctx") (referenceTo (t.type "Context"))],
        ParamRereads (rules (m + 8)) p :=
      List.forall_mem_cons.2 ⟨selfRef_rereads,
        List.forall_mem_singleton.2 (paramOf_rereads (by decide) hctx)⟩
    exact publicFn_rereads lines true (by decide) hparams (by simp; rfl)
      (plain_result hpayload (plain_target ht (by decide))) (blockRereads hstmts)
  unfold postFn at hitem
  dsimp only at hitem
  split at hitem
  · cases pure_eq_ok_iff.1 hitem
    have hresponse : PlainRereads (rules (m + 6)) (t.type "ResponseEnvelope") :=
      plain_target ht (by decide)
    have hok : ResultRereads (rules (m + 7)) (callOf (wordExpr "Ok") [.tupleExpr .nil false]) :=
      ok_rereads operand_unit.expr
    have hcheck : StmtRereads (rules (m + 7)) (checkStmt t (wordExpr "envelope")) :=
      checkStmt_rereads ht (operand_word (by decide))
    exact hfn _ _ _ plain_unit (.append (postStmts_reread ht e (by decide) hresponse)
      (.cons hcheck (.result hok)))
  · rename_i hreturn
    obtain ⟨payload, hread, hitem⟩ := bind_eq_ok_iff.1 hitem
    have hready := hpayload payload hread (by simpa using hreturn)
    cases pure_eq_ok_iff.1 hitem
    have hmissing : ∀ named, ExprRereads (rules (m + 6)) (structOfFields
        (within t.runtime ["MethodError", "MissingPayload"])
        [setField (plain "endpoint") (wordExpr "ENDPOINT"),
          setField (plain "field") (textExpr named)]) := fun named =>
      (operand_struct (isNames_within ht (by decide)) (by simp) (List.forall_mem_cons.2
        ⟨setField_rereads (by decide) (operand_word (by decide)).expr, List.forall_mem_singleton.2
          (setField_rereads (by decide) (operand_text named).expr)⟩)).expr
    have hvalue : ∀ named, ResultRereads (rules (m + 7)) (methodOf
        (fieldOf (wordExpr "response") (plain "payload")) "ok_or" [_]) := fun named =>
      resultRereads rfl (((operand_word (by decide)).field (by decide)).method (by decide)
        (List.forall_mem_singleton.2 (hmissing named))).unary_value
        (startsExprStmt_name (.inl (by decide)) rfl rfl rfl) rfl
    have hstruct : StmtRereads (rules (m + 7)) (.itemStmt (responseStruct t e payload)) :=
      responseStruct_rereads ht e (hready (m + 5) (by omega))
    have hcheck : StmtRereads (rules (m + 7))
        (checkStmt t (fieldOf (wordExpr "response") (plain "envelope"))) :=
      checkStmt_rereads ht ((operand_word (by decide)).field (by decide))
    have hresponse : PlainRereads (rules (m + 6)) (wordType "Response") := plain_word (by decide)
    exact hfn _ _ _ (hready (m + 7) (by omega)) (.append (List.forall_mem_append.2
      ⟨List.forall_mem_singleton.2 hstruct, postStmts_reread ht e (by decide) hresponse⟩)
      (.cons hcheck (.result (hvalue _))))

end Post

end Bindery.Emission
