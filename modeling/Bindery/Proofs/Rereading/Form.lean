import Bindery.Proofs.Rereading.Arguments

/-!
# The code that fills the form is read again

Statements that put an argument into the form, and the function that consists of them.
-/
namespace Bindery.Emission

open Source Source.Parser Source.Grammar

/-- The runtime is a path of names, which stand in values as they are. -/
def Target.Named (t : Target) : Prop := IsNames t.runtime

section Form

variable {g : Rules} {t : Target} {s : Slot} {n : Nat} (ht : t.Named)

/-! Names of the runtime -/

include ht in
theorem isNames_within {words : List String}
    (hwords : ∀ w ∈ words, Ident.isKeyword (plain w) = false) : IsNames (within t.runtime words) :=
  IsNames.within ht hwords

include ht in
theorem plain_target {w : String} (hw : Ident.isKeyword (plain w) = false) :
    PlainRereads g.above (t.type w) := plain_names (isNames_within ht (by simpa using hw))

include ht in
/-- A function of the runtime is called. -/
theorem operand_targetCall {structs : Bool} {words : List String}
    (hwords : ∀ w ∈ words, Ident.isKeyword (plain w) = false) {args : List Expr}
    (hargs : ∀ a ∈ args, ExprRereads g a) :
    OperandRereads g structs Closed (callOf (t.expr words) args) :=
  (operand_names (isNames_within ht hwords)).call (fun _ _ => rfl) hargs

/-- A value is put into the form. -/
theorem set_rereads (key : String) {value : Expr} (hvalue : ExprRereads g.above value) :
    StmtRereads g.above.above
      (doStmt (methodOf (wordExpr "values") "set" [textExpr key, value])) := by
  have hargs : ∀ a ∈ [textExpr key, value], ExprRereads g.above a :=
    List.forall_mem_cons.2 ⟨(operand_text key).expr, List.forall_mem_singleton.2 hvalue⟩
  exact doStmt_rereads rfl ((operand_word (by decide)).method (by decide) hargs).unary_value
    (fun _ => startsExprStmt_name (.inl (by decide)) rfl rfl rfl) rfl

theorem plain_result {value error : Ty} (hvalue : PlainRereads g value)
    (herror : PlainRereads g error) : PlainRereads g.above (genericType "Result" [value, error]) :=
  plain_generic (by decide) (by simpa using ⟨hvalue, herror⟩)

/-! Failures -/

include ht in
theorem failWith_rereads {error : String} (herror : Ident.isKeyword (plain error) = false)
    {args : List Expr} (hargs : ∀ a ∈ args, ExprRereads g a) :
    StmtRereads g.above.above.above (failWith t error args) := by
  have hcall : OperandRereads g true Closed (callOf (t.expr ["MethodError", error]) args) :=
    operand_targetCall ht (by simpa using ⟨by decide, herror⟩) hargs
  have hvalue : ExprRereads g.above.above
      (callOf (wordExpr "Err") [callOf (t.expr ["MethodError", error]) args]) :=
    ((operand_word (by decide)).call (fun _ _ => rfl) (by simpa using hcall.expr)).expr
  refine doStmt_rereads rfl (fun rest hrest => ?_) (fun _ => startsExprStmt_return _) rfl
  exact reads_unary (operand_return hvalue (fun _ => rfl) hrest)
    (endsOperand_of_endsExpr (endsExpr_of_endsValue hrest))

include ht in
/-- An operand whose error is turned into one of the runtime. -/
theorem orFail_operand {ends : List Token → Prop} {e value : Expr} {error : String}
    {about : Ident} (he : OperandRereads g.above.above true ends e)
    (herror : Ident.isKeyword (plain error) = false) (habout : Ident.isKeyword about = false)
    (hvalue : ExprRereads g value) :
    OperandRereads g.above.above true Closed (orFail t e error about value) := by
  have hpath : IsNames (within t.runtime ["MethodError", error]) :=
    isNames_within ht (by simpa using ⟨by decide, herror⟩)
  have hstruct : ExprRereads g.above (structOfFields (within t.runtime ["MethodError", error])
      [setField about value, sameField (plain "source")]) :=
    (operand_struct hpath (by simp)
      (by simpa using ⟨setField_rereads habout hvalue, sameField_rereads (by decide)⟩)).expr
  have harrow : ∀ ts, opAhead "->" ((structOfFields (within t.runtime ["MethodError", error])
      [setField about value, sameField (plain "source")]).tokens ++ ts) = false := fun ts => by
    change opAhead "->" ((within t.runtime ["MethodError", error]).tokens ++ _ ++ ts) = false
    rw [List.append_assoc]
    exact (startsPath_tokens hpath.plain _).op "->" (by simp)
  have hclosure : ExprRereads g.above.above (closureOf (plain "source")
      (structOfFields (within t.runtime ["MethodError", error])
        [setField about value, sameField (plain "source")])) :=
    exprRereads_of_unary fun rest hrest => reads_unary
      (operand_closure (by decide) hstruct harrow hrest)
      (endsOperand_of_endsExpr (endsExpr_of_endsValue hrest))
  exact (he.method (by decide) (List.forall_mem_singleton.2 hclosure)).try_

namespace Slot

variable (hfield : Ident.isKeyword s.field = false)
include hfield

/-! Conditions -/

theorem isUnset_rereads : ConditionRereads g.above.above s.isUnset := by
  have hoperand : OperandRereads g.above false EndsField (selfField s.field) :=
    operand_selfField hfield
  unfold isUnset
  dsimp only
  split
  · exact condition_negated ((operand_selfField hfield).unary_condition fun _ _ => ⟨rfl, rfl⟩)
  · exact condition_comparison (by simp) hoperand (fun _ => ⟨rfl, rfl⟩) rfl
      ((operand_literal rfl).unary_condition fun _ _ => trivial)
  · exact (hoperand.method (by decide) (by simp)).condition fun _ _ => trivial

theorem isSet_rereads : ConditionRereads g.above.above s.isSet := by
  have hoperand : OperandRereads g.above false EndsField (selfField s.field) :=
    operand_selfField hfield
  have hempty : OperandRereads g false Closed (methodOf (selfField s.field) "is_empty" []) :=
    (operand_selfField hfield).method (by decide) (by simp)
  unfold isSet
  dsimp only
  split
  · exact hoperand.condition fun _ _ => ⟨rfl, rfl⟩
  · exact condition_comparison (by simp) hoperand (fun _ => ⟨rfl, rfl⟩) rfl
      ((operand_literal rfl).unary_condition fun _ _ => trivial)
  · rename_i hboolean hinteger
    have hunset : s.isUnset = methodOf (selfField s.field) "is_empty" [] := by
      unfold isUnset
      split
      · exact absurd ‹_› hboolean
      · exact absurd ‹_› hinteger
      · rfl
    rw [hunset]
    exact condition_negated (hempty.unary_condition fun _ _ => trivial)

/-! Statements -/

/-- A reference to the field. -/
theorem borrowed_unary {structs : Bool} {ends : List Token → Prop}
    (hends : ∀ ts, ends ts → EndsField ts ∧ endsOperand ts = true) :
    UnaryRereads g.above.above structs ends (borrowed (selfField s.field)) :=
  unary_borrowed ((operand_selfField hfield).unary hends) (fun _ => rfl) (fun _ => rfl)

include ht

theorem sent_rereads : ExprRereads (rules (n + 4)) (s.sent t) := by
  have hoperand : OperandRereads (rules (n + 3)) true EndsField (selfField s.field) :=
    operand_selfField hfield
  have hencoded : ∀ e, ExprRereads (rules (n + 3)) e → ExprRereads (rules (n + 4))
      (orFail t (callOf (t.expr ["Encode", "encode"]) [e]) "Encode" (plain "field")
        (textExpr s.argument.name)) := fun e he =>
    (orFail_operand ht (operand_targetCall ht (by decide) (List.forall_mem_singleton.2 he))
      (by decide) (by decide) (operand_text s.argument.name).expr).expr
  unfold sent
  dsimp only
  split
  · exact (hoperand.method (by decide) (by simp)).expr
  · exact (operand_text "true").expr
  · exact (hoperand.method (by decide) (by simp)).expr
  · refine hencoded _ (exprRereads_of_unary (s.borrowed_unary hfield fun ts hts => ?_))
    have hend := endsOperand_of_endsExpr (endsExpr_of_endsValue hts)
    exact ⟨endsField_of_endsOperand hend, hend⟩
  · exact hencoded _ (operand_word (by decide)).expr

theorem send_rereads : ∀ x ∈ s.send t, StmtRereads (rules (n + 7)) x := by
  have hput : ∀ m, StmtRereads (rules (m + 5)) (doStmt
      (methodOf (wordExpr "values") "set" [textExpr s.argument.queryKey, s.sent t])) := fun m =>
    set_rereads s.argument.queryKey (s.sent_rereads ht hfield (n := m))
  have hblock : BlockRereads (rules (n + 6)) [doStmt
      (methodOf (wordExpr "values") "set" [textExpr s.argument.queryKey, s.sent t])] :=
    blockRereads (.cons (hput n) .nil)
  have hmissing : ∀ m, BlockRereads (rules (m + 5))
      [failWith t "MissingParameter" [textExpr s.argument.name]] := fun m =>
    blockRereads (.cons (failWith_rereads ht (by decide)
      (List.forall_mem_singleton.2 (operand_text s.argument.name).expr)) .nil)
  have hpresent : ∀ m, PatRereads (rules (m + 2)) (somePat (plain "value")) :=
    fun m => somePat_rereads (by decide)
  have hborrowed : UnaryRereads (rules (n + 5)) false BeforeBlock (borrowed (selfField s.field)) :=
    s.borrowed_unary hfield fun ts hts => by
      obtain ⟨inner, rest, rfl⟩ := exists_of_beforeBlock hts
      exact ⟨⟨rfl, rfl⟩, rfl⟩
  have hends : ∀ ts, endsExpr ts = true → EndsField ts ∧ endsOperand ts = true := fun ts hts =>
    ⟨endsField_of_endsOperand (endsOperand_of_endsExpr hts), endsOperand_of_endsExpr hts⟩
  have hvalue : ∀ rest, endsExpr rest = true → Reads ((rules (n + 7)).expr true)
      ((borrowed (selfField s.field)).tokens ++ rest) (borrowed (selfField s.field)) rest :=
    fun rest hrest => reads_expr (s.borrowed_unary hfield hends rest hrest) hrest
  unfold send
  dsimp only
  split
  · exact List.forall_mem_cons.2 ⟨letElse_rereads (hpresent _) hvalue rfl (hmissing _),
      List.forall_mem_singleton.2 (hput _)⟩
  · exact List.forall_mem_singleton.2
      (ifStmt_rereads (condition_let (hpresent _) hborrowed) hblock)
  · exact List.forall_mem_cons.2 ⟨ifStmt_rereads (s.isUnset_rereads hfield) (hmissing _),
      List.forall_mem_singleton.2 (hput _)⟩
  · exact List.forall_mem_singleton.2 (ifStmt_rereads (s.isSet_rereads hfield) hblock)

end Slot

/-! The function -/

/-- A value is given back as one without failure. -/
theorem ok_rereads {e : Expr} (he : ExprRereads g e) :
    ResultRereads g.above (callOf (wordExpr "Ok") [e]) :=
  resultRereads rfl ((operand_word (by decide)).call (fun _ _ => rfl)
    (List.forall_mem_singleton.2 he)).unary_value
    (startsExprStmt_name (.inl (by decide)) rfl rfl rfl) rfl

include ht in
theorem formFn_rereads (m : Method) {slots : List Slot}
    (hslots : ∀ s ∈ slots, Ident.isKeyword s.field = false) :
    MemberRereads (rules (n + 8)) (formFn t m slots) := by
  have hresult : PlainRereads (rules (n + 8))
      (genericType "Result" [t.type "Values", t.type "MethodError"]) :=
    plain_result (plain_target ht (by decide)) (plain_target ht (by decide))
  have hnew : ∀ k, ExprRereads (rules (k + 1)) (callOf (t.expr ["Values", "new"]) []) :=
    fun k => (operand_targetCall ht (by decide) (by simp)).expr
  have htoken : ExprRereads (rules (n + 6))
      (methodOf (fieldOf (selfField (plain "service")) (plain "token")) "as_str" []) :=
    (((operand_selfField (by decide)).field (by decide)).method (by decide) (by simp)).expr
  have hput : StmtRereads (rules (n + 7)) (doStmt (methodOf (wordExpr "values") "set"
      [textExpr t.tokenKey,
        methodOf (fieldOf (selfField (plain "service")) (plain "token")) "as_str" []])) :=
    set_rereads t.tokenKey htoken
  have hfn : ∀ lines stmts, StmtsReread (rules (n + 7)) stmts → MemberRereads (rules (n + 8))
      (publicFn (docs lines) {} (plain "values") [selfRef]
        (genericType "Result" [t.type "Values", t.type "MethodError"]) stmts) :=
    fun lines stmts hstmts => publicFn_rereads lines false (by decide)
      (List.forall_mem_singleton.2 selfRef_rereads) (by simp) hresult (blockRereads hstmts)
  unfold formFn
  dsimp only
  split
  · exact hfn _ _ (.result (ok_rereads (hnew _)))
  · refine hfn _ _ (.append (fun x hx => ?_) (.result (ok_rereads (operand_word (by decide)).expr)))
    simp only [List.mem_append, List.mem_singleton] at hx
    rcases hx with (rfl | hx) | hx
    · exact letStmt_rereads (mutPat_rereads (by decide)) (hnew _)
    · split at hx
      · cases hx
      · obtain rfl := List.mem_singleton.1 hx
        exact hput
    · obtain ⟨s, hs, hx⟩ := List.mem_flatMap.1 hx
      exact s.send_rereads ht (hslots s hs) x hx

end Form

end Bindery.Emission
