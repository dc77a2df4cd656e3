import Bindery.Proofs.Emitted
import Bindery.Proofs.Index
import Bindery.Proofs.Source.Structs

/-!
# The code of arguments is read again

The types and values that emitted code has for an argument are read again if the types of the catalog
are, and so are the functions that set it.
-/
namespace Bindery.Emission

open Source Source.Grammar

/-- A type that is read again with at least so many levels. -/
def Readable (n : Nat) (type : Ty) : Prop := ∀ m, n ≤ m → PlainRereads (rules m) type

namespace Slot

/-- A slot whose field is a name and whose types are read again. -/
structure Ready (s : Slot) (n : Nat) : Prop where
  field : Ident.isKeyword s.field = false
  types : ∀ type ∈ s.types, Readable n type

variable {g : Rules} {s : Slot} {n m : Nat}

/-! Values -/

theorem unset_rereads (s : Slot) : ExprRereads g.above s.unset := by
  have hnew : ∀ w, Ident.isKeyword (plain w) = false →
      ExprRereads g.above (callOf (pathExpr (wordPath [w, "new"])) []) := fun w hw => by
    have hword : ∀ x ∈ ["new"], Ident.isKeyword (plain x) = false := by decide
    exact ((operand_names ((isNames_word hw).within hword)).call (fun _ _ => rfl) (by simp)).expr
  unfold unset
  split
  · exact hnew "String" (by decide)
  · exact operand_false.expr
  · exact (operand_literal rfl).expr
  · exact hnew "Vec" (by decide)
  · exact (operand_word (by decide)).expr

/-- What is stored for a parameter, which has the name of the field. -/
theorem stored_operand (hfield : Ident.isKeyword s.field = false) :
    ∃ ends, OperandRereads g.above true ends s.stored := by
  have hname : OperandRereads g.above true (endsNames · = true) (nameExpr s.field) :=
    operand_name hfield
  unfold stored
  split
  · exact ⟨_, hname.method (by decide) (by simp)⟩
  · refine ⟨_, (operand_word (by decide)).call (fun _ _ => rfl) ?_⟩
    simpa using (operand_name hfield).expr
  · exact ⟨_, hname⟩

theorem initial_rereads (hfield : Ident.isKeyword s.field = false) :
    FieldValueRereads g.above.above s.initial := by
  obtain ⟨ends, hstored⟩ := s.stored_operand (g := g) hfield
  unfold initial given
  split
  · split
    · exact setField_rereads hfield hstored.expr
    · exact setField_rereads hfield hstored.expr
    · exact sameField_rereads hfield
  · exact setField_rereads hfield s.unset_rereads

/-! Types -/

theorem plain_fieldType (h : s.Ready n) (hm : n ≤ m) :
    PlainRereads (rules (m + 1)) s.fieldType := by
  have htypes := h.types
  unfold types at htypes
  unfold fieldType
  split
  · exact plain_word (by decide)
  · exact plain_word (by decide)
  · exact plain_word (by decide)
  · rename_i hstorage
    simp only [hstorage, List.forall_mem_singleton] at htypes
    exact plain_generic (by decide) (by simpa using htypes m hm)
  · rename_i hstorage
    simp only [hstorage, List.forall_mem_singleton] at htypes
    exact plain_generic (by decide) (by simpa using htypes m hm)

theorem plain_inputType (h : s.Ready n) (hm : n ≤ m) :
    PlainRereads (rules (m + 2)) s.inputType := by
  have htypes := h.types
  unfold types at htypes
  unfold inputType
  split
  · exact plain_intoString
  · rename_i hstorage
    simp only [hstorage, List.forall_mem_singleton] at htypes
    exact htypes (m + 2) (by omega)
  · exact plain_fieldType h (by omega)

theorem param_rereads (h : s.Ready n) (hm : n ≤ m) : ParamRereads (rules (m + 2)) s.param :=
  paramOf_rereads h.field (plain_inputType h hm)

theorem declaration_rereads (h : s.Ready n) (hm : n ≤ m) :
    FieldRereads (rules (m + 1)) s.declaration :=
  fieldNamed_rereads (docs_reread _ _) inherited_rereads h.field (plain_fieldType h hm)

/-! Setters -/

/-- A setter is read again if its parameter and its change are. -/
theorem setter_rereads (lines : List String) {name : Ident} (hname : Ident.isKeyword name = false)
    {param : Tree (.one .param)} (hparam : ParamRereads g.above.above.above param)
    (hself : isSelf param = false) {change : Expr}
    (hchange : StmtRereads g.above.above (doStmt change)) :
    MemberRereads g.above.above.above (setter lines name param change) := by
  have hresult : ResultRereads g.above.above (wordExpr "self") :=
    resultRereads rfl (operand_names isNames_self).unary_value
      (startsExprStmt_name (.inr rfl) rfl rfl rfl) rfl
  exact publicFn_rereads lines false hname (by simpa using ⟨selfMut_rereads, hparam⟩)
    (by simpa using hself) plain_self (blockRereads (.cons hchange (.result hresult)))

/-- A value is assigned to the field. -/
theorem assigned_rereads (hfield : Ident.isKeyword s.field = false) {ends : List Token → Prop}
    {value : Expr} (h : OperandRereads g true ends value) :
    StmtRereads g.above.above (doStmt (.assignExpr (selfField s.field) value)) :=
  assignStmt_rereads (operand_selfField hfield) (fun _ => ⟨rfl, rfl⟩) h.unary_value
    (fun _ => startsExprStmt_name (.inr rfl) rfl rfl rfl) rfl

/-- A value is appended to the field. -/
theorem pushed_rereads (hfield : Ident.isKeyword s.field = false) {value : Expr}
    (h : ExprRereads g value) :
    StmtRereads g.above (doStmt (methodOf (selfField s.field) "push" [value])) :=
  doStmt_rereads rfl ((operand_selfField hfield).method (by decide) (by simpa using h)).unary_value
    (fun _ => startsExprStmt_name (.inr rfl) rfl rfl rfl) rfl

theorem setters_reread (h : s.Ready n) {items : List Item} (hitems : s.setters = .ok items)
    (hm : n ≤ m) : ∀ i ∈ items, MemberRereads (rules (m + 4)) i := by
  obtain ⟨ends, hstored⟩ := s.stored_operand (g := rules m) h.field
  have hparam : ParamRereads (rules (m + 4)) s.param := s.param_rereads h (m := m + 2) (by omega)
  rcases Slot.setters_cases hitems with ⟨element, replace, append, type, value, hlist⟩ | ⟨-, rfl⟩
  · have happend := isKeyword_catalogIdent hlist.appendName
    have helement := h.types element (by rw [types, hlist.storage]; simp) (m + 4) (by omega)
    have happended : PlainRereads (rules (m + 4)) type ∧ ExprRereads (rules (m + 2)) value := by
      rcases hlist.appended with ⟨rfl, rfl⟩ | ⟨rfl, rfl⟩
      · exact ⟨plain_intoString, ((operand_name happend).method (by decide) (by simp)).expr⟩
      · exact ⟨helement, (operand_name happend).expr⟩
    rw [hlist.items_eq]
    simp only [List.forall_mem_cons, List.not_mem_nil, false_imp_iff, implies_true, and_true]
    have hfield : PlainRereads (rules (m + 4)) s.fieldType :=
      plain_fieldType h (m := m + 3) (by omega)
    have hwhole : ParamRereads (rules (m + 4)) (paramOf s.field s.fieldType) :=
      paramOf_rereads h.field hfield
    have hone : ParamRereads (rules (m + 4)) (paramOf append type) :=
      paramOf_rereads happend happended.1
    have hname : OperandRereads (rules (m + 1)) true (endsNames · = true) (nameExpr s.field) :=
      operand_name h.field
    have hpushed : StmtRereads (rules (m + 3))
        (doStmt (methodOf (selfField s.field) "push" [value])) :=
      pushed_rereads h.field happended.2
    exact ⟨setter_rereads _ (isKeyword_replaceIdent hlist.replaceName) hwhole rfl
      (assigned_rereads h.field hname), setter_rereads _ happend hone rfl hpushed⟩
  · intro i hi
    obtain rfl := List.mem_singleton.1 hi
    exact setter_rereads _ h.field hparam rfl (assigned_rereads h.field hstored)

end Slot

end Bindery.Emission
