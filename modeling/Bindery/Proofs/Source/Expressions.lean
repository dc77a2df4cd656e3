import Bindery.Proofs.Source.Values

/-!
# Expressions are read again

Expressions that emitted code consists of: operands with signs in front of them, comparisons,
assignments and conditions.
-/
namespace Bindery.Source

open Bindery.Source.Parser Bindery.Source.Grammar

variable {g : Rules} {structs : Bool} {e left right : Expr} {ts mid rest : List Token}

/-! Signs -/

theorem ne_nil_of_reads_unary (h : Reads (Grammar.unary g structs) ts e rest) : ts ≠ [] := by
  rintro rfl
  cases h none

/-- An operand, maybe with signs, is read again in front of what may follow it. -/
def UnaryRereads (g : Rules) (structs : Bool) (ends : List Token → Prop) (e : Expr) : Prop :=
  ∀ rest, ends rest → Reads (g.unary structs) (e.tokens ++ rest) e rest

/-- A value is all that comes before a comma or a semicolon. -/
def EndsValue : List Token → Prop := (endsValue · = true)

/-- A condition stands in front of a block. -/
def BeforeBlock : List Token → Prop := (groupAhead .brace · = true)

theorem exists_of_beforeBlock (h : BeforeBlock ts) :
    ∃ inner rest, ts = .group .brace inner :: rest := by
  match ts, h with
  | .group d inner :: rest, h =>
    obtain rfl := eq_of_beq h
    exact ⟨inner, rest, rfl⟩

theorem OperandRereads.unary {ends ends' : List Token → Prop} (h : OperandRereads g structs ends e)
    (hends : ∀ ts, ends' ts → ends ts ∧ endsOperand ts = true) :
    UnaryRereads g.above structs ends' e :=
  fun rest hrest => reads_unary (h.reads rest (hends rest hrest).1) (hends rest hrest).2

/-- An operand as a value. -/
theorem OperandRereads.unary_value {ends : List Token → Prop}
    (h : OperandRereads g structs ends e) :
    UnaryRereads g.above structs EndsValue e :=
  h.unary fun ts hts => ⟨h.value ts hts, endsOperand_of_endsExpr (endsExpr_of_endsValue hts)⟩

theorem endsExpr_of_beforeBlock (h : BeforeBlock ts) : endsExpr ts = true := by
  obtain ⟨inner, rest, rfl⟩ := exists_of_beforeBlock h
  rfl

theorem unary_negated {ends : List Token → Prop} (h : UnaryRereads g structs ends e) :
    UnaryRereads g.above structs ends (negated e) := by
  intro rest hrest
  have hnone : Reads (outerAttributes g) (.punct '!' false :: (e.tokens ++ rest)) .nil
      (.punct '!' false :: (e.tokens ++ rest)) := reads_noOuter (by simp [opAhead, opAhead.go])
  change Reads (Grammar.unary g structs) (.punct '!' false :: (e.tokens ++ rest)) _ _
  intro left
  simp [Grammar.unary, hnone.run, opAhead, opAhead.go, dropOp, (h rest hrest).run, withAttributes,
    Tree.isNil, negated]

theorem unary_borrowed {ends : List Token → Prop} (h : UnaryRereads g structs ends e)
    (hraw : ∀ ts, rawAhead (e.tokens ++ ts) = false)
    (hmut : ∀ ts, wordAhead "mut" (e.tokens ++ ts) = false) :
    UnaryRereads g.above structs ends (borrowed e) := by
  intro rest hrest
  have hnone : Reads (outerAttributes g) (.punct '&' false :: (e.tokens ++ rest)) .nil
      (.punct '&' false :: (e.tokens ++ rest)) := reads_noOuter (by simp [opAhead, opAhead.go])
  change Reads (Grammar.unary g structs) (.punct '&' false :: (e.tokens ++ rest)) _ _
  intro left
  simp [Grammar.unary, hnone.run, opAhead, opAhead.go, dropOp, reference, hraw, hmut,
    (h rest hrest).run, withAttributes, Tree.isNil, borrowed]

/-! Operators -/

theorem operatorAhead_of_endsExpr (h : endsExpr ts = true) : operatorAhead ts = none := by
  have hheads : ∀ op ∈ binaryOperators, ∀ c ∈ [',', ';'], op.1.toList.head? ≠ some c := by
    simp [binaryOperators]
  exact List.find?_eq_none.2 fun op hop => by
    simp [opAhead_of_endsAt h op.1 (hheads op hop)]

/-- No operator follows an expression that ends. -/
theorem climbFrom_end (h : endsExpr ts = true) (n : Nat) (least : Strength) (e : Expr) :
    Reads (climbFrom g (n + 1) structs least e) ts e ts := by
  have hassign : assignAhead ts = false := by
    simp [assignAhead, opAhead_of_endsAt h "=" (by simp)]
  have hdots := opAhead_of_endsAt h ".." (by simp)
  have has := wordAhead_of_endsAt h (w := "as") (by decide)
  intro left
  simp [climbFrom, operatorAhead_of_endsExpr h, hassign, hdots, has]

theorem reads_climb (h : endsExpr ts = true) (least : Strength) (e : Expr) :
    Reads (Grammar.climb g structs least e) ts e ts :=
  (reads_remaining ts).bind (climbFrom_end h _ least e)

theorem reads_expr (h : Reads (Grammar.unary g structs) ts e rest) (hend : endsExpr rest = true) :
    Reads (Grammar.expr g structs) ts e rest := h.bind (reads_climb hend .weakest e)

theorem exprRereads_of_unary (h : UnaryRereads g.above true EndsValue e) :
    ExprRereads g.above e where
  nonempty := by simpa using ne_nil_of_reads_unary (h [] rfl)
  reads rest hrest := reads_expr (h rest hrest) (endsExpr_of_endsValue hrest)

theorem OperandRereads.expr {ends : List Token → Prop} (h : OperandRereads g true ends e) :
    ExprRereads g.above e := exprRereads_of_unary h.unary_value

/-- The right operand of an operator is all that is left. -/
theorem reads_right (h : Reads (g.unary structs) ts e rest) (hend : endsExpr rest = true)
    (s : Strength) : Reads (Grammar.right g structs s) ts e rest := by
  have hnext : strengthAhead rest = .weakest := by
    simp [strengthAhead, operatorAhead_of_endsExpr hend, assignAhead,
      opAhead_of_endsAt hend "=" (by simp), opAhead_of_endsAt hend ".." (by simp),
      wordAhead_of_endsAt hend (w := "as") (by decide)]
  refine h.bind ((reads_remaining rest).bind fun left => ?_)
  simp [rightFrom, hnext, Strength.level]

/-- The marks of emitted comparisons. -/
theorem operatorAhead_comparison {op : String} (hop : op ∈ ["==", "!="]) (ts : List Token) :
    operatorAhead (Token.operator op ++ ts) = some (op, .compare) ∧
      opAhead op (Token.operator op ++ ts) = true ∧
      dropOp op.toList (Token.operator op ++ ts) = ts ∧
      endsOperand (Token.operator op ++ ts) = true := by
  have hcases : op = "==" ∨ op = "!=" := by simpa using hop
  rcases hcases with rfl | rfl
  · exact ⟨rfl, rfl, rfl, rfl⟩
  · exact ⟨rfl, rfl, rfl, rfl⟩

theorem reads_comparison {op : String} (hop : op ∈ ["==", "!="])
    (hleft : Reads (Grammar.unary g structs) ts left (Token.operator op ++ mid))
    (hcommon : isCommon left = true) (hchain : isComparison left = false)
    (hright : Reads (g.unary structs) mid right rest) (hend : endsExpr rest = true) :
    Reads (Grammar.expr g structs) ts (.binaryExpr left op right) rest := by
  obtain ⟨hahead, hop, hdrop, -⟩ := operatorAhead_comparison hop mid
  have hlength : ∃ n, (Token.operator op ++ mid).length + 1 = n + 1 + 1 := by
    cases hts : Token.operator op ++ mid with
    | nil => simp [hts] at hop
    | cons t ts => exact ⟨ts.length, rfl⟩
  obtain ⟨n, hn⟩ := hlength
  refine hleft.bind ((reads_remaining _).bind ?_)
  rw [hn]
  intro left'
  have hmore : Reads (climbFrom g (n + 1) structs .weakest (.binaryExpr left op right)) rest
      (.binaryExpr left op right) rest := climbFrom_end hend n .weakest _
  have hlevel : ¬ Strength.compare.level < Strength.weakest.level := by decide
  rw [climbFrom]
  simp only [isRange_of_isCommon hcommon, Bool.false_eq_true, if_false, run_bind, run_remaining,
    hahead, hlevel, hchain, Bool.and_false, run_op left' hop, hdrop,
    (reads_right hright hend _).run, hmore.run]

/-- A name or the like is assigned to. -/
theorem reads_assignment (hcommon : isCommon left = true)
    (hright : Reads (g.unary true) ts right rest) (hend : endsExpr rest = true) :
    Reads (Grammar.climb g true .weakest left) (.punct '=' false :: ts) (.assignExpr left right)
      rest := by
  have hnone : operatorAhead (.punct '=' false :: ts) = none := rfl
  have hassign : assignAhead (.punct '=' false :: ts) = true := rfl
  have hop : opAhead "=" (.punct '=' false :: ts) = true := rfl
  have hmore : Reads (climbFrom g (ts.length + 1) true .weakest (.assignExpr left right)) rest
      (.assignExpr left right) rest := climbFrom_end hend ts.length .weakest _
  have hdrop : dropOp "=".toList (.punct '=' false :: ts) = ts := rfl
  have hlevel : Strength.weakest.level ≤ Strength.assign.level := by decide
  refine (reads_remaining _).bind fun left' => ?_
  rw [List.length_cons, climbFrom]
  simp only [isRange_of_isCommon hcommon, Bool.false_eq_true, if_false, run_bind, run_remaining,
    hnone, hlevel, hassign, decide_true, Bool.and_self, if_true, run_ite, run_op left' hop, hdrop,
    (reads_right hright hend _).run]
  exact hmore.run left'

/-! Conditions -/

/-- An expression in front of a block is read again as its condition. -/
def ConditionRereads (g : Rules) (e : Expr) : Prop :=
  ∀ rest, BeforeBlock rest → Reads (g.expr false) (e.tokens ++ rest) e rest

theorem conditionRereads_of_unary (h : UnaryRereads g.above false BeforeBlock e) :
    ConditionRereads g.above e :=
  fun rest hrest => reads_expr (h rest hrest) (endsExpr_of_beforeBlock hrest)

theorem OperandRereads.unary_condition {ends : List Token → Prop}
    (h : OperandRereads g false ends e) (hbrace : ∀ inner ts, ends (.group .brace inner :: ts)) :
    UnaryRereads g.above false BeforeBlock e := h.unary fun ts hts => by
  obtain ⟨inner, rest, rfl⟩ := exists_of_beforeBlock hts
  exact ⟨hbrace inner rest, rfl⟩

theorem OperandRereads.condition {ends : List Token → Prop} (h : OperandRereads g false ends e)
    (hbrace : ∀ inner ts, ends (.group .brace inner :: ts)) : ConditionRereads g.above e :=
  conditionRereads_of_unary (h.unary_condition hbrace)

theorem condition_negated (h : UnaryRereads g false BeforeBlock e) :
    ConditionRereads g.above (negated e) := conditionRereads_of_unary (unary_negated h)

theorem condition_comparison {op : String} (hop : op ∈ ["==", "!="]) {ends : List Token → Prop}
    (hleft : OperandRereads g.above false ends left)
    (hends : ∀ ts, ends (Token.operator op ++ ts)) (hchain : isComparison left = false)
    (hright : UnaryRereads g.above false BeforeBlock right) :
    ConditionRereads g.above.above (.binaryExpr left op right) := by
  intro rest hrest
  have htokens : Tree.tokens (.binaryExpr left op right) ++ rest =
      left.tokens ++ (Token.operator op ++ (right.tokens ++ rest)) := by
    change left.tokens ++ Token.operator op ++ right.tokens ++ rest = _
    simp only [List.append_assoc]
  have hmark := (operatorAhead_comparison hop (right.tokens ++ rest)).2.2.2
  rw [htokens]
  exact reads_comparison hop (reads_unary (hleft.reads _ (hends _)) hmark) hleft.common hchain
    (hright rest hrest) (endsExpr_of_beforeBlock hrest)

/-- What a pattern matches is read up to the block. -/
theorem condition_let {p : Pat} (hp : PatRereads g.above p)
    (hvalue : UnaryRereads g.above false BeforeBlock e) :
    ConditionRereads g.above.above (.letExpr p e) := by
  refine conditionRereads_of_unary fun rest hrest => ?_
  have htokens : Tree.tokens (.letExpr p e) ++ rest =
      .word "let" :: (p.tokens ++ .punct '=' false :: (e.tokens ++ rest)) := by
    change .word "let" :: p.tokens ++ punct '=' ++ e.tokens ++ rest = _
    simp [punct]
  have hkeyword : Ident.isKeyword ⟨"let", false⟩ = true := by decide
  have hend := endsExpr_of_beforeBlock hrest
  have hpat := hp true (.punct '=' false :: (e.tokens ++ rest))
    ⟨by simp [opAhead, opAhead.go], rfl, rfl⟩ fun _ => by simp [barAhead, opAhead, opAhead.go]
  have hclimb : Reads (g.above.climb false .compare e) rest e rest := reads_climb hend .compare e
  have hlet : Reads (letExpr g.above false)
      (.word "let" :: (p.tokens ++ .punct '=' false :: (e.tokens ++ rest)))
      (.letExpr p e) rest := by
    intro left
    simp [letExpr, hpat.run, opAhead, opAhead.go, dropOp, (hvalue rest hrest).run, hclimb.run]
  have hliteral : literalAhead
      (.word "let" :: (p.tokens ++ .punct '=' false :: (e.tokens ++ rest))) = false := rfl
  rw [htokens]
  refine reads_unary (operand_of_atom rfl (fun op _ => opAhead_word op _ _) fun left => ?_)
    (endsOperand_of_endsExpr hend)
  simp [atom, hliteral, asyncBlockAhead, closureAhead, bindsAhead, strangeAtom?, valuePathAhead,
    pathStarts, hkeyword, hlet.run]

end Bindery.Source
