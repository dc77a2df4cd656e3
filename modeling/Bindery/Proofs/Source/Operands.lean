import Bindery.Proofs.Source.Attributes
import Bindery.Proofs.Source.Enclosed

/-!
# Operands are read again

An operand is a name, a literal or the like, with calls, fields and question marks behind it. They
are read one after the other, so what is followed here is what becomes of an operand with each of
them.
-/
namespace Bindery.Source

open Bindery.Source.Parser Bindery.Source.Grammar

/-! Where expressions end -/

/-- What stands in front of the tokens ends there: nothing follows, or one of the marks, a group of
one of the kinds, or the word `else`. -/
def endsAt (marks : List Char) (kinds : List Delimiter) : List Token → Bool
  | [] => true
  | .punct c _ :: _ => marks.contains c
  | .group d _ :: _ => kinds.contains d
  | .ident i :: _ => i == ⟨"else", false⟩
  | .literal _ :: _ => false

/-- A path of names ends in front of the tokens. -/
def endsNames (ts : List Token) : Bool := endsAt [',', ';', '.', '?'] [.paren] ts

/-- Calls, fields and the like end in front of the tokens. -/
def endsOperand (ts : List Token) : Bool := endsAt [',', ';', '=', '!'] [.brace] ts

/-- An expression ends in front of the tokens, maybe because a block follows. -/
def endsExpr (ts : List Token) : Bool := endsAt [',', ';'] [.brace] ts

/-- A value ends in front of the tokens. -/
def endsValue (ts : List Token) : Bool := endsAt [',', ';'] [] ts

section Ends

variable {marks marks' : List Char} {kinds kinds' : List Delimiter} {ts : List Token}

theorem endsAt_mono (h : endsAt marks kinds ts = true) (hmarks : marks ⊆ marks')
    (hkinds : kinds ⊆ kinds') : endsAt marks' kinds' ts = true := by
  match ts, h with
  | [], _ => rfl
  | .punct c joint :: rest, h =>
    exact List.contains_iff_mem.2 (hmarks (List.contains_iff_mem.1 h))
  | .group d inner :: rest, h =>
    exact List.contains_iff_mem.2 (hkinds (List.contains_iff_mem.1 h))
  | .ident i :: rest, h => exact h

theorem endsOperand_of_endsExpr (h : endsExpr ts = true) : endsOperand ts = true :=
  endsAt_mono h (by decide) (by decide)

theorem endsExpr_of_endsValue (h : endsValue ts = true) : endsExpr ts = true :=
  endsAt_mono h (by decide) (by decide)

theorem endsNames_of_endsValue (h : endsValue ts = true) : endsNames ts = true :=
  endsAt_mono h (by decide) (by decide)

theorem opAhead_of_endsAt (h : endsAt marks kinds ts = true) (op : String)
    (hop : ∀ c ∈ marks, op.toList.head? ≠ some c) : opAhead op ts = false := by
  refine Bool.eq_false_iff.2 fun hahead => ?_
  obtain ⟨c, joint, rest, rfl⟩ := exists_punct_of_opAhead hahead
  exact hop c (List.contains_iff_mem.1 h) (head?_of_opAhead hahead)

theorem groupAhead_of_endsAt (h : endsAt marks kinds ts = true) {d : Delimiter} (hd : d ∉ kinds) :
    groupAhead d ts = false := by
  match ts, h with
  | [], _ => rfl
  | .punct c joint :: rest, _ => rfl
  | .ident i :: rest, _ => rfl
  | .group e inner :: rest, h =>
    refine beq_eq_false_iff_ne.2 ?_
    rintro rfl
    exact hd (List.contains_iff_mem.1 h)

theorem wordAhead_of_endsAt (h : endsAt marks kinds ts = true) {w : String} (hw : w ≠ "else") :
    wordAhead w ts = false := by
  match ts, h with
  | [], _ => rfl
  | .punct c joint :: rest, _ => rfl
  | .group e inner :: rest, _ => rfl
  | .ident i :: rest, h =>
    obtain rfl := eq_of_beq h
    simpa [wordAhead] using fun h => hw h.symm

end Ends

/-! Calls, fields and the like -/

/-- The rule for expressions makes the expression of its tokens in front of what ends a value. -/
structure ExprRereads (g : Rules) (e : Expr) : Prop where
  nonempty : e.tokens ≠ []
  reads : ∀ rest, endsValue rest = true → Reads (g.expr true) (e.tokens ++ rest) e rest

/-- An expression that is neither a range, nor kept as tokens, nor behind attributes, nor the
invocation of a macro. -/
def isCommon : Expr → Bool
  | .rangeExpr .. => false
  | .strangeExpr _ => false
  | .attributed .. => false
  | .macroExpr _ => false
  | _ => true

theorem isRange_of_isCommon {e : Expr} (h : isCommon e = true) : isRange e = false := by
  unfold isRange withoutAttributes
  cases e <;> first | rfl | cases h

/-- With what follows it, the operand `e` becomes `e'`. -/
def Trails (g : Rules) (e : Expr) (ts : List Token) (e' : Expr) (rest : List Token) : Prop :=
  ∀ n left, ts.length < n → trailers g n e ⟨ts, left⟩ = .ok (e', ⟨rest, left⟩)

section Trails

variable {g : Rules} {e e' : Expr} {ts mid rest : List Token} {name : Ident} {args : List Expr}

theorem trails_end (h : endsOperand ts = true) : Trails g e ts e ts := by
  intro n left hn
  obtain ⟨n, rfl⟩ : ∃ k, n = k + 1 := ⟨n - 1, by omega⟩
  have hparen := groupAhead_of_endsAt h (d := .paren) (by decide)
  have hbracket := groupAhead_of_endsAt h (d := .bracket) (by decide)
  have hdot := opAhead_of_endsAt h "." (by simp)
  have htry := opAhead_of_endsAt h "?" (by simp)
  simp [trailers, hparen, hbracket, dotAhead, hdot, htry]

theorem trails_try (he : isRange e = false) (h : Trails g (.tryExpr e) ts e' rest) :
    Trails g e (.punct '?' false :: ts) e' rest := by
  intro n left hn
  obtain ⟨n, rfl⟩ : ∃ k, n = k + 1 := ⟨n - 1, by omega⟩
  have hrest := h n left (by simp at hn; omega)
  simp [trailers, dotAhead, opAhead, opAhead.go, dropOp, he, hrest]

theorem reads_arguments (h : ∀ a ∈ args, ExprRereads g a) (rest : List Token) :
    Reads (arguments g) (.group .paren (commas false (args.map Tree.tokens)) :: rest)
      (args, false) rest := by
  have hlist : Reads (Parser.separated List.isEmpty "," (g.expr true))
      (commas false (args.map Tree.tokens) ++ []) (args, false) [] :=
    reads_separated (fun ts => endsValue ts = true) (fun a ha => (h a ha).reads)
      (fun a ha => ⟨(h a ha).nonempty, fun more => by simp [(h a ha).nonempty]⟩)
      (fun more => ⟨rfl, rfl⟩) ⟨rfl, rfl⟩ (by simp)
  rw [List.append_nil] at hlist
  exact reads_delimited hlist .paren rest

theorem trails_call (hargs : ∀ a ∈ args, ExprRereads g a)
    (h : Trails g (callOf e args) ts e' rest) :
    Trails g e (.group .paren (commas false (args.map Tree.tokens)) :: ts) e' rest := by
  intro n left hn
  obtain ⟨n, rfl⟩ : ∃ k, n = k + 1 := ⟨n - 1, by omega⟩
  have hrest := h n left (by simp at hn; omega)
  rw [callOf] at hrest
  simp [trailers, (reads_arguments hargs ts).run, hrest]

/-- What stands behind a dot is read as a whole. -/
theorem trails_dot {e₁ : Expr} (he : isRange e = false)
    (hafter : Reads (dotted g e) (.ident name :: ts) e₁ mid) (hmid : mid.length ≤ ts.length)
    (h : Trails g e₁ mid e' rest) : Trails g e (.punct '.' false :: .ident name :: ts) e' rest := by
  intro n left hn
  obtain ⟨n, rfl⟩ : ∃ k, n = k + 1 := ⟨n - 1, by omega⟩
  have hrest := h n left (by simp at hn; omega)
  simp [trailers, dotAhead, opAhead, opAhead.go, dropOp, he, hafter.run, hrest]

/-- No fraction stands behind the dot. -/
theorem dotted_ident (htrue : name ≠ ⟨"true", false⟩) (hfalse : name ≠ ⟨"false", false⟩)
    (ts : List Token) (left : Option Delimiter) :
    dotted g e ⟨.ident name :: ts, left⟩ = afterDot g e ⟨.ident name :: ts, left⟩ := by
  have hliteral : literalAhead (.ident name :: ts) = false := by simp [literalAhead, htrue, hfalse]
  simp [dotted, literal?, hliteral]

theorem trails_await (he : isRange e = false) (h : Trails g (.awaitExpr e) ts e' rest) :
    Trails g e (.punct '.' false :: .word "await" :: ts) e' rest := by
  refine trails_dot he (fun left => ?_) (Nat.le_refl _) h
  have hawait : wordAhead "await" (.ident ⟨"await", false⟩ :: ts) = true := rfl
  rw [dotted_ident (by decide) (by decide)]
  simp [afterDot, hawait]

/-- A name behind a dot is a field or begins a method. -/
theorem dotted_name (hname : Ident.isKeyword name = false) (ts : List Token)
    (left : Option Delimiter) :
    dotted g e ⟨.ident name :: ts, left⟩ = afterDot g e ⟨.ident name :: ts, left⟩ ∧
      word? "await" ⟨.ident name :: ts, left⟩ = .ok (false, ⟨.ident name :: ts, left⟩) ∧
      member ⟨.ident name :: ts, left⟩ = .ok (.name name, ⟨ts, left⟩) := by
  have hawait := ne_of_not_keyword hname (w := "await") (by decide)
  refine ⟨dotted_ident (ne_of_not_keyword hname (by decide))
    (ne_of_not_keyword hname (by decide)) ts left, ?_, ?_⟩
  · simp [hawait]
  · simp [member, hname]

theorem trails_field (he : isRange e = false) (hname : Ident.isKeyword name = false)
    (hcolons : opAhead "::" ts = false) (hparen : groupAhead .paren ts = false)
    (h : Trails g (fieldOf e name) ts e' rest) :
    Trails g e (.punct '.' false :: .ident name :: ts) e' rest := by
  refine trails_dot he (fun left => ?_) (Nat.le_refl _) h
  obtain ⟨hdotted, hawait, hmember⟩ := dotted_name (g := g) (e := e) hname ts left
  rw [hdotted, afterDot, run_bind, hawait]
  simp [hmember, hcolons, hparen, fieldOf]

theorem trails_method (he : isRange e = false) (hname : Ident.isKeyword name = false)
    (hargs : ∀ a ∈ args, ExprRereads g a)
    (h : Trails g (.methodExpr e name .noArgs (.ofList args) false) ts e' rest) :
    Trails g e (.punct '.' false :: .ident name ::
      .group .paren (commas false (args.map Tree.tokens)) :: ts) e' rest := by
  refine trails_dot he (fun left => ?_) (Nat.le_succ _) h
  obtain ⟨hdotted, hawait, hmember⟩ := dotted_name (g := g) (e := e) hname
    (.group .paren (commas false (args.map Tree.tokens)) :: ts) left
  rw [hdotted, afterDot, run_bind, hawait]
  simp [hmember, (reads_arguments hargs ts).run]

/-- A method with type arguments. -/
theorem trails_genericMethod {inner : List Token} {types : Tree (.many .genericArg)}
    {trailing : Bool} (he : isRange e = false) (hname : Ident.isKeyword name = false)
    (htypes : ∀ more, Reads (angleArguments g) (Token.operator "::" ++ inner ++ more)
      (.angleArgs true types trailing) more)
    (hargs : ∀ a ∈ args, ExprRereads g a)
    (h : Trails g (.methodExpr e name (.angleArgs true types trailing) (.ofList args) false) ts e'
      rest) :
    Trails g e (.punct '.' false :: .ident name :: (Token.operator "::" ++ inner ++
      .group .paren (commas false (args.map Tree.tokens)) :: ts)) e' rest := by
  refine trails_dot he (fun left => ?_) ?_ h
  · have hahead : ∀ more, opAhead "::" (Token.operator "::" ++ inner ++ more) = true := fun _ => by
      simp [Token.operator_colons, opAhead, opAhead.go]
    obtain ⟨hdotted, hawait, hmember⟩ := dotted_name (g := g) (e := e) hname
      (Token.operator "::" ++ inner ++ .group .paren
      (commas false (args.map Tree.tokens)) :: ts) left
    rw [hdotted, afterDot, run_bind, hawait]
    simp only [Bool.false_eq_true, if_false, run_bind, hmember, run_ahead, hahead, run_ite, if_true,
      (htypes _).run]
    simp [(reads_arguments hargs ts).run]
  · simp
    omega

end Trails

/-! Operands -/

/-- The tokens begin with the operand `e`, behind which `rest` is to be read. No sign stands in
front of it. -/
structure Operand (g : Rules) (structs : Bool) (ts : List Token) (e : Expr) (rest : List Token) :
    Prop where
  common : isCommon e = true
  unsigned : ∀ op ∈ ["#", "&", "*", "!", "-"], opAhead op ts = false
  reads : ∀ e' last, Trails g e rest e' last →
    Reads (do trailing g (← atom g structs)) ts e' last

section Operand

variable {g : Rules} {structs : Bool} {e : Expr} {ts rest : List Token}

theorem operand_of_atom (hcommon : isCommon e = true)
    (hsign : ∀ op ∈ ["#", "&", "*", "!", "-"], opAhead op ts = false)
    (h : Reads (atom g structs) ts e rest) : Operand g structs ts e rest := by
  refine ⟨hcommon, hsign, fun e' last htrails => h.bind ?_⟩
  exact (reads_remaining rest).bind fun left => htrails _ left (Nat.lt_succ_self _)

/-- The operand grows by what stands behind it. -/
theorem Operand.grow {e₁ : Expr} {mid : List Token} (h : Operand g structs ts e mid)
    (hcommon : isCommon e₁ = true)
    (hstep : ∀ e' last, Trails g e₁ rest e' last → Trails g e mid e' last) :
    Operand g structs ts e₁ rest :=
  ⟨hcommon, h.unsigned, fun e' last htrails => h.reads e' last (hstep e' last htrails)⟩

/-- An operand with nothing behind it. -/
theorem reads_unary (h : Operand g structs ts e rest) (hend : endsOperand rest = true) :
    Reads (Grammar.unary g structs) ts e rest := by
  have hnone : Reads (outerAttributes g) ts .nil ts := reads_noOuter (h.unsigned "#" (by simp))
  have hread := h.reads e rest (trails_end hend)
  have hself : withAttributes .nil e = e := by simp [withAttributes, Tree.isNil]
  have hcommon := h.common
  intro left
  have hrun := hread.run left
  rw [run_bind] at hrun
  simp only [Grammar.unary, run_bind, run_remaining, hnone.run, run_op?, h.unsigned "&" (by simp),
    h.unsigned "*" (by simp), h.unsigned "!" (by simp), h.unsigned "-" (by simp),
    Bool.false_eq_true, if_false]
  cases hatom : atom g structs ⟨ts, left⟩ with
  | error why => simp [hatom] at hrun
  | ok r =>
    simp only [hatom] at hrun
    simp only [hrun]
    split
    · cases hcommon
    · simp [Tree.isNil, hself]

end Operand

/-- The expression is read as an operand in front of what it may end at. More of an operand may
follow there. -/
structure OperandRereads (g : Rules) (structs : Bool) (ends : List Token → Prop) (e : Expr) :
    Prop where
  dot : ∀ ts, ends (.punct '.' false :: ts)
  question : ∀ ts, ends (.punct '?' false :: ts)
  value : ∀ ts, endsValue ts = true → ends ts
  reads : ∀ rest, ends rest → Operand g structs (e.tokens ++ rest) e rest

/-- Whatever follows, it does not belong to what is in front of it. -/
def Closed : List Token → Prop := fun _ => True

/-- A field ends in front of the tokens. -/
structure EndsField (ts : List Token) : Prop where
  colons : opAhead "::" ts = false
  paren : groupAhead .paren ts = false

theorem endsField_of_endsOperand {ts : List Token} (h : endsOperand ts = true) : EndsField ts :=
  ⟨opAhead_of_endsAt h "::" (by simp), groupAhead_of_endsAt h (by decide)⟩

namespace OperandRereads

variable {g : Rules} {structs : Bool} {ends : List Token → Prop} {e : Expr} {name : Ident}
  {args : List Expr}

theorem closed (h : ∀ rest, Operand g structs (e.tokens ++ rest) e rest) :
    OperandRereads g structs Closed e :=
  ⟨fun _ => trivial, fun _ => trivial, fun _ _ => trivial, fun rest _ => h rest⟩

theorem common (h : OperandRereads g structs ends e) : isCommon e = true :=
  (h.reads [] (h.value [] rfl)).common

theorem field (h : OperandRereads g structs ends e) (hname : Ident.isKeyword name = false) :
    OperandRereads g structs EndsField (fieldOf e name) where
  dot _ := ⟨by simp [opAhead, opAhead.go], rfl⟩
  question _ := ⟨by simp [opAhead, opAhead.go], rfl⟩
  value _ hend := endsField_of_endsOperand (endsOperand_of_endsExpr (endsExpr_of_endsValue hend))
  reads rest hrest := by
    have htokens : (fieldOf e name).tokens ++ rest =
        e.tokens ++ .punct '.' false :: .ident name :: rest := by
      change e.tokens ++ punct '.' ++ [.ident name] ++ rest = _
      simp [punct]
    rw [htokens]
    exact (h.reads _ (h.dot _)).grow rfl fun e' last =>
      trails_field (isRange_of_isCommon h.common) hname hrest.colons hrest.paren

theorem method (h : OperandRereads g structs ends e) {w : String}
    (hname : Ident.isKeyword (plain w) = false) (hargs : ∀ a ∈ args, ExprRereads g a) :
    OperandRereads g structs Closed (methodOf e w args) := closed fun rest => by
  have htokens : (methodOf e w args).tokens ++ rest = e.tokens ++ .punct '.' false ::
      .ident (plain w) :: .group .paren (commas false (args.map Tree.tokens)) :: rest := by
    change e.tokens ++ punct '.' ++ .ident (plain w) :: [] ++
      parenthesized (commas false (Tree.ofList args).tokens) ++ rest = _
    simp [punct, parenthesized]
  rw [htokens]
  exact (h.reads _ (h.dot _)).grow rfl fun e' last =>
    trails_method (isRange_of_isCommon h.common) hname hargs

theorem genericMethod (h : OperandRereads g structs ends e)
    (hname : Ident.isKeyword name = false) {types : Tree (.many .genericArg)} {trailing : Bool}
    (htypes : ∀ more, Reads (angleArguments g)
      (Tree.tokens (.angleArgs true types trailing) ++ more) (.angleArgs true types trailing) more)
    (hargs : ∀ a ∈ args, ExprRereads g a) : OperandRereads g structs Closed
      (.methodExpr e name (.angleArgs true types trailing) (.ofList args) false) :=
  closed fun rest => by
    obtain ⟨inner, hinner⟩ : ∃ inner, Tree.tokens (.angleArgs true types trailing) =
        Token.operator "::" ++ inner := by
      refine ⟨punct '<' ++ orderedArgs (lifetimesAmong types) trailing types.tokens ++
          punct '>', ?_⟩
      simp
    have htokens : Tree.tokens (.methodExpr e name (.angleArgs true types trailing) (.ofList args)
        false) ++ rest = e.tokens ++ .punct '.' false :: .ident name :: (Token.operator "::" ++
          inner ++ .group .paren (commas false (args.map Tree.tokens)) :: rest) := by
      change e.tokens ++ punct '.' ++ .ident name :: Tree.tokens (.angleArgs true types trailing) ++
        parenthesized (commas false (Tree.ofList args).tokens) ++ rest = _
      rw [hinner]
      simp [punct, parenthesized]
    rw [htokens]
    exact (h.reads _ (h.dot _)).grow rfl fun e' last =>
      trails_genericMethod (isRange_of_isCommon h.common) hname (hinner ▸ htypes) hargs

theorem await (h : OperandRereads g structs ends e) :
    OperandRereads g structs Closed (.awaitExpr e) := closed fun rest => by
  have htokens : Tree.tokens (.awaitExpr e) ++ rest =
      e.tokens ++ .punct '.' false :: .word "await" :: rest := by
    change e.tokens ++ punct '.' ++ [.word "await"] ++ rest = _
    simp [punct]
  rw [htokens]
  exact (h.reads _ (h.dot _)).grow rfl fun e' last => trails_await (isRange_of_isCommon h.common)

theorem try_ (h : OperandRereads g structs ends e) :
    OperandRereads g structs Closed (.tryExpr e) := closed fun rest => by
  have htokens : Tree.tokens (.tryExpr e) ++ rest = e.tokens ++ .punct '?' false :: rest := by
    change e.tokens ++ punct '?' ++ rest = _
    simp [punct]
  rw [htokens]
  exact (h.reads _ (h.question _)).grow rfl fun e' last =>
    trails_try (isRange_of_isCommon h.common)

/-- What a call is made of ends at its parentheses. -/
theorem call (h : OperandRereads g structs ends e)
    (hparen : ∀ inner ts, ends (.group .paren inner :: ts)) (hargs : ∀ a ∈ args, ExprRereads g a) :
    OperandRereads g structs Closed (callOf e args) := closed fun rest => by
  have htokens : (callOf e args).tokens ++ rest =
      e.tokens ++ .group .paren (commas false (args.map Tree.tokens)) :: rest := by
    change e.tokens ++ parenthesized (commas false (Tree.ofList args).tokens) ++ rest = _
    simp [parenthesized]
  rw [htokens]
  exact (h.reads _ (hparen _ _)).grow rfl fun e' last => trails_call hargs

end OperandRereads

end Bindery.Source
