import Bindery.Source.Build
import Mathlib

/-!
# Paths in code

The paths that code mentions, wherever they stand: in types, in expressions, and within each other.
-/
namespace Bindery.Source

/-- All paths in a tree. Tokens that are kept as they were written are not looked into. -/
def Tree.paths : {s : Shape} → Tree s → List Path
  | _, .nil => []
  | _, .cons x rest => x.paths ++ rest.paths
  | _, .absent => []
  | _, .present x => x.paths
  -- attributes
  | _, .markAttr .. => []
  | _, .listAttr .. => []
  | _, .valueAttr _ _ value => value.paths
  -- types
  | _, .arrayType elem length => elem.paths ++ length.paths
  | _, .fnType binder _ _ inputs _ rest output =>
    binder.paths ++ inputs.paths ++ rest.paths ++ output.paths
  | _, .someType bounds _ => bounds.paths
  | _, .inferredType => []
  | _, .macroType .. => []
  | _, .neverType => []
  | _, .parenType t => t.paths
  | _, .pathType p => p.paths
  | _, .pointerType _ t => t.paths
  | _, .referenceType _ _ t => t.paths
  | _, .sliceType t => t.paths
  | _, .objectType _ bounds _ => bounds.paths
  | _, .tupleType elems _ => elems.paths
  | _, .strangeType .. => []
  | _, .namedType attrs _ t => attrs.paths ++ t.paths
  | _, .variadic attrs name _ => attrs.paths ++ name.paths
  -- paths
  | _, .path rooted segments => .path rooted segments :: segments.paths
  | _, .segment _ args => args.paths
  | _, .noArgs => []
  | _, .angleArgs _ args _ => args.paths
  | _, .callArgs inputs _ output => inputs.paths ++ output.paths
  | _, .plainPlace p => p.paths
  | _, .itemPlace self ofTrait rest => self.paths ++ ofTrait.paths ++ rest.paths
  | _, .lifetimeArg .. => []
  | _, .typeArg t => t.paths
  | _, .constArg e => e.paths
  | _, .assocTypeArg _ args t => args.paths ++ t.paths
  | _, .assocConstArg _ args e => args.paths ++ e.paths
  | _, .constraintArg _ args bounds _ => args.paths ++ bounds.paths
  -- bounds, generic parameters and the rules on them
  | _, .lifetimeBound .. => []
  | _, .traitBound _ _ binder p => binder.paths ++ p.paths
  | _, .captureBound .. => []
  | _, .strangeBound .. => []
  | _, .lifetimeParam attrs _ _ => attrs.paths
  | _, .typeParam attrs _ bounds _ default => attrs.paths ++ bounds.paths ++ default.paths
  | _, .constParam attrs _ t default => attrs.paths ++ t.paths ++ default.paths
  | _, .params elems _ => elems.paths
  | _, .forAll elems _ => elems.paths
  | _, .lifetimeRule .. => []
  | _, .typeRule binder t bounds _ => binder.paths ++ t.paths ++ bounds.paths
  | _, .rules elems _ => elems.paths
  -- expressions
  | _, .attributed attrs e => attrs.paths ++ e.paths
  | _, .arrayExpr elems _ => elems.paths
  | _, .assignExpr left right => left.paths ++ right.paths
  | _, .awaitExpr e => e.paths
  | _, .binaryExpr left _ right => left.paths ++ right.paths
  | _, .blockExpr _ _ body => body.paths
  | _, .breakExpr _ value => value.paths
  | _, .callExpr callee args _ => callee.paths ++ args.paths
  | _, .castExpr e t => e.paths ++ t.paths
  | _, .closureExpr binder _ inputs _ output body =>
    binder.paths ++ inputs.paths ++ output.paths ++ body.paths
  | _, .continueExpr .. => []
  | _, .fieldExpr e _ => e.paths
  | _, .forExpr _ pat source body => pat.paths ++ source.paths ++ body.paths
  | _, .ifExpr cond body otherwise => cond.paths ++ body.paths ++ otherwise.paths
  | _, .indexExpr e i => e.paths ++ i.paths
  | _, .inferredExpr => []
  | _, .letExpr pat e => pat.paths ++ e.paths
  | _, .literalExpr .. => []
  | _, .loopExpr _ body => body.paths
  | _, .macroExpr .. => []
  | _, .matchExpr e attrs arms => e.paths ++ attrs.paths ++ arms.paths
  | _, .methodExpr receiver _ typeArgs args _ => receiver.paths ++ typeArgs.paths ++ args.paths
  | _, .parenExpr e => e.paths
  | _, .pathExpr p => p.paths
  | _, .rangeExpr left _ right => left.paths ++ right.paths
  | _, .addressExpr _ e => e.paths
  | _, .referenceExpr _ e => e.paths
  | _, .repeatExpr e length => e.paths ++ length.paths
  | _, .returnExpr value => value.paths
  | _, .structExpr p fields _ _ base => p.paths ++ fields.paths ++ base.paths
  | _, .tryExpr e => e.paths
  | _, .tupleExpr elems _ => elems.paths
  | _, .unaryExpr _ e => e.paths
  | _, .whileExpr _ cond body => cond.paths ++ body.paths
  | _, .yieldExpr value => value.paths
  | _, .strangeExpr .. => []
  | _, .fieldValue attrs _ value => attrs.paths ++ value.paths
  | _, .arm attrs pat guard body _ => attrs.paths ++ pat.paths ++ guard.paths ++ body.paths
  -- patterns
  | _, .attributedPat attrs p => attrs.paths ++ p.paths
  | _, .anyPat => []
  | _, .constPat body => body.paths
  | _, .identPat _ _ _ sub => sub.paths
  | _, .literalPat .. => []
  | _, .rangePat left _ right => left.paths ++ right.paths
  | _, .macroPat .. => []
  | _, .orPat _ cases => cases.paths
  | _, .parenPat p => p.paths
  | _, .pathPat p => p.paths
  | _, .referencePat _ p => p.paths
  | _, .restPat => []
  | _, .slicePat elems _ => elems.paths
  | _, .structPat p fields _ rest => p.paths ++ fields.paths ++ rest.paths
  | _, .tuplePat elems _ => elems.paths
  | _, .tupleStructPat p elems _ => p.paths ++ elems.paths
  | _, .typedPat p t => p.paths ++ t.paths
  | _, .strangePat .. => []
  | _, .fieldPat attrs _ p => attrs.paths ++ p.paths
  | _, .shortFieldPat attrs p => attrs.paths ++ p.paths
  | _, .otherFieldsPat attrs => attrs.paths
  -- statements
  | _, .letStmt attrs pat value otherwise =>
    attrs.paths ++ pat.paths ++ value.paths ++ otherwise.paths
  | _, .itemStmt i => i.paths
  | _, .exprStmt e _ => e.paths
  | _, .macroStmt attrs _ _ => attrs.paths
  | _, .emptyStmt => []
  | _, .block attrs stmts => attrs.paths ++ stmts.paths
  -- parts of items
  | _, .field attrs _ _ t => attrs.paths ++ t.paths
  | _, .unitFields => []
  | _, .namedFields elems _ => elems.paths
  | _, .plainFields elems _ => elems.paths
  | _, .variant attrs _ fields value => attrs.paths ++ fields.paths ++ value.paths
  | _, .selfParam attrs _ _ _ t => attrs.paths ++ t.paths
  | _, .param attrs pat t => attrs.paths ++ pat.paths ++ t.paths
  | _, .signature _ _ ps inputs _ rest output rs =>
    ps.paths ++ inputs.paths ++ rest.paths ++ output.paths ++ rs.paths
  | _, .members attrs items => attrs.paths ++ items.paths
  -- items
  | _, .constItem attrs _ _ t value => attrs.paths ++ t.paths ++ value.paths
  | _, .enumItem attrs _ _ ps rs variants _ =>
    attrs.paths ++ ps.paths ++ rs.paths ++ variants.paths
  | _, .externItem attrs _ _ content => attrs.paths ++ content.paths
  | _, .externCrateItem attrs _ _ _ => attrs.paths
  | _, .fnItem attrs _ sig body => attrs.paths ++ sig.paths ++ body.paths
  | _, .implItem attrs _ _ ps _ ofTrait self rs content =>
    attrs.paths ++ ps.paths ++ ofTrait.paths ++ self.paths ++ rs.paths ++ content.paths
  | _, .macroItem attrs _ _ => attrs.paths
  | _, .moduleItem attrs _ _ _ content => attrs.paths ++ content.paths
  | _, .staticItem attrs _ _ _ t value => attrs.paths ++ t.paths ++ value.paths
  | _, .structItem attrs _ _ ps fields rs =>
    attrs.paths ++ ps.paths ++ fields.paths ++ rs.paths
  | _, .traitItem attrs _ _ _ _ ps bounds _ rs content =>
    attrs.paths ++ ps.paths ++ bounds.paths ++ rs.paths ++ content.paths
  | _, .traitAliasItem attrs _ _ ps bounds _ rs =>
    attrs.paths ++ ps.paths ++ bounds.paths ++ rs.paths
  | _, .typeItem attrs _ _ ps rs t => attrs.paths ++ ps.paths ++ rs.paths ++ t.paths
  | _, .assocTypeItem attrs _ _ ps bounds _ t rs =>
    attrs.paths ++ ps.paths ++ bounds.paths ++ t.paths ++ rs.paths
  | _, .foreignTypeItem attrs _ _ ps rs => attrs.paths ++ ps.paths ++ rs.paths
  | _, .unionItem attrs _ _ ps rs fields =>
    attrs.paths ++ ps.paths ++ rs.paths ++ fields.paths
  | _, .useItem attrs _ _ _ => attrs.paths
  | _, .strangeItem .. => []

theorem Tree.paths_ofList {k : Kind} (xs : List (Tree (.one k))) :
    (Tree.ofList xs).paths = xs.flatMap Tree.paths := by
  induction xs with
  | nil => rfl
  | cons x rest ih =>
    change x.paths ++ (ofList rest).paths = _
    rw [ih, List.flatMap_cons]

theorem Tree.mem_paths_self (p : Path) : p ∈ p.paths := by
  cases p with
  | path rooted segments => exact List.mem_cons_self

theorem Tree.mem_paths_implOf {t : Ty} {p : Path} (h : p ∈ t.paths) (items : List Item) :
    p ∈ (implOf t items).paths := by
  change p ∈ [] ++ [] ++ [] ++ t.paths ++ [] ++ ([] ++ (Tree.ofList items).paths)
  simp [h]

/-- Every path in a tree satisfies a condition. -/
def Tree.All (P : Path → Prop) {s : Shape} (t : Tree s) : Prop := ∀ p ∈ t.paths, P p

namespace Tree.All

variable {P : Path → Prop} {k : Kind}

/-! Parts of trees -/

@[simp] theorem ofList (xs : List (Tree (.one k))) :
    (Tree.ofList xs).All P ↔ ∀ x ∈ xs, x.All P := by
  unfold All
  rw [paths_ofList]
  exact List.forall_mem_flatMap

@[simp] theorem nil : (Tree.nil : Tree (.many k)).All P := List.forall_mem_nil P

@[simp] theorem cons (x : Tree (.one k)) (rest : Tree (.many k)) :
    (Tree.cons x rest).All P ↔ x.All P ∧ rest.All P := List.forall_mem_append

@[simp] theorem absent : (Tree.absent : Tree (.maybe k)).All P := List.forall_mem_nil P

@[simp] theorem present (x : Tree (.one k)) : (Tree.present x).All P ↔ x.All P := Iff.rfl

@[simp] theorem path (rooted : Bool) (segments : Tree (.many .segment)) :
    (Tree.path rooted segments).All P ↔ P (.path rooted segments) ∧ segments.All P :=
  List.forall_mem_cons

@[simp] theorem segment (name : Ident) (args : Tree (.one .arguments)) :
    (Tree.segment name args).All P ↔ args.All P := Iff.rfl

@[simp] theorem noArgs : Tree.noArgs.All P := List.forall_mem_nil P

@[simp] theorem angleArgs (turbofish : Bool) (args : Tree (.many .genericArg)) (trailing : Bool) :
    (Tree.angleArgs turbofish args trailing).All P ↔ args.All P := Iff.rfl

@[simp] theorem typeArg (t : Ty) : (Tree.typeArg t).All P ↔ t.All P := Iff.rfl

@[simp] theorem lifetimeArg (name : Ident) : (Tree.lifetimeArg name).All P := List.forall_mem_nil P

@[simp] theorem referenceType (lifetime : Option Ident) (mutable : Bool) (t : Ty) :
    (Tree.referenceType lifetime mutable t).All P ↔ t.All P := Iff.rfl

@[simp] theorem tupleType (elems : Tree (.many .type)) (trailing : Bool) :
    (Tree.tupleType elems trailing).All P ↔ elems.All P := Iff.rfl

@[simp] theorem literalExpr (text : String) : (Tree.literalExpr text).All P := List.forall_mem_nil P

@[simp] theorem plainPlace (p : Path) : (Tree.plainPlace p).All P ↔ p.All P := Iff.rfl

@[simp] theorem assignExpr (left right : Expr) :
    (Tree.assignExpr left right).All P ↔ left.All P ∧ right.All P := List.forall_mem_append

@[simp] theorem awaitExpr (e : Expr) : (Tree.awaitExpr e).All P ↔ e.All P := Iff.rfl

@[simp] theorem binaryExpr (left : Expr) (op : String) (right : Expr) :
    (Tree.binaryExpr left op right).All P ↔ left.All P ∧ right.All P := List.forall_mem_append

@[simp] theorem closureExpr (flags : ClosureFlags) (inputs : Tree (.many .pat)) (trailing : Bool)
    (body : Expr) :
    (Tree.closureExpr .absent flags inputs trailing .absent body).All P ↔
      inputs.All P ∧ body.All P := by
  change (∀ p ∈ [] ++ inputs.paths ++ [] ++ body.paths, P p) ↔ _
  rw [List.nil_append, List.append_nil]
  exact List.forall_mem_append

@[simp] theorem letExpr (pat : Pat) (e : Expr) :
    (Tree.letExpr pat e).All P ↔ pat.All P ∧ e.All P := List.forall_mem_append

@[simp] theorem methodExpr (receiver : Expr) (name : Ident) (typeArgs : Tree (.one .arguments))
    (args : Tree (.many .expr)) (trailing : Bool) :
    (Tree.methodExpr receiver name typeArgs args trailing).All P ↔
      (receiver.All P ∧ typeArgs.All P) ∧ args.All P :=
  List.forall_mem_append.trans (and_congr_left' List.forall_mem_append)

@[simp] theorem returnExpr (value : Tree (.maybe .expr)) :
    (Tree.returnExpr value).All P ↔ value.All P := Iff.rfl

@[simp] theorem structExpr (p : Place) (fields : Tree (.many .fieldValue)) (trailing dots : Bool)
    (base : Tree (.maybe .expr)) :
    (Tree.structExpr p fields trailing dots base).All P ↔
      (p.All P ∧ fields.All P) ∧ base.All P :=
  List.forall_mem_append.trans (and_congr_left' List.forall_mem_append)

@[simp] theorem tryExpr (e : Expr) : (Tree.tryExpr e).All P ↔ e.All P := Iff.rfl

@[simp] theorem tupleExpr (elems : Tree (.many .expr)) (trailing : Bool) :
    (Tree.tupleExpr elems trailing).All P ↔ elems.All P := Iff.rfl

@[simp] theorem identPat (byRef mutable : Bool) (name : Ident) (sub : Tree (.maybe .pat)) :
    (Tree.identPat byRef mutable name sub).All P ↔ sub.All P := Iff.rfl

@[simp] theorem tupleStructPat (p : Place) (elems : Tree (.many .pat)) (trailing : Bool) :
    (Tree.tupleStructPat p elems trailing).All P ↔ p.All P ∧ elems.All P :=
  List.forall_mem_append

@[simp] theorem letStmt (pat : Pat) (value : Tree (.maybe .expr))
    (otherwise : Tree (.maybe .block)) :
    (Tree.letStmt .nil pat value otherwise).All P ↔
      (pat.All P ∧ value.All P) ∧ otherwise.All P :=
  List.forall_mem_append.trans (and_congr_left' List.forall_mem_append)

@[simp] theorem itemStmt (i : Item) : (Tree.itemStmt i).All P ↔ i.All P := Iff.rfl

@[simp] theorem constItem (front : Front) (name : Ident) (t : Ty) (value : Tree (.maybe .expr)) :
    (Tree.constItem .nil front name t value).All P ↔ t.All P ∧ value.All P :=
  List.forall_mem_append

@[simp] theorem params (elems : Tree (.many .genericParam)) (trailing : Bool) :
    (Tree.params elems trailing).All P ↔ elems.All P := Iff.rfl

@[simp] theorem lifetimeParam (name : Ident) (bounds : Outlived) :
    (Tree.lifetimeParam .nil name bounds).All P := List.forall_mem_nil P

/-! Built trees -/

@[simp] theorem segmentOf (name : Ident) : (Source.segmentOf name).All P := List.forall_mem_nil P

@[simp] theorem segmentWith (name : Ident) (args : List Ty) :
    (Source.segmentWith name args).All P ↔ ∀ t ∈ args, t.All P := by
  change (Tree.ofList (args.map Tree.typeArg)).All P ↔ _
  simp

@[simp] theorem pathType (p : Path) : (Source.pathType p).All P ↔ p.All P := Iff.rfl

@[simp] theorem pathExpr (p : Path) : (Source.pathExpr p).All P ↔ p.All P := Iff.rfl

@[simp] theorem referenceTo (t : Ty) : (Source.referenceTo t).All P ↔ t.All P := Iff.rfl

@[simp] theorem textExpr (text : String) : (Source.textExpr text).All P := List.forall_mem_nil P

@[simp] theorem callOf (f : Expr) (args : List Expr) :
    (Source.callOf f args).All P ↔ f.All P ∧ ∀ e ∈ args, e.All P :=
  List.forall_mem_append.trans (and_congr_right' (ofList args))

@[simp] theorem fieldOf (e : Expr) (name : Ident) : (Source.fieldOf e name).All P ↔ e.All P :=
  Iff.rfl

@[simp] theorem methodOf (e : Expr) (name : String) (args : List Expr) :
    (Source.methodOf e name args).All P ↔ e.All P ∧ ∀ arg ∈ args, arg.All P := by
  simp [Source.methodOf]

@[simp] theorem borrowed (e : Expr) : (Source.borrowed e).All P ↔ e.All P := Iff.rfl

@[simp] theorem negated (e : Expr) : (Source.negated e).All P ↔ e.All P := Iff.rfl

@[simp] theorem setField (name : Ident) (e : Expr) : (Source.setField name e).All P ↔ e.All P :=
  Iff.rfl

@[simp] theorem sameField (name : Ident) : (Source.sameField name).All P := List.forall_mem_nil P

@[simp] theorem doStmt (e : Expr) : (Source.doStmt e).All P ↔ e.All P := Iff.rfl

@[simp] theorem valueStmt (e : Expr) : (Source.valueStmt e).All P ↔ e.All P := Iff.rfl

@[simp] theorem blockOf (stmts : List Stmt) :
    (Source.blockOf stmts).All P ↔ ∀ x ∈ stmts, x.All P := ofList stmts

@[simp] theorem ifStmt (cond : Expr) (stmts : List Stmt) :
    (Source.ifStmt cond stmts).All P ↔ cond.All P ∧ ∀ x ∈ stmts, x.All P := by
  change (∀ p ∈ cond.paths ++ (Source.blockOf stmts).paths ++ [], P p) ↔ _
  rw [List.append_nil, List.forall_mem_append]
  exact and_congr_right' (blockOf stmts)

@[simp] theorem namePat (name : Ident) : (Source.namePat name).All P := List.forall_mem_nil P

@[simp] theorem letWith (name : Ident) (e : Expr) : (Source.letStmt name e).All P ↔ e.All P := by
  simp [Source.letStmt]

theorem docs (lines : List String) : ∀ a ∈ Source.docs lines, a.All P := by
  intro a ha
  obtain ⟨line, -, rfl⟩ := List.mem_map.1 ha
  exact List.forall_mem_nil P

@[simp] theorem listAttribute (w : String) (tokens : List Token) :
    (Source.listAttribute w tokens).All P := List.forall_mem_nil P

@[simp] theorem paramOf (name : Ident) (t : Ty) : (Source.paramOf name t).All P ↔ t.All P := Iff.rfl

@[simp] theorem selfRef : Source.selfRef.All P := List.forall_mem_nil P

@[simp] theorem selfMut : Source.selfMut.All P := List.forall_mem_nil P

@[simp] theorem publicFn (lines : List String) (flags : FnFlags) (name : Ident)
    (inputs : List (Tree (.one .param))) (output : Ty) (stmts : List Stmt) :
    (Source.publicFn (Source.docs lines) flags name inputs output stmts).All P ↔
      (∀ x ∈ inputs, x.All P) ∧ output.All P ∧ ∀ x ∈ stmts, x.All P := by
  change (∀ p ∈ (Tree.ofList (Source.docs lines)).paths ++
    ([] ++ (Tree.ofList inputs).paths ++ [] ++ output.paths ++ []) ++
    (Source.blockOf stmts).paths, P p) ↔ _
  simp only [List.forall_mem_append, List.nil_append, List.append_nil, and_assoc]
  have hdocs : ∀ p ∈ (Tree.ofList (Source.docs lines)).paths, P p :=
    (ofList _).2 (docs lines)
  exact (and_iff_right hdocs).trans
    (and_congr (ofList inputs) (and_congr_right' (blockOf stmts)))

@[simp] theorem fieldNamed (attrs : List Attribute) (vis : Visibility) (name : Ident) (t : Ty) :
    (Source.fieldNamed attrs vis name t).All P ↔ (∀ a ∈ attrs, a.All P) ∧ t.All P :=
  List.forall_mem_append.trans (and_congr_left' (ofList attrs))

@[simp] theorem structOf (attrs : List Attribute) (front : Front) (name : Ident)
    (generics : Tree (.maybe .params)) (elems : List (Tree (.one .field))) :
    (Source.structOf attrs front name generics elems).All P ↔
      (∀ a ∈ attrs, a.All P) ∧ generics.All P ∧ ∀ x ∈ elems, x.All P := by
  change (∀ p ∈ (Tree.ofList attrs).paths ++ generics.paths ++ (Tree.ofList elems).paths ++ [],
    P p) ↔ _
  rw [List.append_nil, List.forall_mem_append, List.forall_mem_append, and_assoc]
  exact and_congr (ofList attrs) (and_congr_right' (ofList elems))

@[simp] theorem implOf (t : Ty) (items : List Item) :
    (Source.implOf t items).All P ↔ t.All P ∧ ∀ x ∈ items, x.All P := by
  change (∀ p ∈ [] ++ [] ++ [] ++ t.paths ++ [] ++ ([] ++ (Tree.ofList items).paths), P p) ↔ _
  simp only [List.nil_append, List.append_nil, List.forall_mem_append]
  exact and_congr_right' (ofList items)

end Tree.All

end Bindery.Source
