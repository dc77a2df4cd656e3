import Bindery.Proofs.Source.Paths

/-!
# Forms of plain types

What a plain type is made of, where the types in it satisfy a condition. All inductions on plain types
go through these forms, since the types in a type have fewer tokens.
-/
namespace Bindery.Source

/-- An argument of a name, where types satisfy the condition. -/
inductive ArgForm (P : Ty → Prop) : Tree (.one .genericArg) → Prop
  | lifetime (name : Ident) : ArgForm P (.lifetimeArg name)
  | type {t : Ty} (h : P t) : ArgForm P (.typeArg t)

/-- A name of a path, maybe with arguments. -/
inductive SegmentForm (P : Ty → Prop) : Tree (.one .segment) → Prop
  | bare {name : Ident}
    (h : (isPlaceWord name || name == ⟨"Self", false⟩ || !Ident.isKeyword name) = true) :
    SegmentForm P (.segment name .noArgs)
  | named {name : Ident} {args : List (Tree (.one .genericArg))} {trailing : Bool}
    (hname : name = ⟨"Self", false⟩ ∨ Ident.isKeyword name = false)
    (hlife : lifetimesFirst (lifetimesAmong (.ofList args)) = true)
    (htrailing : trailing = true → args ≠ []) (h : ∀ a ∈ args, ArgForm P a) :
    SegmentForm P (.segment name (.angleArgs false (.ofList args) trailing))

inductive PathForm (P : Ty → Prop) : Path → Prop
  | of (rooted : Bool) {first : Tree (.one .segment)} {others : List (Tree (.one .segment))}
    (h : ∀ s ∈ first :: others, SegmentForm P s) :
    PathForm P (.path rooted (.ofList (first :: others)))

/-- A plain type, where the types in it satisfy the condition. -/
inductive TypeForm (P : Ty → Prop) : Ty → Prop
  | inferred : TypeForm P .inferredType
  | never : TypeForm P .neverType
  | paren {t : Ty} (h : P t) : TypeForm P (.parenType t)
  | pointer (mutable : Bool) {t : Ty} (h : P t) : TypeForm P (.pointerType mutable t)
  | reference (l : Option Ident) (mutable : Bool) {t : Ty} (h : P t) :
    TypeForm P (.referenceType l mutable t)
  | slice {t : Ty} (h : P t) : TypeForm P (.sliceType t)
  | tuple {ts : List Ty} {trailing : Bool} (h : ∀ t ∈ ts, P t)
    (hone : trailing = true ∨ ts.length ≠ 1) (hnil : trailing = true → ts ≠ []) :
    TypeForm P (.tupleType (.ofList ts) trailing)
  | some {p : Path} (hplain : p.isPlain = true) (h : PathForm P p) :
    TypeForm P (.someType (.cons (.traitBound false false .absent p) .nil) false)
  | object {p : Path} (hplain : p.isPlain = true) (h : PathForm P p) :
    TypeForm P (.objectType true (.cons (.traitBound false false .absent p) .nil) false)
  | path {p : Path} (hplain : p.isPlain = true) (h : PathForm P p) : TypeForm P (pathType p)

section Forms

variable {P : Ty → Prop} {n : Nat}
  (ih : ∀ t : Ty, t.isPlain = true → Token.sizeAll t.tokens < n → P t)
include ih

theorem argForm {a : Tree (.one .genericArg)} (ha : a.isPlain = true)
    (hsize : Token.sizeAll a.tokens < n) : ArgForm P a := by
  match a, ha with
  | .lifetimeArg name, _ => exact .lifetime name
  | .typeArg t, ha => exact .type (ih t ha hsize)

theorem segmentForm {s : Tree (.one .segment)} (hs : s.isPlain = true)
    (hsize : Token.sizeAll s.tokens ≤ n) : SegmentForm P s := by
  match s, hs with
  | .segment name .noArgs, hs => exact .bare hs
  | .segment name (.angleArgs turbofish args trailing), hs =>
    obtain ⟨hargs, hname, rfl, hlife, htrailing⟩ := Tree.isPlain_angleArgs.1 hs
    obtain ⟨args, rfl⟩ : ∃ xs, Tree.ofList xs = args := ⟨_, args.ofList_toList⟩
    rw [Tree.isPlain_ofList] at hargs
    rw [Tree.tokens_segment, tokens_angleArgs_ofList hlife trailing, List.cons_append,
      Token.sizeAll, Token.sizeAll, sizeAll_append] at hsize
    simp only [Token.size] at hsize
    refine .named hname hlife ?_ fun a ha => argForm ih (hargs a ha) ?_
    · rintro rfl rfl
      simp [Tree.ofList, Tree.isNil] at htrailing
    · have hle := sizeAll_le_commas (List.mem_map_of_mem (f := Tree.tokens) ha) trailing
      omega

theorem pathForm {p : Path} (hp : p.isPlain = true) (hsize : Token.sizeAll p.tokens ≤ n) :
    PathForm P p := by
  obtain ⟨rooted, first, others, rfl, hsegments, -⟩ := exists_segments hp
  rw [Tree.tokens_path, Tree.tokens_ofList, List.map_cons, separated_cons, sizeAll_append,
    sizeAll_append, List.flatMap_map] at hsize
  refine .of rooted fun s hs => segmentForm ih (hsegments s hs) ?_
  rcases List.mem_cons.1 hs with rfl | hs
  · omega
  · have hle := sizeAll_le_flatMap (fun s => Token.operator "::" ++ Tree.tokens s) hs
    rw [sizeAll_append] at hle
    omega

theorem typeForm {t : Ty} (hp : t.isPlain = true) (hsize : Token.sizeAll t.tokens ≤ n) :
    TypeForm P t := by
  match t, hp with
  | .inferredType, _ => exact .inferred
  | .neverType, _ => exact .never
  | .parenType t, hp =>
    simp [parenthesized, Token.sizeAll, Token.size] at hsize
    exact .paren (ih t hp (by omega))
  | .pointerType mutable t, hp =>
    simp [punct, Token.sizeAll, Token.size] at hsize
    exact .pointer mutable (ih t hp (by omega))
  | .referenceType l mutable t, hp =>
    simp [punct, Token.sizeAll, sizeAll_append, Token.size] at hsize
    exact .reference l mutable (ih t hp (by omega))
  | .sliceType t, hp =>
    simp [bracketed, Token.sizeAll, Token.size] at hsize
    exact .slice (ih t hp (by omega))
  | .tupleType elems trailing, hp =>
    obtain ⟨ts, rfl⟩ : ∃ ts, Tree.ofList ts = elems := ⟨_, elems.ofList_toList⟩
    obtain ⟨hts, hone, hnil⟩ := Tree.isPlain_tupleType.1 hp
    simp [parenthesized, Token.sizeAll, Token.size] at hsize
    refine .tuple (fun t ht => ih t (hts t ht) ?_) hone hnil
    have hle := sizeAll_le_commas (List.mem_map_of_mem (f := Tree.tokens) ht) trailing
    omega
  | .someType bounds trailing, hp =>
    obtain ⟨hbounds, hone, rfl⟩ := Tree.isPlain_someType.1 hp
    obtain ⟨p, rfl, hplain⟩ := Tree.isPlain_single hbounds hone
    simp [plusses, separated, Token.sizeAll] at hsize
    exact .some hplain (pathForm ih hplain (by omega))
  | .objectType marked bounds trailing, hp =>
    obtain ⟨hbounds, hone, rfl, rfl⟩ := Tree.isPlain_objectType.1 hp
    obtain ⟨p, rfl, hplain⟩ := Tree.isPlain_single hbounds hone
    simp [plusses, separated, flagWord, Token.sizeAll] at hsize
    exact .object hplain (pathForm ih hplain (by omega))
  | .pathType (.plainPlace p), hp => exact .path hp (pathForm ih hp hsize)

end Forms

/-- A condition holds of all plain types if it holds of each form whose parts satisfy it. -/
theorem plain_induction {P : Ty → Prop} (h : ∀ t, TypeForm P t → P t) {t : Ty}
    (hp : t.isPlain = true) : P t := by
  have hall : ∀ n, ∀ t : Ty, t.isPlain = true → Token.sizeAll t.tokens < n → P t := by
    intro n
    induction n with
    | zero => exact fun _ _ h => absurd h (Nat.not_lt_zero _)
    | succ n ih => exact fun t hp hsize => h t (typeForm ih hp (Nat.lt_succ_iff.1 hsize))
  exact hall _ t hp (Nat.lt_succ_self _)

end Bindery.Source
