import Bindery.Proofs.Source.Lists
import Bindery.Source.Reading

/-!
# Plain types

Types that consist of names with arguments, references, pointers, slices, tuples and single traits.
What their tokens start with tells them apart from everything else that may stand in their place.
-/
namespace Bindery.Source

open Bindery.Source.Parser Bindery.Source.Grammar

/-- Words that stand for places in a path and take no arguments. -/
def placeWords : List String := ["super", "self", "crate", "try"]

def isPlaceWord (name : Ident) : Bool := placeWords.any (name == ⟨·, false⟩)

/-- Whether a path that consists of the segments can be the start of a type. -/
def opensType : Tree (.many .segment) → Bool
  | .cons (.segment name _) _ => name != ⟨"try", false⟩
  | .nil => false

/-- Whether lifetimes come before all others. -/
def lifetimesFirst : List Bool → Bool
  | [] => true
  | true :: rest => lifetimesFirst rest
  | false :: rest => rest.all (!·)

def Tree.isSingle {k : Kind} (t : Tree (.many k)) : Bool := t.toList.length == 1

/-- A type that consists of names with types and lifetimes as their arguments, of references and
pointers, slices and tuples, and of single traits. -/
def Tree.isPlain : {s : Shape} → Tree s → Bool
  | _, .nil => true
  | _, .cons x rest => x.isPlain && rest.isPlain
  | _, .inferredType => true
  | _, .neverType => true
  | _, .parenType t => t.isPlain
  | _, .pathType p => p.isPlain
  | _, .pointerType _ t => t.isPlain
  | _, .referenceType _ _ t => t.isPlain
  | _, .sliceType t => t.isPlain
  | _, .tupleType elems trailing =>
    elems.isPlain && (trailing || !elems.isSingle) && !(trailing && elems.isNil)
  | _, .someType bounds trailing => bounds.isPlain && bounds.isSingle && !trailing
  | _, .objectType marked bounds trailing => bounds.isPlain && bounds.isSingle && marked && !trailing
  | _, .traitBound paren maybe binder p => p.isPlain && !paren && !maybe && binder.isAbsent
  | _, .plainPlace p => p.isPlain
  | _, .path rooted segments =>
    segments.isPlain && (if rooted then !segments.isNil else opensType segments)
  | _, .segment name .noArgs =>
    isPlaceWord name || name == ⟨"Self", false⟩ || !Ident.isKeyword name
  | _, .segment name (.angleArgs turbofish args trailing) =>
    args.isPlain && (name == ⟨"Self", false⟩ || !Ident.isKeyword name) && !turbofish &&
      lifetimesFirst (lifetimesAmong args) && !(trailing && args.isNil)
  | _, .typeArg t => t.isPlain
  | _, .lifetimeArg _ => true
  | _, _ => false

/-! What the parts of such a type are -/

section Parts

variable {k : Kind} {name : Ident} {args : Tree (.many .genericArg)} {trailing turbofish : Bool}

theorem Tree.isPlain_cons {x : Tree (.one k)} {rest : Tree (.many k)} :
    (cons x rest).isPlain = true ↔ x.isPlain = true ∧ rest.isPlain = true := by
  change (x.isPlain && rest.isPlain) = true ↔ _
  rw [Bool.and_eq_true]

theorem Tree.isPlain_angleArgs :
    Tree.isPlain (.segment name (.angleArgs turbofish args trailing)) = true ↔
      args.isPlain = true ∧ (name = ⟨"Self", false⟩ ∨ Ident.isKeyword name = false) ∧
        turbofish = false ∧ lifetimesFirst (lifetimesAmong args) = true ∧
        (trailing = false ∨ args.isNil = false) := by
  change (args.isPlain && (name == ⟨"Self", false⟩ || !Ident.isKeyword name) && !turbofish &&
    lifetimesFirst (lifetimesAmong args) && !(trailing && args.isNil)) = true ↔ _
  simp [and_assoc]

theorem Tree.isPlain_ofList {xs : List (Tree (.one k))} :
    (ofList xs).isPlain = true ↔ ∀ x ∈ xs, x.isPlain = true := by
  induction xs with
  | nil => exact iff_of_true rfl fun _ h => by cases h
  | cons x rest ih => rw [ofList, isPlain_cons, ih, List.forall_mem_cons]

theorem Tree.isPlain_tupleType {ts : List Ty} {trailing : Bool} :
    Tree.isPlain (.tupleType (.ofList ts) trailing) = true ↔ (∀ t ∈ ts, t.isPlain = true) ∧
      (trailing = true ∨ ts.length ≠ 1) ∧ (trailing = true → ts ≠ []) := by
  have hone : (ofList ts).isSingle = true ↔ ts.length = 1 := by simp [isSingle]
  have hnil : (ofList ts).isNil = true ↔ ts = [] := by
    cases ts <;> simp [ofList, isNil]
  change ((ofList ts).isPlain && (trailing || !(ofList ts).isSingle) &&
    !(trailing && (ofList ts).isNil)) = true ↔ _
  simp only [Bool.and_eq_true, isPlain_ofList, and_assoc, Bool.or_eq_true, Bool.not_eq_true',
    Bool.eq_false_iff, ne_eq, hone, hnil, not_and]

theorem Tree.isPlain_someType {bounds : Tree (.many .bound)} {trailing : Bool} :
    Tree.isPlain (.someType bounds trailing) = true ↔
      bounds.isPlain = true ∧ bounds.isSingle = true ∧ trailing = false := by
  change (bounds.isPlain && bounds.isSingle && !trailing) = true ↔ _
  simp [and_assoc]

theorem Tree.isPlain_objectType {bounds : Tree (.many .bound)} {marked trailing : Bool} :
    Tree.isPlain (.objectType marked bounds trailing) = true ↔
      bounds.isPlain = true ∧ bounds.isSingle = true ∧ marked = true ∧ trailing = false := by
  change (bounds.isPlain && bounds.isSingle && marked && !trailing) = true ↔ _
  simp [and_assoc]

theorem Tree.isPlain_single {bounds : Tree (.many .bound)} (h : bounds.isPlain = true)
    (hone : bounds.isSingle = true) :
    ∃ p : Path, bounds = .cons (.traitBound false false .absent p) .nil ∧ p.isPlain = true := by
  match bounds, hone with
  | .cons b .nil, _ =>
    have hb := (isPlain_cons.1 h).1
    match b, hb with
    | .traitBound paren maybe binder p, hb =>
      have hb : (p.isPlain && !paren && !maybe && binder.isAbsent) = true := hb
      simp only [Bool.and_eq_true, Bool.not_eq_true'] at hb
      obtain ⟨⟨⟨hp, rfl⟩, rfl⟩, habsent⟩ := hb
      match binder, habsent with
      | .absent, _ => exact ⟨p, rfl, hp⟩

theorem exists_segments {p : Path} (h : p.isPlain = true) : ∃ rooted first others,
    p = .path rooted (.ofList (first :: others)) ∧ (∀ s ∈ first :: others, s.isPlain = true) ∧
      (rooted = false → opensType (.ofList (first :: others)) = true) := by
  match p, h with
  | .path rooted .nil, h => cases rooted <;> cases h
  | .path rooted (.cons first others), h =>
    have h : ((Tree.cons first others).isPlain &&
      (if rooted then !(Tree.cons first others).isNil
        else opensType (.cons first others))) = true := h
    rw [Bool.and_eq_true, ← others.ofList_toList] at h
    refine ⟨rooted, first, others.toList, by rw [Tree.ofList, others.ofList_toList],
      Tree.isPlain_ofList.1 h.1, ?_⟩
    rintro rfl
    exact h.2

end Parts

/-! What comes before and behind a type -/

/-- A type may start with the tokens. -/
def startsType : List Token → Bool
  | .ident i :: _ => !Ident.isKeyword i ||
    ["super", "self", "Self", "crate", "_", "impl", "dyn"].any (i == ⟨·, false⟩)
  | .punct c _ :: _ => [':', '*', '&', '!'].contains c
  | .group d _ :: _ => d != .brace
  | _ => false

/-- A type may end in front of the tokens. -/
def endsType : List Token → Bool
  | [] => true
  | .punct c _ :: _ => [',', ';', '=', '>'].contains c
  | .group d _ :: _ => d == .brace
  | _ => false

section Ends

variable {ts : List Token}

theorem opAhead_of_endsType (h : endsType ts = true) (op : String)
    (hop : ∀ c ∈ [',', ';', '=', '>'], op.toList.head? ≠ some c) :
    opAhead op ts = false := by
  refine Bool.eq_false_iff.2 fun hahead => ?_
  obtain ⟨c, joint, rest, rfl⟩ := exists_punct_of_opAhead hahead
  exact hop c (List.contains_iff_mem.1 h) (head?_of_opAhead hahead)

theorem opAhead_of_startsType (h : startsType ts = true) (op : String)
    (hop : ∀ c ∈ [':', '*', '&', '!'], op.toList.head? ≠ some c) :
    opAhead op ts = false := by
  refine Bool.eq_false_iff.2 fun hahead => ?_
  obtain ⟨c, joint, rest, rfl⟩ := exists_punct_of_opAhead hahead
  exact hop c (List.contains_iff_mem.1 h) (head?_of_opAhead hahead)

structure TypeEnds (ts : List Token) : Prop where
  word : ∀ w, wordAhead w ts = false
  ident : identAhead ts = false
  paren : groupAhead .paren ts = false
  bracket : groupAhead .bracket ts = false

theorem typeEnds (h : endsType ts = true) : TypeEnds ts := by
  match ts, h with
  | [], _ => exact ⟨fun _ => rfl, rfl, rfl, rfl⟩
  | .punct c joint :: rest, _ => exact ⟨fun _ => rfl, rfl, rfl, rfl⟩
  | .group d inner :: rest, h =>
    obtain rfl := eq_of_beq h
    exact ⟨fun _ => rfl, rfl, rfl, rfl⟩

theorem lifetimeAhead_of_startsType (h : startsType ts = true) : lifetimeAhead ts = false := by
  match ts, h with
  | .ident i :: rest, _ => rfl
  | .punct c joint :: rest, h =>
    unfold lifetimeAhead
    split
    · simp_all [startsType]
    · rfl
  | .group d inner :: rest, _ => rfl

theorem groupAhead_of_startsType (h : startsType ts = true) : groupAhead .brace ts = false := by
  match ts, h with
  | .ident i :: rest, _ => rfl
  | .punct c joint :: rest, _ => rfl
  | .group d inner :: rest, h =>
    refine Bool.eq_false_iff.2 fun hd => ?_
    obtain rfl := eq_of_beq hd
    cases h

theorem wordAhead_of_startsType (h : startsType ts = true) {w : String}
    (hw : startsType [.word w] = false) : wordAhead w ts = false := by
  match ts with
  | [] => rfl
  | .ident i :: rest =>
    refine Bool.eq_false_iff.2 fun hahead => ?_
    obtain rfl := eq_of_beq hahead
    exact Bool.false_ne_true (hw.symm.trans h)
  | .punct c joint :: rest => rfl
  | .literal text :: rest => rfl
  | .group d inner :: rest => rfl

theorem literalAhead_of_startsType (h : startsType ts = true) : literalAhead ts = false := by
  have htrue := wordAhead_of_startsType h (w := "true") (by decide)
  have hfalse := wordAhead_of_startsType h (w := "false") (by decide)
  unfold literalAhead
  split
  · cases h
  · exact Bool.or_eq_false_iff.2 ⟨htrue, hfalse⟩
  · simp [startsType] at h
  · rfl

end Ends

section Plain

variable {ts : List Token}

theorem startsType_name {name : Ident} (h : name ≠ ⟨"try", false⟩)
    (hname : (isPlaceWord name || name == ⟨"Self", false⟩ || !Ident.isKeyword name) = true) :
    startsType (.ident name :: ts) = true := by
  have hall : ∀ w ∈ placeWords, w = "try" ∨ startsType [.word w] = true := by decide
  simp only [Bool.or_eq_true] at hname
  rcases hname with (hplace | hself) | hident
  · obtain ⟨w, hw, hname⟩ := List.any_eq_true.1 hplace
    obtain rfl := eq_of_beq hname
    rcases hall w hw with rfl | h'
    · exact absurd rfl h
    · exact h'
  · obtain rfl := eq_of_beq hself
    rfl
  · simp [startsType, hident]

theorem isPlain_segment_name {name : Ident} {args : Tree (.one .arguments)}
    (h : Tree.isPlain (.segment name args) = true) :
    (isPlaceWord name || name == ⟨"Self", false⟩ || !Ident.isKeyword name) = true := by
  match args, h with
  | .noArgs, h => exact h
  | .angleArgs turbofish args trailing, h =>
    rcases (Tree.isPlain_angleArgs.1 h).2.1 with rfl | hident
    · simp
    · simp [hident]

theorem startsType_tokens {t : Ty} (h : t.isPlain = true) (rest : List Token) :
    startsType (t.tokens ++ rest) = true := by
  match t, h with
  | .inferredType, _ => rfl
  | .neverType, _ => rfl
  | .parenType t, _ => rfl
  | .pointerType mutable t, _ => rfl
  | .referenceType l mutable t, _ => rfl
  | .sliceType t, _ => rfl
  | .tupleType elems trailing, _ => rfl
  | .someType bounds trailing, _ => rfl
  | .objectType marked bounds trailing, h =>
    have h : (bounds.isPlain && bounds.isSingle && marked && !trailing) = true := h
    simp only [Bool.and_eq_true] at h
    obtain rfl := h.1.2
    rfl
  | .pathType (.plainPlace (.path true segments)), _ => rfl
  | .pathType (.plainPlace (.path false segments)), h =>
    match segments, h with
    | .cons (.segment name args) others, h =>
      have h : ((Tree.cons (.segment name args) others).isPlain &&
        name != ⟨"try", false⟩) = true := h
      rw [Bool.and_eq_true, Tree.isPlain_cons, bne_iff_ne] at h
      rw [Tree.tokens_pathType, Tree.tokens_plainPlace, Tree.tokens_path, Tree.tokens_cons,
        separated_cons]
      exact startsType_name h.2 (isPlain_segment_name h.1.1)

end Plain

theorem ne_nil_of_startsType {ts : List Token} (h : startsType ts = true) : ts ≠ [] := by
  rintro rfl
  cases h

theorem endsType_comma (ts : List Token) : endsType (.punct ',' false :: ts) = true := rfl

theorem typeTokens_ne_nil {t : Ty} (hp : t.isPlain = true) :
    t.tokens ≠ [] ∧ ∀ more, (t.tokens ++ more).isEmpty = false := by
  have hne := ne_nil_of_startsType (startsType_tokens hp [])
  rw [List.append_nil] at hne
  exact ⟨hne, fun more => by simp [hne]⟩

end Bindery.Source
