import Bindery.Proofs.Source.Spelled
import Bindery.Source.Grammar.Types

/-!
# Paired angle brackets

Angle brackets make no groups of their own. In the tokens of a type they are paired all the same:
each one that is opened is closed by a later one, and the head of an arrow is none.
-/
namespace Bindery.Source

/-- A token that is no angle bracket and begins no arrow. -/
def Token.isFlat : Token → Bool
  | .punct c joint => c != '<' && c != '>' && !(c == '-' && joint)
  | _ => true

/-- Angle brackets are paired. -/
inductive Paired : List Token → Prop
  | nil : Paired []
  | flat {t : Token} {ts : List Token} (ht : t.isFlat = true) (hts : Paired ts) : Paired (t :: ts)
  | minus {text : String} {ts : List Token} (hts : Paired ts) :
    Paired (.punct '-' true :: .literal text :: ts)
  | arrow {joint : Bool} {ts : List Token} (hts : Paired ts) :
    Paired (.punct '-' true :: .punct '>' joint :: ts)
  | angles {joint joint' : Bool} {ts rest : List Token} (hts : Paired ts) (hrest : Paired rest) :
    Paired (.punct '<' joint :: (ts ++ .punct '>' joint' :: rest))

namespace Paired

variable {t : Token} {ts us : List Token} {joint : Bool}

theorem append (h : Paired ts) (h' : Paired us) : Paired (ts ++ us) := by
  induction h with
  | nil => exact h'
  | flat ht _ ih => exact .flat ht ih
  | minus _ ih => exact .minus ih
  | arrow _ ih => exact .arrow ih
  | angles hts _ _ ih =>
    rw [List.cons_append, List.append_assoc]
    exact .angles hts ih

theorem of_flat (h : ∀ t ∈ ts, t.isFlat = true) : Paired ts := by
  induction ts with
  | nil => exact .nil
  | cons t ts ih => exact .flat (h t (by simp)) (ih fun u hu => h u (by simp [hu]))

theorem enclosed (h : Paired ts) (joint joint' : Bool) :
    Paired (.punct '<' joint :: (ts ++ [.punct '>' joint'])) := .angles h .nil

theorem flatten {tss : List (List Token)} (h : ∀ ts ∈ tss, Paired ts) : Paired tss.flatten := by
  induction tss with
  | nil => exact .nil
  | cons ts rest ih => exact (h ts (by simp)).append (ih fun us hus => h us (by simp [hus]))

theorem ite {p : Prop} [Decidable p] (h : Paired ts) (h' : Paired us) :
    Paired (if p then ts else us) := by
  split
  · exact h
  · exact h'

/-! What paired tokens start with -/

theorem not_close : ¬Paired (.punct '>' joint :: ts) := by
  intro h
  cases h with
  | flat ht _ => cases ht

theorem of_cons (h : Paired (t :: ts)) (ht : t.isFlat = true) : Paired ts := by
  cases h with
  | flat _ hts => exact hts
  | minus _ => cases ht
  | arrow _ => cases ht
  | angles _ _ => cases ht

theorem of_open (h : Paired (.punct '<' joint :: ts)) : ∃ inner joint' rest,
    ts = inner ++ .punct '>' joint' :: rest ∧ Paired inner ∧ Paired rest := by
  cases h with
  | flat ht _ => cases ht
  | angles hts hrest => exact ⟨_, _, _, rfl, hts, hrest⟩

theorem of_dash (h : Paired (.punct '-' true :: ts)) : ∃ t rest, ts = t :: rest ∧ Paired rest ∧
    ((∃ text, t = .literal text) ∨ ∃ joint, t = .punct '>' joint) := by
  cases h with
  | flat ht _ => cases ht
  | minus hts => exact ⟨_, _, rfl, hts, .inl ⟨_, rfl⟩⟩
  | arrow hts => exact ⟨_, _, rfl, hts, .inr ⟨_, rfl⟩⟩

theorem of_minus {text : String}
    (h : Paired (.punct '-' joint :: .literal text :: ts)) : Paired ts := by
  cases joint with
  | true =>
    obtain ⟨t, rest, heq, hrest, -⟩ := h.of_dash
    cases heq
    exact hrest
  | false => exact (h.of_cons rfl).of_cons rfl

end Paired

/-! Lists of parts -/

section Lists

variable {sep : List Token} {xs : List (List Token)} {o : Option (List Token)}

theorem paired_separated (hsep : Paired sep) (trailing : Bool) (h : ∀ ts ∈ xs, Paired ts) :
    Paired (separated sep trailing xs) := by
  induction xs with
  | nil => exact .nil
  | cons x rest ih =>
    cases rest with
    | nil => exact (h x (by simp)).append (.ite hsep .nil)
    | cons y ys =>
      exact ((h x (by simp)).append hsep).append (ih fun ts hts => h ts (by simp [hts]))

theorem paired_colons : Paired (Token.operator "::") := .of_flat (by decide)

theorem paired_arrow : Paired (Token.operator "->") := .arrow .nil

theorem paired_punct {c : Char} (h : (Token.punct c false).isFlat = true) : Paired (punct c) :=
  .flat h .nil

theorem paired_commas (trailing : Bool) (h : ∀ ts ∈ xs, Paired ts) : Paired (commas trailing xs) :=
  paired_separated (paired_punct (by decide)) trailing h

theorem paired_plusses (trailing : Bool) (h : ∀ ts ∈ xs, Paired ts) :
    Paired (plusses trailing xs) :=
  paired_separated (paired_punct (by decide)) trailing h

theorem paired_after (hsep : Paired sep) (h : ∀ ts ∈ o, Paired ts) : Paired (after sep o) := by
  cases o with
  | none => exact .nil
  | some ts => exact hsep.append (h ts rfl)

theorem paired_flagWord (present : Bool) (w : String) : Paired (flagWord present w) :=
  .ite (.flat rfl .nil) .nil

theorem paired_joinArgs {args : List (List Token × Bool)} (h : ∀ p ∈ args, Paired p.1)
    (ended : Bool) : Paired (joinArgs ended args) := by
  have hcomma : Paired (punct ',') := paired_punct (by decide)
  induction args generalizing ended with
  | nil => exact .nil
  | cons p rest ih =>
    obtain ⟨x, comma⟩ := p
    have hx := h (x, comma) (by simp)
    exact (((Paired.ite .nil hcomma).append hx).append (.ite hcomma .nil)).append
      (ih (fun q hq => h q (by simp [hq])) comma)

theorem fst_mem_of_mem_withCommas {α : Type} {trailing : Bool} {xs : List α} {p : α × Bool}
    (h : p ∈ withCommas trailing xs) : p.1 ∈ xs := by
  induction xs with
  | nil => cases h
  | cons x rest ih =>
    cases rest with
    | nil => simp_all [withCommas]
    | cons y ys =>
      rcases List.mem_cons.1 h with rfl | h
      · simp
      · exact List.mem_cons_of_mem x (ih h)

/-- The order of arguments does not matter. -/
theorem paired_orderedArgs (lifetimes : List Bool) (trailing : Bool) (h : ∀ ts ∈ xs, Paired ts) :
    Paired (orderedArgs lifetimes trailing xs) := by
  refine paired_joinArgs (fun p hp => ?_) true
  have hzip : p ∈ (lifetimes.zip (withCommas trailing xs)).map (·.2) := by
    rcases List.mem_append.1 hp with hp | hp <;>
      exact List.map_subset _ (List.filter_subset_self _) hp
  obtain ⟨q, hq, rfl⟩ := List.mem_map.1 hzip
  exact h _ (fst_mem_of_mem_withCommas (List.of_mem_zip hq).2)

theorem paired_between {opening closing ts : List Token}
    (h : Paired (opening ++ ts ++ closing)) : Paired (between opening closing ts) := .ite .nil h

theorem paired_lifetime (name : Ident) : Paired (Token.lifetime name) := .flat rfl (.flat rfl .nil)

theorem paired_lifetimeTokens (l : Option Ident) : Paired (lifetimeTokens l) := by
  cases l with
  | none => exact .nil
  | some l => exact paired_lifetime l

theorem paired_outlived (o : Outlived) : Paired o.tokens := by
  refine paired_plusses _ fun ts hts => ?_
  obtain ⟨l, -, rfl⟩ := List.mem_map.1 hts
  exact paired_lifetime l

theorem paired_simplePath (p : SimplePath) : Paired p.tokens := by
  refine (Paired.ite paired_colons .nil).append (paired_separated paired_colons _ fun ts hts => ?_)
  obtain ⟨name, -, rfl⟩ := List.mem_map.1 hts
  exact .flat rfl .nil

theorem paired_literal (text : String) : Paired (Literal.tokens text) := by
  refine .ite (.flat rfl .nil) ?_
  split
  · exact .flat rfl (.flat rfl .nil)
  · exact .flat rfl .nil

end Lists

/-! Trees -/

/-- The angle brackets of a tree are paired. -/
def Tree.IsPaired {k : Kind} (t : Tree (.one k)) : Prop := Paired t.tokens

/-- The angle brackets of a part that may be missing are paired. -/
def Tree.IsPaired? {k : Kind} (t : Tree (.maybe k)) : Prop := ∀ ts ∈ t.tokens, Paired ts

namespace Tree

variable {k : Kind} {t : Ty} {p : Path} {args : Tree (.one .arguments)} {name : Ident}
  {trailing : Bool}

theorem isPaired?_absent : (absent : Tree (.maybe k)).IsPaired? := fun _ h => nomatch h

theorem IsPaired.present {x : Tree (.one k)} (h : x.IsPaired) : (present x).IsPaired? := by
  rintro ts ⟨⟩
  exact h

theorem paired_ofList {xs : List (Tree (.one k))} (h : ∀ x ∈ xs, x.IsPaired) :
    ∀ ts ∈ (ofList xs).tokens, Paired ts := by
  intro ts hts
  rw [tokens_ofList] at hts
  obtain ⟨x, hx, rfl⟩ := List.mem_map.1 hts
  exact h x hx

/-! Attributes and groups -/

theorem isPaired_attr (a : Attribute) : a.IsPaired := by
  have hhashed : ∀ inner ts, Paired (hashed inner ts) := fun inner ts =>
    (paired_punct (by decide)).append
      (.append (.ite (paired_punct (by decide)) .nil) (.flat rfl .nil)) 
  cases a with
  | markAttr inner p => exact hhashed _ _
  | listAttr inner p d input => exact hhashed _ _
  | valueAttr inner p value => exact hhashed _ _

theorem isPaired_block (b : Block) : b.IsPaired := by
  cases b with
  | block attrs stmts => exact .flat rfl .nil

/-! Paths and their arguments -/

theorem isPaired_noArgs : (noArgs : Tree (.one .arguments)).IsPaired := .nil

theorem IsPaired.segment (h : args.IsPaired) : (segment name args).IsPaired := .flat rfl h

theorem isPaired_path {rooted : Bool} {segments : List (Tree (.one .segment))}
    (h : ∀ s ∈ segments, s.IsPaired) : (path rooted (ofList segments)).IsPaired :=
  (Paired.ite paired_colons .nil).append (paired_separated paired_colons _ (paired_ofList h))

/-- Only the arguments of a name may have angle brackets. -/
theorem IsPaired.of_name (h : (Tree.pathType (.plainPlace
    (.path false (.cons (.segment name args) .nil)))).IsPaired) : args.IsPaired := by
  have htokens : Tree.tokens (.pathType (.plainPlace
      (.path false (.cons (.segment name args) .nil)))) = .ident name :: args.tokens := by
    simp [separated]
  rw [IsPaired, htokens] at h
  exact h.of_cons rfl

theorem IsPaired.plainPlace (h : p.IsPaired) : (plainPlace p).IsPaired := h

theorem isPaired_itemPlace {ofTrait : Tree (.maybe .path)} {rest : List (Tree (.one .segment))}
    (ht : t.IsPaired) (hofTrait : ofTrait.IsPaired?) (hrest : ∀ s ∈ rest, s.IsPaired) :
    (itemPlace t ofTrait (ofList rest)).IsPaired := by
  have hinner : Paired (t.tokens ++ after [.word "as"] ofTrait.tokens) :=
    ht.append (paired_after (.flat rfl .nil) hofTrait)
  have hall := ((hinner.enclosed false false).append paired_colons).append
    (paired_separated paired_colons false (paired_ofList hrest))
  have htokens : Tree.tokens (.itemPlace t ofTrait (ofList rest)) =
      punct '<' ++ t.tokens ++ after [.word "as"] ofTrait.tokens ++ punct '>' ++
        Token.operator "::" ++ separated (Token.operator "::") false (ofList rest).tokens := rfl
  unfold IsPaired
  rw [htokens]
  simpa [punct] using hall

theorem isPaired_angleArgs {turbofish : Bool} {args : List (Tree (.one .genericArg))}
    (h : ∀ a ∈ args, a.IsPaired) : (angleArgs turbofish (ofList args) trailing).IsPaired := by
  have hall := (Paired.ite (p := turbofish = true) paired_colons .nil).append
    ((paired_orderedArgs (lifetimesAmong (ofList args)) trailing (paired_ofList h)).enclosed
      false false)
  unfold IsPaired
  rw [tokens_angleArgs]
  simpa [punct] using hall

theorem isPaired_callArgs {inputs : Tree (.many .type)} {output : Tree (.maybe .type)}
    (h : output.IsPaired?) : (callArgs inputs trailing output).IsPaired :=
  .flat rfl (paired_after paired_arrow h)

theorem isPaired_lifetimeArg : (lifetimeArg name).IsPaired := paired_lifetime name

theorem IsPaired.typeArg (h : t.IsPaired) : (typeArg t).IsPaired := h

theorem IsPaired.constArg {e : Expr} (h : e.IsPaired) : (constArg e).IsPaired := h

theorem IsPaired.assocTypeArg (hargs : args.IsPaired) (ht : t.IsPaired) :
    (assocTypeArg name args t).IsPaired :=
  .flat rfl ((hargs.append (paired_punct (by decide))).append ht)

theorem IsPaired.assocConstArg {e : Expr} (hargs : args.IsPaired) (he : e.IsPaired) :
    (assocConstArg name args e).IsPaired :=
  .flat rfl ((hargs.append (paired_punct (by decide))).append he)

theorem IsPaired.constraintArg {bounds : List (Tree (.one .bound))} (hargs : args.IsPaired)
    (h : ∀ b ∈ bounds, b.IsPaired) : (constraintArg name args (ofList bounds) trailing).IsPaired :=
  .flat rfl ((hargs.append (paired_punct (by decide))).append
    (paired_plusses trailing (paired_ofList h)))

theorem isPaired_literalExpr (text : String) : (literalExpr text).IsPaired := paired_literal text

theorem IsPaired.pathExpr {p : Place} (h : p.IsPaired) : (pathExpr p).IsPaired := h

theorem isPaired_blockExpr (b : Block) : (blockExpr none .plain b).IsPaired := isPaired_block b

/-! Bounds and parameters -/

section Bounds

variable {attrs : Tree (.many .attr)} {bounds : List (Tree (.one .bound))}

theorem isPaired_lifetimeBound : (lifetimeBound name).IsPaired := paired_lifetime name

theorem isPaired_strangeBound {ts : List Token} (h : Paired ts) : (strangeBound ts).IsPaired := h

theorem isPaired_traitBound {paren maybe : Bool} {binder : Tree (.maybe .binder)}
    (hbinder : binder.IsPaired?) (hp : p.IsPaired) : (traitBound paren maybe binder p).IsPaired :=
  .ite (.flat rfl .nil) (((Paired.ite (paired_punct (by decide)) .nil).append
    (paired_after .nil hbinder)).append hp)

theorem isPaired_captureBound (names : List (Bool × Ident)) :
    (captureBound names trailing).IsPaired := by
  have hnames : Paired (commas trailing (captureTokens names)) := by
    refine paired_commas _ fun ts hts => ?_
    obtain ⟨name, -, rfl⟩ := List.mem_map.1 hts
    exact .ite (paired_lifetime _) (.flat rfl .nil)
  have htokens : Tree.tokens (.captureBound names trailing) =
      .word "use" :: punct '<' ++ commas trailing (captureTokens names) ++ punct '>' := rfl
  unfold IsPaired
  rw [htokens]
  exact .flat rfl (hnames.enclosed false false)

theorem paired_attrs : Paired attrs.tokens.flatten := by
  refine .flatten ?_
  rw [← attrs.ofList_toList]
  exact paired_ofList fun a _ => isPaired_attr a

theorem isPaired_lifetimeParam (o : Outlived) : (lifetimeParam attrs name o).IsPaired :=
  (paired_attrs.append (paired_lifetime name)).append (paired_between
    (((paired_punct (by decide)).append (paired_outlived o)).append .nil))

theorem isPaired_typeParam {default : Tree (.maybe .type)} (h : ∀ b ∈ bounds, b.IsPaired)
    (hdefault : default.IsPaired?) :
    (typeParam attrs name (ofList bounds) trailing default).IsPaired :=
  ((paired_attrs.append (.flat rfl .nil)).append (paired_between
    (((paired_punct (by decide)).append (paired_plusses _ (paired_ofList h))).append .nil))).append
      (paired_after (paired_punct (by decide)) hdefault)

theorem isPaired_constParam {default : Tree (.maybe .expr)} (ht : t.IsPaired)
    (hdefault : default.IsPaired?) : (constParam attrs name t default).IsPaired :=
  (((paired_attrs.append (.flat rfl (.flat rfl .nil))).append (paired_punct (by decide))).append
    ht).append (paired_after (paired_punct (by decide)) hdefault)

theorem isPaired_forAll {elems : List (Tree (.one .genericParam))} (h : ∀ e ∈ elems, e.IsPaired) :
    (forAll (ofList elems) trailing).IsPaired :=
  .flat rfl ((paired_commas trailing (paired_ofList h)).enclosed false false)

end Bounds

/-! Types -/

theorem isPaired_fnType {binder : Tree (.maybe .binder)} (hbinder : binder.IsPaired?)
    {guarded : Bool} {convention : Option Convention} {inputs : Tree (.many .namedType)}
    {rest : Tree (.maybe .variadic)} {output : Tree (.maybe .type)} (houtput : output.IsPaired?) :
    (fnType binder guarded convention inputs trailing rest output).IsPaired := by
  have hconvention : Paired (conventionTokens convention) := by
    cases convention with
    | none => exact .nil
    | some c =>
      refine .flat rfl ?_
      cases c.name with
      | none => exact .nil
      | some name => exact paired_literal name
  exact (((((paired_after .nil hbinder).append (paired_flagWord _ _)).append hconvention).append
    (.flat rfl .nil)).append (.flat rfl .nil)).append (paired_after paired_arrow houtput)

theorem isPaired_someType {bounds : List (Tree (.one .bound))} (h : ∀ b ∈ bounds, b.IsPaired) :
    (someType (ofList bounds) trailing).IsPaired :=
  .flat rfl (paired_plusses trailing (paired_ofList h))

theorem isPaired_objectType {marked : Bool} {bounds : List (Tree (.one .bound))}
    (h : ∀ b ∈ bounds, b.IsPaired) : (objectType marked (ofList bounds) trailing).IsPaired :=
  (paired_flagWord _ _).append (paired_plusses trailing (paired_ofList h))

theorem isPaired_inferredType : inferredType.IsPaired := .flat rfl .nil

theorem isPaired_neverType : neverType.IsPaired := .flat rfl .nil

theorem isPaired_macroType (m : MacroCall) : (macroType m).IsPaired :=
  ((paired_simplePath m.path).append (paired_punct (by decide))).append (.flat rfl .nil)

theorem isPaired_parenType : (parenType t).IsPaired := .flat rfl .nil

theorem isPaired_sliceType : (sliceType t).IsPaired := .flat rfl .nil

theorem isPaired_arrayType (e : Expr) : (arrayType t e).IsPaired := .flat rfl .nil

theorem isPaired_tupleType (elems : Tree (.many .type)) : (tupleType elems trailing).IsPaired :=
  .flat rfl .nil

theorem IsPaired.pathType {p : Place} (h : p.IsPaired) : (pathType p).IsPaired := h

theorem IsPaired.pointerType {mutable : Bool} (h : t.IsPaired) : (pointerType mutable t).IsPaired :=
  .flat rfl (.flat rfl h)

theorem IsPaired.referenceType {l : Option Ident} {mutable : Bool} (h : t.IsPaired) :
    (referenceType l mutable t).IsPaired :=
  (((paired_punct (by decide)).append (paired_lifetimeTokens l)).append
    (paired_flagWord _ _)).append h

theorem isPaired_strangeType {ts : List Token} (h : Paired ts) : (strangeType ts).IsPaired := h

end Tree

end Bindery.Source
