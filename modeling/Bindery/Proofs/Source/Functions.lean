import Bindery.Proofs.Source.Composed
import Bindery.Proofs.Source.Documented
import Bindery.Proofs.Source.Items
import Bindery.Proofs.Source.Statements

/-!
# Functions are read again

A function is read again if its types and the statements of its body are.
-/
namespace Bindery.Source

open Bindery.Source.Parser Bindery.Source.Grammar

variable {g : Rules} {t : Ty} {name : Ident} {ts rest : List Token}

/-! Parameters -/

/-- The rule for parameters makes the parameter of its tokens. -/
structure ParamRereads (g : Rules) (p : Tree (.one .param)) : Prop where
  nonempty : p.tokens ≠ []
  reads : ∀ rest, endsType rest = true → Reads (paramOrRest g) (p.tokens ++ rest) (.param p) rest

theorem paramOf_rereads (hname : Ident.isKeyword name = false) (h : PlainRereads g.above t) :
    ParamRereads g.above (paramOf name t) := by
  have htokens : ∀ rest, (paramOf name t).tokens ++ rest =
      .ident name :: .punct ':' false :: (t.tokens ++ rest) := by
    intro rest
    change [] ++ [.ident name] ++ punct ':' ++ t.tokens ++ rest = _
    simp [punct]
  refine ⟨fun hnil => ?_, fun rest hrest => ?_⟩
  · simpa [hnil] using htokens []
  · have hself := ne_of_not_keyword hname (w := "self") (by decide)
    have hmut := ne_of_not_keyword hname (w := "mut") (by decide)
    have hnone : Reads (outerAttributes g.above)
        (.ident name :: .punct ':' false :: (t.tokens ++ rest)) .nil
        (.ident name :: .punct ':' false :: (t.tokens ++ rest)) := reads_noOuter (by simp)
    have hpat : Reads (g.above.pat false) (.ident name :: .punct ':' false :: (t.tokens ++ rest))
        (namePat name) (.punct ':' false :: (t.tokens ++ rest)) :=
      namePat_rereads hname false _ ⟨by simp [opAhead, opAhead.go], rfl, rfl⟩ (by simp)
    have hattempt : Reads (attempt (selfParam g.above .nil))
        (.ident name :: .punct ':' false :: (t.tokens ++ rest)) none
        (.ident name :: .punct ':' false :: (t.tokens ++ rest)) := by
      intro left
      simp [attempt, selfParam, word, hmut, hself, refuse]
      rfl
    have hangle : opAhead "<" (.punct ':' false :: (t.tokens ++ rest)) = false := by
      simp [opAhead, opAhead.go]
    have hcolon : opAhead ":" (.punct ':' false :: (t.tokens ++ rest)) = true := rfl
    have hdrop : dropOp ":".toList (.punct ':' false :: (t.tokens ++ rest)) =
        t.tokens ++ rest := rfl
    rw [htokens]
    intro left
    simp only [paramOrRest, run_bind, hnone.run, run_op?, opAhead_ident, Bool.false_eq_true, if_false,
      hattempt.run, run_ahead, run_second, pastTree, hangle, Bool.and_false, run_ite, hpat.run,
      run_op left hcolon, hdrop, h.not_dots, (h.reads true rest hrest).run]
    rfl

theorem selfRef_rereads : ParamRereads g selfRef := by
  refine ⟨List.cons_ne_nil _ _, fun rest hrest left => ?_⟩
  have hnone : Reads (outerAttributes g) (.punct '&' false :: .word "self" :: rest) .nil
      (.punct '&' false :: .word "self" :: rest) := reads_noOuter (by simp [opAhead, opAhead.go])
  have hlife : lifetimeAhead (.word "self" :: rest) = false := rfl
  change paramOrRest g ⟨.punct '&' false :: .word "self" :: rest, left⟩ = _
  simp [paramOrRest, hnone.run, attempt, selfParam, opAhead, opAhead.go, dropOp, lifetime?, hlife,
    selfRef]

theorem selfMut_rereads : ParamRereads g selfMut := by
  refine ⟨List.cons_ne_nil _ _, fun rest hrest left => ?_⟩
  have hnone : Reads (outerAttributes g) (.word "mut" :: .word "self" :: rest) .nil
      (.word "mut" :: .word "self" :: rest) := reads_noOuter (by simp)
  have hcolon := opAhead_of_endsType hrest ":" (by simp)
  change paramOrRest g ⟨.word "mut" :: .word "self" :: rest, left⟩ = _
  simp [paramOrRest, hnone.run, attempt, selfParam, hcolon, selfMut]

/-- Parameters up to the end; a receiver may only come first. -/
theorem reads_paramsFrom {ps : List (Tree (.one .param))} (h : ∀ p ∈ ps, ParamRereads g p)
    (before : List Bool) (hself : before ≠ [] → ∀ p ∈ ps, isSelf p = false)
    (hlater : ∀ p ∈ ps.tail, isSelf p = false) {n : Nat} (hn : ps.length < n) (trailing : Bool) :
    Reads (paramsFrom g n before trailing) (commas false (ps.map Tree.tokens))
      (ps, if ps.isEmpty then trailing else false, .absent) [] := by
  induction ps generalizing n before trailing with
  | nil =>
    obtain ⟨n, rfl⟩ : ∃ k, n = k + 1 := ⟨n - 1, by simp at hn; omega⟩
    intro left
    simp [paramsFrom, commas, separated]
  | cons p others ih =>
    obtain ⟨n, rfl⟩ : ∃ k, n = k + 1 := ⟨n - 1, by simp at hn; omega⟩
    obtain ⟨hp, hothers⟩ := List.forall_mem_cons.1 h
    have hreceiver : before = [] ∨ isSelf p = false := by
      by_cases hbefore : before = []
      · exact .inl hbefore
      · exact .inr (hself hbefore p (by simp))
    by_cases hmore : others = []
    · subst hmore
      have hread := hp.reads [] rfl
      rw [List.append_nil] at hread
      have hone : commas false ([p].map Tree.tokens) = p.tokens := by simp [commas, separated]
      rw [hone]
      intro left
      rcases hreceiver with rfl | hplain
      · simp [paramsFrom, hp.nonempty, hread.run]
      · simp [paramsFrom, hp.nonempty, hread.run, hplain]
    · have hrest := ih hothers (isSelf p :: before) (fun _ q hq => hlater q hq)
        (fun q hq => hlater q (List.mem_of_mem_tail hq)) (n := n) (by simpa using hn) true
      have hread := hp.reads (.punct ',' false :: commas false (others.map Tree.tokens)) rfl
      rw [List.map_cons, commas_cons (.inl (by simpa using hmore))]
      intro left
      rcases hreceiver with rfl | hplain
      · simp [paramsFrom, hp.nonempty, hread.run, opAhead, opAhead.go, dropOp, hrest.run, hmore]
      · rw [hplain] at hrest
        simp [paramsFrom, hp.nonempty, hread.run, hplain, opAhead, opAhead.go, dropOp, hrest.run,
          hmore]

/-! Signatures -/

theorem reads_returnType {output : Ty} (hout : PlainRereads g output) (hrest : BodyAhead rest) :
    Reads (returnType g true) (Token.operator "->" ++ (output.tokens ++ rest)) (.present output)
      rest := by
  obtain ⟨inner, rest, rfl⟩ := exists_of_bodyAhead hrest
  have harrow : ∀ ts, opAhead "->" (Token.operator "->" ++ ts) = true ∧
      dropOp "->".toList (Token.operator "->" ++ ts) = ts := fun _ => ⟨rfl, rfl⟩
  intro left
  rw [returnType, run_bind, run_op?, if_pos (harrow _).1, (harrow _).2]
  simp [(hout.reads true (.group .brace inner :: rest) rfl).run]

theorem reads_noRules (hrest : BodyAhead rest) : Reads (rules? g) rest .absent rest := by
  obtain ⟨inner, rest, rfl⟩ := exists_of_bodyAhead hrest
  exact fun left => by simp [rules?]

theorem reads_signature (async : Bool) (hname : Ident.isKeyword name = false)
    {ps : List (Tree (.one .param))} (h : ∀ p ∈ ps, ParamRereads g p)
    (hlater : ∀ p ∈ ps.tail, isSelf p = false) {output : Ty} (hout : PlainRereads g output)
    (hrest : BodyAhead rest) : Reads (signature g)
      (signatureTokens async name (commas false (ps.map Tree.tokens)) output.tokens ++ rest)
      (.signature { async } name .absent (.ofList ps) false .absent (.present output) .absent)
      rest := by
  have hlength : ps.length < (commas false (ps.map Tree.tokens)).length + 1 :=
    Nat.lt_succ_of_le (length_le_length_commas (fun p hp => (h p hp).nonempty) false)
  have hparams : Reads (do paramsFrom g ((← remaining).length + 1) [] false)
      (commas false (ps.map Tree.tokens)) (ps, false, .absent) [] := by
    have hread := reads_paramsFrom h [] (by simp) hlater hlength false
    rw [ite_self] at hread
    exact (reads_remaining _).bind hread
  have hgroup := reads_delimited hparams .paren (Token.operator "->" ++ (output.tokens ++ rest))
  have hreturn := reads_returnType hout hrest
  have hrules := reads_noRules (g := g) hrest
  intro left
  cases async <;>
    simp [signature, signatureFrom, signatureTokens, flagWord, convention?, hname, params?,
      hgroup.run, hreturn.run, hrules.run]

/-! Functions -/

/-- The rule for members of an implementation makes the item of its tokens. -/
structure MemberRereads (g : Rules) (i : Item) : Prop where
  nonempty : i.tokens ≠ []
  reads : ∀ rest, Reads (implMember g) (i.tokens ++ rest) i rest

theorem publicFn_rereads (lines : List String) (async : Bool)
    (hname : Ident.isKeyword name = false) {ps : List (Tree (.one .param))}
    (h : ∀ p ∈ ps, ParamRereads g p) (hlater : ∀ p ∈ ps.tail, isSelf p = false) {output : Ty}
    (hout : PlainRereads g output) {ss : List Stmt} (hss : BlockRereads g ss) :
    MemberRereads g (publicFn (docs lines) { async } name ps output ss) := by
  refine ⟨by simp [tokens_publicFn], fun rest left => ?_⟩
  have hahead : BodyAhead (.group .brace (ss.flatMap Tree.tokens) :: rest) := rfl
  have hsig := reads_signature async hname h hlater hout hahead
  have hbody := hss true rest
  obtain ⟨hparen, hdefault, hsignature⟩ := signatureAhead_tokens async name
    (commas false (ps.map Tree.tokens)) output.tokens
    (.group .brace (ss.flatMap Tree.tokens) :: rest)
  have hfn : Reads (fnItem g (.ofList (docs lines)) publicFront)
      (signatureTokens async name (commas false (ps.map Tree.tokens)) output.tokens ++
        .group .brace (ss.flatMap Tree.tokens) :: rest)
      (some (publicFn (docs lines) { async } name ps output ss)) rest := by
    refine hsig.bind fun left => ?_
    simp [hbody.run, publicFn]
  rw [tokens_publicFn]
  simp only [List.append_assoc, List.cons_append, List.nil_append]
  rw [run_implMember_fn lines hparen hdefault hsignature]
  exact reads_itemOr hfn _ left

end Bindery.Source
