import Bindery.Proofs.Source.ConfinedLists

/-!
# Types stay between angle brackets

The rules for types take paired tokens, and the trees they make are paired too.
-/
namespace Bindery.Source.Grammar

open Bindery.Source.Parser Bindery.Source.Tree

/-- The rules of lower levels that types may reach. -/
structure ConfinedRules (g : Rules) : Prop where
  type : ∀ plus, Confined IsPaired (g.type plus)
  bound : ∀ captures consts, Confined IsPaired (g.bound captures consts)
  block : ∀ marked, Confined IsPaired (g.block marked)

/-- A path of which each segment is paired. -/
def HasPairedSegments (p : Path) : Prop :=
  ∃ rooted segments, p = .path rooted (ofList segments) ∧ ∀ s ∈ segments, s.IsPaired

theorem HasPairedSegments.isPaired {p : Path} (h : HasPairedSegments p) : p.IsPaired := by
  obtain ⟨rooted, segments, rfl, hsegments⟩ := h
  exact isPaired_path hsegments

section Basics

variable {α : Type} {post : α → Prop}

theorem sees_const (b : Bool) : Sees fun _ => b := fun _ _ _ _ _ => rfl

theorem sees_opFlat (op : String) (h : IsFlat op.toList) : Sees (opAhead op) :=
  sees_opAhead op (.inl fun hmem => (h _ hmem).2.1 rfl)

theorem sees_words (ws : List String) : Sees fun ts => ws.any (wordAhead · ts) :=
  sees_any fun w _ => sees_wordAhead w

theorem sees_closesParam : Sees closesParam :=
  (sees_opFlat "," (by decide)).or (sees_opAhead ">" (.inr rfl))

theorem sees_constStarts : Sees constStarts := sees_literalAhead.or (sees_groupAhead .brace)

theorem sees_boundStarts (consts : Bool) : Sees (boundStarts consts) :=
  ((((sees_anyWordAhead.or (sees_opFlat "::" (by decide))).or (sees_opFlat "?" (by decide))).or
    sees_lifetimeAhead).or (sees_groupAhead .paren)).or
      ((sees_const consts).and (sees_groupAhead .bracket))

/-- A test two trees further on, behind a double colon. -/
theorem sees_behindColons {q : List Token → Bool} (h : Sees q) :
    Sees fun ts => opAhead "::" ts && q (pastTree (pastTree ts)) := by
  intro ts hts joint rest rest'
  have hcolons := sees_opFlat "::" (by decide) ts hts joint rest rest'
  dsimp only
  rw [hcolons]
  refine Bool.eq_iff_iff.2 ?_
  rw [Bool.and_eq_true, Bool.and_eq_true]
  refine and_congr_right fun hahead => ?_
  obtain ⟨joint', ts', heq⟩ := exists_of_two (c := ':') (d := ':') rfl hahead
  match ts with
  | [] => cases heq
  | [t] => cases heq
  | t :: u :: ts =>
    cases heq
    have hrest := h ts ((hts.of_cons rfl).of_cons rfl) joint rest rest'
    simpa [pastTree] using hrest

theorem sees_behindLifetime {q : List Token → Bool} (h : Sees q) :
    Sees fun ts => lifetimeAhead ts && q (pastTree ts) := by
  intro ts hts joint rest rest'
  have hlifetime := sees_lifetimeAhead ts hts joint rest rest'
  dsimp only
  rw [hlifetime]
  refine Bool.eq_iff_iff.2 ?_
  rw [Bool.and_eq_true, Bool.and_eq_true]
  refine and_congr_right fun hahead => ?_
  obtain ⟨i, ts', heq⟩ := exists_of_lifetimeAhead hahead
  match ts with
  | [] => cases heq
  | [t] => cases heq
  | t :: u :: ts =>
    cases heq
    have hrest := h ts ((hts.of_cons rfl).of_cons rfl) joint rest rest'
    simpa [pastTree] using hrest

end Basics

variable {g : Rules} (hg : ConfinedRules g)

/-! Attributes and macros -/

theorem confined_outerAttributes : Confined (fun _ => True) (outerAttributes g) := by
  have hgroup : Confined (fun _ => True) (delimited .bracket (attributeBody g false)) :=
    confined_delimited .bracket fun _ => trivial
  exact (confined_manyBehind (by decide) hgroup).bind fun _ _ => confined_pure trivial

theorem confined_macroRest (path : SimplePath) :
    Confined (fun _ => True) (macroRest path) :=
  (confined_op (by decide)).bind fun _ _ => confined_anyGroup.bind fun _ _ => confined_pure trivial

/-! Parts of paths -/

section Paths

/-- What a place has between its angle brackets. -/
def ownerOf (g : Rules) : Parser (Ty × Tree (.maybe .path)) := do
  let self ← g.type true
  let ofTrait ← if ← word? "as" then pure (.present (← path g false)) else pure .absent
  return (self, ofTrait)

include hg

theorem confined_returnType (plus : Bool) : Confined IsPaired? (returnType g plus) :=
  confined_arrow?.bind fun _ _ => confined_ite
    (fun _ => (hg.type plus).bind fun _ h => confined_pure h.present)
    fun _ => confined_pure isPaired?_absent

theorem confined_callArguments : Confined IsPaired (callArguments g) := by
  have hgroup : Confined (fun _ => True) (delimited .paren (listed (g.type true))) :=
    confined_delimited .paren fun _ => trivial
  exact hgroup.bind fun _ _ => (confined_returnType hg false).bind fun _ h =>
    confined_pure (isPaired_callArgs h)

theorem confined_constArgument : Confined IsPaired (constArgument g) := by
  refine (confined_ahead sees_literalAhead).bind fun _ _ => confined_ite (fun _ => ?_) fun _ => ?_
  · exact confined_literal.bind fun text _ => confined_pure (isPaired_literalExpr text)
  refine (confined_ahead sees_identAhead).bind fun _ _ => confined_ite (fun _ => ?_) fun _ => ?_
  · refine confined_ident.bind fun name _ => confined_pure ?_
    exact (isPaired_path (by simpa using isPaired_noArgs.segment)).plainPlace.pathExpr
  refine (confined_ahead (sees_groupAhead .brace)).bind fun _ _ => confined_ite (fun _ => ?_)
    fun _ => confined_refuse _
  exact (hg.block true).bind fun b _ => confined_pure (isPaired_blockExpr b)

theorem confined_associated (name : Ident) {args : Tree (.one .arguments)} (hargs : args.IsPaired) :
    Confined (fun o => ∀ a ∈ o, a.IsPaired) (associated g name args) := by
  refine (confined_op? (by decide)).bind fun _ _ => confined_ite (fun _ => ?_) fun _ => ?_
  · refine (confined_ahead sees_constStarts).bind fun _ _ => confined_ite (fun _ => ?_) fun _ => ?_
    · exact (confined_constArgument hg).bind fun _ h => confined_pure (by
        simpa using hargs.assocConstArg h)
    · exact (hg.type true).bind fun _ h => confined_pure (by simpa using hargs.assocTypeArg h)
  refine (confined_op? (by decide)).bind fun _ _ => confined_ite (fun _ => ?_)
    fun _ => confined_pure (by simp)
  refine (confined_chain (hg.bound false true) sees_closesParam.not (by decide) false).bind
    fun _ h => confined_pure ?_
  simpa using hargs.constraintArg h

theorem confined_genericArg : Confined IsPaired (genericArg g) := by
  refine confined_behind sees_lifetimeAhead (sees_behindLifetime (sees_opFlat "+" (by decide))) rfl
    fun _ _ => confined_ite (fun _ => ?_) fun _ => ?_
  · exact confined_lifetime.bind fun _ _ => confined_pure isPaired_lifetimeArg
  refine (confined_ahead sees_constStarts).bind fun _ _ => confined_ite (fun _ => ?_) fun _ => ?_
  · exact (confined_constArgument hg).bind fun _ h => confined_pure h.constArg
  refine (hg.type true).bind fun t ht => ?_
  have hname : ∀ name args, (Tree.pathType (.plainPlace (.path false
      (.cons (.segment name args) .nil)))).IsPaired → Confined IsPaired (do
        return (← associated g name args).getD (.typeArg (.pathType (.plainPlace (.path false
          (.cons (.segment name args) .nil)))))) := fun name args ht => by
    refine (confined_associated hg name ht.of_name).bind fun o ho => confined_pure ?_
    cases o with
    | none => exact ht.typeArg
    | some a => exact ho a rfl
  cases t with
  | pathType p =>
    match p, ht with
    | .itemPlace .., ht => exact confined_pure ht.typeArg
    | .plainPlace (.path true _), ht => exact confined_pure ht.typeArg
    | .plainPlace (.path false .nil), ht => exact confined_pure ht.typeArg
    | .plainPlace (.path false (.cons (.segment _ args) (.cons ..))), ht =>
      cases args <;> exact confined_pure ht.typeArg
    | .plainPlace (.path false (.cons (.segment name args) .nil)), ht =>
      cases args with
      | callArgs => exact confined_pure ht.typeArg
      | _ => exact hname name _ ht
  | _ => exact confined_pure ht.typeArg

theorem confined_angleArguments : Confined IsPaired (angleArguments g) :=
  (confined_op? (by decide)).bind fun _ _ =>
    (confined_angled (confined_genericArg hg)).angles fun _ h => confined_pure (isPaired_angleArgs h)

omit hg in
theorem confined_argumentsAhead (inExpr : Bool) :
    Confined (fun _ => True) (argumentsAhead inExpr) := by
  have hopens : Sees fun ts => opAhead "<" ts && !opAhead "<=" ts && !opAhead "<<=" ts :=
    ((sees_opAhead "<" (.inr rfl)).and (sees_opAhead "<=" (.inl (by decide))).not).and
      (sees_opAhead "<<=" (.inl (by decide))).not
  exact confined_ahead (((sees_const (!inExpr)).and hopens).or
    (sees_behindColons (sees_opAhead "<" (.inr rfl))))

theorem confined_segment (inExpr : Bool) : Confined IsPaired (segment g inExpr) := by
  refine (confined_ahead (sees_words _)).bind fun _ _ => confined_ite (fun _ => ?_) fun _ => ?_
  · exact confined_anyWord.bind fun _ _ => confined_pure isPaired_noArgs.segment
  have hargs : ∀ name, Confined IsPaired (do
      if ← argumentsAhead inExpr then return .segment name (← angleArguments g)
      else return .segment name .noArgs) := fun name =>
    (confined_argumentsAhead inExpr).bind fun _ _ => confined_ite
      (fun _ => (confined_angleArguments hg).bind fun _ h => confined_pure h.segment)
      fun _ => confined_pure isPaired_noArgs.segment
  refine (confined_ahead (sees_wordAhead _)).bind fun b _ => ?_
  exact confined_ite (fun _ => confined_anyWord.bind fun name _ => hargs name)
    fun _ => confined_ident.bind fun name _ => hargs name

theorem confined_path (inExpr : Bool) : Confined HasPairedSegments (path g inExpr) := by
  have hsegment := confined_segment hg inExpr
  refine (confined_op? (by decide)).bind fun rooted _ => hsegment.bind fun first hfirst =>
    (@confined_many _ IsPaired _ ?_ fun {ts left x s} hrun => ?_).bind fun rest hrest =>
      confined_pure ⟨rooted, first :: rest, rfl, by simpa using ⟨hfirst, hrest⟩⟩
  · refine confined_behind (sees_opFlat "::" (by decide)) (sees_behindColons (sees_groupAhead .paren))
      rfl fun _ _ => confined_ite (fun _ => confined_pure (by simp)) fun _ => ?_
    exact (confined_op (by decide)).bind fun _ _ => hsegment.bind fun _ h =>
      confined_pure (by simpa using h)
  · obtain ⟨_, _, hahead, hrest⟩ := exists_of_run_bind hrun
    cases hahead
    obtain ⟨_, _, hahead, hrest⟩ := exists_of_run_bind hrest
    cases hahead
    rw [run_ite] at hrest
    split at hrest
    · cases hrest
    · obtain ⟨_, mid, hop, hlater⟩ := exists_of_run_bind hrest
      obtain ⟨hahead, rfl⟩ := exists_of_op hop
      obtain ⟨y, last, hy, hend⟩ := exists_of_run_bind hlater
      cases hend
      exact (hsegment.length_le hy).trans_lt (length_dropOp_lt hahead)

theorem confined_ownerOf :
    Confined (fun r => r.1.IsPaired ∧ r.2.IsPaired?) (ownerOf g) := by
  refine (hg.type true).bind fun self hself => (confined_word? "as").bind fun _ _ =>
    confined_ite (fun _ => ?_) fun _ => confined_pure ⟨hself, isPaired?_absent⟩
  exact (confined_path hg false).bind fun _ h => confined_pure ⟨hself, h.isPaired.present⟩

theorem confined_place (inExpr : Bool) : Confined IsPaired (place g inExpr) := by
  have hsegment := confined_segment hg inExpr
  have hcolons : Confined (fun _ => True) (op "::") := confined_op (by decide)
  have hplace : Confined IsPaired (do
      op "<"
      let r ← ownerOf g
      op ">"
      op "::"
      let first ← segment g inExpr
      let rest ← many do
        if !(← op? "::") then return none
        return some (← segment g inExpr)
      return .itemPlace r.1 r.2 (ofList (first :: rest))) :=
    (confined_ownerOf hg).angles fun r hr => hcolons.bind fun _ _ => hsegment.bind fun first hfirst =>
      (confined_manyBehind (by decide) hsegment).bind fun rest hrest =>
        confined_pure (isPaired_itemPlace hr.1 hr.2 (List.forall_mem_cons.2 ⟨hfirst, hrest⟩))
  simp only [ownerOf, bind_assoc, pure_bind, ite_bind] at hplace
  unfold place
  rw [op?_bind]
  exact (confined_ahead (sees_opAhead "<" (.inr rfl))).bind fun _ _ => confined_ite
    (fun _ => by simpa using hplace)
    fun _ => (confined_path hg inExpr).bind fun _ h => confined_pure h.isPaired.plainPlace

end Paths

/-! Bounds -/

section Bounds

theorem refuse_bind {α β : Type} (wanted : List Wanted) (f : α → Parser β) :
    (refuse wanted >>= f) = refuse wanted := rfl

theorem confined_lifetimeBounds {stop : List Token → Bool} (h : Sees stop) :
    Confined (fun _ => True) (lifetimeBounds stop) :=
  (confined_op? (by decide)).bind fun _ _ => confined_ite (fun _ => confined_pure trivial)
    fun _ => (confined_chain confined_lifetime h.not (by decide) false).bind fun _ _ =>
      confined_pure trivial

/-- A captured name, or none in front of the closing bracket. -/
def captureName : Parser (Option (Bool × Ident)) := do
  if ← ahead lifetimeAhead then return some (true, ← lifetime)
  else if ← ahead fun ts => identAhead ts || wordAhead "Self" ts then return some (false, ← anyWord)
  else if ← ahead (opAhead ">") then return none
  else refuse [.lifetime, .identifier, .mark ">"]

/-- What follows a captured name. -/
def captureEnd (name : Bool × Ident) : Parser (List (Bool × Ident) × Bool ⊕
    Unit × (List (Bool × Ident) × Bool → List (Bool × Ident) × Bool)) := do
  if ← op? "," then return .inr ((), fun r => (name :: r.1, r.2))
  else if ← ahead (opAhead ">") then return .inl ([name], false)
  else refuse [.mark ",", .mark ">"]

/-- A round of the loop over captured names. -/
def captureRound : Parser (List (Bool × Ident) × Bool ⊕
    Unit × (List (Bool × Ident) × Bool → List (Bool × Ident) × Bool)) := do
  match ← captureName with
  | none => return .inl ([], true)
  | some name => captureEnd name

theorem confined_captureName : Confined (fun _ => True) captureName := by
  refine (confined_ahead sees_lifetimeAhead).bind fun _ _ => confined_ite
    (fun _ => confined_lifetime.bind fun _ _ => confined_pure trivial) fun _ => ?_
  refine (confined_ahead (sees_identAhead.or (sees_wordAhead _))).bind fun _ _ => confined_ite
    (fun _ => confined_anyWord.bind fun _ _ => confined_pure trivial) fun _ => ?_
  exact (confined_ahead (sees_opAhead ">" (.inr rfl))).bind fun _ _ => confined_ite
    (fun _ => confined_pure trivial) fun _ => confined_refuse _

theorem confined_captureEnd (name : Bool × Ident) :
    Confined (RoundPost fun _ => True) (captureEnd name) := by
  refine (confined_op? (by decide)).bind fun _ _ => confined_ite
    (fun _ => confined_pure fun _ _ => trivial) fun _ => ?_
  exact (confined_ahead (sees_opAhead ">" (.inr rfl))).bind fun _ _ => confined_ite
    (fun _ => confined_pure trivial) fun _ => confined_refuse _

theorem confinedLoop_upToClose : ConfinedLoop (fun _ => True) capture.upToClose := by
  refine confinedLoop (fun n (_ : Unit) => capture.upToClose n) (fun _ => captureRound)
    (fun _ => ?_) (fun {_ ts left next s} hrun => ?_) ?_ (fun n _ => ?_) ()
  · refine confined_captureName.bind fun o _ => ?_
    cases o with
    | none => exact confined_pure trivial
    | some name => exact confined_captureEnd name
  · obtain ⟨o, mid, hname, hend⟩ := exists_of_run_bind hrun
    have hle := confined_captureName.length_le hname
    cases o with
    | none => cases hend
    | some name =>
      obtain ⟨b, last, hb, hend⟩ := exists_of_run_bind hend
      rw [run_op?] at hb
      split at hb
      · rename_i hahead
        have hless := length_dropOp_lt hahead
        cases hb
        cases hend
        exact hless.trans_le hle
      · cases hb
        obtain ⟨_, _, hahead, hend⟩ := exists_of_run_bind hend
        cases hahead
        rw [run_ite] at hend
        split at hend
        · cases hend
        · cases hend
  · intro _ ts left x s hrun
    cases hrun
  · have hahead : ∀ {β : Type} (q : List Token → Bool) (f : Bool → Parser β) s,
        (ahead q >>= f) s = f (q s.tokens) s := fun _ _ _ => rfl
    simp only [capture.upToClose, captureRound, captureName, captureEnd, bind_assoc, ite_bind,
      pure_bind, refuse_bind, Sum.elim_inl, Sum.elim_inr, map_eq_pure_bind]
    funext s
    simp only [hahead, run_ite]

theorem confined_capture : Confined IsPaired capture := by
  have hcapture : Confined IsPaired (do
      word "use"
      op "<"
      let names ← remaining >>= fun ts => capture.upToClose (ts.length + 1)
      op ">"
      return .captureBound names.1 names.2) :=
    (confined_word "use").bind fun _ _ => confinedLoop_upToClose.confined.angles fun names _ =>
      confined_pure (isPaired_captureBound names.1)
  simpa [capture, bind_assoc] using hcapture

theorem confined_lifetimeParam (attrs : Tree (.many .attr)) :
    Confined IsPaired (Grammar.lifetimeParam attrs) :=
  confined_lifetime.bind fun _ _ => (confined_lifetimeBounds sees_closesParam).bind fun o _ =>
    confined_pure (isPaired_lifetimeParam o)

include hg

theorem confined_typeParam (attrs : Tree (.many .attr)) :
    Confined IsPaired (Grammar.typeParam g attrs) := by
  have hdefault : ∀ name bounds trailing, (∀ b ∈ bounds, b.IsPaired) → Confined IsPaired (do
      let default ← if ← op? "=" then pure (.present (← g.type true)) else pure .absent
      return .typeParam attrs name (ofList bounds) trailing default) := fun name bounds trailing h =>
    (confined_op? (by decide)).bind fun _ _ => confined_ite
      (fun _ => (hg.type true).bind fun _ ht => confined_pure (isPaired_typeParam h ht.present))
      fun _ => confined_pure (isPaired_typeParam h isPaired?_absent)
  refine confined_ident.bind fun name _ => (confined_op? (by decide)).bind fun _ _ => confined_ite
    (fun _ => ?_) fun _ => hdefault name [] false (by simp)
  exact (confined_chain (hg.bound false true) (sees_closesParam.not.and
    (sees_opFlat "=" (by decide)).not) (by decide) false).bind fun r h => hdefault name r.1 r.2 h

theorem confined_constParam (attrs : Tree (.many .attr)) :
    Confined IsPaired (Grammar.constParam g attrs) :=
  (confined_word "const").bind fun _ _ => confined_ident.bind fun _ _ =>
    (confined_op (by decide)).bind fun _ _ => (hg.type true).bind fun _ ht =>
      (confined_op? (by decide)).bind fun _ _ => confined_ite
        (fun _ => (confined_constArgument hg).bind fun _ he =>
          confined_pure (isPaired_constParam ht he.present))
        fun _ => confined_pure (isPaired_constParam ht isPaired?_absent)

theorem confined_boundParam : Confined IsPaired (boundParam g) := by
  refine confined_outerAttributes.bind fun attrs _ => ?_
  refine (confined_ahead sees_identAhead).bind fun _ _ => confined_ite
    (fun _ => confined_typeParam hg attrs) fun _ => ?_
  refine (confined_ahead sees_lifetimeAhead).bind fun _ _ => confined_ite
    (fun _ => confined_lifetimeParam attrs) fun _ => ?_
  exact (confined_ahead (sees_wordAhead _)).bind fun _ _ => confined_ite
    (fun _ => confined_constParam hg attrs) fun _ => confined_refuse _

theorem confined_binder : Confined IsPaired (binder g) :=
  (confined_word "for").bind fun _ _ => (confined_angled (confined_boundParam hg)).angles
    fun _ h => confined_pure (isPaired_forAll h)

theorem confined_binder? : Confined IsPaired? (binder? g) :=
  (confined_ahead (sees_wordAhead _)).bind fun _ _ => confined_ite
    (fun _ => (confined_binder hg).bind fun _ h => confined_pure h.present)
    fun _ => confined_pure isPaired?_absent

omit hg in
theorem isPaired_withArguments {args : Tree (.one .arguments)} (h : args.IsPaired)
    (s : Tree (.one .segment)) : (withArguments args s).IsPaired := by
  cases s with
  | segment name _ => exact h.segment

theorem confined_traitPath : Confined IsPaired (traitPath g) := by
  refine (confined_path hg false).bind fun p hp => ?_
  obtain ⟨rooted, segments, rfl, hsegments⟩ := hp
  refine (confined_ahead (sees_groupAhead .paren)).bind fun _ _ => confined_behind
    (sees_opFlat "::" (by decide)) (sees_behindColons (sees_groupAhead .paren)) rfl fun _ _ => ?_
  simp only [pure_bind, toList_ofList]
  split
  · rename_i last hlast
    refine confined_ite (fun _ => ?_) fun _ => confined_pure (isPaired_path hsegments)
    have hcolons : Confined (fun _ => True) (discard (op? "::")) :=
      (confined_op? (by decide)).map fun _ _ => trivial
    refine hcolons.bind fun _ _ => (confined_callArguments hg).bind fun args hargs =>
      confined_pure (isPaired_path ?_)
    intro s hs
    rcases List.mem_append.1 hs with hs | hs
    · exact hsegments s (List.mem_of_mem_dropLast hs)
    · obtain rfl := List.mem_singleton.1 hs
      exact isPaired_withArguments hargs last
  · exact confined_pure (isPaired_path hsegments)

/-- A bound by a trait from the path of the trait on. -/
def boundFromPath (g : Rules) (paren unwritten maybe : Bool) (binder : Tree (.maybe .binder)) :
    Parser (Option (Tree (.one .bound))) := do
  let p ← traitPath g
  if maybe && !binder.isAbsent then throw (.rule .binderOfMaybe false)
  if unwritten then return none
  else return some (.traitBound paren maybe binder p)

theorem confined_boundFromPath {paren unwritten maybe : Bool} {binder : Tree (.maybe .binder)}
    (hbinder : binder.IsPaired?) :
    Confined (fun o => ∀ b ∈ o, b.IsPaired) (boundFromPath g paren unwritten maybe binder) := by
  refine (confined_traitPath hg).bind fun p hp => ?_
  have hlast : Confined (fun o => ∀ b ∈ o, b.IsPaired) (if unwritten = true then pure none
      else pure (some (Tree.traitBound paren maybe binder p))) :=
    confined_ite (fun _ => confined_pure (by simp)) fun _ => confined_pure (by
      simpa using isPaired_traitBound hbinder hp)
  exact confined_check hlast

/-- A bound by a trait from its question mark on. -/
def boundFromMark (g : Rules) (paren unwritten : Bool) (outer : Tree (.maybe .binder)) :
    Parser (Option (Tree (.one .bound))) := do
  let maybe ← op? "?"
  let binder ← if maybe && outer.isAbsent then binder? g else pure outer
  boundFromPath g paren unwritten maybe binder

theorem confined_boundFromMark {paren unwritten : Bool} {outer : Tree (.maybe .binder)}
    (houter : outer.IsPaired?) :
    Confined (fun o => ∀ b ∈ o, b.IsPaired) (boundFromMark g paren unwritten outer) :=
  (confined_op? (by decide)).bind fun _ _ => confined_ite
    (fun _ => (confined_binder? hg).bind fun _ h => confined_boundFromPath hg h)
    fun _ => confined_boundFromPath hg houter

theorem confined_traitBound (consts paren : Bool) :
    Confined (fun o => ∀ b ∈ o, b.IsPaired) (Grammar.traitBound g consts paren) := by
  refine (confined_binder? hg).bind fun outer houter =>
    (confined_ahead (sees_groupAhead .bracket)).bind fun conditional _ => ?_
  have hmark : ∀ constant, Confined (fun o => ∀ b ∈ o, b.IsPaired)
      (boundFromMark g paren (conditional || constant) outer) :=
    fun _ => confined_boundFromMark hg houter
  have hconst : Confined (fun o => ∀ b ∈ o, b.IsPaired) (do
      let constant ← if conditional then pure false else word? "const"
      if constant && !consts then throw (.rule .constBound false)
      boundFromMark g paren (conditional || constant) outer) := by
    have hrest : ∀ constant, Confined (fun o => ∀ b ∈ o, b.IsPaired)
        (if (constant && !consts) = true then throw (.rule .constBound false) >>= fun (_ : Unit) =>
          boundFromMark g paren (conditional || constant) outer
        else boundFromMark g paren (conditional || constant) outer) :=
      fun constant => confined_ite (fun _ => confined_throw _) fun _ => hmark constant
    exact confined_ite (fun _ => hrest false)
      fun _ => (confined_word? "const").bind fun constant _ => hrest constant
  refine confined_ite (fun _ => ?_) fun _ => hconst
  have hgroup : Confined (fun _ => True) (delimited .bracket (word "const")) :=
    confined_delimited .bracket fun _ => trivial
  exact hgroup.bind fun _ _ => confined_check hconst

theorem confined_bound (captures consts : Bool) :
    Confined IsPaired (Grammar.bound g captures consts) := by
  refine (confined_ahead sees_lifetimeAhead).bind fun _ _ => confined_ite
    (fun _ => confined_lifetime.bind fun _ _ => confined_pure isPaired_lifetimeBound) fun _ => ?_
  refine (confined_ahead (sees_wordAhead _)).bind fun _ _ => confined_ite
    (fun _ => confined_capture.bind fun b hb => confined_check (confined_pure hb)) fun _ => ?_
  have htrait : Confined (fun o => ∀ b ∈ o, b.IsPaired) (do
      if ← ahead (groupAhead .paren) then delimited .paren (Grammar.traitBound g consts true)
      else Grammar.traitBound g consts false) :=
    (confined_ahead (sees_groupAhead .paren)).bind fun _ _ => confined_ite
      (fun _ => confined_delimited .paren fun h => ((confined_traitBound hg consts true).takes h).1)
      fun _ => confined_traitBound hg consts false
  refine (confined_consumed htrait).bind fun r hr => ?_
  obtain ⟨o, ts⟩ := r
  refine confined_pure ?_
  cases o with
  | none => exact isPaired_strangeBound hr.2
  | some b => exact hr.1 b rfl

/-- Bounds behind the first one, if a plus sign stood behind it. -/
def boundsFromSign (g : Rules) (captures consts : Bool) (first : Tree (.one .bound)) (more : Bool) :
    Parser (List (Tree (.one .bound)) × Bool) := do
  if !more then return ([first], false)
  let (rest, trailing) ← chain (boundStarts consts) "+" (Grammar.bound g captures consts) true
  return (first :: rest, trailing)

theorem confined_boundsFromSign (captures consts : Bool) {first : Tree (.one .bound)}
    (hfirst : first.IsPaired) (more : Bool) : Confined (fun r => ∀ b ∈ r.1, b.IsPaired)
      (boundsFromSign g captures consts first more) :=
  confined_ite (fun _ => confined_pure (by simpa using hfirst)) fun _ =>
    (confined_chain (confined_bound hg captures consts) (sees_boundStarts consts) (by decide)
      true).bind fun _ hr => confined_pure (List.forall_mem_cons.2 ⟨hfirst, hr⟩)

/-- Bounds are paired each for itself. -/
theorem confined_bounds (plus captures consts : Bool) :
    Confined (fun r => ∀ b ∈ r.1, b.IsPaired) (bounds g plus captures consts) := by
  refine (confined_bound hg captures consts).bind fun first hfirst => ?_
  have hmore := confined_boundsFromSign hg captures consts hfirst
  exact confined_ite (fun _ => (confined_op? (by decide)).bind fun more _ => hmore more)
    fun _ => hmore false

theorem confined_objectBounds (marked plus : Bool) : Confined IsPaired (objectBounds g marked plus) :=
  (confined_bounds hg plus false false).bind fun _ h =>
    confined_check (confined_pure (isPaired_objectType h))

end Bounds

/-! Types -/

section Types

theorem confined_convention? : Confined (fun _ => True) convention? :=
  (confined_word? "extern").bind fun _ _ => confined_ite (fun _ => confined_pure trivial) fun _ =>
    (confined_ahead sees_textLiteralAhead).bind fun _ _ => confined_ite
      (fun _ => confined_literal.bind fun _ _ => confined_pure trivial) fun _ => confined_pure trivial

include hg

theorem confined_fnType {binder : Tree (.maybe .binder)} (hbinder : binder.IsPaired?) :
    Confined IsPaired (Grammar.fnType g binder) := by
  refine (confined_word? "unsafe").bind fun _ _ => confined_convention?.bind fun _ _ =>
    (confined_word "fn").bind fun _ _ => ?_
  have hgroup : Confined (fun _ => True) (delimited .paren do
      fnTypeArgs g ((← remaining).length + 1) true false) := confined_delimited .paren fun _ => trivial
  exact hgroup.bind fun _ _ => (confined_returnType hg false).bind fun _ h =>
    confined_pure (isPaired_fnType hbinder h)

theorem confined_moreBounds : Confined (fun bs => ∀ b ∈ bs, b.IsPaired) (moreBounds g) :=
  confined_manyBehind (by decide) (hg.bound false false)

/-- What parentheses hold in front of a type is paired. -/
def ParenContent.IsPaired : ParenContent → Prop
  | .type t => t.IsPaired
  | .first b => b.IsPaired
  | .complete t => t.IsPaired

theorem confined_parenContent : Confined ParenContent.IsPaired (parenContent g) := by
  refine confined_atEnd.bind fun _ _ => confined_ite
    (fun _ => confined_pure (isPaired_tupleType _)) fun _ => ?_
  refine (confined_ahead sees_lifetimeAhead).bind fun _ _ => confined_ite
    (fun _ => (confined_objectBounds hg false true).bind fun _ _ =>
      confined_pure isPaired_parenType) fun _ => ?_
  refine (confined_ahead (sees_opFlat "?" (by decide))).bind fun _ _ => confined_ite
    (fun _ => (confined_traitBound hg false true).bind fun o ho => ?_) fun _ => ?_
  · cases o with
    | none => exact confined_pure (isPaired_strangeType .nil)
    | some b => exact confined_pure (ho b rfl)
  refine (hg.type true).bind fun first hfirst => (confined_op? (by decide)).bind fun _ _ =>
    confined_ite (fun _ => confined_pure hfirst) fun _ => ?_
  exact (confined_listed (hg.type true)).bind fun _ _ => confined_pure (isPaired_tupleType _)

omit hg in
theorem isPaired_of_boundOfParen? {t : Ty} (ht : t.IsPaired) {b : Tree (.one .bound)}
    (h : boundOfParen? t = some b) : b.IsPaired := by
  cases t with
  | pathType p =>
    cases p with
    | plainPlace p =>
      cases h
      exact isPaired_traitBound isPaired?_absent ht
    | itemPlace => cases h
  | objectType marked bounds trailing =>
    match marked, bounds, trailing, ht with
    | false, .cons (.traitBound _ maybe binder p) .nil, false, _ =>
      cases h
      exact .flat rfl .nil
    | false, .cons (.lifetimeBound name) .nil, false, _ =>
      cases h
      exact isPaired_lifetimeBound
    | false, .cons (.captureBound names trailing) .nil, false, _ =>
      cases h
      exact isPaired_captureBound names
    | false, .cons (.strangeBound ts) .nil, false, ht =>
      cases h
      have htokens : Tree.tokens (.objectType false (.cons (.strangeBound ts) .nil) false) =
          ts := by
        have hts : Tree.tokens (.strangeBound ts) = ts := rfl
        simp [plusses, separated, flagWord, hts]
      rw [Tree.IsPaired, htokens] at ht
      exact ht
    | false, .cons b (.cons ..), _, _ => cases b <;> cases h
    | false, .nil, _, _ => cases h
    | false, .cons b .nil, true, _ => cases b <;> cases h
    | true, _, _, _ => cases h
  | _ => cases h

theorem confined_parenType (plus : Bool) : Confined IsPaired (Grammar.parenType g plus) := by
  have hcontent : Confined ParenContent.IsPaired (delimited .paren (parenContent g)) :=
    confined_delimited .paren fun h => ((confined_parenContent hg).takes h).1
  have hobject : ∀ b : Tree (.one .bound), b.IsPaired → Confined Tree.IsPaired (do
      return .objectType false (ofList (b :: (← moreBounds g))) false) := fun b hb =>
    (confined_moreBounds hg).bind fun _ h =>
      confined_pure (isPaired_objectType (List.forall_mem_cons.2 ⟨hb, h⟩))
  refine hcontent.bind fun content h => ?_
  cases content with
  | complete t => exact confined_pure h
  | first b => exact hobject b h
  | type t =>
    refine (confined_ahead (sees_opFlat "+" (by decide))).bind fun _ _ => confined_ite (fun _ => ?_)
      fun _ => confined_pure isPaired_parenType
    split
    · rename_i b hb
      exact hobject b (isPaired_of_boundOfParen? h hb)
    · exact confined_pure isPaired_parenType

/-- A trait object whose first bound was read as a path, from the plus sign behind it on. -/
def objectFromSign (g : Rules) (first : Tree (.one .bound)) (more : Bool) : Parser Ty := do
  if more then
    let (rest, trailing) ← chain (boundStarts false) "+" (g.bound false false) true
    return .objectType false (ofList (first :: rest)) trailing
  else return .objectType false (ofList [first]) false

theorem confined_objectFromSign {first : Tree (.one .bound)} (hfirst : first.IsPaired)
    (more : Bool) : Confined Tree.IsPaired (objectFromSign g first more) :=
  confined_ite
    (fun _ => (confined_chain (hg.bound false false) (sees_boundStarts false) (by decide)
      true).bind fun _ h => confined_pure
        (isPaired_objectType (List.forall_mem_cons.2 ⟨hfirst, h⟩)))
    fun _ => confined_pure (isPaired_objectType (by simpa using hfirst))

theorem confined_pathType {binder : Tree (.maybe .binder)} (hbinder : binder.IsPaired?)
    (plus : Bool) : Confined Tree.IsPaired (Grammar.pathType g binder plus) := by
  refine (confined_place hg false).bind fun p hp => ?_
  cases p with
  | itemPlace self ofTrait rest => exact confined_pure hp.pathType
  | plainPlace p =>
    have hlast : Confined Tree.IsPaired (do
        if !binder.isAbsent || (plus && (← ahead (opAhead "+"))) then
          let more ← if plus then op? "+" else pure false
          objectFromSign g (.traitBound false false binder p) more
        else return .pathType (.plainPlace p)) := by
      have hmore : ∀ more, Confined Tree.IsPaired
          (objectFromSign g (.traitBound false false binder p) more) :=
        confined_objectFromSign hg (isPaired_traitBound hbinder hp)
      refine (confined_ahead (sees_opFlat "+" (by decide))).bind fun _ _ => confined_ite
        (fun _ => ?_) fun _ => confined_pure hp.plainPlace.pathType
      exact confined_ite (fun _ => (confined_op? (by decide)).bind fun more _ => hmore more)
        fun _ => hmore false
    dsimp only
    split
    · rename_i names hnames
      exact (confined_ahead ((sees_opFlat "!" (by decide)).and (sees_opFlat "!=" (by decide)).not)).bind
        fun _ _ => confined_ite (fun _ => (confined_macroRest names).bind fun m _ =>
          confined_pure (isPaired_macroType m)) fun _ => hlast
    · exact hlast

omit hg in
theorem confined_bracketType : Confined Tree.IsPaired (bracketType g) := by
  refine confined_delimited .bracket fun {ts left x s} hrun => ?_
  obtain ⟨elem, mid, -, hrest⟩ := exists_of_run_bind hrun
  obtain ⟨b, mid, -, hrest⟩ := exists_of_run_bind hrest
  cases b with
  | true =>
    obtain ⟨e, mid, -, hend⟩ := exists_of_run_bind hrest
    cases hend
    exact isPaired_arrayType _
  | false =>
    cases hrest
    exact isPaired_sliceType

theorem confined_pointerType : Confined Tree.IsPaired (Grammar.pointerType g) := by
  have htype : ∀ mutable, Confined Tree.IsPaired (do return .pointerType mutable (← g.type false)) :=
    fun mutable => (hg.type false).bind fun _ h => confined_pure h.pointerType
  exact (confined_op (by decide)).bind fun _ _ => (confined_word? "const").bind fun _ _ =>
    confined_ite (fun _ => htype false) fun _ => (confined_word? "mut").bind fun _ _ =>
      confined_ite (fun _ => htype true) fun _ => confined_refuse _

theorem confined_opaqueType (plus : Bool) : Confined Tree.IsPaired (opaqueType g plus) :=
  (confined_word "impl").bind fun _ _ => (confined_bounds hg plus true true).bind fun _ h =>
    confined_check (confined_pure (isPaired_someType h))

theorem confined_objectType (plus : Bool) : Confined Tree.IsPaired (Grammar.objectType g plus) := by
  have hobject : Confined (fun o => ∀ t ∈ o, t.IsPaired) (do
      word "dyn"
      if ← op? "*" then
        discard (objectBounds g true plus)
        return none
      else return some (← objectBounds g true plus)) := by
    refine (confined_word "dyn").bind fun _ _ => (confined_op? (by decide)).bind fun _ _ =>
      confined_ite (fun _ => ?_) fun _ => (confined_objectBounds hg true plus).bind fun _ h =>
        confined_pure (by simpa using h)
    have hskip : Confined (fun _ => True) (discard (objectBounds g true plus)) :=
      (confined_objectBounds hg true plus).map fun _ _ => trivial
    exact hskip.bind fun _ _ => confined_pure (by simp)
  refine (confined_consumed hobject).bind fun r hr => ?_
  obtain ⟨o, ts⟩ := r
  refine confined_pure ?_
  cases o with
  | none => exact isPaired_strangeType hr.2
  | some t => exact hr.1 t rfl

omit hg in
theorem sees_pathStarts : Sees pathStarts :=
  ((sees_identAhead.or (sees_words _)).or (sees_opFlat "::" (by decide))).or
    (sees_opAhead "<" (.inr rfl))

theorem confined_type (plus : Bool) : Confined Tree.IsPaired (Grammar.type g plus) := by
  refine (confined_ahead (sees_wordAhead _)).bind fun _ _ => confined_ite (fun _ => ?_) fun _ => ?_
  · refine (confined_binder hg).bind fun b hb => ?_
    refine (confined_ahead (sees_words _)).bind fun _ _ => confined_ite
      (fun _ => confined_fnType hg hb.present) fun _ => ?_
    exact (confined_ahead ((sees_pathStarts.and (sees_opFlat "::" (by decide)).not).and
      (sees_opAhead "<" (.inr rfl)).not)).bind fun _ _ => confined_ite
        (fun _ => confined_pathType hg hb.present plus) fun _ => confined_refuse _
  refine (confined_ahead (sees_groupAhead .paren)).bind fun _ _ => confined_ite
    (fun _ => confined_parenType hg plus) fun _ => ?_
  refine (confined_ahead (sees_words _)).bind fun _ _ => confined_ite
    (fun _ => confined_fnType hg isPaired?_absent) fun _ => ?_
  refine (confined_ahead sees_pathStarts).bind fun _ _ => confined_ite
    (fun _ => confined_pathType hg isPaired?_absent plus) fun _ => ?_
  refine (confined_ahead (sees_wordAhead _)).bind fun _ _ => confined_ite
    (fun _ => confined_objectType hg plus) fun _ => ?_
  refine (confined_ahead (sees_groupAhead .bracket)).bind fun _ _ => confined_ite
    (fun _ => confined_bracketType) fun _ => ?_
  refine (confined_ahead (sees_opFlat "*" (by decide))).bind fun _ _ => confined_ite
    (fun _ => confined_pointerType hg) fun _ => ?_
  refine (confined_op? (by decide)).bind fun _ _ => confined_ite
    (fun _ => confined_lifetime?.bind fun _ _ => (confined_word? "mut").bind fun _ _ =>
      (hg.type false).bind fun _ h => confined_pure h.referenceType) fun _ => ?_
  refine (confined_op? (by decide)).bind fun _ _ => confined_ite
    (fun _ => confined_pure isPaired_neverType) fun _ => ?_
  refine (confined_ahead (sees_wordAhead _)).bind fun _ _ => confined_ite
    (fun _ => confined_opaqueType hg plus) fun _ => ?_
  refine (confined_word? "_").bind fun _ _ => confined_ite
    (fun _ => confined_pure isPaired_inferredType) fun _ => ?_
  exact (confined_ahead sees_lifetimeAhead).bind fun _ _ => confined_ite
    (fun _ => confined_objectBounds hg false true) fun _ => confined_refuse _

end Types

/-! All levels -/

/-- The rules of every level stay between angle brackets. -/
theorem confinedRules (n : Nat) : ConfinedRules (rules n) := by
  induction n with
  | zero => exact ⟨fun _ => confined_throw _, fun _ _ => confined_throw _, fun _ => confined_throw _⟩
  | succ n ih =>
    exact ⟨confined_type ih, confined_bound ih,
      fun _ => confined_delimited .brace fun _ => isPaired_block _⟩

end Bindery.Source.Grammar

namespace Bindery.Source

open Bindery.Source.Parser Bindery.Source.Grammar

theorem exists_of_runAll {α : Type} {p : Parser α} {ts : List Token} {x : α}
    (h : runAll p ts = .ok x) : ∃ s, p ⟨ts, none⟩ = .ok (x, s) := by
  unfold runAll StateT.run at h
  cases hp : p ⟨ts, none⟩ with
  | error why =>
    rw [hp] at h
    cases h
  | ok r =>
    obtain ⟨y, rest, left⟩ := r
    rw [hp] at h
    cases left with
    | some d => cases h
    | none =>
      cases rest with
      | nil =>
        cases h
        exact ⟨_, rfl⟩
      | cons t rest => cases h

/-- What is made of a text has paired angle brackets. -/
theorem isPaired_of_readText {k : Kind} {rule : Rules → Parser (Tree (.one k))}
    {post : Tree (.one k) → Prop} (hrule : ∀ n, Confined post (rule (rules n))) {text : String}
    {t : Tree (.one k)} (h : readText rule text = .ok t) : post t := by
  unfold readText at h
  split at h
  · obtain ⟨s, hs⟩ := exists_of_runAll h
    exact ((hrule _).takes hs).1
  · cases h

theorem Ty.isPaired_of_read {text : String} {t : Ty} (h : Ty.read text = .ok t) : t.IsPaired :=
  isPaired_of_readText (fun n => (confinedRules n).type true) h

theorem Path.hasPairedSegments_of_read {text : String} {p : Path} (h : Path.read text = .ok p) :
    HasPairedSegments p :=
  isPaired_of_readText (fun n => confined_path (confinedRules n) false) h

end Bindery.Source
