import Bindery.Proofs.Source.Confined

/-!
# Lists between angle brackets

A loop counts its rounds down from the number of all tokens, so that tokens behind a closing bracket
give it more fuel. It does not use that, since each round takes a token.
-/
namespace Bindery.Source.Parser

variable {α σ : Type}

/-! Loops -/

section Loops

variable {post : α → Prop}

/-- A parser with enough fuel is confined, and how much it has does not matter. -/
structure ConfinedLoop (post : α → Prop) (loop : Nat → Parser α) : Prop where
  takes : ∀ {n ts left x s}, loop n ⟨ts, left⟩ = .ok (x, s) →
    post x ∧ ∃ us, Paired us ∧ ts = us ++ s.tokens
  settles : ∀ {ts}, Paired ts → ∀ joint left,
    (∃ why, ∀ n rest, ts.length < n → loop n ⟨ts ++ .punct '>' joint :: rest, left⟩ = .error why) ∨
    ∃ x us left', Paired us ∧ ∀ n rest, ts.length < n →
      loop n ⟨ts ++ .punct '>' joint :: rest, left⟩ =
        .ok (x, ⟨us ++ .punct '>' joint :: rest, left'⟩)

theorem ConfinedLoop.confined {loop : Nat → Parser α} (h : ConfinedLoop post loop) :
    Confined post (remaining >>= fun ts => loop (ts.length + 1)) where
  takes hrun := h.takes hrun
  settles {ts} hts joint left := by
    have hfuel : ∀ rest, ts.length < (ts ++ Token.punct '>' joint :: rest).length + 1 := fun rest => by
      rw [List.length_append]
      omega
    rcases h.settles hts joint left with ⟨why, hwhy⟩ | ⟨x, us, left', hus, hx⟩
    · exact .inl ⟨why, fun rest => hwhy _ rest (hfuel rest)⟩
    · exact .inr ⟨x, us, left', hus, fun rest => hx _ rest (hfuel rest)⟩

/-- What a round of a loop may yield: a result, or what turns the result of the later rounds into
one. -/
def RoundPost (post : α → Prop) (r : α ⊕ σ × (α → α)) : Prop :=
  Sum.elim post (fun next => ∀ x, post x → post (next.2 x)) r

/-- A loop is confined if its rounds are and each one that is not the last takes a token. -/
theorem confinedLoop (loop : Nat → σ → Parser α) (round : σ → Parser (α ⊕ σ × (α → α)))
    (hround : ∀ a, Confined (RoundPost post) (round a))
    (htakes : ∀ {a ts left next s}, round a ⟨ts, left⟩ = .ok (.inr next, s) →
      s.tokens.length < ts.length)
    (hzero : ∀ {a ts left x s}, loop 0 a ⟨ts, left⟩ = .ok (x, s) → post x ∧ ts = s.tokens)
    (hsucc : ∀ n a, loop (n + 1) a = round a >>=
      Sum.elim pure fun next => next.2 <$> loop n next.1) (a : σ) :
    ConfinedLoop post (loop · a) where
  takes {n ts left x s} hrun := by
    induction n generalizing a ts left x s with
    | zero =>
      obtain ⟨hx, heq⟩ := hzero hrun
      exact ⟨hx, [], .nil, heq⟩
    | succ n ih =>
      rw [hsucc] at hrun
      obtain ⟨r, ⟨mid, left'⟩, hr, hrun⟩ := exists_of_run_bind hrun
      obtain ⟨hpost, us, hus, rfl⟩ := (hround a).takes hr
      cases r with
      | inl y =>
        cases hrun
        exact ⟨hpost, us, hus, rfl⟩
      | inr next =>
        simp only [Sum.elim_inr, run_map] at hrun
        split at hrun
        · rename_i y s' hlater
          cases hrun
          obtain ⟨hy, vs, hvs, hrest⟩ := ih next.1 hlater
          exact ⟨hpost y hy, us ++ vs, hus.append hvs, by rw [List.append_assoc, ← hrest]⟩
        · cases hrun
  settles {ts} hts joint left := by
    induction hlength : ts.length using Nat.strong_induction_on generalizing a ts left with
    | _ m ih =>
      subst hlength
      have hfuel : ∀ {n}, ts.length < n → ∃ k, n = k + 1 ∧ ts.length ≤ k :=
        fun {n} hn => ⟨n - 1, by omega, by omega⟩
      rcases (hround a).settles hts joint left with ⟨why, hwhy⟩ | ⟨r, us, left', hus, hr⟩
      · refine .inl ⟨why, fun n rest hn => ?_⟩
        obtain ⟨k, rfl, -⟩ := hfuel hn
        rw [hsucc, run_bind, hwhy]
      · cases r with
        | inl x =>
          refine .inr ⟨x, us, left', hus, fun n rest hn => ?_⟩
          obtain ⟨k, rfl, -⟩ := hfuel hn
          rw [hsucc, run_bind, hr]
          rfl
        | inr next =>
          have hless : us.length < ts.length := by simpa using htakes (hr [])
          have hnext : ∀ k rest, loop (k + 1) a ⟨ts ++ .punct '>' joint :: rest, left⟩ =
              (next.2 <$> loop k next.1 : Parser α) ⟨us ++ .punct '>' joint :: rest, left'⟩ :=
            fun k rest => by
              rw [hsucc, run_bind, hr]
              rfl
          rcases ih us.length hless next.1 hus left' rfl with ⟨why, hwhy⟩ | ⟨x, vs, left'', hvs, hx⟩
          · refine .inl ⟨why, fun n rest hn => ?_⟩
            obtain ⟨k, rfl, hk⟩ := hfuel hn
            rw [hnext, run_map, hwhy k rest (by omega)]
          · refine .inr ⟨next.2 x, vs, left'', hvs, fun n rest hn => ?_⟩
            obtain ⟨k, rfl, hk⟩ := hfuel hn
            rw [hnext, run_map, hx k rest (by omega)]

end Loops

/-! Lists -/

section Lists

variable {post : α → Prop} {p : Parser α} {sep : String} {starts stop : List Token → Bool}

/-- A round of `upTo`. -/
def upToRound (p : Parser (Option α)) : Parser (List α ⊕ Unit × (List α → List α)) := do
  match ← p with
  | none => return .inl []
  | some x => return .inr ((), (x :: ·))

/-- A round of `chainFrom`. -/
def chainRound (starts : List Token → Bool) (sep : String) (p : Parser α) (trailing : Bool) :
    Parser (List α × Bool ⊕ Bool × (List α × Bool → List α × Bool)) := do
  if !(← ahead starts) then return .inl ([], trailing)
  let x ← p
  if !(← op? sep) then return .inl ([x], false)
  return .inr (true, fun r => (x :: r.1, r.2))

/-- A round of `separatedFrom`. -/
def separatedRound (stop : List Token → Bool) (sep : String) (p : Parser α) (trailing : Bool) :
    Parser (List α × Bool ⊕ Bool × (List α × Bool → List α × Bool)) := do
  if ← ahead stop then return .inl ([], trailing)
  let x ← p
  if ← ahead stop then return .inl ([x], false)
  op sep
  return .inr (true, fun r => (x :: r.1, r.2))

theorem length_dropOp_lt {text : String} {ts : List Token} (h : opAhead text ts = true) :
    (dropOp text.toList ts).length < ts.length := by
  obtain ⟨c, joint, rest, rfl⟩ := exists_punct_of_opAhead h
  obtain ⟨d, more, hmore⟩ : ∃ d more, text.toList = d :: more := by
    cases htext : text.toList with
    | nil => simp [opAhead, htext, opAhead.go] at h
    | cons d more => exact ⟨d, more, rfl⟩
  have hle : ∀ cs ts, (dropOp cs ts).length ≤ ts.length := by
    intro cs
    induction cs with
    | nil => intro ts; cases ts <;> simp [dropOp]
    | cons c cs ih => intro ts; cases ts <;> simp [dropOp]; exact (ih _).trans (Nat.le_succ _)
  rw [hmore]
  exact Nat.lt_succ_of_le (hle more rest)

theorem confinedLoop_upTo {p : Parser (Option α)} {post : α → Prop}
    (hp : Confined (fun o => ∀ x ∈ o, post x) p)
    (htakes : ∀ {ts left x s}, p ⟨ts, left⟩ = .ok (some x, s) → s.tokens.length < ts.length) :
    ConfinedLoop (fun xs => ∀ x ∈ xs, post x) (upTo · p) := by
  refine confinedLoop (fun n (_ : Unit) => upTo n p) (fun _ => upToRound p)
    (fun _ => ?_) (fun {_ ts left next s} hrun => ?_) ?_ (fun n _ => ?_) ()
  · refine hp.bind fun o ho => ?_
    cases o with
    | none => exact confined_pure (by simp [RoundPost])
    | some x => exact confined_pure (by simpa [RoundPost] using fun xs h => ⟨ho x rfl, h⟩)
  · obtain ⟨o, mid, ho, hrun⟩ := exists_of_run_bind hrun
    cases o with
    | none => cases hrun
    | some x =>
      cases hrun
      exact htakes ho
  · intro _ ts left x s hrun
    cases hrun
    exact ⟨by simp, rfl⟩
  · simp only [Parser.upTo, upToRound, bind_assoc]
    congr
    funext o
    cases o <;> simp

theorem Confined.length_le (hp : Confined post p) {ts : List Token} {left : Option Delimiter} {x : α}
    {s : Input} (hrun : p ⟨ts, left⟩ = .ok (x, s)) : s.tokens.length ≤ ts.length := by
  obtain ⟨-, us, -, rfl⟩ := hp.takes hrun
  simp

theorem confinedLoop_chain (hp : Confined post p) (hstarts : Sees starts) (hsep : IsFlat sep.toList)
    (trailing : Bool) :
    ConfinedLoop (fun r => ∀ x ∈ r.1, post x) (chainFrom · starts sep p trailing) := by
  refine confinedLoop (fun n trailing => chainFrom n starts sep p trailing)
    (chainRound starts sep p) (fun a => ?_) (fun {a ts left next s} hrun => ?_) ?_
    (fun n a => ?_) trailing
  · refine (confined_ahead hstarts).bind fun _ _ => confined_ite (fun _ => ?_) fun _ => ?_
    · exact confined_pure (by simp [RoundPost])
    · refine hp.bind fun x hx => (confined_op? hsep).bind fun _ _ => confined_ite (fun _ => ?_)
        fun _ => ?_
      · exact confined_pure (by simpa [RoundPost] using hx)
      · exact confined_pure (by simp [RoundPost]; exact fun xs h => ⟨hx, h⟩)
  · obtain ⟨_, _, hahead, hrest⟩ := exists_of_run_bind hrun
    cases hahead
    rw [run_ite] at hrest
    split at hrest
    · cases hrest
    · obtain ⟨x, mid, hx, hlater⟩ := exists_of_run_bind hrest
      have hle := hp.length_le hx
      obtain ⟨b, last, hb, hend⟩ := exists_of_run_bind hlater
      rw [run_op?] at hb
      split at hb
      · rename_i hahead
        have hless := length_dropOp_lt hahead
        cases hb
        cases hend
        exact hless.trans_le hle
      · cases hb
        cases hend
  · intro a ts left x s hrun
    cases hrun
  · simp only [chainFrom, chainRound, bind_assoc]
    congr
    funext b
    cases b with
    | false => simp
    | true => 
      simp
      congr
      funext x
      congr
      funext b
      cases b <;> simp

theorem confined_chain (hp : Confined post p) (hstarts : Sees starts) (hsep : IsFlat sep.toList)
    (trailing : Bool) : Confined (fun r => ∀ x ∈ r.1, post x) (chain starts sep p trailing) :=
  (confinedLoop_chain hp hstarts hsep trailing).confined

theorem confined_separated (hp : Confined post p) (hstop : Sees stop) (hsep : IsFlat sep.toList) :
    Confined (fun r => ∀ x ∈ r.1, post x) (separated stop sep p) := by
  refine (confinedLoop (fun n trailing => separatedFrom n stop sep p trailing)
    (separatedRound stop sep p) (fun a => ?_) (fun {a ts left next s} hrun => ?_) ?_
    (fun n a => ?_) false).confined
  · refine (confined_ahead hstop).bind fun _ _ => confined_ite (fun _ => ?_) fun _ => ?_
    · exact confined_pure (by simp [RoundPost])
    · refine hp.bind fun x hx => (confined_ahead hstop).bind fun _ _ => confined_ite (fun _ => ?_)
        fun _ => ?_
      · exact confined_pure (by simpa [RoundPost] using hx)
      · refine (confined_op hsep).bind fun _ _ => confined_pure ?_
        simp [RoundPost]
        exact fun xs h => ⟨hx, h⟩
  · obtain ⟨_, _, hahead, hrest⟩ := exists_of_run_bind hrun
    cases hahead
    rw [run_ite] at hrest
    split at hrest
    · cases hrest
    · obtain ⟨x, mid, hx, hlater⟩ := exists_of_run_bind hrest
      have hle := hp.length_le hx
      obtain ⟨_, _, hahead, hlater⟩ := exists_of_run_bind hlater
      cases hahead
      rw [run_ite] at hlater
      split at hlater
      · cases hlater
      · obtain ⟨_, last, hop, hend⟩ := exists_of_run_bind hlater
        obtain ⟨hahead, rfl⟩ := exists_of_op hop
        cases hend
        exact (length_dropOp_lt hahead).trans_le hle
  · intro a ts left x s hrun
    cases hrun
  · simp only [separatedFrom, separatedRound, bind_assoc]
    congr
    funext b
    cases b with
    | true => simp
    | false => 
      simp
      congr
      funext x
      congr
      funext b
      cases b <;> simp

theorem confined_many {p : Parser (Option α)} (hp : Confined (fun o => ∀ x ∈ o, post x) p)
    (htakes : ∀ {ts left x s}, p ⟨ts, left⟩ = .ok (some x, s) → s.tokens.length < ts.length) :
    Confined (fun xs => ∀ x ∈ xs, post x) (many p) :=
  (confinedLoop_upTo hp htakes).confined

/-- Elements each behind a mark. -/
theorem confined_manyBehind (hsep : IsFlat sep.toList) (hp : Confined post p) :
    Confined (fun xs => ∀ x ∈ xs, post x) (many do
      if !(← op? sep) then return none
      return some (← p)) := by
  refine confined_many ?_ fun {ts left x s} hrun => ?_
  · exact (confined_op? hsep).bind fun _ _ => confined_ite (fun _ => confined_pure (by simp))
      fun _ => hp.bind fun x hx => confined_pure (by simpa using hx)
  · obtain ⟨b, mid, hb, hrest⟩ := exists_of_run_bind hrun
    rw [run_op?] at hb
    split at hb
    · rename_i hahead
      have hless := length_dropOp_lt hahead
      cases hb
      obtain ⟨y, last, hy, hend⟩ := exists_of_run_bind hrest
      cases hend
      exact (hp.length_le hy).trans_lt hless
    · cases hb
      cases hrest

theorem confined_angled (hp : Confined post p) :
    Confined (fun r => ∀ x ∈ r.1, post x) (angled p) :=
  confined_separated hp (sees_opAhead ">" (.inr rfl)) (by decide)

theorem confined_listed (hp : Confined post p) :
    Confined (fun r => ∀ x ∈ r.1, post x) (listed p) :=
  confined_separated hp sees_isEmpty (by decide)

end Lists

/-! What was taken -/

theorem run_consumed (p : Parser α) (ts : List Token) (left : Option Delimiter) :
    consumed p ⟨ts, left⟩ = (p ⟨ts, left⟩).map fun r =>
      ((r.1, ts.take (ts.length - r.2.tokens.length)), r.2) := by
  simp only [consumed, since, run_bind, run_remaining]
  cases p ⟨ts, left⟩ <;> rfl

theorem confined_consumed {post : α → Prop} {p : Parser α} (hp : Confined post p) :
    Confined (fun r => post r.1 ∧ Paired r.2) (consumed p) where
  takes {ts left x s} hrun := by
    rw [run_consumed] at hrun
    cases hx : p ⟨ts, left⟩ with
    | error why =>
      rw [hx] at hrun
      cases hrun
    | ok r =>
      rw [hx] at hrun
      cases hrun
      obtain ⟨hpost, us, hus, rfl⟩ := hp.takes hx
      exact ⟨⟨hpost, by simpa using hus⟩, us, hus, rfl⟩
  settles {ts} hts joint left := by
    rcases hp.settles hts joint left with ⟨why, hwhy⟩ | ⟨x, us, left', hus, hx⟩
    · exact .inl ⟨why, fun rest => by rw [run_consumed, hwhy]; rfl⟩
    · obtain ⟨-, vs, -, hvs⟩ := hp.takes (hx [])
      obtain rfl : ts = vs ++ us := by simpa [← List.append_assoc] using hvs
      refine .inr ⟨(x, vs), us, left', hus, fun rest => ?_⟩
      rw [run_consumed, hx]
      simp [Except.map]

end Bindery.Source.Parser
