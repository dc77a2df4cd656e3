import Bindery.Proofs.Source.Brackets
import Bindery.Proofs.Source.Running

/-!
# Parsers that stay between angle brackets

A parser is confined if it takes paired tokens only. It cannot get past a bracket that it has not
seen opened, and what it makes of the tokens in front of one does not depend on what is behind.
-/
namespace Bindery.Source.Parser

variable {α β σ : Type}

/-- What a parser makes of tokens in front of a closing bracket, whatever is behind that. -/
def Settles (p : Parser α) (joint : Bool) (ts : List Token) (left : Option Delimiter) : Prop :=
  (∃ why, ∀ rest, p ⟨ts ++ .punct '>' joint :: rest, left⟩ = .error why) ∨
  ∃ x us left', Paired us ∧ ∀ rest, p ⟨ts ++ .punct '>' joint :: rest, left⟩ =
    .ok (x, ⟨us ++ .punct '>' joint :: rest, left'⟩)

/-- The parser goes on as another one does from further on. -/
theorem Settles.of_eq {p q : Parser α} {joint : Bool} {ts us : List Token}
    {left left' : Option Delimiter} (h : Settles q joint us left') (heq : ∀ rest,
      p ⟨ts ++ .punct '>' joint :: rest, left⟩ = q ⟨us ++ .punct '>' joint :: rest, left'⟩) :
    Settles p joint ts left := by
  unfold Settles
  simp only [heq]
  exact h

/-- The parser takes paired tokens, and `post` holds of its results. -/
structure Confined (post : α → Prop) (p : Parser α) : Prop where
  takes : ∀ {ts left x s}, p ⟨ts, left⟩ = .ok (x, s) →
    post x ∧ ∃ us, Paired us ∧ ts = us ++ s.tokens
  settles : ∀ {ts}, Paired ts → ∀ joint left, Settles p joint ts left

/-- The test does not look past a closing bracket. -/
def Sees (q : List Token → Bool) : Prop :=
  ∀ ts, Paired ts → ∀ joint rest rest',
    q (ts ++ .punct '>' joint :: rest) = q (ts ++ .punct '>' joint :: rest')

section Steps

variable {post : α → Prop} {post' : β → Prop} {p : Parser α}

theorem Confined.mono (hp : Confined post p) {post' : α → Prop} (h : ∀ x, post x → post' x) :
    Confined post' p where
  takes hrun := (hp.takes hrun).imp_left (h _)
  settles := hp.settles

theorem confined_pure {x : α} (h : post x) : Confined post (pure x) where
  takes hrun := by
    cases hrun
    exact ⟨h, [], .nil, rfl⟩
  settles hts _ left := .inr ⟨x, _, left, hts, fun _ => rfl⟩

theorem confined_throw (why : Fault) : Confined post (throw why) where
  takes hrun := nomatch hrun
  settles _ _ _ := .inl ⟨why, fun _ => rfl⟩

theorem Confined.bind {f : α → Parser β} (hp : Confined post p)
    (hf : ∀ x, post x → Confined post' (f x)) : Confined post' (p >>= f) where
  takes {ts left y s} hrun := by
    rw [run_bind] at hrun
    split at hrun
    · rename_i x mid hmid
      obtain ⟨hx, us, hus, rfl⟩ := hp.takes hmid
      obtain ⟨hy, vs, hvs, hrest⟩ := (hf x hx).takes hrun
      exact ⟨hy, us ++ vs, hus.append hvs, by rw [hrest, List.append_assoc]⟩
    · cases hrun
  settles {ts} hts joint left := by
    rcases hp.settles hts joint left with ⟨why, hwhy⟩ | ⟨x, us, left', hus, hx⟩
    · exact .inl ⟨why, fun rest => by rw [run_bind, hwhy]⟩
    · obtain ⟨hpost, -⟩ := hp.takes (hx [])
      exact ((hf x hpost).settles hus joint left').of_eq fun rest => by rw [run_bind, hx]

theorem Confined.map {f : α → β} (hp : Confined post p) (hf : ∀ x, post x → post' (f x)) :
    Confined post' (f <$> p) := by
  rw [← bind_pure_comp]
  exact hp.bind fun x hx => confined_pure (hf x hx)

theorem confined_ite {c : Prop} [Decidable c] {q : Parser α} (hp : c → Confined post p)
    (hq : ¬c → Confined post q) : Confined post (if c then p else q) := by
  split
  · rename_i h
    exact hp h
  · rename_i h
    exact hq h

/-- A fault in one case, and what follows in the other. -/
theorem confined_check {c : Prop} [Decidable c] {why : Fault} {q : Unit → Parser α}
    (h : Confined post (q ())) : Confined post (if c then throw why >>= q else q ()) :=
  confined_ite (fun _ => confined_throw why) fun _ => h

theorem confined_ahead {q : List Token → Bool} (h : Sees q) :
    Confined (fun _ => True) (ahead q) where
  takes hrun := by
    cases hrun
    exact ⟨trivial, [], .nil, rfl⟩
  settles {ts} hts joint left := .inr ⟨q (ts ++ [.punct '>' joint]), ts, left, hts, fun rest => by
    rw [run_ahead, h ts hts joint rest []]⟩

/-- A test further on, of which nothing depends unless a first test holds. -/
theorem confined_behind {q r : List Token → Bool} {k : Bool → Bool → Parser β} (hq : Sees q)
    (hr : Sees fun ts => q ts && r ts) (hfalse : k false true = k false false)
    (hk : ∀ a b, Confined post' (k a b)) :
    Confined post' (ahead q >>= fun a => ahead r >>= fun b => k a b) := by
  have heq : (ahead q >>= fun a => ahead r >>= fun b => k a b) =
      (ahead q >>= fun a => ahead (fun ts => q ts && r ts) >>= fun b => k a b) := by
    funext s
    simp only [run_bind, run_ahead]
    cases q s.tokens with
    | true => rfl
    | false => cases r s.tokens <;> simp [hfalse]
  rw [heq]
  exact (confined_ahead hq).bind fun a _ => (confined_ahead hr).bind fun b _ => hk a b

/-- A parser that fails at a token or takes it, whatever follows. -/
theorem confined_of_head (hnil : ∀ left, ∃ why, p ⟨[], left⟩ = .error why)
    (hcons : ∀ t left, (∃ why, ∀ rest, p ⟨t :: rest, left⟩ = .error why) ∨
      t.isFlat = true ∧ ∃ x left', post x ∧ ∀ rest, p ⟨t :: rest, left⟩ = .ok (x, ⟨rest, left'⟩)) :
    Confined post p where
  takes {ts left x s} hrun := by
    cases ts with
    | nil =>
      obtain ⟨why, hwhy⟩ := hnil left
      rw [hwhy] at hrun
      cases hrun
    | cons t ts =>
      rcases hcons t left with ⟨why, hwhy⟩ | ⟨ht, y, left', hy, hok⟩
      · rw [hwhy] at hrun
        cases hrun
      · rw [hok] at hrun
        cases hrun
        exact ⟨hy, [t], .flat ht .nil, rfl⟩
  settles {ts} hts joint left := by
    cases ts with
    | nil =>
      rcases hcons (.punct '>' joint) left with ⟨why, hwhy⟩ | ⟨ht, -⟩
      · exact .inl ⟨why, hwhy⟩
      · cases ht
    | cons t ts =>
      rcases hcons t left with ⟨why, hwhy⟩ | ⟨ht, y, left', -, hok⟩
      · exact .inl ⟨why, fun rest => hwhy _⟩
      · exact .inr ⟨y, ts, left', hts.of_cons ht, fun rest => hok _⟩

end Steps

/-! Tests -/

section Tests

variable {q q' : List Token → Bool}

theorem Sees.and (h : Sees q) (h' : Sees q') : Sees fun ts => q ts && q' ts := by
  intro ts hts joint rest rest'
  simp only [h ts hts joint rest rest', h' ts hts joint rest rest']

theorem Sees.or (h : Sees q) (h' : Sees q') : Sees fun ts => q ts || q' ts := by
  intro ts hts joint rest rest'
  simp only [h ts hts joint rest rest', h' ts hts joint rest rest']

theorem Sees.not (h : Sees q) : Sees fun ts => !q ts := by
  intro ts hts joint rest rest'
  simp only [h ts hts joint rest rest']

theorem sees_of_head (h : ∀ t ts ts', q (t :: ts) = q (t :: ts')) : Sees q := by
  intro ts _ joint rest rest'
  cases ts with
  | nil => exact h _ _ _
  | cons t ts => exact h _ _ _

theorem sees_any {ws : List String} {q : String → List Token → Bool} (h : ∀ w ∈ ws, Sees (q w)) :
    Sees fun ts => ws.any (q · ts) := by
  intro ts hts joint rest rest'
  rw [Bool.eq_iff_iff, List.any_eq_true, List.any_eq_true]
  refine exists_congr fun w => and_congr_right fun hw => ?_
  rw [h w hw ts hts joint rest rest']

theorem sees_wordAhead (w : String) : Sees (wordAhead w) :=
  sees_of_head fun t _ _ => by cases t <;> rfl

theorem sees_identAhead : Sees identAhead := sees_of_head fun t _ _ => by cases t <;> rfl

theorem sees_anyWordAhead : Sees anyWordAhead := sees_of_head fun t _ _ => by cases t <;> rfl

theorem sees_groupAhead (d : Delimiter) : Sees (groupAhead d) :=
  sees_of_head fun t _ _ => by cases t <;> rfl

theorem sees_textLiteralAhead : Sees textLiteralAhead :=
  sees_of_head fun t _ _ => by cases t <;> rfl

theorem sees_isEmpty : Sees List.isEmpty := sees_of_head fun _ _ _ => rfl

theorem sees_go {cs : List Char} (h : '>' ∉ cs ∨ cs.length = 1) (ts rest rest' : List Token)
    (joint : Bool) : opAhead.go cs (ts ++ .punct '>' joint :: rest) =
      opAhead.go cs (ts ++ .punct '>' joint :: rest') := by
  induction cs generalizing ts with
  | nil => rfl
  | cons c more ih =>
    cases more with
    | nil =>
      cases ts with
      | nil => rfl
      | cons t ts => cases t <;> rfl
    | cons d more =>
      have hmem : '>' ∉ c :: d :: more := by simpa using h
      have hc : c ≠ '>' := by
        rintro rfl
        simp at hmem
      have hmore := ih (.inl fun hd => hmem (List.mem_cons_of_mem c hd))
      cases ts with
      | nil => cases joint <;> simp [opAhead.go, beq_eq_false_iff_ne.2 hc]
      | cons t ts =>
        match t with
        | .punct e true => simp only [List.cons_append, opAhead.go, hmore]
        | .punct e false => rfl
        | .ident i => rfl
        | .literal text => rfl
        | .group e inner => rfl

theorem sees_opAhead (op : String) (h : '>' ∉ op.toList ∨ op.toList.length = 1) :
    Sees (opAhead op) := fun ts _ joint rest rest' => sees_go h ts rest rest' joint

theorem sees_of_two (h : ∀ t u ts ts', q (t :: u :: ts) = q (t :: u :: ts'))
    (hclose : ∀ joint ts ts', q (.punct '>' joint :: ts) = q (.punct '>' joint :: ts')) :
    Sees q := by
  intro ts _ joint rest rest'
  match ts with
  | [] => exact hclose _ _ _
  | [t] => exact h _ _ _ _
  | t :: u :: ts => exact h _ _ _ _

theorem sees_lifetimeAhead : Sees lifetimeAhead := by
  refine sees_of_two (fun t u ts ts' => ?_) fun joint ts ts' => by simp [lifetimeAhead]
  unfold lifetimeAhead
  split <;> split <;> simp_all

theorem sees_literalAhead : Sees literalAhead := by
  refine sees_of_two (fun t u ts ts' => ?_) fun joint ts ts' => by simp [literalAhead]
  unfold literalAhead
  split <;> split <;> simp_all

end Tests

/-! Single tokens -/

section Tokens

variable {post : α → Prop} {p : Parser α}

theorem confined_atEnd : Confined (fun _ => True) atEnd := confined_ahead sees_isEmpty

theorem confined_refuse (wanted : List Wanted) : Confined post (refuse wanted) :=
  confined_atEnd.bind fun _ _ => confined_throw _

theorem confined_word (w : String) : Confined (fun _ => True) (word w) := by
  refine confined_of_head (fun left => ⟨.expected [.mark w] true, rfl⟩) fun t left => ?_
  cases t with
  | ident i =>
    by_cases hi : i = ⟨w, false⟩
    · refine .inr ⟨rfl, (), left, trivial, fun rest => ?_⟩
      simp [hi]
    · refine .inl ⟨.expected [.mark w] false, fun rest => ?_⟩
      simp [word, hi, refuse]
      rfl
  | _ => exact .inl ⟨.expected [.mark w] false, fun rest => rfl⟩

theorem confined_word? (w : String) : Confined (fun _ => True) (word? w) :=
  (confined_ahead (sees_wordAhead w)).bind fun _ _ => confined_ite
    (fun _ => (confined_word w).bind fun _ _ => confined_pure trivial) fun _ => confined_pure trivial

theorem confined_anyWord : Confined (fun _ => True) anyWord := by
  refine confined_of_head (fun left => ⟨.expected [.identifier] true, rfl⟩) fun t left => ?_
  cases t with
  | ident i => exact .inr ⟨rfl, i, left, trivial, fun _ => rfl⟩
  | _ => exact .inl ⟨.expected [.identifier] false, fun rest => rfl⟩

theorem confined_ident : Confined (fun _ => True) ident := by
  refine confined_of_head (fun left => ⟨.expected [.identifier] true, rfl⟩) fun t left => ?_
  cases t with
  | ident i =>
    cases hi : Ident.isKeyword i with
    | true => exact .inl ⟨.keyword i.word, fun rest => by simp [ident, hi]; rfl⟩
    | false => exact .inr ⟨rfl, i, left, trivial, fun rest => run_ident left hi rest⟩
  | _ => exact .inl ⟨.expected [.identifier] false, fun rest => rfl⟩

theorem confined_anyGroup : Confined (fun _ => True) anyGroup := by
  refine confined_of_head (fun left => ⟨.expected [.anyGroup] true, rfl⟩) fun t left => ?_
  cases t with
  | group d inner => exact .inr ⟨rfl, (d, inner), left, trivial, fun _ => rfl⟩
  | _ => exact .inl ⟨.expected [.anyGroup] false, fun rest => rfl⟩

theorem run_delimited (d : Delimiter) (inner rest : List Token) (left : Option Delimiter) :
    delimited d p ⟨.group d inner :: rest, left⟩ = (p ⟨inner, left⟩).map fun r =>
      (r.1, ⟨rest, if r.2.tokens.isEmpty then r.2.leftIn else r.2.leftIn.or (some d)⟩) := by
  have hmodify : ∀ f s, (modify f : Parser Unit) s = .ok ((), f s) := fun _ _ => rfl
  have hgroup : group d ⟨.group d inner :: rest, left⟩ = .ok (inner, ⟨rest, left⟩) := by
    simp [group]
  unfold delimited inside
  simp only [run_bind, hgroup, run_remaining, run_continueAt, hmodify, run_pure]
  cases p ⟨inner, left⟩ <;> rfl

/-- What is in a group does not matter to what is around it. -/
theorem confined_delimited (d : Delimiter)
    (h : ∀ {ts left x s}, p ⟨ts, left⟩ = .ok (x, s) → post x) : Confined post (delimited d p) := by
  refine confined_of_head (fun left => ⟨.expected [.group d] true, rfl⟩) fun t left => ?_
  cases t with
  | group e inner =>
    by_cases he : d = e
    · subst he
      cases hp : p ⟨inner, left⟩ with
      | error why => exact .inl ⟨why, fun rest => by rw [run_delimited, hp]; rfl⟩
      | ok r =>
        exact .inr ⟨rfl, r.1, _, h hp, fun rest => by rw [run_delimited, hp]; rfl⟩
    · refine .inl ⟨.expected [.group d] false, fun rest => ?_⟩
      simp [delimited, group, he, refuse]
      rfl
  | _ => exact .inl ⟨.expected [.group d] false, fun rest => rfl⟩

/-- Tokens that are read as a whole, or not at all. -/
structure Front (p : Parser α) (post : α → Prop) (us : List Token) (x : α) : Prop where
  post : post x
  paired : Paired us
  free : ∀ {ts joint ws}, Paired ts → us ≠ ts ++ .punct '>' joint :: ws
  ends : ∀ {vs}, Paired (us ++ vs) → Paired vs
  reads : ∀ left rest, p ⟨us ++ rest, left⟩ = .ok (x, ⟨rest, left⟩)

theorem confined_of_front (why : Bool → Fault) (h : ∀ ts,
    (∃ us x vs, Front p post us x ∧ ts = us ++ vs) ∨
      ∀ left, p ⟨ts, left⟩ = .error (why ts.isEmpty)) : Confined post p where
  takes {ts left x s} hrun := by
    rcases h ts with ⟨us, y, vs, hfront, rfl⟩ | hwhy
    · rw [hfront.reads] at hrun
      cases hrun
      exact ⟨hfront.post, us, hfront.paired, rfl⟩
    · rw [hwhy] at hrun
      cases hrun
  settles {ts} hts joint left := by
    by_cases hany : ∃ us x vs, Front p post us x ∧ ts = us ++ vs
    · obtain ⟨us, x, vs, hfront, rfl⟩ := hany
      exact .inr ⟨x, vs, left, hfront.ends hts, fun rest => by
        rw [List.append_assoc, hfront.reads]⟩
    · refine .inl ⟨why false, fun rest => ?_⟩
      rcases h (ts ++ .punct '>' joint :: rest) with ⟨us, x, vs, hfront, heq⟩ | hwhy
      · rcases List.append_eq_append_iff.1 heq with ⟨ws, rfl, hws⟩ | ⟨ws, rfl, -⟩
        · cases ws with
          | nil => exact absurd ⟨ts ++ [], x, [], hfront, by simp⟩ hany
          | cons t ws =>
            obtain ⟨rfl, -⟩ := List.cons.inj hws
            exact absurd rfl (hfront.free hts)
        · exact absurd ⟨us, x, ws, hfront, rfl⟩ hany
      · rw [hwhy]
        cases ts <;> rfl

theorem ne_of_notMem {us ts ws : List Token} {joint : Bool} (h : ∀ joint, .punct '>' joint ∉ us) :
    us ≠ ts ++ .punct '>' joint :: ws := by
  rintro rfl
  exact h joint (by simp)

theorem exists_of_lifetimeAhead {ts : List Token} (h : lifetimeAhead ts = true) :
    ∃ i rest, ts = .punct '\'' true :: .ident i :: rest := by
  unfold lifetimeAhead at h
  split at h
  · exact ⟨_, _, rfl⟩
  · cases h

theorem run_lifetime_of_not {ts : List Token} (h : lifetimeAhead ts = false)
    (left : Option Delimiter) :
    lifetime ⟨ts, left⟩ = .error (.expected [.lifetime] ts.isEmpty) := by
  unfold lifetime
  rw [run_bind, run_remaining]
  dsimp only
  split
  · cases h
  · rfl

theorem confined_lifetime : Confined (fun _ => True) lifetime := by
  refine confined_of_front (fun atEnd => .expected [.lifetime] atEnd) fun ts => ?_
  cases hts : lifetimeAhead ts with
  | true =>
    obtain ⟨i, rest, rfl⟩ := exists_of_lifetimeAhead hts
    refine .inl ⟨[.punct '\'' true, .ident i], i, rest, ⟨trivial, .flat rfl (.flat rfl .nil),
      fun _ => ne_of_notMem (by simp), fun h => (h.of_cons rfl).of_cons rfl, fun _ _ => rfl⟩, rfl⟩
  | false => exact .inr (run_lifetime_of_not hts)

theorem confined_lifetime? : Confined (fun _ => True) lifetime? :=
  (confined_ahead sees_lifetimeAhead).bind fun _ _ => confined_ite
    (fun _ => confined_lifetime.bind fun _ _ => confined_pure trivial)
    fun _ => confined_pure trivial

theorem literal_cases (ts : List Token) : (∃ text rest, ts = .literal text :: rest) ∨
    (∃ i rest, ts = .ident i :: rest) ∨
    (∃ joint text rest, ts = .punct '-' joint :: .literal text :: rest) ∨
    ∀ left, literal ⟨ts, left⟩ = .error (.expected [.expression] ts.isEmpty) := by
  unfold literal
  simp only [run_bind, run_remaining]
  split
  · exact .inl ⟨_, _, rfl⟩
  · exact .inr (.inr (.inl ⟨_, _, _, rfl⟩))
  · exact .inr (.inl ⟨_, _, rfl⟩)
  · exact .inr (.inr (.inr fun _ => rfl))

theorem confined_literal : Confined (fun _ => True) literal := by
  refine confined_of_front (fun atEnd => .expected [.expression] atEnd) fun ts => ?_
  rcases literal_cases ts with ⟨text, rest, rfl⟩ | ⟨i, rest, rfl⟩ | ⟨joint, text, rest, rfl⟩ | hwhy
  · exact .inl ⟨[.literal text], text, rest, ⟨trivial, .flat rfl .nil,
      fun _ => ne_of_notMem (by simp), fun h => h.of_cons rfl, fun _ _ => rfl⟩, rfl⟩
  · exact .inl ⟨[.ident i], i.word, rest, ⟨trivial, .flat rfl .nil,
      fun _ => ne_of_notMem (by simp), fun h => h.of_cons rfl, fun _ _ => rfl⟩, rfl⟩
  · have hpaired : Paired [.punct '-' joint, .literal text] := by
      cases joint with
      | true => exact .minus .nil
      | false => exact .flat rfl (.flat rfl .nil)
    exact .inl ⟨_, "-" ++ text, rest, ⟨trivial, hpaired,
      fun _ => ne_of_notMem (by simp), fun h => h.of_minus, fun _ _ => rfl⟩, rfl⟩
  · exact .inr hwhy

end Tokens

/-! Operators -/




section Operators

/-- An operator of which no character is that of an angle bracket or of an arrow. -/
def IsFlat (cs : List Char) : Prop := ∀ c ∈ cs, c ≠ '<' ∧ c ≠ '>' ∧ c ≠ '-'

instance (cs : List Char) : Decidable (IsFlat cs) := List.decidableBAll _ _

theorem IsFlat.token {cs : List Char} (h : IsFlat cs) {c : Char} (hc : c ∈ cs) (joint : Bool) :
    (Token.punct c joint).isFlat = true := by
  obtain ⟨hopen, hclose, hdash⟩ := h c hc
  simp [Token.isFlat, hopen, hclose, hdash]

theorem exists_flat_of_go {cs : List Char} (h : IsFlat cs) {ts : List Token}
    (hgo : opAhead.go cs ts = true) :
    ∃ us, (∀ t ∈ us, t.isFlat = true) ∧ ts = us ++ dropOp cs ts := by
  induction cs generalizing ts with
  | nil => cases hgo
  | cons c more ih =>
    match more, ts with
    | [], .punct d joint :: ts =>
      obtain rfl : c = d := by simpa [opAhead.go] using hgo
      exact ⟨[.punct c joint], by simpa using h.token (by simp) joint, by simp [dropOp]⟩
    | d :: more, .punct e true :: ts =>
      obtain ⟨rfl, hmore⟩ : c = e ∧ opAhead.go (d :: more) ts = true := by
        simpa [opAhead.go] using hgo
      obtain ⟨us, hus, heq⟩ := ih (fun b hb => h b (List.mem_cons_of_mem c hb)) hmore
      exact ⟨.punct c true :: us, by simpa using ⟨h.token (by simp) true, hus⟩,
        by simpa [dropOp] using heq⟩
    | _ :: _, .punct _ false :: _ => cases hgo

/-- A flat operator in front of a closing bracket does not have that bracket. -/
theorem exists_flat_of_go_close {cs : List Char} (h : IsFlat cs) {ts : List Token} {joint : Bool}
    {rest : List Token} (hgo : opAhead.go cs (ts ++ .punct '>' joint :: rest) = true) :
    ∃ us vs, (∀ t ∈ us, t.isFlat = true) ∧ ts = us ++ vs ∧
      ∀ rest, dropOp cs (ts ++ .punct '>' joint :: rest) = vs ++ .punct '>' joint :: rest := by
  induction cs generalizing ts with
  | nil => cases hgo
  | cons c more ih =>
    have hclose := (h c (by simp)).2.1
    match more, ts with
    | [], [] =>
      obtain rfl : c = '>' := by simpa [opAhead.go] using hgo
      exact absurd rfl hclose
    | _ :: _, [] =>
      cases joint <;> simp [opAhead.go, hclose] at hgo
    | [], .punct d joint' :: ts =>
      obtain rfl : c = d := by simpa [opAhead.go] using hgo
      exact ⟨[.punct c joint'], ts, by simpa using h.token (by simp) joint', rfl, fun _ => rfl⟩
    | d :: more, .punct e true :: ts =>
      obtain ⟨rfl, hmore⟩ : c = e ∧ opAhead.go (d :: more) (ts ++ .punct '>' joint :: rest) = true := by
        simpa [opAhead.go] using hgo
      obtain ⟨us, vs, hus, rfl, hdrop⟩ := ih (fun b hb => h b (List.mem_cons_of_mem c hb)) hmore
      exact ⟨.punct c true :: us, vs, by simpa using ⟨h.token (by simp) true, hus⟩, rfl,
        fun rest => hdrop rest⟩
    | _ :: _, .punct _ false :: _ => cases hgo

theorem paired_of_append {us vs : List Token} (hus : ∀ t ∈ us, t.isFlat = true)
    (h : Paired (us ++ vs)) : Paired vs := by
  induction us with
  | nil => exact h
  | cons t us ih => exact ih (fun u hu => hus u (by simp [hu])) (h.of_cons (hus t (by simp)))

theorem run_op_of_not {text : String} {ts : List Token} (h : opAhead text ts = false)
    (left : Option Delimiter) : op text ⟨ts, left⟩ = .error (.expected [.mark text] false) := by
  simp [op, h]
  rfl

theorem confined_op {text : String} (h : IsFlat text.toList) :
    Confined (fun _ => True) (op text) where
  takes {ts left x s} hrun := by
    cases hahead : opAhead text ts with
    | false =>
      rw [run_op_of_not hahead] at hrun
      cases hrun
    | true =>
      rw [run_op left hahead] at hrun
      cases hrun
      obtain ⟨us, hus, heq⟩ := exists_flat_of_go h hahead
      exact ⟨trivial, us, .of_flat hus, heq⟩
  settles {ts} hts joint left := by
    have hsees := sees_opAhead text (.inl fun hmem => (h _ hmem).2.1 rfl) ts hts joint
    cases hahead : opAhead text (ts ++ [.punct '>' joint]) with
    | false => exact .inl ⟨_, fun rest => run_op_of_not ((hsees rest []).trans hahead) left⟩
    | true =>
      obtain ⟨us, vs, hus, rfl, hdrop⟩ := exists_flat_of_go_close h hahead
      refine .inr ⟨(), vs, left, paired_of_append hus hts, fun rest => ?_⟩
      rw [run_op left ((hsees rest []).trans hahead), hdrop]

theorem exists_of_one {text : String} {c : Char} (htext : text.toList = [c]) {ts : List Token}
    (h : opAhead text ts = true) : ∃ joint rest, ts = .punct c joint :: rest := by
  obtain ⟨d, joint, ts, rfl⟩ := exists_punct_of_opAhead h
  obtain rfl : c = d := by simpa [opAhead, htext, opAhead.go] using h
  exact ⟨joint, ts, rfl⟩

theorem exists_of_two {text : String} {c d : Char} (htext : text.toList = [c, d])
    {ts : List Token} (h : opAhead text ts = true) :
    ∃ joint rest, ts = .punct c true :: .punct d joint :: rest := by
  obtain ⟨e, joint, ts, rfl⟩ := exists_punct_of_opAhead h
  rw [opAhead, htext] at h
  cases joint with
  | false => cases h
  | true =>
    match ts with
    | [] => simp [opAhead.go] at h
    | .ident i :: rest => simp [opAhead.go] at h
    | .literal text :: rest => simp [opAhead.go] at h
    | .group e inner :: rest => simp [opAhead.go] at h
    | .punct f joint :: rest =>
      obtain ⟨rfl, rfl⟩ : c = e ∧ d = f := by simpa [opAhead.go] using h
      exact ⟨joint, rest, rfl⟩

theorem confined_arrow : Confined (fun _ => True) (op "->") := by
  refine confined_of_front (fun _ => .expected [.mark "->"] false) fun ts => ?_
  cases hts : opAhead "->" ts with
  | true =>
    obtain ⟨joint, rest, rfl⟩ := exists_of_two rfl hts
    refine .inl ⟨[.punct '-' true, .punct '>' joint], (), rest, ⟨trivial, .arrow .nil, ?_, ?_,
      fun left rest => run_op left rfl⟩, rfl⟩
    · intro ts joint' ws hpaired heq
      match ts with
      | [] => cases heq
      | [t] =>
        cases heq
        obtain ⟨t, rest, heq, -⟩ := hpaired.of_dash
        cases heq
      | _ :: _ :: ts => simp at heq
    · intro vs h
      obtain ⟨t, rest, heq, hrest, -⟩ := h.of_dash
      cases heq
      exact hrest
  | false => exact .inr (run_op_of_not hts)

theorem sees_arrowAhead : Sees (opAhead "->") := by
  intro ts hts joint rest rest'
  cases hts with
  | nil => cases joint <;> rfl
  | @flat t ts ht _ =>
    match t with
    | .punct c true =>
      have hc : ('-' == c) = false := by
        rw [beq_eq_false_iff_ne]
        rintro rfl
        cases ht
      simp [opAhead, opAhead.go, hc]
    | .punct c false => rfl
    | .ident _ => simp
    | .literal _ => simp
    | .group _ _ => simp
  | minus _ => rfl
  | arrow _ => rfl
  | @angles joint _ _ _ _ _ => cases joint <;> rfl

theorem confined_op?_of {text : String} (hsees : Sees (opAhead text))
    (h : Confined (fun _ => True) (op text)) : Confined (fun _ => True) (op? text) :=
  (confined_ahead hsees).bind fun _ _ => confined_ite
    (fun _ => h.bind fun _ _ => confined_pure trivial) fun _ => confined_pure trivial

theorem confined_op? {text : String} (h : IsFlat text.toList) :
    Confined (fun _ => True) (op? text) :=
  confined_op?_of (sees_opAhead text (.inl fun hmem => (h _ hmem).2.1 rfl)) (confined_op h)

theorem confined_arrow? : Confined (fun _ => True) (op? "->") :=
  confined_op?_of sees_arrowAhead confined_arrow

end Operators

/-! Angle brackets -/

theorem op?_bind (text : String) (f : Bool → Parser β) :
    (op? text >>= f) =
      (ahead (opAhead text) >>= fun b => if b then op text >>= fun _ => f true else f false) := by
  have hop : op? text = (ahead (opAhead text) >>= fun b =>
      if b then op text >>= fun _ => pure true else pure false) := rfl
  rw [hop, bind_assoc]
  congr
  funext b
  cases b <;> simp

theorem ite_bind {c : Prop} [Decidable c] (p q : Parser α) (f : α → Parser β) :
    ((if c then p else q) >>= f) = if c then p >>= f else q >>= f := by
  split <;> rfl

section Angles

variable {post : α → Prop} {post' : β → Prop} {p : Parser α} {k : α → Parser β}

theorem exists_of_op {text : String} {ts : List Token} {left : Option Delimiter} {x : Unit}
    {s : Input} (h : op text ⟨ts, left⟩ = .ok (x, s)) :
    opAhead text ts = true ∧ s = ⟨dropOp text.toList ts, left⟩ := by
  cases hahead : opAhead text ts with
  | false =>
    rw [run_op_of_not hahead] at h
    cases h
  | true =>
    rw [run_op left hahead] at h
    cases h
    exact ⟨rfl, rfl⟩

theorem exists_of_run_bind {f : α → Parser β} {s s' : Input} {y : β}
    (h : (p >>= f) s = .ok (y, s')) : ∃ x mid, p s = .ok (x, mid) ∧ f x mid = .ok (y, s') := by
  rw [run_bind] at h
  split at h
  · exact ⟨_, _, ‹_›, h⟩
  · cases h

/-- What is read between two angle brackets ends at the second one, and so nothing behind that
matters to it. -/
theorem Confined.run_angles (hp : Confined post p) (k : α → Parser β) {inner : List Token}
    (hinner : Paired inner) (joint joint' : Bool) (left : Option Delimiter) :
    (∃ why, ∀ rest, (op "<" >>= fun _ => p >>= fun x => op ">" >>= fun _ => k x)
      ⟨.punct '<' joint :: (inner ++ .punct '>' joint' :: rest), left⟩ = .error why) ∨
    ∃ x left', post x ∧ ∀ rest, (op "<" >>= fun _ => p >>= fun x => op ">" >>= fun _ => k x)
      ⟨.punct '<' joint :: (inner ++ .punct '>' joint' :: rest), left⟩ = k x ⟨rest, left'⟩ := by
  have hopen : ∀ rest, op "<" ⟨.punct '<' joint :: (inner ++ .punct '>' joint' :: rest), left⟩ =
      .ok ((), ⟨inner ++ .punct '>' joint' :: rest, left⟩) := fun rest => run_op left rfl
  rcases hp.settles hinner joint' left with ⟨why, hwhy⟩ | ⟨x, us, left', hus, hx⟩
  · exact .inl ⟨why, fun rest => by rw [run_bind, hopen]; simp only [run_bind, hwhy]⟩
  · have hrun : ∀ rest, (op "<" >>= fun _ => p >>= fun x => op ">" >>= fun _ => k x)
        ⟨.punct '<' joint :: (inner ++ .punct '>' joint' :: rest), left⟩ =
          (op ">" >>= fun _ => k x) ⟨us ++ .punct '>' joint' :: rest, left'⟩ := fun rest => by
      rw [run_bind, hopen]
      simp only [run_bind, hx]
    cases us with
    | nil =>
      refine .inr ⟨x, left', (hp.takes (hx [])).1, fun rest => ?_⟩
      rw [hrun, run_bind, List.nil_append, run_op left' rfl]
      rfl
    | cons t us =>
      have hahead : ∀ rest, opAhead ">" (t :: us ++ rest) = false := fun rest => by
        refine Bool.eq_false_iff.2 fun h => ?_
        obtain ⟨joint, rest, heq⟩ := exists_of_one (c := '>') rfl h
        obtain ⟨rfl, -⟩ := List.cons.inj heq
        exact hus.not_close
      exact .inl ⟨.expected [.mark ">"] false, fun rest => by
        rw [hrun, run_bind, run_op_of_not (hahead _)]⟩

theorem Confined.angles (hp : Confined post p) (hk : ∀ x, post x → Confined post' (k x)) :
    Confined post' (op "<" >>= fun _ => p >>= fun x => op ">" >>= fun _ => k x) where
  takes {ts left y s} hrun := by
    obtain ⟨_, mid, hopen, hrun⟩ := exists_of_run_bind hrun
    obtain ⟨hahead, rfl⟩ := exists_of_op hopen
    obtain ⟨joint, ts, rfl⟩ := exists_of_one (c := '<') rfl hahead
    obtain ⟨x, ⟨inner, left'⟩, hx, hrun⟩ := exists_of_run_bind hrun
    obtain ⟨hpost, us, hus, heq⟩ := hp.takes hx
    obtain ⟨_, mid, hclose, hrun⟩ := exists_of_run_bind hrun
    obtain ⟨hahead, rfl⟩ := exists_of_op hclose
    obtain ⟨joint', rest, rfl⟩ := exists_of_one (c := '>') rfl hahead
    obtain ⟨hy, vs, hvs, hrest⟩ := (hk x hpost).takes hrun
    refine ⟨hy, .punct '<' joint :: (us ++ .punct '>' joint' :: vs), .angles hus hvs, ?_⟩
    obtain rfl : ts = us ++ .punct '>' joint' :: rest := heq
    obtain rfl : rest = vs ++ s.tokens := hrest
    simp
  settles {ts} hts joint left := by
    have hsees := sees_opAhead "<" (.inr rfl) ts hts joint
    cases hopen : opAhead "<" (ts ++ [.punct '>' joint]) with
    | false =>
      exact .inl ⟨.expected [.mark "<"] false, fun rest => by
        rw [run_bind, run_op_of_not ((hsees rest []).trans hopen)]⟩
    | true =>
      cases ts with
      | nil => cases hopen
      | cons t ts =>
        obtain ⟨joint', rest, heq⟩ := exists_of_one (c := '<') rfl hopen
        obtain ⟨rfl, -⟩ := List.cons.inj heq
        obtain ⟨inner, joint'', outer, rfl, hinner, houter⟩ := hts.of_open
        have hassoc : ∀ rest, .punct '<' joint' :: (inner ++ .punct '>' joint'' :: outer) ++
            .punct '>' joint :: rest = .punct '<' joint' :: (inner ++ .punct '>' joint'' ::
              (outer ++ .punct '>' joint :: rest)) := fun rest => by simp
        rcases hp.run_angles k hinner joint' joint'' left with ⟨why, hwhy⟩ | ⟨x, left', hx, hrun⟩
        · exact .inl ⟨why, fun rest => by rw [hassoc, hwhy]⟩
        · exact ((hk x hx).settles houter joint left').of_eq fun rest => by rw [hassoc, hrun]

end Angles

end Bindery.Source.Parser
