import Bindery.Proofs.Source.Enclosed
import Bindery.Proofs.Steps

/-!
# Two runs that come out alike

Tokens that differ in a part nobody looks at are read in step: both runs end with the same fault, or
with related results in front of what follows. One rule for each way parsers are put together.
-/
namespace Bindery.Source.Parser

variable {α α' β β' : Type}

/-- Two runs end with the same fault, or with related results and the same group left over, up to
the given tokens. -/
def Alike (R : α → α' → Prop) (p : Parser α) (ts rest : List Token) (q : Parser α')
    (us more : List Token) : Prop := ∀ left,
  (∃ why, p ⟨ts, left⟩ = .error why ∧ q ⟨us, left⟩ = .error why) ∨
    ∃ x y left', R x y ∧ p ⟨ts, left⟩ = .ok (x, ⟨rest, left'⟩) ∧
      q ⟨us, left⟩ = .ok (y, ⟨more, left'⟩)

section Alike

variable {R : α → α' → Prop} {S : β → β' → Prop} {p : Parser α} {q : Parser α'}
  {f : α → Parser β} {h : α' → Parser β'} {ts mid rest us mid' more : List Token}

theorem alike_pure {x : α} {y : α'} (hxy : R x y) : Alike R (pure x) ts ts (pure y) us us :=
  fun left => .inr ⟨x, y, left, hxy, rfl, rfl⟩

theorem Alike.bind (hpq : Alike R p ts mid q us mid')
    (hfh : ∀ x y, R x y → Alike S (f x) mid rest (h y) mid' more) :
    Alike S (p >>= f) ts rest (q >>= h) us more := by
  intro left
  rcases hpq left with ⟨why, hp, hq⟩ | ⟨x, y, left', hxy, hp, hq⟩
  · exact .inl ⟨why, by rw [run_bind, hp], by rw [run_bind, hq]⟩
  · rw [run_bind, run_bind, hp, hq]
    exact hfh x y hxy left'

/-- Each parser goes on as another one does. -/
theorem Alike.of_eq {p' : Parser α} {q' : Parser α'} {ts' us' : List Token}
    (hpq : Alike R p' ts' rest q' us' more) (hp : ∀ left, p ⟨ts, left⟩ = p' ⟨ts', left⟩)
    (hq : ∀ left, q ⟨us, left⟩ = q' ⟨us', left⟩) : Alike R p ts rest q us more := by
  intro left
  rw [hp, hq]
  exact hpq left

/-- What each parser makes of its first tokens is known. -/
theorem Alike.after {x : α} {y : α'} (hfh : Alike S (f x) mid rest (h y) mid' more)
    (hp : Reads p ts x mid) (hq : Reads q us y mid') :
    Alike S (p >>= f) ts rest (q >>= h) us more :=
  hfh.of_eq (fun left => by rw [run_bind, hp.run]) fun left => by rw [run_bind, hq.run]

theorem Alike.mono {R' : α → α' → Prop} (hpq : Alike R p ts rest q us more)
    (hmono : ∀ x y, R x y → R' x y) : Alike R' p ts rest q us more := by
  intro left
  rcases hpq left with hwhy | ⟨x, y, left', hxy, hp, hq⟩
  · exact .inl hwhy
  · exact .inr ⟨x, y, left', hmono x y hxy, hp, hq⟩

theorem Alike.map {g : α → β} {k : α' → β'} (hpq : Alike R p ts rest q us more)
    (hgk : ∀ x y, R x y → S (g x) (k y)) : Alike S (g <$> p) ts rest (k <$> q) us more := by
  intro left
  rw [run_map, run_map]
  rcases hpq left with ⟨why, hp, hq⟩ | ⟨x, y, left', hxy, hp, hq⟩
  · rw [hp, hq]
    exact .inl ⟨why, rfl, rfl⟩
  · rw [hp, hq]
    exact .inr ⟨g x, k y, left', hgk x y hxy, rfl, rfl⟩

theorem alike_of_ends {follow : List Token → Prop} (hp : Ends follow p ts) (hrest : follow rest)
    (hmore : follow more) : Alike Eq p (ts ++ rest) rest p (ts ++ more) more := by
  intro left
  rcases hp left with ⟨why, hwhy⟩ | ⟨x, left', hx⟩
  · exact .inl ⟨why, hwhy rest hrest, hwhy more hmore⟩
  · exact .inr ⟨x, x, left', rfl, hx rest hrest, hx more hmore⟩

/-- What is made of all tokens. -/
theorem Alike.runAll (hpq : Alike R p ts [] q us []) :
    (∃ why, runAll p ts = .error why ∧ runAll q us = .error why) ∨
      ∃ x y, R x y ∧ runAll p ts = .ok x ∧ runAll q us = .ok y := by
  unfold Parser.runAll StateT.run
  rcases hpq none with ⟨why, hp, hq⟩ | ⟨x, y, left, hxy, hp, hq⟩
  · rw [hp, hq]
    exact .inl ⟨why, rfl, rfl⟩
  · rw [hp, hq]
    cases left with
    | none => exact .inr ⟨x, y, hxy, rfl, rfl⟩
    | some d => exact .inl ⟨.leftover (some d), rfl, rfl⟩

end Alike

/-! Groups -/

/-- A group is read without a look behind it. -/
theorem ends_delimited (d : Delimiter) (p : Parser α) (inner : List Token) :
    Ends (fun _ => True) (delimited d p) [.group d inner] := by
  intro left
  simp only [List.cons_append, List.nil_append, run_delimited]
  cases p ⟨inner, left⟩ with
  | error why => exact .inl ⟨why, fun _ _ => rfl⟩
  | ok r => exact .inr ⟨r.1, _, fun _ _ => rfl⟩

theorem Alike.delimited {R : α → α' → Prop} {p : Parser α} {q : Parser α'}
    {inner inner' : List Token} (hpq : Alike R p inner [] q inner' []) (d : Delimiter)
    (rest more : List Token) : Alike R (Parser.delimited d p) (.group d inner :: rest) rest
      (Parser.delimited d q) (.group d inner' :: more) more := by
  intro left
  simp only [run_delimited]
  rcases hpq left with ⟨why, hp, hq⟩ | ⟨x, y, left', hxy, hp, hq⟩
  · rw [hp, hq]
    exact .inl ⟨why, rfl, rfl⟩
  · rw [hp, hq]
    exact .inr ⟨x, y, left', hxy, rfl, rfl⟩

/-! Lists -/

/-- Tokens that the parser reads in step, whatever permitted tokens follow them. -/
structure InStep (follow : List Token → Prop) (R : α → α → Prop) (p : Parser α)
    (ts us : List Token) : Prop where
  left_ne : ts ≠ []
  right_ne : us ≠ []
  alike : ∀ rest more, follow rest → follow more →
    Alike R p (ts ++ rest) rest p (us ++ more) more

section Lists

variable {follow : List Token → Prop} {R : α → α → Prop} {p : Parser α}
  {parts others : List (List Token)}

theorem left_length_le (h : List.Forall₂ (InStep follow R p) parts others) :
    parts.length ≤ parts.flatten.length := by
  have hle : parts.length ≤ (parts.flatMap id).length := length_le_length_flatMap fun ts hts =>
    let ⟨_, _, halike⟩ := exists_of_forall₂_right h.flip hts
    halike.left_ne
  simpa using hle

theorem right_length_le (h : List.Forall₂ (InStep follow R p) parts others) :
    others.length ≤ others.flatten.length := by
  have hle : others.length ≤ (others.flatMap id).length := length_le_length_flatMap fun us hus =>
    let ⟨_, _, halike⟩ := exists_of_forall₂_right h hus
    halike.right_ne
  simpa using hle

theorem run_upTo_succ (n : Nat) {ts : List Token} (hts : ts ≠ []) (left : Option Delimiter) :
    upTo (n + 1) (do
      if ← atEnd then return none
      return some (← p)) ⟨ts, left⟩ =
    (p >>= fun x => (x :: ·) <$> upTo n (do
      if ← atEnd then return none
      return some (← p))) ⟨ts, left⟩ := by
  simp [upTo, hts]
  cases p ⟨ts, left⟩ <;> simp

/-- Elements up to the end. -/
theorem alike_upTo (h : List.Forall₂ (InStep (fun _ => True) R p) parts others) {n m : Nat}
    (hn : parts.length < n) (hm : others.length < m) :
    Alike (List.Forall₂ R) (upTo n do
        if ← atEnd then return none
        return some (← p)) parts.flatten []
      (upTo m do
        if ← atEnd then return none
        return some (← p)) others.flatten [] := by
  induction h generalizing n m with
  | nil =>
    obtain ⟨n, rfl⟩ := Nat.exists_eq_add_of_lt hn
    obtain ⟨m, rfl⟩ := Nat.exists_eq_add_of_lt hm
    exact fun left => .inr ⟨[], [], left, .nil, rfl, rfl⟩
  | @cons ts us parts others hfirst _ ih =>
    obtain ⟨n, rfl⟩ : ∃ k, n = k + 1 := ⟨n - 1, by simp at hn; omega⟩
    obtain ⟨m, rfl⟩ : ∃ k, m = k + 1 := ⟨m - 1, by simp at hm; omega⟩
    have hlater := ih (n := n) (m := m) (by simpa using hn) (by simpa using hm)
    refine ((hfirst.alike _ _ trivial trivial).bind fun x y hxy =>
      hlater.map fun xs ys hall => .cons hxy hall).of_eq
      (run_upTo_succ n ?_) (run_upTo_succ m ?_)
    · simp [hfirst.left_ne]
    · simp [hfirst.right_ne]

theorem alike_manyToEnd (h : List.Forall₂ (InStep (fun _ => True) R p) parts others) :
    Alike (List.Forall₂ R) (many do
        if ← atEnd then return none
        return some (← p)) parts.flatten []
      (many do
        if ← atEnd then return none
        return some (← p)) others.flatten [] := by
  have hn := left_length_le h
  have hm := right_length_le h
  exact (alike_upTo h (Nat.lt_succ_of_le hn) (Nat.lt_succ_of_le hm)).of_eq (fun _ => rfl) fun _ => rfl

theorem run_separatedFrom_succ (n : Nat) {ts : List Token} (hts : ts ≠ []) (before : Bool)
    (left : Option Delimiter) : separatedFrom (n + 1) List.isEmpty "," p before ⟨ts, left⟩ =
    (p >>= fun x => ahead List.isEmpty >>= fun stopped =>
      if stopped then pure ([x], false)
      else op "," >>= fun _ => (fun r => (x :: r.1, r.2)) <$>
        separatedFrom n List.isEmpty "," p true) ⟨ts, left⟩ := by
  simp [separatedFrom, hts]

/-- Elements with a comma behind each. -/
theorem alike_separatedFrom (hfollow : ∀ ts, follow (.punct ',' false :: ts))
    (h : List.Forall₂ (InStep follow R p) parts others) (before : Bool) {n m : Nat}
    (hn : parts.length < n) (hm : others.length < m) :
    Alike (fun r r' => List.Forall₂ R r.1 r'.1 ∧ r.2 = r'.2)
      (separatedFrom n List.isEmpty "," p before) (commas true parts) []
      (separatedFrom m List.isEmpty "," p before) (commas true others) [] := by
  induction h generalizing n m before with
  | nil =>
    obtain ⟨n, rfl⟩ := Nat.exists_eq_add_of_lt hn
    obtain ⟨m, rfl⟩ := Nat.exists_eq_add_of_lt hm
    exact fun left => .inr ⟨([], before), ([], before), left, ⟨.nil, rfl⟩, rfl, rfl⟩
  | @cons ts us parts others hfirst _ ih =>
    obtain ⟨n, rfl⟩ : ∃ k, n = k + 1 := ⟨n - 1, by simp at hn; omega⟩
    obtain ⟨m, rfl⟩ : ∃ k, m = k + 1 := ⟨m - 1, by simp at hm; omega⟩
    have hlater := ih true (n := n) (m := m) (by simpa using hn) (by simpa using hm)
    have hcomma : ∀ ts, Reads (op ",") (.punct ',' false :: ts) () ts := fun ts left =>
      run_op left rfl
    rw [commas_cons (.inr rfl), commas_cons (.inr rfl)]
    refine ((hfirst.alike _ _ (hfollow _) (hfollow _)).bind fun x y hxy =>
      .after (x := false) (y := false) ?_ (reads_ahead _ _) (reads_ahead _ _)).of_eq
      (run_separatedFrom_succ n ?_ before) (run_separatedFrom_succ m ?_ before)
    · exact .after (hlater.map fun r r' hr => ⟨.cons hxy hr.1, hr.2⟩) (hcomma _) (hcomma _)
    · simp
    · simp

theorem alike_listed (hfollow : ∀ ts, follow (.punct ',' false :: ts))
    (h : List.Forall₂ (InStep follow R p) parts others) :
    Alike (fun r r' => List.Forall₂ R r.1 r'.1 ∧ r.2 = r'.2) (listed p) (commas true parts) []
      (listed p) (commas true others) [] := by
  have hlength : ∀ parts : List (List Token), parts.length ≤ (commas true parts).length :=
    fun parts => by
      induction parts with
      | nil => exact Nat.le_refl 0
      | cons ts parts ih =>
        rw [commas_cons (.inr rfl)]
        simp only [List.length_append, List.length_cons]
        omega
  exact (alike_separatedFrom hfollow h false (Nat.lt_succ_of_le (hlength parts))
    (Nat.lt_succ_of_le (hlength others))).of_eq (fun _ => rfl) fun _ => rfl

end Lists

end Bindery.Source.Parser
