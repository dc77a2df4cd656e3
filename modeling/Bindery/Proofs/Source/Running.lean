import Bindery.Source.Reading
import Mathlib

/-!
# Running parsers

What the steps of a parser do to given tokens. With these equations a parser is run on tokens that
are known only in part: `Reads p ts x rest` says that it makes `x` of `ts` up to `rest`.
-/
namespace Bindery.Source

variable {α β : Type}

/-! What comes next. A word is an identifier token, so its lemmas come first. -/

section Ahead

variable {w v : String} {d e : Delimiter} {c : Char} {joint : Bool} {text : String} {i : Ident}
  {inner ts : List Token}

@[simp] theorem wordAhead_nil : wordAhead w [] = false := rfl

@[simp] theorem wordAhead_word : wordAhead w (.word v :: ts) = (v == w) := by
  simp [wordAhead, Token.word, Bool.beq_eq_decide_eq]

@[simp] theorem wordAhead_ident : wordAhead w (.ident i :: ts) = (i == ⟨w, false⟩) := rfl

@[simp] theorem wordAhead_punct : wordAhead w (.punct c joint :: ts) = false := rfl

@[simp] theorem wordAhead_literal : wordAhead w (.literal text :: ts) = false := rfl

@[simp] theorem wordAhead_group : wordAhead w (.group d inner :: ts) = false := rfl

@[simp] theorem identAhead_nil : identAhead [] = false := rfl

@[simp] theorem identAhead_word :
    identAhead (.word w :: ts) = !Ident.isKeyword ⟨w, false⟩ := rfl

@[simp] theorem identAhead_ident : identAhead (.ident i :: ts) = !Ident.isKeyword i := rfl

@[simp] theorem identAhead_punct : identAhead (.punct c joint :: ts) = false := rfl

@[simp] theorem identAhead_literal : identAhead (.literal text :: ts) = false := rfl

@[simp] theorem identAhead_group : identAhead (.group d inner :: ts) = false := rfl

@[simp] theorem groupAhead_nil : groupAhead d [] = false := rfl

@[simp] theorem groupAhead_word : groupAhead d (.word w :: ts) = false := rfl

@[simp] theorem groupAhead_ident : groupAhead d (.ident i :: ts) = false := rfl

@[simp] theorem groupAhead_punct : groupAhead d (.punct c joint :: ts) = false := rfl

@[simp] theorem groupAhead_literal : groupAhead d (.literal text :: ts) = false := rfl

@[simp] theorem groupAhead_group : groupAhead d (.group e inner :: ts) = (d == e) := rfl

end Ahead

namespace Parser

/-! Steps -/

@[simp] theorem run_pure (x : α) (s : Input) : (pure x : Parser α) s = .ok (x, s) := rfl

@[simp] theorem run_ite (c : Prop) [Decidable c] (p q : Parser α) (s : Input) :
    (if c then p else q) s = if c then p s else q s := by
  split <;> rfl

@[simp] theorem run_remaining (s : Input) : remaining s = .ok (s.tokens, s) := rfl

@[simp] theorem run_get (s : Input) : (get : Parser Input) s = .ok (s, s) := rfl

@[simp] theorem run_set (s s' : Input) : (set s : Parser Unit) s' = .ok ((), s) := rfl

@[simp] theorem run_continueAt (ts : List Token) (s : Input) :
    continueAt ts s = .ok ((), ⟨ts, s.leftIn⟩) := rfl

@[simp] theorem run_ahead (q : List Token → Bool) (s : Input) :
    ahead q s = .ok (q s.tokens, s) := rfl

@[simp] theorem run_second (q : List Token → Bool) (s : Input) :
    second q s = .ok (q (pastTree s.tokens), s) := rfl

@[simp] theorem run_third (q : List Token → Bool) (s : Input) :
    third q s = .ok (q (pastTree (pastTree s.tokens)), s) := rfl

@[simp] theorem run_atEnd (s : Input) : atEnd s = .ok (s.tokens.isEmpty, s) := rfl

/-! Operators. Those of one character are told by it, joint or not. -/

section Operators

variable (op : String) (ts : List Token)

@[simp] theorem opAhead_nil : opAhead op [] = false := by
  unfold opAhead opAhead.go
  split <;> simp_all

@[simp] theorem opAhead_ident (i : Ident) : opAhead op (.ident i :: ts) = false := by
  unfold opAhead opAhead.go
  split <;> simp_all

@[simp] theorem opAhead_literal (text : String) : opAhead op (.literal text :: ts) = false := by
  unfold opAhead opAhead.go
  split <;> simp_all

@[simp] theorem opAhead_group (d : Delimiter) (inner : List Token) :
    opAhead op (.group d inner :: ts) = false := by
  unfold opAhead opAhead.go
  split <;> simp_all

@[simp] theorem opAhead_word (w : String) : opAhead op (.word w :: ts) = false :=
  opAhead_ident op ts _

variable {op ts} in
theorem head?_of_opAhead {c : Char} {joint : Bool} (h : opAhead op (.punct c joint :: ts) = true) :
    op.toList.head? = some c := by
  unfold opAhead opAhead.go at h
  split at h
  · cases h
  · simp_all
  · simp_all
  · simp_all

variable {op ts} in
theorem exists_punct_of_opAhead (h : opAhead op ts = true) :
    ∃ c joint rest, ts = .punct c joint :: rest := by
  match ts with
  | [] => simp at h
  | .ident i :: rest => simp at h
  | .literal text :: rest => simp at h
  | .group d inner :: rest => simp at h
  | .punct c joint :: rest => exact ⟨c, joint, rest, rfl⟩

end Operators

/-- What is behind an operator. -/
def dropOp : List Char → List Token → List Token
  | _ :: more, _ :: rest => dropOp more rest
  | _, ts => ts

theorem drop_length_eq_dropOp (op : String) (ts : List Token) :
    ts.drop op.length = dropOp op.toList ts := by
  rw [← String.length_toList]
  generalize op.toList = cs
  induction cs generalizing ts with
  | nil => cases ts <;> rfl
  | cons c more ih =>
    cases ts with
    | nil => simp [dropOp]
    | cons t rest => simpa [dropOp] using ih rest

variable (left : Option Delimiter)

@[simp] theorem run_op {op : String} {ts : List Token} (h : opAhead op ts = true) :
    Parser.op op ⟨ts, left⟩ = .ok ((), ⟨dropOp op.toList ts, left⟩) := by
  rw [Parser.op, ← drop_length_eq_dropOp]
  simp [h]

@[simp] theorem run_op? (op : String) (ts : List Token) : op? op ⟨ts, left⟩ =
    if opAhead op ts then .ok (true, ⟨dropOp op.toList ts, left⟩)
    else .ok (false, ⟨ts, left⟩) := by
  rw [op?]
  by_cases h : opAhead op ts = true
  · simp [h]
  · simp [h]

@[simp] theorem run_word? (w : String) (ts : List Token) : word? w ⟨ts, left⟩ =
    if wordAhead w ts then .ok (true, ⟨ts.tail, left⟩) else .ok (false, ⟨ts, left⟩) := by
  rw [word?]
  by_cases h : wordAhead w ts = true
  · simp [word, h]
  · simp [h]

@[simp] theorem run_word {w : String} {ts : List Token} (h : wordAhead w ts = true) :
    word w ⟨ts, left⟩ = .ok ((), ⟨ts.tail, left⟩) := by
  simp [word, h]

@[simp] theorem run_ident {i : Ident} (h : Ident.isKeyword i = false) (rest : List Token) :
    ident ⟨.ident i :: rest, left⟩ = .ok (i, ⟨rest, left⟩) := by
  simp [ident, h]

@[simp] theorem run_anyWord (i : Ident) (rest : List Token) :
    anyWord ⟨.ident i :: rest, left⟩ = .ok (i, ⟨rest, left⟩) := rfl

@[simp] theorem run_lifetime (i : Ident) (rest : List Token) :
    Parser.lifetime ⟨.punct '\'' true :: .ident i :: rest, left⟩ = .ok (i, ⟨rest, left⟩) := rfl

@[simp] theorem run_literal (text : String) (rest : List Token) :
    literal ⟨.literal text :: rest, left⟩ = .ok (text, ⟨rest, left⟩) := rfl

@[simp] theorem run_anyGroup (d : Delimiter) (inner rest : List Token) :
    anyGroup ⟨.group d inner :: rest, left⟩ = .ok ((d, inner), ⟨rest, left⟩) := rfl

/-! Whole parsers -/

/-- The parser makes `x` of the tokens up to `rest`, and leaves nothing over in any group. -/
def Reads (p : Parser α) (ts : List Token) (x : α) (rest : List Token) : Prop :=
  ∀ left, p ⟨ts, left⟩ = .ok (x, ⟨rest, left⟩)

theorem Reads.run {p : Parser α} {ts rest : List Token} {x : α} (h : Reads p ts x rest)
    (left : Option Delimiter) : p ⟨ts, left⟩ = .ok (x, ⟨rest, left⟩) := h left

theorem Reads.bind {p : Parser α} {f : α → Parser β} {ts mid rest : List Token} {x : α} {y : β}
    (hp : Reads p ts x mid) (hf : Reads (f x) mid y rest) : Reads (p >>= f) ts y rest := by
  intro left
  rw [run_bind, hp.run]
  exact hf left

theorem reads_pure (x : α) (ts : List Token) : Reads (pure x) ts x ts := fun _ => rfl

theorem reads_remaining (ts : List Token) : Reads remaining ts ts ts := fun _ => rfl

theorem reads_ahead (q : List Token → Bool) (ts : List Token) : Reads (ahead q) ts (q ts) ts :=
  fun _ => rfl

theorem reads_second (q : List Token → Bool) (ts : List Token) :
    Reads (second q) ts (q (pastTree ts)) ts := fun _ => rfl

theorem runAll_of_reads {p : Parser α} {ts : List Token} {x : α} (h : Reads p ts x []) :
    runAll p ts = .ok x := by
  unfold runAll StateT.run
  rw [h.run]
  rfl

theorem reads_delimited {p : Parser α} {inner : List Token} {x : α} (h : Reads p inner x [])
    (d : Delimiter) (rest : List Token) : Reads (delimited d p) (.group d inner :: rest) x rest := by
  have hgroup : ∀ left, group d ⟨.group d inner :: rest, left⟩ = .ok (inner, ⟨rest, left⟩) := by
    simp [group]
  have hmodify : ∀ f s, (modify f : Parser Unit) s = .ok ((), f s) := fun _ _ => rfl
  unfold Reads delimited inside
  simp [hgroup, h.run, hmodify]

section Lists

variable {tok : α → List Token} {xs : List α} {rest : List Token}

/-- Elements that are read one after the other, each in front of tokens that may follow one. -/
theorem reads_upTo {p : Parser (Option α)} (follow : List Token → Prop)
    (hstep : ∀ x ∈ xs, ∀ more, follow more → Reads p (tok x ++ more) (some x) more)
    (hnext : ∀ x ∈ xs, ∀ more, follow (tok x ++ more)) (hrest : follow rest)
    (hend : Reads p rest none rest) {n : Nat} (hn : xs.length < n) :
    Reads (upTo n p) (xs.flatMap tok ++ rest) xs rest := by
  induction xs generalizing n with
  | nil =>
    obtain ⟨n, rfl⟩ := Nat.exists_eq_add_of_lt hn
    simp [Reads, upTo, hend.run]
  | cons x others ih =>
    obtain ⟨n, rfl⟩ : ∃ k, n = k + 1 := ⟨n - 1, by simp at hn; omega⟩
    have hfollow : follow (others.flatMap tok ++ rest) := by
      cases others with
      | nil => exact hrest
      | cons y ys =>
        rw [List.flatMap_cons, List.append_assoc]
        exact hnext y (by simp) _
    have hx := hstep x (by simp) _ hfollow
    have hothers := ih (n := n) (fun y hy => hstep y (List.mem_cons_of_mem x hy))
      (fun y hy => hnext y (List.mem_cons_of_mem x hy)) (by simpa using hn)
    rw [Reads, upTo, List.flatMap_cons, List.append_assoc]
    simp [hx.run, hothers.run]

theorem length_le_length_flatMap (h : ∀ x ∈ xs, tok x ≠ []) :
    xs.length ≤ (xs.flatMap tok).length := by
  induction xs with
  | nil => simp
  | cons x others ih =>
    have hx := List.length_pos_iff.2 (h x (by simp))
    have hothers := ih fun y hy => h y (List.mem_cons_of_mem x hy)
    rw [List.flatMap_cons, List.length_append, List.length_cons]
    omega

theorem reads_many {p : Parser (Option α)} (follow : List Token → Prop)
    (hstep : ∀ x ∈ xs, ∀ more, follow more → Reads p (tok x ++ more) (some x) more)
    (hnext : ∀ x ∈ xs, ∀ more, follow (tok x ++ more)) (hrest : follow rest)
    (hend : Reads p rest none rest) (hne : ∀ x ∈ xs, tok x ≠ []) :
    Reads (many p) (xs.flatMap tok ++ rest) xs rest := by
  have hlength := length_le_length_flatMap hne
  have hn : xs.length < (xs.flatMap tok ++ rest).length + 1 := by
    rw [List.length_append]
    omega
  exact (reads_remaining _).bind (reads_upTo follow hstep hnext hrest hend hn)

/-- Elements up to the end. -/
theorem reads_manyToEnd {p : Parser α} (h : ∀ x ∈ xs, ∀ more, Reads p (tok x ++ more) x more)
    (hne : ∀ x ∈ xs, tok x ≠ []) :
    Reads (many do
      if ← atEnd then return none
      return some (← p)) (xs.flatMap tok) xs [] := by
  rw [← List.append_nil (xs.flatMap tok)]
  refine reads_many (fun _ => True) (fun x hx more _ => ?_) (fun _ _ _ => trivial) trivial
    (fun _ => rfl) hne
  simp [Reads, hne x hx, (h x hx more).run]

end Lists

end Parser

end Bindery.Source
