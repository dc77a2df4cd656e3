import Bindery.Json.SchemaReader
import Bindery.Proofs.Json.Schemas
import Bindery.Proofs.Json.Skipping

/-!
# Reading from text and from documents

Where a text holds a document, reading a record from the text gives what the document holds, and
ends where the document ends.
-/
namespace Bindery.Json

open Bindery.Text (Piece)

variable {α σ : Type} {text rest rest' : List Piece}

/-- Wherever a document can be read, the reader gives what `pick` takes from it. -/
def Agrees (r : Reader α) (d : Nat) (pick : Json → Except Mismatch α) : Prop :=
  ∀ ⦃text j rest⦄, Reads (value d) text j rest →
    ∀ x rest', Reads r text x rest' ↔ pick j = .ok x ∧ rest' = rest

theorem value_agrees (d : Nat) : Agrees (value d) d Except.ok := by
  intro text j rest h x rest'
  constructor
  · intro hx
    obtain ⟨rfl, rfl⟩ := hx.unique h
    exact ⟨rfl, rfl⟩
  · rintro ⟨hx, rfl⟩
    obtain rfl := Except.ok.inj hx
    exact h

theorem Agrees.map {β : Type} {r : Reader α} {d : Nat} {pick : Json → Except Mismatch α}
    (h : Agrees r d pick) (f : α → β) :
    Agrees (do return f (← r)) d fun j => (pick j).map f := by
  intro text j rest hj y rest'
  simp only [reads_bind, reads_pure]
  constructor
  · rintro ⟨x, mid, hx, rfl, rfl⟩
    obtain ⟨hpick, rfl⟩ := (h hj x mid).1 hx
    rw [hpick]
    exact ⟨rfl, rfl⟩
  · rintro ⟨hpick, rfl⟩
    cases hp : pick j with
    | error m =>
      rw [hp] at hpick
      cases hpick
    | ok x =>
      rw [hp] at hpick
      exact ⟨x, rest', (h hj x rest').2 ⟨hp, rfl⟩, Except.ok.inj hpick, rfl⟩

/-! Values without parts -/

theorem reads_refuse {expected : String} {c : Char} {x : α} :
    ¬ Reads (refuse expected c) text x rest := by
  unfold refuse
  intro h
  dsimp only at h
  split at h
  · simp at h
  · split at h
    · simp at h
    · simp at h

theorem reads_scalarAs {expected : String} {pick : Json → Except Mismatch α} {x : α} :
    Reads (scalarAs expected pick) text x rest ↔
      ∃ c j, front (past text) = some c ∧ c ≠ '[' ∧ c ≠ '\x7b' ∧
        Reads (scalar c) (past text) j rest ∧ pick j = .ok x := by
  unfold scalarAs
  rw [reads_past_bind]
  constructor
  · intro h
    split at h
    · exact absurd h reads_stop
    · exact absurd h reads_refuse
    · exact absurd h reads_refuse
    · rename_i c hlist hobject hc
      obtain ⟨j, mid, hj, h⟩ := reads_bind.1 h
      split at h
      · rename_i hpick
        obtain ⟨rfl, rfl⟩ := reads_pure.1 h
        exact ⟨c, j, hc, hlist, hobject, hj, hpick⟩
      · exact absurd h reads_mismatched
  · rintro ⟨c, j, hc, hlist, hobject, hj, hpick⟩
    rw [hc]
    split
    · simp_all
    · simp_all
    · simp_all
    · rename_i heq
      obtain rfl := Option.some.inj heq
      refine reads_bind.2 ⟨j, rest, hj, ?_⟩
      rw [hpick]
      exact reads_pure.2 ⟨rfl, rfl⟩

def IsNumber : Json → Prop
  | .integer _ => True
  | .real _ => True
  | _ => False

/-- A document without parts. -/
def IsScalar : Json → Prop
  | .array _ => False
  | .object _ => False
  | _ => True

theorem Reads.realOf_isNumber {positive : Bool} {significand : Nat} {e : Int} {j : Json}
    (h : Reads (realOf positive significand e) text j rest) : IsNumber j := by
  unfold realOf at h
  split at h
  · obtain ⟨rfl, -⟩ := reads_pure.1 h
    trivial
  · exact absurd h reads_stop

theorem Reads.exponentPart_isNumber {positive : Bool} {significand : Nat} {scale : Int} {j : Json}
    (h : Reads (Json.exponentPart positive significand scale) text j rest) : IsNumber j := by
  have hdigits : ∀ up {text},
      Reads (Json.exponentDigits positive significand scale up) text j rest → IsNumber j := by
    intro up text h
    unfold Json.exponentDigits at h
    rw [reads_peek_bind] at h
    dsimp only at h
    split at h
    · simp at h
    · rw [reads_check] at h
      simp only [reads_bind, reads_get] at h
      obtain ⟨-, _, _, -, _, _, -, h⟩ := h
      split at h
      · exact h.realOf_isNumber
      · split at h
        · exact absurd h reads_throw
        · obtain ⟨rfl, -⟩ := reads_pure.1 h
          trivial
  unfold Json.exponentPart at h
  rw [reads_skip_bind, reads_peek_bind] at h
  dsimp only at h
  split at h
  · rw [reads_skip_bind, pure_bind] at h
    exact hdigits true h
  · rw [reads_skip_bind, pure_bind] at h
    exact hdigits false h
  · rw [pure_bind] at h
    exact hdigits true h

theorem Reads.fractionPart_isNumber {positive : Bool} {significand : Nat} {scale : Int} {j : Json}
    (h : Reads (Json.fractionPart positive significand scale) text j rest) : IsNumber j := by
  unfold Json.fractionPart at h
  rw [reads_skip_bind] at h
  obtain ⟨ds, mid, -, h⟩ := reads_bind.1 h
  dsimp only at h
  split at h
  · rw [reads_peek_bind] at h
    split at h <;> simp at h
  · rw [reads_peek_bind] at h
    split at h
    · exact h.exponentPart_isNumber
    · exact h.exponentPart_isNumber
    · exact h.realOf_isNumber

theorem Reads.isNumber {positive : Bool} {j : Json} (h : Reads (number positive) text j rest) :
    IsNumber j := by
  unfold number at h
  obtain ⟨ds, mid, -, h⟩ := reads_bind.1 h
  dsimp only at h
  split at h
  · rw [reads_peek_bind] at h
    split at h <;> simp at h
  · simp at h
  · rw [reads_peek_bind] at h
    split at h
    · exact h.fractionPart_isNumber
    · exact h.exponentPart_isNumber
    · exact h.exponentPart_isNumber
    · split at h
      · exact h.realOf_isNumber
      · split at h
        · obtain ⟨rfl, -⟩ := reads_pure.1 h
          trivial
        · split at h
          · exact h.realOf_isNumber
          · obtain ⟨rfl, -⟩ := reads_pure.1 h
            trivial

/-- What a value without parts is, as its first character tells. -/
theorem Reads.scalar_form {c : Char} {j : Json} (h : Reads (scalar c) text j rest) :
    IsScalar j ∧ (j = .null ↔ c = 'n') := by
  have hnumber : ∀ {j : Json}, IsNumber j → IsScalar j ∧ j ≠ .null := by
    rintro (_ | _ | _ | _ | _ | _ | _) hj
    all_goals first
      | exact hj.elim
      | exact ⟨trivial, by simp⟩
  unfold scalar at h
  split at h
  · obtain ⟨⟨⟩, mid, -, hend⟩ := reads_bind.1 (reads_skip_bind.1 h)
    obtain ⟨rfl, -⟩ := reads_pure.1 hend
    exact ⟨trivial, by simp⟩
  · obtain ⟨⟨⟩, mid, -, hend⟩ := reads_bind.1 (reads_skip_bind.1 h)
    obtain ⟨rfl, -⟩ := reads_pure.1 hend
    exact ⟨trivial, by simp⟩
  · obtain ⟨⟨⟩, mid, -, hend⟩ := reads_bind.1 (reads_skip_bind.1 h)
    obtain ⟨rfl, -⟩ := reads_pure.1 hend
    exact ⟨trivial, by simp⟩
  · obtain ⟨hscalar, hnull⟩ := hnumber (reads_skip_bind.1 h).isNumber
    exact ⟨hscalar, by simp [hnull]⟩
  · obtain ⟨s, mid, -, hend⟩ := reads_bind.1 (reads_skip_bind.1 h)
    obtain ⟨rfl, -⟩ := reads_pure.1 hend
    exact ⟨trivial, by simp⟩
  · rename_i hn _ _ _ _
    split at h
    · obtain ⟨hscalar, hnull⟩ := hnumber h.isNumber
      exact ⟨hscalar, iff_of_false hnull hn⟩
    · exact absurd h reads_stopAhead

theorem scalarAs_agrees {d : Nat} {expected : String} {pick : Json → Except Mismatch α}
    (hpick : ∀ j x, pick j = .ok x → IsScalar j) : Agrees (scalarAs expected pick) d pick := by
  intro text j rest h x rest'
  rw [reads_scalarAs]
  rw [value_eq, reads_valueWith] at h
  rcases h with ⟨item, xs, mid, -, hc, rfl, -, -⟩ | ⟨item, ms, mid, -, hc, rfl, -, -⟩ |
    ⟨c, hc, hlist, hobject, hj⟩
  · constructor
    · rintro ⟨c, j, hc', hlist, -⟩
      exact absurd (Option.some.inj (hc'.symm.trans hc)) hlist
    · exact fun h => (hpick _ _ h.1).elim
  · constructor
    · rintro ⟨c, j, hc', -, hobject, -⟩
      exact absurd (Option.some.inj (hc'.symm.trans hc)) hobject
    · exact fun h => (hpick _ _ h.1).elim
  · constructor
    · rintro ⟨c', j', hc', -, -, hj', hx⟩
      obtain rfl := Option.some.inj (hc.symm.trans hc')
      obtain ⟨rfl, rfl⟩ := hj.unique hj'
      exact ⟨hx, rfl⟩
    · rintro ⟨hx, rfl⟩
      exact ⟨c, j, hc, hlist, hobject, hj, hx⟩

/-! Lists -/

theorem itemsFrom_agrees {r : Reader α} {d n : Nat} {pick : Json → Except Mismatch α}
    (hr : Agrees r d pick) {first : Bool} {js : List Json}
    (h : Reads (itemsFrom (value d) n first) text js rest) (xs : List α) :
    Reads (itemsFrom r n first) text xs rest' ↔ js.mapM pick = .ok xs ∧ rest' = rest := by
  induction n generalizing text first js xs with
  | zero => exact absurd h reads_stop
  | succ n ih =>
    rw [reads_itemsFrom_succ] at h ⊢
    rcases h with ⟨rfl, hc, rfl⟩ | ⟨j, more, start, mid, rfl, ⟨hnext, hnone, hend⟩, hj, hmore⟩
    · rw [List.mapM_nil, pure_eq_ok_iff]
      constructor
      · rintro (⟨rfl, -, rfl⟩ | ⟨x, more, start, mid, -, ⟨hnext, -, hend⟩, -⟩)
        · exact ⟨rfl, rfl⟩
        · exact absurd hc (hnext.ne_close (by decide) hend)
      · rintro ⟨rfl, rfl⟩
        exact .inl ⟨rfl, hc, rfl⟩
    · rw [List.mapM_cons]
      simp only [bind_eq_ok_iff, pure_eq_ok_iff]
      constructor
      · rintro (⟨-, hc, -⟩ | ⟨x, xs, start', mid', rfl, ⟨hnext', -⟩, hx, hxs⟩)
        · exact absurd hc (hnext.ne_close (by decide) hend)
        · obtain rfl := hnext.unique hnext'
          obtain ⟨hpick, rfl⟩ := (hr hj x mid').1 hx
          obtain ⟨hpicks, rfl⟩ := (ih hmore xs).1 hxs
          exact ⟨⟨x, hpick, xs, hpicks, rfl⟩, rfl⟩
      · rintro ⟨⟨x, hpick, xs, hpicks, rfl⟩, rfl⟩
        exact .inr ⟨x, xs, start, mid, rfl, ⟨hnext, hnone, hend⟩, (hr hj x mid).2 ⟨hpick, rfl⟩,
          (ih hmore xs).2 ⟨hpicks, rfl⟩⟩

theorem items_agrees {r : Reader α} {d : Nat} {pick : Json → Except Mismatch α}
    (hr : Agrees r d pick) {js : List Json} (h : Reads (items (value d)) text js rest)
    (xs : List α) : Reads (items r) text xs rest' ↔ js.mapM pick = .ok xs ∧ rest' = rest := by
  rw [reads_items] at h ⊢
  exact itemsFrom_agrees hr h xs

/-- A list between its brackets. -/
theorem bracketed_agrees {r : Reader α} {d : Nat} {pick : Json → Except Mismatch α}
    (hr : Agrees r d pick) {js : List Json} {mid : List Piece}
    (h : Reads (items (value d)) text.tail js mid) (hclose : Reads closeList mid () rest)
    (xs : List α) :
    Reads (do skip; let xs ← items r; closeList; return xs : Reader (List α)) text xs rest' ↔
      js.mapM pick = .ok xs ∧ rest' = rest := by
  rw [reads_skip_bind]
  constructor
  · intro hread
    obtain ⟨ys, mid', hys, hend⟩ := reads_bind.1 hread
    obtain ⟨⟨⟩, mid'', hclose', hpure⟩ := reads_bind.1 hend
    obtain ⟨rfl, rfl⟩ := reads_pure.1 hpure
    obtain ⟨hpicks, rfl⟩ := (items_agrees hr h ys).1 hys
    exact ⟨hpicks, (hclose'.unique hclose).2⟩
  · rintro ⟨hpicks, rfl⟩
    refine reads_bind.2 ⟨xs, mid, (items_agrees hr h xs).2 ⟨hpicks, rfl⟩, ?_⟩
    exact reads_bind.2 ⟨(), rest', hclose, reads_pure.2 ⟨rfl, rfl⟩⟩

/-- A list that has just begun, or whose item has just ended, ends here if no items are left. -/
theorem closeList_of_items {r : Reader α} {n : Nat} {first : Bool} {xs : List α} {mid : List Piece}
    (h : Reads (itemsFrom r n first) text xs mid) (hclose : Reads closeList mid () rest) :
    Reads closeList text () rest' ↔ xs = [] ∧ rest' = rest := by
  cases n with
  | zero => exact absurd h reads_stop
  | succ n =>
    rw [reads_itemsFrom_succ] at h
    rw [reads_closeList] at hclose ⊢
    rcases h with ⟨rfl, hc, rfl⟩ | ⟨x, more, start, mid', rfl, ⟨hnext, -, hend⟩, -⟩
    · obtain ⟨-, rfl⟩ := hclose
      simp [hc, eq_comm]
    · simp [hnext.ne_close (by decide) hend]

/-! Options -/

/-- Null is what starts with its first letter. -/
theorem Reads.eq_null_iff {d : Nat} {j : Json} (h : Reads (value d) text j rest) :
    j = .null ↔ front (past text) = some 'n' := by
  rw [value_eq, reads_valueWith] at h
  rcases h with ⟨_, _, _, -, hc, rfl, -⟩ | ⟨_, _, _, -, hc, rfl, -⟩ | ⟨c, hc, -, -, hj⟩
  · simp [hc]
  · simp [hc]
  · rw [hj.scalar_form.2, hc, Option.some.injEq]

theorem reads_null {d : Nat} {x y : Option α} (h : Reads (value d) text .null rest) :
    Reads (do skip; word ['u', 'l', 'l']; return y : Reader (Option α)) (past text) x rest' ↔
      y = x ∧ rest' = rest := by
  have hn := h.eq_null_iff.1 rfl
  rw [value_eq, reads_valueWith] at h
  obtain ⟨mid, hword, rfl⟩ : ∃ mid, Reads (word ['u', 'l', 'l']) (past text).tail () mid ∧
      mid = rest := by
    rcases h with ⟨_, _, _, -, hc, -⟩ | ⟨_, _, _, -, hc, -⟩ | ⟨c, hc, -, -, hj⟩
    · rw [hn] at hc
      cases hc
    · rw [hn] at hc
      cases hc
    · obtain rfl := Option.some.inj (hn.symm.trans hc)
      obtain ⟨⟨⟩, mid, hword, hend⟩ := reads_bind.1 (reads_skip_bind.1 hj)
      exact ⟨mid, hword, (reads_pure.1 hend).2⟩
  rw [reads_skip_bind, reads_bind]
  constructor
  · rintro ⟨⟨⟩, mid', hword', hend⟩
    obtain ⟨-, rfl⟩ := hword'.unique hword
    obtain ⟨rfl, rfl⟩ := reads_pure.1 hend
    exact ⟨rfl, rfl⟩
  · rintro ⟨rfl, rfl⟩
    exact ⟨(), _, hword, reads_pure.2 ⟨rfl, rfl⟩⟩

theorem optional_agrees {r : Reader α} {d : Nat} {pick : Json → Except Mismatch α}
    (hr : Agrees r d pick) : Agrees (optional r) d fun j =>
      match j with
      | .null => .ok none
      | other => (pick other).map some := by
  intro text j rest h x rest'
  have hnull := h.eq_null_iff
  unfold optional
  rw [reads_past_bind]
  split
  · rename_i hc
    obtain rfl := hnull.2 hc
    rw [reads_null h, Except.ok.injEq]
  · rename_i hc
    rw [(hr.map some) (reads_value_past.2 h) x rest']
    dsimp only
    split
    · exact absurd (hnull.1 rfl) hc
    · rfl

/-! Objects -/

/-- Whatever its slots hold, the reader of a member does what `put` does with its value. -/
def MemberAgrees (member : String → σ → Member σ) (d : Nat)
    (put : String → Json → σ → Except Mismatch σ) : Prop :=
  ∀ key slots, match member key slots with
    | .unknown => ∀ j, put key j slots = .ok slots
    | .repeated _ => ∀ j slots', put key j slots ≠ .ok slots'
    | .known read => Agrees read d fun j => put key j slots

theorem recordFrom_agrees {member : String → σ → Member σ} {d n : Nat}
    {put : String → Json → σ → Except Mismatch σ} (hm : MemberAgrees member d put) {first : Bool}
    {ms : List (String × Json)} (h : Reads (membersFrom (value d) n first) text ms rest)
    (slots slots' : σ) :
    Reads (recordFrom member n first slots) text (.ok slots') rest' ↔
      putAll put slots ms = .ok slots' ∧ rest' = rest := by
  induction n generalizing text first ms slots with
  | zero => exact absurd h reads_stop
  | succ n ih =>
    obtain ⟨key?, start, hkey, h⟩ := reads_bind.1 h
    rw [recordFrom, hkey.bind_iff]
    cases key? with
    | none =>
      obtain ⟨rfl, rfl⟩ := reads_pure.1 h
      rw [reads_pure, Except.ok.injEq, putAll, List.foldlM_nil, pure_eq_ok_iff]
      exact and_congr_right fun _ => eq_comm
    | some key =>
      simp only [reads_bind, reads_pure] at h
      obtain ⟨⟨⟩, mid, hcolon, j, mid', hj, more, _, hmore, rfl, rfl⟩ := h
      have hput := hm key slots
      rw [putAll, List.foldlM_cons, bind_eq_ok_iff]
      dsimp only
      cases hcase : member key slots with
      | unknown =>
        rw [hcase] at hput
        have hskip := hj.skipValue
        simp only [reads_bind, hput j, Except.ok.injEq, exists_eq_left']
        rw [← putAll, ← ih hmore slots]
        constructor
        · rintro ⟨⟨⟩, mid₁, hcolon', ⟨⟩, mid₂, hskip', hslots⟩
          obtain ⟨-, rfl⟩ := hcolon'.unique hcolon
          obtain ⟨-, rfl⟩ := hskip'.unique hskip
          exact hslots
        · exact fun hslots => ⟨(), mid, hcolon, (), mid', hskip, hslots⟩
      | repeated m =>
        rw [hcase] at hput
        simp only [reads_pure, reduceCtorEq, false_and, false_iff, not_and]
        rintro ⟨s, hs, -⟩
        exact absurd hs (hput j s)
      | known read =>
        rw [hcase] at hput
        simp only [reads_bind]
        constructor
        · rintro ⟨⟨⟩, mid₁, hcolon', s, mid₂, hs, hslots⟩
          obtain ⟨-, rfl⟩ := hcolon'.unique hcolon
          obtain ⟨hs, rfl⟩ := (hput hj s mid₂).1 hs
          obtain ⟨hrest, rfl⟩ := (ih hmore s).1 hslots
          exact ⟨⟨s, hs, hrest⟩, rfl⟩
        · rintro ⟨⟨s, hs, hrest⟩, rfl⟩
          exact ⟨(), mid, hcolon, s, mid', (hput hj s mid').2 ⟨hs, rfl⟩,
            (ih hmore s).2 ⟨hrest, rfl⟩⟩

theorem reads_giveUp {close : Char} {m : Mismatch} {x : α} :
    ¬ Reads (giveUp close m) text x rest := by
  unfold giveUp
  intro h
  simp only [reads_bind] at h
  obtain ⟨_, _, -, h⟩ := h
  split at h
  · simp at h
  · simp at h

theorem readObject_agrees {member : String → σ → Member σ} {d : Nat}
    {put : String → Json → σ → Except Mismatch σ} (hm : MemberAgrees member d put) {start : σ}
    {finish : σ → Except Mismatch α} {ms : List (String × Json)} {mid : List Piece}
    (h : Reads (members (value d)) text.tail ms mid) (hclose : Reads closeObject mid () rest)
    (x : α) : Reads (readObject member start finish) text x rest' ↔
      putAll put start ms >>= finish = .ok x ∧ rest' = rest := by
  rw [reads_members] at h
  unfold readObject
  rw [reads_skip_bind]
  simp only [reads_bind, reads_get, bind_eq_ok_iff]
  constructor
  · rintro ⟨_, _, ⟨rfl, rfl⟩, read, mid', hread, hx⟩
    cases read with
    | error m => exact absurd hx reads_giveUp
    | ok slots =>
      obtain ⟨hslots, rfl⟩ := (recordFrom_agrees hm h start slots).1 hread
      dsimp only [Except.bind] at hx
      split at hx
      · rename_i hfinish
        simp only [reads_bind, reads_pure] at hx
        obtain ⟨⟨⟩, mid', hclose', rfl, rfl⟩ := hx
        exact ⟨⟨slots, hslots, hfinish⟩, (hclose'.unique hclose).2⟩
      · exact absurd hx reads_giveUp
  · rintro ⟨⟨slots, hslots, hfinish⟩, rfl⟩
    refine ⟨_, _, ⟨rfl, rfl⟩, .ok slots, mid,
      (recordFrom_agrees hm h start slots).2 ⟨hslots, rfl⟩, ?_⟩
    dsimp only [Except.bind]
    rw [hfinish]
    exact reads_bind.2 ⟨(), rest', hclose, reads_pure.2 ⟨rfl, rfl⟩⟩

/-- A list read as a record is read up to its closing bracket. -/
theorem reads_readList {read : Reader (Except Mismatch α)} {x : α} :
    Reads (readList read) text x rest ↔
      ∃ mid, Reads read text.tail (.ok x) mid ∧ Reads closeList mid () rest := by
  unfold readList
  rw [reads_skip_bind, reads_bind]
  constructor
  · rintro ⟨r, mid, hr, hend⟩
    cases r with
    | error m => exact absurd hend reads_giveUp
    | ok y =>
      obtain ⟨⟨⟩, mid', hclose, hpure⟩ := reads_bind.1 hend
      obtain ⟨rfl, rfl⟩ := reads_pure.1 hpure
      exact ⟨mid, hr, hclose⟩
  · rintro ⟨mid, hr, hclose⟩
    exact ⟨.ok x, mid, hr, reads_bind.2 ⟨(), rest, hclose, reads_pure.2 ⟨rfl, rfl⟩⟩⟩

/-! Records -/

namespace Schema

variable {fields : List (FieldRule × Schema)}

theorem member_cons (d : Nat) (rule : FieldRule) (s : Schema) (key : String)
    (slot : Option (Value s)) (slots : Slots fields) :
    member d ((rule, s) :: fields) key (.cons rule slot slots) =
      if rule.names.contains key then
        match slot with
        | some _ => .repeated (.duplicateField rule.key)
        | none => .known do
          let v ← read s d
          return .cons rule (some v) slots
      else
        match member d fields key slots with
        | .unknown => .unknown
        | .repeated m => .repeated m
        | .known more => .known do
          return .cons rule slot (← more) := rfl

theorem member_agrees {d : Nat} (h : ∀ f ∈ fields, Agrees (f.2.read d) d f.2.ofJson) :
    MemberAgrees (member d fields) d (put fields) := by
  induction fields with
  | nil =>
    intro key slots j
    rfl
  | cons f fields ih =>
    obtain ⟨rule, s⟩ := f
    have hs : Agrees (s.read d) d s.ofJson := h _ List.mem_cons_self
    have hfields := ih fun f hf => h f (List.mem_cons_of_mem _ hf)
    intro key slots
    obtain ⟨slot, slots, rfl⟩ := slots.eq_cons
    simp only [member_cons, put_cons]
    by_cases hkey : rule.names.contains key = true
    · simp only [if_pos hkey]
      cases slot with
      | some v =>
        intro j slots' hput
        cases hput
      | none => exact hs.map fun v => Slots.cons rule (some v) slots
    · simp only [if_neg hkey]
      have hrest := hfields key slots
      cases hcase : member d fields key slots with
      | unknown =>
        rw [hcase] at hrest
        intro j
        rw [hrest j]
        rfl
      | repeated m =>
        rw [hcase] at hrest
        intro j slots' hput
        cases hp : put fields key j slots with
        | error m =>
          rw [hp] at hput
          cases hput
        | ok t => exact hrest j t hp
      | known read =>
        rw [hcase] at hrest
        exact hrest.map (Slots.cons rule slot)

theorem readItems_cons (name : String) (size d index : Nat) (first : Bool) (rule : FieldRule)
    (s : Schema) :
    readItems name size d index first ((rule, s) :: fields) = (do
      if ← anotherItem first then
        let v ← read s d
        return (← readItems name size d (index + 1) false fields).map (.cons rule v)
      else if rule.needed then
        return .error (.tooShort index name size)
      else
        return (← readItems name size d (index + 1) first fields).map (.cons rule (empty s))) :=
  rfl

/-- A list read as a record, together with the bracket that ends it. -/
theorem readItems_agrees {name : String} {size d n index : Nat} {first : Bool} {js : List Json}
    {mid : List Piece} (hfields : ∀ f ∈ fields, Agrees (f.2.read d) d f.2.ofJson)
    (h : Reads (itemsFrom (value d) n first) text js mid) (hclose : Reads closeList mid () rest)
    (row : Row fields) :
    (∃ mid', Reads (readItems name size d index first fields) text (.ok row) mid' ∧
        Reads closeList mid' () rest') ↔
      ofItems name size index fields js = .ok row ∧ rest' = rest := by
  induction fields generalizing text n index first js with
  | nil =>
    have hread : Reads (readItems name size d index first []) text (.ok row) text :=
      reads_pure.2 ⟨rfl, rfl⟩
    have hend : (∃ mid', Reads (readItems name size d index first []) text (.ok row) mid' ∧
        Reads closeList mid' () rest') ↔ Reads closeList text () rest' :=
      ⟨fun ⟨_, h, hc⟩ => (h.unique hread).2 ▸ hc, fun hc => ⟨text, hread, hc⟩⟩
    rw [hend, closeList_of_items h hclose, ofItems_nil]
    cases js with
    | nil => exact and_congr_left fun _ => iff_of_true rfl rfl
    | cons j js => simp
  | cons f fields ih =>
    obtain ⟨rule, s⟩ := f
    obtain ⟨v, vs, rfl⟩ := row.eq_cons
    have hs : Agrees (s.read d) d s.ofJson := hfields _ List.mem_cons_self
    have htail := fun f hf => hfields f (List.mem_cons_of_mem _ hf)
    cases n with
    | zero => exact absurd h reads_stop
    | succ n =>
      obtain ⟨more, start, hmore, h⟩ := reads_bind.1 h
      simp only [readItems_cons, hmore.bind_iff]
      cases more with
      | false =>
        obtain ⟨rfl, rfl⟩ := reads_pure.1 h
        have hend : Reads (itemsFrom (value d) 1 first) start [] start := by
          obtain ⟨hc, rfl⟩ := reads_anotherItem.1 hmore
          rw [reads_itemsFrom_succ, past_past]
          exact .inl ⟨rfl, hc, rfl⟩
        rw [ofItems_cons_nil]
        by_cases hneeded : rule.needed = true
        · simp [hneeded]
        · simp only [hneeded, Bool.false_eq_true, if_false, reads_bind, reads_pure]
          rw [Row.map_cons_eq_ok_iff, and_assoc, ← ih htail hend vs]
          constructor
          · rintro ⟨mid', ⟨r, _, hr, hrow, rfl⟩, hclose'⟩
            obtain ⟨hv, rfl⟩ := Row.map_cons_eq_ok_iff.1 hrow
            exact ⟨hv, _, hr, hclose'⟩
          · rintro ⟨hv, mid', hr, hclose'⟩
            exact ⟨mid', ⟨_, mid', hr, Row.map_cons_eq_ok_iff.2 ⟨hv, rfl⟩, rfl⟩, hclose'⟩
      | true =>
        simp only [if_true, reads_bind, reads_pure] at h ⊢
        obtain ⟨j, mid₁, hj, js', _, hjs, rfl, rfl⟩ := h
        simp only [ofItems_cons_cons, bind_eq_ok_iff, pure_eq_ok_iff, Row.cons_inj]
        constructor
        · rintro ⟨mid', ⟨x, mid₂, hx, r, _, hr, hrow, rfl⟩, hclose'⟩
          obtain ⟨rfl, rfl⟩ := Row.map_cons_eq_ok_iff.1 hrow
          obtain ⟨hpick, rfl⟩ := (hs hj x mid₂).1 hx
          obtain ⟨hpicks, rfl⟩ := (ih htail hjs vs).1 ⟨_, hr, hclose'⟩
          exact ⟨⟨x, hpick, vs, hpicks, rfl, rfl⟩, rfl⟩
        · rintro ⟨⟨x, hpick, ws, hpicks, rfl, rfl⟩, rfl⟩
          obtain ⟨mid', hr, hclose'⟩ := (ih htail hjs ws).2 ⟨hpicks, rfl⟩
          exact ⟨mid', ⟨x, mid₁, (hs hj x mid₁).2 ⟨hpick, rfl⟩, _, mid', hr,
            Row.map_cons_eq_ok_iff.2 ⟨rfl, rfl⟩, rfl⟩, hclose'⟩

theorem read_list (item : Schema) (d : Nat) : (Schema.list item).read d = (do
    match ← peekPastSpace with
    | none => stop .endInValue
    | some '[' =>
      match d with
      | 0 => stopAhead .tooDeep
      | d + 1 =>
        skip
        let xs ← items (read item d)
        closeList
        return xs
    | some c => refuse "a sequence" c) := by
  cases d <;> rfl

theorem read_record (name : String) (fields : List (FieldRule × Schema)) (d : Nat) :
    (Schema.record name fields).read d = (do
    match ← peekPastSpace with
    | none => stop .endInValue
    | some '[' =>
      match d with
      | 0 => stopAhead .tooDeep
      | d + 1 => readList (readItems name fields.length d 0 true fields)
    | some '\x7b' =>
      match d with
      | 0 => stopAhead .tooDeep
      | d + 1 => readObject (member d fields) (noSlots fields) (fill fields)
    | some c => refuse s!"struct {name}" c) := by
  cases d <;> rfl

/-- Reading a value from a text gives what the document holds that the text holds. -/
theorem read_agrees (s : Schema) : ∀ d, Agrees (s.read d) d s.ofJson := by
  induction s using induct with
  | text =>
    intro d
    refine scalarAs_agrees fun j x h => ?_
    cases j with
    | string s => trivial
    | _ => cases h
  | flag =>
    intro d
    refine scalarAs_agrees fun j x h => ?_
    cases j with
    | bool b => trivial
    | _ => cases h
  | integer =>
    intro d
    refine scalarAs_agrees fun j x h => ?_
    cases j with
    | integer n => trivial
    | _ => cases h
  | list item ih =>
    intro d text j rest h x rest'
    rw [read_list, reads_past_bind]
    rw [value_eq, reads_valueWith] at h
    rcases h with ⟨inner, js, mid, hinner, hc, rfl, hjs, hclose⟩ | ⟨_, ms, _, -, hc, rfl, -⟩ |
      ⟨c, hc, hlist, hobject, hj⟩
    · cases d with
      | zero => cases hinner
      | succ d =>
        obtain rfl := Option.some.inj hinner
        rw [hc]
        exact bracketed_agrees (ih d) hjs hclose x
    · rw [hc]
      exact iff_of_false reads_refuse fun h => by cases h.1
    · rw [hc]
      have hrefuse : ¬ Reads (refuse "a sequence" c : Reader (Value (.list item))) (past text) x
          rest' := reads_refuse
      have hpick : (Schema.list item).ofJson j ≠ .ok x := by
        have hform := hj.scalar_form.1
        cases j with
        | array js => exact hform.elim
        | _ => exact fun h => by cases h
      split
      · simp_all
      · simp_all
      · rename_i heq
        obtain rfl := Option.some.inj heq
        exact iff_of_false hrefuse fun h => hpick h.1
  | option content ih =>
    intro d
    exact optional_agrees (ih d)
  | record name fields ih =>
    intro d text j rest h x rest'
    rw [read_record, reads_past_bind]
    rw [value_eq, reads_valueWith] at h
    rcases h with ⟨inner, js, mid, hinner, hc, rfl, hjs, hclose⟩ |
      ⟨inner, ms, mid, hinner, hc, rfl, hms, hclose⟩ | ⟨c, hc, hlist, hobject, hj⟩
    · cases d with
      | zero => cases hinner
      | succ d =>
        obtain rfl := Option.some.inj hinner
        rw [hc]
        refine Iff.trans reads_readList ?_
        exact readItems_agrees (fun f hf => ih f hf d) (reads_items.1 hjs) hclose x
    · cases d with
      | zero => cases hinner
      | succ d =>
        obtain rfl := Option.some.inj hinner
        rw [hc]
        exact readObject_agrees (member_agrees fun f hf => ih f hf d) hms hclose x
    · rw [hc]
      have hrefuse : ¬ Reads (refuse s!"struct {name}" c : Reader (Value (.record name fields)))
          (past text) x rest' := reads_refuse
      have hpick : (Schema.record name fields).ofJson j ≠ .ok x := by
        have hform := hj.scalar_form.1
        cases j with
        | array js => exact hform.elim
        | object ms => exact hform.elim
        | _ => exact fun h => by cases h
      split
      · simp_all
      · simp_all
      · simp_all
      · rename_i heq
        obtain rfl := Option.some.inj heq
        exact iff_of_false hrefuse fun h => hpick h.1

end Schema

/-! Whole texts -/

/-- A whole text is read if nothing but blanks is left. -/
theorem run?_eq_ok_iff {r : Reader α} {x : α} :
    r.run? text = .ok x ↔ ∃ rest, Reads r text x rest ∧ front (past rest) = none := by
  unfold Reader.run?
  dsimp only
  cases hr : r text with
  | error s =>
    have hbind : ∀ {f : α → Reader α}, (r >>= f) text = .error s := by
      intro f
      change (StateT.bind r f) text = _
      rw [StateT.bind, hr]
      rfl
    rw [hbind]
    simp [Reads, hr]
  | ok p =>
    obtain ⟨y, rest⟩ := p
    have hread : Reads r text y rest := hr
    rw [hread.run, run_peekPastSpace]
    constructor
    · intro h
      cases hend : front (past rest) with
      | some c =>
        rw [hend] at h
        cases h
      | none =>
        rw [hend] at h
        obtain rfl := Except.ok.inj h
        exact ⟨rest, hread, hend⟩
    · rintro ⟨rest', hx, hend⟩
      obtain ⟨rfl, rfl⟩ := hread.unique hx
      rw [hend]
      rfl

/-- Of a text that holds a document a reader that agrees gives what the document holds. -/
theorem Agrees.run?_eq_ok_iff {r : Reader α} {pick : Json → Except Mismatch α}
    (h : Agrees r maxDepth pick) {j : Json} (hj : parse text = .ok j) {x : α} :
    r.run? text = .ok x ↔ pick j = .ok x := by
  obtain ⟨rest, hread, hend⟩ := Json.run?_eq_ok_iff.1 hj
  rw [Json.run?_eq_ok_iff]
  constructor
  · rintro ⟨rest', hx, -⟩
    exact ((h hread x rest').1 hx).1
  · exact fun hx => ⟨rest, (h hread x rest).2 ⟨hx, rfl⟩, hend⟩

end Bindery.Json
