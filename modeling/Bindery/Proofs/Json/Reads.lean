import Bindery.Json.Skip
import Mathlib

/-!
# What readers read

A reader that succeeds reads a value from the front of a text and leaves the rest. Success is
followed through the steps of a reader; the faults of those that fail are of no concern here.
-/
namespace Bindery.Json

open Bindery.Text (Piece)

variable {α β : Type} {text mid rest : List Piece}

/-- A reader reads a value from the front of a text and leaves the rest. -/
def Reads (r : Reader α) (text : List Piece) (x : α) (rest : List Piece) : Prop :=
  r text = .ok (x, rest)

/-- The next character. -/
def front (text : List Piece) : Option Char := text.head?.map Piece.shown

/-- The text behind its blanks. -/
def past (text : List Piece) : List Piece := text.dropWhile isSpace

theorem Reads.unique {r : Reader α} {x y : α} (h : Reads r text x mid) (h' : Reads r text y rest) :
    x = y ∧ mid = rest := by
  rw [Reads, show r text = _ from h] at h'
  simpa using h'

/-! Steps -/

@[simp] theorem reads_pure {x y : α} :
    Reads (pure x : Reader α) text y rest ↔ x = y ∧ text = rest := by
  simp [Reads, pure, StateT.pure, Except.pure]

@[simp] theorem reads_bind {r : Reader α} {f : α → Reader β} {y : β} :
    Reads (r >>= f) text y rest ↔ ∃ x mid, Reads r text x mid ∧ Reads (f x) mid y rest := by
  unfold Reads
  change (StateT.bind r f) text = _ ↔ _
  rw [StateT.bind]
  cases h : r text with
  | error s => simp [bind, Except.bind]
  | ok p =>
    obtain ⟨x, mid⟩ := p
    simp [bind, Except.bind]

@[simp] theorem reads_map {r : Reader α} {f : α → β} {y : β} :
    Reads (f <$> r) text y rest ↔ ∃ x, Reads r text x rest ∧ f x = y := by
  have hmap : f <$> r = r >>= fun x => pure (f x) := rfl
  rw [hmap, reads_bind]
  simp [and_comm]

@[simp] theorem reads_get {t : List Piece} :
    Reads (get : Reader (List Piece)) text t rest ↔ text = t ∧ text = rest := by
  simp [Reads, get, getThe, MonadStateOf.get, StateT.get, pure, Except.pure]

@[simp] theorem reads_set {t : List Piece} {u : PUnit} :
    Reads (set t : Reader PUnit) text u rest ↔ t = rest := by
  simp [Reads, set, StateT.set, pure, Except.pure]

@[simp] theorem reads_modify {f : List Piece → List Piece} {u : PUnit} :
    Reads (modify f : Reader PUnit) text u rest ↔ f text = rest := by
  simp [Reads, modify, modifyGet, MonadStateOf.modifyGet, StateT.modifyGet, pure, Except.pure]

@[simp] theorem reads_throw {s : Stop} {x : α} : ¬ Reads (throw s : Reader α) text x rest := by
  simp [Reads, throw, throwThe, MonadExceptOf.throw, StateT.lift, bind, Except.bind]

@[simp] theorem reads_stop {c : Cause} {x : α} : ¬ Reads (stop c : Reader α) text x rest := by
  simp [stop]

@[simp] theorem reads_stopAhead {c : Cause} {x : α} :
    ¬ Reads (stopAhead c : Reader α) text x rest := by
  simp [stopAhead]

@[simp] theorem reads_mismatched {m : Mismatch} {x : α} :
    ¬ Reads (mismatched m : Reader α) text x rest := by
  simp [mismatched]

@[simp] theorem reads_peek {c : Option Char} :
    Reads peek text c rest ↔ front text = c ∧ text = rest := by
  simp [peek, front, and_comm]

@[simp] theorem reads_skip {u : Unit} : Reads skip text u rest ↔ text.tail = rest := by
  simp [skip]

@[simp] theorem reads_peekPastSpace {c : Option Char} :
    Reads peekPastSpace text c rest ↔ front (past text) = c ∧ past text = rest := by
  simp [peekPastSpace, past]

theorem Reads.run {r : Reader α} {x : α} {f : α → Reader β} (h : Reads r text x rest) :
    (r >>= f) text = f x rest := by
  change (StateT.bind r f) text = _
  rw [StateT.bind, show r text = _ from h]
  rfl

theorem Reads.bind_iff {r : Reader α} {x : α} {f : α → Reader β} {y : β} (h : Reads r text x mid) :
    Reads (r >>= f) text y rest ↔ Reads (f x) mid y rest := by
  rw [Reads, Reads, h.run]

theorem run_skip {f : Unit → Reader α} : (skip >>= f) text = f () text.tail := rfl

theorem run_peekPastSpace {f : Option Char → Reader α} :
    (peekPastSpace >>= f) text = f (front (past text)) (past text) := rfl

theorem reads_skip_bind {f : Unit → Reader α} {x : α} :
    Reads (skip >>= f) text x rest ↔ Reads (f ()) text.tail x rest := by
  simp only [reads_bind, reads_skip]
  exact ⟨fun ⟨(), _, e, h⟩ => e ▸ h, fun h => ⟨(), _, rfl, h⟩⟩

theorem reads_peek_bind {f : Option Char → Reader α} {x : α} :
    Reads (peek >>= f) text x rest ↔ Reads (f (front text)) text x rest := by
  simp

theorem reads_past_bind {f : Option Char → Reader α} {x : α} :
    Reads (peekPastSpace >>= f) text x rest ↔
      Reads (f (front (past text))) (past text) x rest := by
  simp

/-- A check in front of further steps. -/
theorem reads_check {p : Prop} [Decidable p] {c : Cause} {k : Reader α} {x : α} :
    Reads (if p then stopAhead (α := PUnit) c >>= fun _ => k else k) text x rest ↔
      ¬p ∧ Reads k text x rest := by
  split
  · rename_i hp
    simp [hp]
  · rename_i hp
    simp [hp]

/-! Blanks -/

@[simp] theorem past_past (text : List Piece) : past (past text) = past text :=
  List.dropWhile_idempotent _ _

theorem length_past_le (text : List Piece) : (past text).length ≤ text.length :=
  (List.dropWhile_suffix _).length_le

theorem front_eq_some {c : Char} (h : front text = some c) :
    ∃ p rest, text = p :: rest ∧ p.shown = c := by
  cases text with
  | nil => simp [front] at h
  | cons p rest => exact ⟨p, rest, rfl, by simpa [front] using h⟩

theorem length_tail_lt {c : Char} (h : front text = some c) : text.tail.length < text.length := by
  obtain ⟨p, rest, rfl, -⟩ := front_eq_some h
  simp

/-! Lists and objects -/

theorem reads_closeList {u : Unit} :
    Reads closeList text u rest ↔ front (past text) = some ']' ∧ (past text).tail = rest := by
  unfold closeList
  rw [reads_past_bind]
  constructor
  · intro h
    split at h
    · exact absurd h reads_stop
    · rename_i hc
      exact ⟨hc, reads_skip.1 h⟩
    · rw [reads_skip_bind, reads_past_bind] at h
      split at h
      · exact absurd h reads_stopAhead
      · exact absurd h reads_stopAhead
    · exact absurd h reads_stopAhead
  · rintro ⟨hc, rfl⟩
    simp [hc]

theorem reads_closeObject {u : Unit} :
    Reads closeObject text u rest ↔ front (past text) = some '\x7d' ∧ (past text).tail = rest := by
  unfold closeObject
  rw [reads_past_bind]
  constructor
  · intro h
    split at h
    · exact absurd h reads_stop
    · rename_i hc
      exact ⟨hc, reads_skip.1 h⟩
    · exact absurd h reads_stopAhead
    · exact absurd h reads_stopAhead
  · rintro ⟨hc, rfl⟩
    simp [hc]

theorem reads_colon {u : Unit} :
    Reads colon text u rest ↔ front (past text) = some ':' ∧ (past text).tail = rest := by
  unfold colon
  rw [reads_past_bind]
  constructor
  · intro h
    split at h
    · exact absurd h reads_stop
    · rename_i hc
      exact ⟨hc, reads_skip.1 h⟩
    · exact absurd h reads_stopAhead
  · rintro ⟨hc, rfl⟩
    simp [hc]

/-- Where the next entry of a list or an object starts: at once, or behind a comma. -/
def Next (first : Bool) (text start : List Piece) : Prop :=
  if first then past text = start else front (past text) = some ',' ∧ past (past text).tail = start

theorem Next.unique {first : Bool} {start start' : List Piece} (h : Next first text start)
    (h' : Next first text start') : start = start' := by
  cases first with
  | true => exact h.symm.trans h'
  | false => exact h.2.symm.trans h'.2

/-- Where another entry starts, neither a list nor an object ends. -/
theorem Next.ne_close {first : Bool} {start : List Piece} {close : Char}
    (h : Next first text start) (hcomma : close ≠ ',') (hstart : front start ≠ some close) :
    front (past text) ≠ some close := by
  cases first with
  | true =>
    obtain rfl := h
    exact hstart
  | false =>
    intro hc
    exact hcomma (Option.some.inj (hc.symm.trans h.1))

/-- Whether another item follows, and where it starts. -/
theorem reads_anotherItem {first more : Bool} :
    Reads (anotherItem first) text more rest ↔
      if more then Next first text rest ∧ front rest ≠ none ∧ front rest ≠ some ']'
      else front (past text) = some ']' ∧ past text = rest := by
  unfold anotherItem Next
  rw [reads_past_bind]
  constructor
  · intro h
    split at h
    · exact absurd h reads_stop
    · rename_i hc
      obtain ⟨rfl, rfl⟩ := reads_pure.1 h
      exact ⟨hc, rfl⟩
    · rename_i c hclose hc
      cases first with
      | true =>
        rw [if_pos rfl] at h
        obtain ⟨rfl, rfl⟩ := reads_pure.1 h
        simpa [hc] using hclose
      | false =>
        rw [if_neg Bool.false_ne_true, reads_check, reads_skip_bind, reads_past_bind] at h
        obtain ⟨hcomma, h⟩ := h
        simp only [bne_iff_ne, not_not] at hcomma
        split at h
        · exact absurd h reads_stop
        · exact absurd h reads_stopAhead
        · rename_i d hend hd
          obtain ⟨rfl, rfl⟩ := reads_pure.1 h
          simpa [hc, hcomma, hd] using hend
  · intro h
    cases more with
    | false =>
      obtain ⟨hc, rfl⟩ := h
      simp [hc]
    | true =>
      obtain ⟨hnext, hnone, hend⟩ := h
      obtain ⟨c, hc⟩ := Option.ne_none_iff_exists'.1 hnone
      have hend' : c ≠ ']' := fun e => hend (e ▸ hc)
      cases first with
      | true =>
        rw [if_pos rfl] at hnext
        subst hnext
        rw [hc]
        split <;> simp_all
      | false =>
        rw [if_neg Bool.false_ne_true] at hnext
        obtain ⟨hcomma, rfl⟩ := hnext
        rw [hcomma]
        change Reads (if false = true then _ else if (',' != ',') = true then _ else _) _ _ _
        rw [if_neg Bool.false_ne_true, if_neg (by simp), reads_skip_bind, reads_past_bind, hc]
        split <;> simp_all

/-- The key of the next member, or none where the object ends. -/
theorem reads_nextKey {first : Bool} {key : Option String} :
    Reads (nextKey first) text key rest ↔
      match key with
      | none => front (past text) = some '\x7d' ∧ past text = rest
      | some k => ∃ start, Next first text start ∧ front start = some '"' ∧
          Reads stringBody start.tail k rest := by
  unfold nextKey Next
  rw [reads_past_bind]
  constructor
  · intro h
    split at h
    · exact absurd h reads_stop
    · rename_i hc
      obtain ⟨rfl, rfl⟩ := reads_pure.1 h
      exact ⟨hc, rfl⟩
    · rename_i c hend hc
      cases first with
      | true =>
        rw [if_pos rfl, reads_check, reads_skip_bind] at h
        simp only [bne_iff_ne, not_not, reads_bind, reads_pure] at h
        obtain ⟨rfl, k, _, hk, rfl, rfl⟩ := h
        exact ⟨_, rfl, hc, hk⟩
      | false =>
        rw [if_neg Bool.false_ne_true, reads_check, reads_skip_bind, reads_past_bind] at h
        obtain ⟨hcomma, h⟩ := h
        simp only [bne_iff_ne, not_not] at hcomma
        subst hcomma
        split at h
        · simp at h
        · rename_i hquote
          rw [reads_skip_bind] at h
          simp only [reads_bind, reads_pure] at h
          obtain ⟨k, _, hk, rfl, rfl⟩ := h
          exact ⟨_, ⟨hc, rfl⟩, hquote, hk⟩
        · simp at h
        · simp at h
  · intro h
    cases key with
    | none =>
      obtain ⟨hc, rfl⟩ := h
      simp [hc]
    | some k =>
      obtain ⟨start, hnext, hquote, hk⟩ := h
      cases first with
      | true =>
        rw [if_pos rfl] at hnext
        subst hnext
        simpa [hquote] using hk
      | false =>
        rw [if_neg Bool.false_ne_true] at hnext
        obtain ⟨hcomma, rfl⟩ := hnext
        simpa [hcomma, hquote] using hk

/-! Values -/

theorem reads_items {item : Reader α} {xs : List α} :
    Reads (items item) text xs rest ↔
      Reads (itemsFrom item (text.length + 1) true) text xs rest := by
  simp [items]

theorem reads_members {item : Reader α} {ms : List (String × α)} :
    Reads (members item) text ms rest ↔
      Reads (membersFrom item (text.length + 1) true) text ms rest := by
  simp [members]

theorem reads_itemsFrom_succ {item : Reader α} {n : Nat} {first : Bool} {xs : List α} :
    Reads (itemsFrom item (n + 1) first) text xs rest ↔
      (xs = [] ∧ front (past text) = some ']' ∧ past text = rest) ∨
      ∃ x more start mid, xs = x :: more ∧
        (Next first text start ∧ front start ≠ none ∧ front start ≠ some ']') ∧
        Reads item start x mid ∧ Reads (itemsFrom item n false) mid more rest := by
  rw [itemsFrom]
  simp only [reads_bind]
  constructor
  · rintro ⟨more, start, hmore, h⟩
    rw [reads_anotherItem] at hmore
    cases more with
    | false =>
      simp only [Bool.false_eq_true, if_false, reads_pure] at hmore h
      exact .inl ⟨h.1.symm, hmore.1, hmore.2.trans h.2⟩
    | true =>
      simp only [if_true, reads_bind, reads_pure] at hmore h
      obtain ⟨x, mid, hx, xs', _, hxs, rfl, rfl⟩ := h
      exact .inr ⟨x, xs', start, mid, rfl, hmore, hx, hxs⟩
  · rintro (⟨rfl, hclose, rfl⟩ | ⟨x, more, start, mid, rfl, hstart, hx, hxs⟩)
    · exact ⟨false, _, reads_anotherItem.2 ⟨hclose, rfl⟩, by simp⟩
    · refine ⟨true, start, reads_anotherItem.2 hstart, ?_⟩
      simp only [if_true, reads_bind, reads_pure]
      exact ⟨x, mid, hx, more, rest, hxs, rfl, rfl⟩

theorem reads_membersFrom_succ {item : Reader α} {n : Nat} {first : Bool}
    {ms : List (String × α)} :
    Reads (membersFrom item (n + 1) first) text ms rest ↔
      (ms = [] ∧ front (past text) = some '\x7d' ∧ past text = rest) ∨
      ∃ key x more start mid mid' mid'', ms = (key, x) :: more ∧ Next first text start ∧
        front start = some '"' ∧ Reads stringBody start.tail key mid ∧ Reads colon mid () mid' ∧
        Reads item mid' x mid'' ∧ Reads (membersFrom item n false) mid'' more rest := by
  rw [membersFrom]
  simp only [reads_bind]
  constructor
  · rintro ⟨key, start, hkey, h⟩
    rw [reads_nextKey] at hkey
    cases key with
    | none =>
      simp only [reads_pure] at hkey h
      exact .inl ⟨h.1.symm, hkey.1, hkey.2.trans h.2⟩
    | some key =>
      simp only [reads_bind, reads_pure] at hkey h
      obtain ⟨start, hnext, hquote, hstring⟩ := hkey
      obtain ⟨⟨⟩, mid', hcolon, x, mid'', hx, more, _, hmore, rfl, rfl⟩ := h
      exact .inr ⟨key, x, more, start, _, mid', mid'', rfl, hnext, hquote, hstring, hcolon, hx,
        hmore⟩
  · rintro (⟨rfl, hclose, rfl⟩ | ⟨key, x, more, start, mid, mid', mid'', rfl, hnext, hquote,
      hstring, hcolon, hx, hmore⟩)
    · exact ⟨none, _, reads_nextKey.2 ⟨hclose, rfl⟩, by simp⟩
    · refine ⟨some key, mid, reads_nextKey.2 ⟨start, hnext, hquote, hstring⟩, ?_⟩
      simp only [reads_bind, reads_pure]
      exact ⟨(), mid', hcolon, x, mid'', hx, more, rest, hmore, rfl, rfl⟩

theorem reads_valueWith {inner : Option (Reader Json)} {j : Json} :
    Reads (valueWith inner) text j rest ↔
      (∃ item xs mid, inner = some item ∧ front (past text) = some '[' ∧ j = .array xs ∧
        Reads (items item) (past text).tail xs mid ∧ Reads closeList mid () rest) ∨
      (∃ item ms mid, inner = some item ∧ front (past text) = some '\x7b' ∧ j = .object ms ∧
        Reads (members item) (past text).tail ms mid ∧ Reads closeObject mid () rest) ∨
      ∃ c, front (past text) = some c ∧ c ≠ '[' ∧ c ≠ '\x7b' ∧
        Reads (scalar c) (past text) j rest := by
  unfold valueWith
  rw [reads_past_bind]
  constructor
  · intro h
    split at h
    · exact absurd h reads_stop
    · rename_i hc
      split at h
      · exact absurd h reads_stopAhead
      · rename_i item
        rw [reads_skip_bind] at h
        simp only [reads_bind, reads_pure] at h
        obtain ⟨xs, mid, hxs, ⟨⟩, _, hclose, rfl, rfl⟩ := h
        exact .inl ⟨item, xs, mid, rfl, hc, rfl, hxs, hclose⟩
    · rename_i hc
      split at h
      · exact absurd h reads_stopAhead
      · rename_i item
        rw [reads_skip_bind] at h
        simp only [reads_bind, reads_pure] at h
        obtain ⟨ms, mid, hms, ⟨⟩, _, hclose, rfl, rfl⟩ := h
        exact .inr (.inl ⟨item, ms, mid, rfl, hc, rfl, hms, hclose⟩)
    · rename_i c hlist hobject hc
      exact .inr (.inr ⟨c, hc, hlist, hobject, h⟩)
  · rintro (⟨item, xs, mid, rfl, hc, rfl, hxs, hclose⟩ |
      ⟨item, ms, mid, rfl, hc, rfl, hms, hclose⟩ | ⟨c, hc, hlist, hobject, h⟩)
    · rw [hc]
      simp only [reads_bind, reads_skip, reads_pure]
      exact ⟨(), _, rfl, xs, mid, hxs, (), _, hclose, rfl, rfl⟩
    · rw [hc]
      simp only [reads_bind, reads_skip, reads_pure]
      exact ⟨(), _, rfl, ms, mid, hms, (), _, hclose, rfl, rfl⟩
    · rw [hc]
      split <;> simp_all

/-- How the values inside a list or an object are read, if some may be inside. -/
def inner? : Nat → Option (Reader Json)
  | 0 => none
  | d + 1 => some (value d)

theorem value_eq (d : Nat) : value d = valueWith (inner? d) := by
  cases d with
  | zero => rfl
  | succ d => rfl

theorem reads_value_past {d : Nat} {j : Json} :
    Reads (value d) (past text) j rest ↔ Reads (value d) text j rest := by
  simp only [value_eq, reads_valueWith, past_past]

end Bindery.Json
