import Bindery.Proofs.Json.Reads
import Bindery.Proofs.Steps

/-!
# Skipping values

A value that can be read can be skipped, and skipping it leaves the same rest.
-/
namespace Bindery.Json

open Bindery.Text (Piece)

variable {text rest : List Piece}

/-! Strings -/

theorem codePoint_eq_ok {c : Char} (h : codePoint text = .ok (c, rest)) :
    ∃ n mid, hexQuad text = .ok (n, mid) ∧ (mid = rest ∨ ∃ low mid',
      mid = .char '\\' :: .char 'u' :: mid' ∧ hexQuad mid' = .ok (low, rest)) := by
  unfold codePoint at h
  obtain ⟨⟨n, mid⟩, hquad, h⟩ := bind_eq_ok_iff.1 h
  refine ⟨n, mid, hquad, ?_⟩
  dsimp only at h
  rw [check_eq_ok_iff] at h
  obtain ⟨-, h⟩ := h
  split at h
  · simp only [pure_eq_ok_iff, Prod.mk.injEq] at h
    exact .inl h.2
  · split at h
    · exact absurd h throw_ne_ok
    · rw [check_eq_ok_iff] at h
      obtain ⟨hfirst, h⟩ := h
      split at h
      · exact absurd h throw_ne_ok
      · rw [check_eq_ok_iff] at h
        obtain ⟨hsecond, h⟩ := h
        obtain ⟨⟨low, after⟩, hlow, h⟩ := bind_eq_ok_iff.1 h
        dsimp only at h
        rw [check_eq_ok_iff] at h
        simp only [pure_eq_ok_iff, Prod.mk.injEq] at h
        obtain ⟨-, -, rfl⟩ := h
        simp only [bne_iff_ne, not_not] at hfirst hsecond
        exact .inr ⟨low, _, by rw [hfirst, hsecond], hlow⟩

theorem hexQuad_length {n : Nat} (h : hexQuad text = .ok (n, rest)) :
    rest.length ≤ text.length := by
  unfold hexQuad at h
  dsimp only at h
  split at h
  · simp only [Except.ok.injEq, Prod.mk.injEq] at h
    rw [← h.2]
    simp
  · split at h <;> simp at h

/-- A string is left at the same place by the looser rules. -/
theorem skipStringFrom_of_stringFrom {m : Nat} {read : List Char} {sound : Bool} {s : String}
    (h : stringFrom m read sound text = .ok (s, rest)) :
    rest.length < text.length ∧ ∀ n, text.length < n → skipStringFrom n text = .ok rest := by
  have hunicode : ∀ n {text mid : List Piece} {c : Nat}, hexQuad text = .ok (c, mid) →
      skipStringFrom (n + 1) (.char '\\' :: .char 'u' :: text) = skipStringFrom n mid := by
    intro n text mid c hquad
    simp [skipStringFrom, hquad]
  fun_induction stringFrom m read sound text with
  | case1 => cases h
  | case2 => cases h
  | case3 steps read sound more bytes ih =>
    obtain ⟨hlen, hskip⟩ := ih h
    refine ⟨by simp only [List.length_cons]; omega, fun n hn => ?_⟩
    obtain ⟨n, rfl⟩ := Nat.exists_eq_add_one_of_ne_zero (Nat.ne_zero_of_lt hn)
    exact hskip n (by simpa using hn)
  | case4 steps read more =>
    simp only [Except.ok.injEq, Prod.mk.injEq] at h
    obtain ⟨-, rfl⟩ := h
    refine ⟨by simp, fun n hn => ?_⟩
    obtain ⟨n, rfl⟩ := Nat.exists_eq_add_one_of_ne_zero (Nat.ne_zero_of_lt hn)
    rfl
  | case5 => cases h
  | case6 => cases h
  | case7 steps read sound e more he c after hcode ih =>
    obtain ⟨hlen, hskip⟩ := ih h
    rw [beq_iff_eq.1 he]
    obtain ⟨n₁, mid, hquad, hmid⟩ := codePoint_eq_ok hcode
    have hmore := hexQuad_length hquad
    -- a pair of surrogates is skipped as two escapes
    rcases hmid with rfl | ⟨low, mid', rfl, hlow⟩
    · refine ⟨by simp only [List.length_cons]; omega, fun n hn => ?_⟩
      obtain ⟨n, rfl⟩ := Nat.exists_eq_add_one_of_ne_zero (Nat.ne_zero_of_lt hn)
      simp only [List.length_cons] at hn
      rw [hunicode n hquad]
      exact hskip n (by omega)
    · have hmid' := hexQuad_length hlow
      simp only [List.length_cons] at hmore
      refine ⟨by simp only [List.length_cons]; omega, fun n hn => ?_⟩
      simp only [List.length_cons] at hn
      obtain ⟨n, rfl⟩ := Nat.exists_eq_add_of_le (show 2 ≤ n by omega)
      rw [Nat.add_comm, hunicode (n + 1) hquad, hunicode n hlow]
      exact hskip n (by omega)
  | case8 => cases h
  | case9 steps read sound e more he c hc ih =>
    obtain ⟨hlen, hskip⟩ := ih h
    refine ⟨by simp only [List.length_cons]; omega, fun n hn => ?_⟩
    obtain ⟨n, rfl⟩ := Nat.exists_eq_add_one_of_ne_zero (Nat.ne_zero_of_lt hn)
    simp only [List.length_cons] at hn
    have hstep : skipStringFrom (n + 1) (.char '\\' :: e :: more) = skipStringFrom n more := by
      simp [skipStringFrom, he, hc]
    rw [hstep]
    exact hskip n (by omega)
  | case10 => cases h
  | case11 => cases h
  | case12 steps read sound more c hquote hescape hc ih =>
    obtain ⟨hlen, hskip⟩ := ih h
    refine ⟨by simp only [List.length_cons]; omega, fun n hn => ?_⟩
    obtain ⟨n, rfl⟩ := Nat.exists_eq_add_one_of_ne_zero (Nat.ne_zero_of_lt hn)
    have hstep : skipStringFrom (n + 1) (.char c :: more) = skipStringFrom n more := by
      rw [skipStringFrom]
      · simp [hc]
      · exact hquote
      · exact hescape
    rw [hstep]
    exact hskip n (by simpa using hn)

theorem reads_stringBody {s : String} :
    Reads stringBody text s rest ↔ stringFrom (text.length + 1) [] true text = .ok (s, rest) := by
  unfold stringBody
  simp only [reads_bind, reads_get]
  constructor
  · rintro ⟨_, _, ⟨rfl, rfl⟩, h⟩
    split at h
    · rename_i s' rest' hs
      simp only [reads_bind, reads_set, reads_pure] at h
      obtain ⟨-, _, rfl, rfl, rfl⟩ := h
      exact hs
    · exact absurd h reads_throw
  · intro h
    refine ⟨_, _, ⟨rfl, rfl⟩, ?_⟩
    rw [h]
    simp

theorem Reads.skipString {s : String} (h : Reads stringBody text s rest) :
    Reads skipString text () rest ∧ rest.length < text.length := by
  obtain ⟨hlen, hskip⟩ := skipStringFrom_of_stringFrom (reads_stringBody.1 h)
  refine ⟨?_, hlen⟩
  unfold Json.skipString
  simp only [reads_bind, reads_get]
  refine ⟨_, _, ⟨rfl, rfl⟩, ?_⟩
  rw [hskip _ (Nat.lt_succ_self _)]
  simp

/-! Numbers -/

theorem Reads.digits_suffix {ds : List Char} (h : Reads digits text ds rest) : rest <:+ text := by
  unfold digits at h
  simp only [reads_bind, reads_get, reads_set, reads_pure] at h
  obtain ⟨_, _, ⟨rfl, rfl⟩, -, _, rfl, -, rfl⟩ := h
  exact List.dropWhile_suffix _

theorem Reads.digits_length {ds : List Char} (h : Reads digits text ds rest) (hne : ds ≠ []) :
    rest.length < text.length := by
  unfold digits at h
  simp only [reads_bind, reads_get, reads_set, reads_pure] at h
  obtain ⟨_, _, ⟨rfl, rfl⟩, -, _, rfl, rfl, rfl⟩ := h
  rw [Ne, List.map_eq_nil_iff, ← List.length_eq_zero_iff] at hne
  have hsum := congrArg List.length
    (List.takeWhile_append_dropWhile (p := fun p => p.char?.any Char.isDigit) (l := text))
  rw [List.length_append] at hsum
  omega

theorem Reads.realOf_rest {positive : Bool} {significand : Nat} {e : Int} {j : Json}
    (h : Reads (realOf positive significand e) text j rest) : text = rest := by
  unfold realOf at h
  split at h
  · exact (reads_pure.1 h).2
  · exact absurd h reads_stop

theorem isDigit_shown {p : Piece} (h : p.shown.isDigit = true) :
    p.char?.any Char.isDigit = true := by
  cases p with
  | char c => exact h
  | broken bytes =>
    have hnot : (Char.ofNat 0xfffd).isDigit = false := by decide
    exact absurd (hnot.symm.trans h) (by decide)

/-- Where a digit comes next, some digits are read. -/
theorem Reads.digits_ne_nil {ds : List Char} {c : Char} (hc : front text = some c)
    (hdigit : c.isDigit = true) (h : Reads digits text ds rest) : ds ≠ [] := by
  obtain ⟨p, more, rfl, rfl⟩ := front_eq_some hc
  unfold digits at h
  simp only [reads_bind, reads_get, reads_set, reads_pure] at h
  obtain ⟨_, _, ⟨rfl, rfl⟩, -, _, rfl, rfl, -⟩ := h
  simp [isDigit_shown hdigit]

/-- The digits of an exponent behind its sign. -/
def exponentDigits (positive : Bool) (significand : Nat) (scale : Int) (up : Bool) :
    Reader Json := do
  match ← peek with
  | none => stop .endInValue
  | some c => if !c.isDigit then stopAhead .badNumber
  let before ← get
  let ds ← digits
  let (e, excess) := absorbExponent 0 ds
  if excess.isEmpty then
    realOf positive significand (if up then scale + e else scale - e)
  else if significand != 0 && up then
    throw ⟨.numberOutOfRange, before.drop (ds.length - excess.length + 1), 0⟩
  else
    return .real (if positive then 0.0 else -0.0)

theorem Reads.exponentDigits {positive : Bool} (up : Bool) {significand : Nat} {scale : Int}
    {j : Json} (h : Reads (exponentDigits positive significand scale up) text j rest) :
    ∃ ds, ds ≠ [] ∧ Reads digits text ds rest := by
  unfold Json.exponentDigits at h
  rw [reads_peek_bind] at h
  dsimp only at h
  split at h
  · simp at h
  · rename_i c hc
    rw [reads_check] at h
    simp only [reads_bind, reads_get] at h
    obtain ⟨hdigit, _, _, ⟨rfl, rfl⟩, ds, mid, hds, h⟩ := h
    have hne : ds ≠ [] := hds.digits_ne_nil hc (by simpa using hdigit)
    suffices mid = rest by exact ⟨ds, hne, this ▸ hds⟩
    split at h
    · exact h.realOf_rest
    · split at h
      · exact absurd h reads_throw
      · exact (reads_pure.1 h).2

/-- Where the digits of an exponent start: behind its letter and its sign, if it has one. -/
theorem Reads.exponentPart {positive : Bool} {significand : Nat} {scale : Int} {j : Json}
    (h : Reads (exponentPart positive significand scale) text j rest) :
    ∃ ds, ds ≠ [] ∧
      ((front text.tail = some '+' ∨ front text.tail = some '-') ∧
          Reads digits text.tail.tail ds rest ∨
        (front text.tail ≠ some '+' ∧ front text.tail ≠ some '-') ∧
          Reads digits text.tail ds rest) := by
  unfold Json.exponentPart at h
  rw [reads_skip_bind, reads_peek_bind] at h
  dsimp only at h
  split at h
  · rename_i hc
    rw [reads_skip_bind, pure_bind] at h
    obtain ⟨ds, hne, hds⟩ := Reads.exponentDigits true h
    exact ⟨ds, hne, .inl ⟨.inl hc, hds⟩⟩
  · rename_i hc
    rw [reads_skip_bind, pure_bind] at h
    obtain ⟨ds, hne, hds⟩ := Reads.exponentDigits false h
    exact ⟨ds, hne, .inl ⟨.inr hc, hds⟩⟩
  · rename_i hplus hminus
    rw [pure_bind] at h
    obtain ⟨ds, hne, hds⟩ := Reads.exponentDigits true h
    exact ⟨ds, hne, .inr ⟨⟨hplus, hminus⟩, hds⟩⟩

/-- Passes over what follows the letter of an exponent. -/
def skipSigned : Reader Unit := do
  match ← peek with
  | some '+' | some '-' => skip
  | _ => pure ()
  let ds ← digits
  if ds.isEmpty then stopAhead .badNumber

theorem reads_skipSigned {ds : List Char} (hne : ds ≠ [])
    (h : (front text = some '+' ∨ front text = some '-') ∧ Reads digits text.tail ds rest ∨
      (front text ≠ some '+' ∧ front text ≠ some '-') ∧ Reads digits text ds rest) :
    Reads skipSigned text () rest := by
  have hdigits : ∀ {start}, Reads digits start ds rest →
      Reads (digits >>= fun ds => if ds.isEmpty then stopAhead .badNumber else pure ()) start ()
        rest := by
    intro start hds
    exact reads_bind.2 ⟨ds, rest, hds, by simp [hne]⟩
  unfold skipSigned
  rw [reads_peek_bind]
  rcases h with ⟨hsign | hsign, hds⟩ | ⟨⟨hplus, hminus⟩, hds⟩
  · rw [hsign]
    exact reads_skip_bind.2 (hdigits hds)
  · rw [hsign]
    exact reads_skip_bind.2 (hdigits hds)
  · dsimp only
    split
    · exact absurd ‹_› hplus
    · exact absurd ‹_› hminus
    · exact hdigits hds

theorem Reads.skipExponent {positive : Bool} {significand : Nat} {scale : Int} {j : Json}
    (hc : front text = some 'e' ∨ front text = some 'E')
    (h : Reads (Json.exponentPart positive significand scale) text j rest) :
    Reads skipExponent text () rest := by
  obtain ⟨ds, hne, hds⟩ := Reads.exponentPart h
  have hsigned := reads_skipSigned hne hds
  unfold Json.skipExponent
  rw [reads_peek_bind]
  rcases hc with hc | hc
  · rw [hc]
    exact reads_skip_bind.2 hsigned
  · rw [hc]
    exact reads_skip_bind.2 hsigned

theorem reads_skipExponent_of_ne (he : front text ≠ some 'e') (hE : front text ≠ some 'E') :
    Reads skipExponent text () text := by
  unfold Json.skipExponent
  rw [reads_peek_bind]
  dsimp only
  split
  · exact absurd ‹_› he
  · exact absurd ‹_› hE
  · simp

theorem Reads.fractionPart {positive : Bool} {significand : Nat} {scale : Int} {j : Json}
    (h : Reads (fractionPart positive significand scale) text j rest) :
    ∃ ds mid, ds ≠ [] ∧ Reads digits text.tail ds mid ∧ Reads Json.skipExponent mid () rest := by
  unfold Json.fractionPart at h
  rw [reads_skip_bind] at h
  obtain ⟨ds, mid, hds, h⟩ := reads_bind.1 h
  dsimp only at h
  split at h
  · rw [reads_peek_bind] at h
    split at h <;> simp at h
  · rename_i hne
    refine ⟨ds, mid, by simpa using hne, hds, ?_⟩
    rw [reads_peek_bind] at h
    split at h
    · exact Reads.skipExponent (.inl ‹_›) h
    · exact Reads.skipExponent (.inr ‹_›) h
    · rename_i he hE
      rw [← h.realOf_rest]
      exact reads_skipExponent_of_ne he hE

/-- A number that can be read can be skipped. -/
theorem Reads.skipNumber {positive : Bool} {j : Json} (h : Reads (number positive) text j rest) :
    Reads skipNumber text () rest := by
  unfold number at h
  unfold Json.skipNumber
  obtain ⟨ds, mid, hds, h⟩ := reads_bind.1 h
  refine reads_bind.2 ⟨ds, mid, hds, ?_⟩
  dsimp only at h
  split
  · dsimp only at h
    rw [reads_peek_bind] at h
    split at h <;> simp at h
  · simp at h
  · rename_i hnil hzero
    split at h
    · exact absurd rfl hnil
    · exact absurd rfl (hzero _ _)
    · rw [reads_peek_bind] at h ⊢
      split at h
      · rename_i hc
        obtain ⟨ds, after, hne, hfraction, hexponent⟩ := Reads.fractionPart h
        rw [hc]
        refine reads_skip_bind.2 (reads_bind.2 ⟨ds, after, hfraction, ?_⟩)
        simpa [hne] using hexponent
      · rename_i hc
        rw [hc]
        exact Reads.skipExponent (.inl hc) h
      · rename_i hc
        rw [hc]
        exact Reads.skipExponent (.inr hc) h
      · rename_i hpoint he hE
        have hend : mid = rest := by
          split at h
          · exact h.realOf_rest
          · split at h
            · exact (reads_pure.1 h).2
            · split at h
              · exact h.realOf_rest
              · exact (reads_pure.1 h).2
        subst hend
        split
        · exact absurd ‹_› hpoint
        · exact reads_skipExponent_of_ne he hE

/-! Lengths -/

theorem Reads.skipSigned_length (h : Reads skipSigned text () rest) :
    rest.length ≤ text.length := by
  have hdigits : ∀ {start : List Piece},
      Reads (digits >>= fun ds => if ds.isEmpty then stopAhead .badNumber else pure ()) start ()
        rest → rest.length ≤ start.length := by
    intro start h
    obtain ⟨ds, mid, hds, h⟩ := reads_bind.1 h
    split at h
    · exact absurd h reads_stopAhead
    · obtain ⟨-, rfl⟩ := reads_pure.1 h
      exact hds.digits_suffix.length_le
  unfold skipSigned at h
  rw [reads_peek_bind] at h
  dsimp only at h
  split at h
  · have hlen := hdigits (reads_skip_bind.1 h)
    have htail : text.tail.length ≤ text.length := by simp
    omega
  · have hlen := hdigits (reads_skip_bind.1 h)
    have htail : text.tail.length ≤ text.length := by simp
    omega
  · exact hdigits h

theorem Reads.skipExponent_length (h : Reads Json.skipExponent text () rest) :
    rest.length ≤ text.length := by
  have htail : text.tail.length ≤ text.length := by simp
  unfold Json.skipExponent at h
  rw [reads_peek_bind] at h
  split at h
  · exact (Reads.skipSigned_length (reads_skip_bind.1 h)).trans htail
  · exact (Reads.skipSigned_length (reads_skip_bind.1 h)).trans htail
  · rw [(reads_pure.1 h).2]

theorem Reads.skipNumber_length (h : Reads Json.skipNumber text () rest) :
    rest.length < text.length := by
  unfold Json.skipNumber at h
  obtain ⟨ds, mid, hds, h⟩ := reads_bind.1 h
  dsimp only at h
  split at h
  · exact absurd h reads_stopAhead
  · simp at h
  · rename_i hnil hzero
    refine lt_of_le_of_lt ?_ (hds.digits_length hnil)
    rw [reads_peek_bind] at h
    split at h
    · rw [reads_skip_bind] at h
      obtain ⟨fraction, after, hfraction, h⟩ := reads_bind.1 h
      have hafter := hfraction.digits_suffix.length_le
      have htail : mid.tail.length ≤ mid.length := by simp
      rw [reads_check] at h
      have := Reads.skipExponent_length h.2
      omega
    · exact Reads.skipExponent_length h

theorem Reads.word_length {cs : List Char} (h : Reads (word cs) text () rest) :
    rest.length ≤ text.length := by
  induction cs generalizing text with
  | nil => rw [(reads_pure.1 h).2]
  | cons c cs ih =>
    unfold word at h
    rw [reads_peek_bind] at h
    split at h
    · exact absurd h reads_stop
    · split at h
      · rw [reads_skip_bind] at h
        have hlen := ih h
        have htail : text.tail.length ≤ text.length := by simp
        omega
      · exact absurd h reads_stopAhead

/-! Values -/

/-- Goes on behind a value with the frames that are still open. -/
def skipOn (steps : Nat) : List Frame → Reader Unit
  | [] => pure ()
  | .list :: outer => skipFrom steps (.list :: outer)
  | .object :: outer => do
    skipKey
    skipFrom steps (.object :: outer)

/-- What is left to skip behind a value. -/
def skipRest (steps : Nat) (frames : List Frame) : Reader Unit := do
  skipOn steps (← skipCloses frames true)

/-- Passes over a value that is neither a list nor an object, given its first character. -/
def skipScalar (c : Char) : Reader Unit := do
  match c with
  | '-' =>
    skip
    skipNumber
  | '"' =>
    skip
    skipString
  | c =>
    if c.isDigit then
      skipNumber
    else
      let _ ← scalar c

theorem skipFrom_succ (n : Nat) (frames : List Frame) :
    skipFrom (n + 1) frames = (do
      match ← peekPastSpace with
      | none => stop .endInValue
      | some '[' => skip; skipCloses (.list :: frames) false >>= skipOn n
      | some '\x7b' => skip; skipCloses (.object :: frames) false >>= skipOn n
      | some '-' => skip; skipNumber; skipRest n frames
      | some '"' => skip; skipString; skipRest n frames
      | some c =>
        if c.isDigit then
          skipNumber
          skipRest n frames
        else
          let _ ← scalar c
          skipRest n frames) := by
  have hon : (fun frames => match frames with
      | [] => pure ()
      | .list :: _ => skipFrom n frames
      | .object :: _ => do
        skipKey
        skipFrom n frames) = skipOn n := by
    funext frames
    cases frames with
    | nil => rfl
    | cons frame outer =>
      cases frame <;> rfl
  rw [skipFrom]
  refine congrArg _ (funext fun c => ?_)
  split
  · rfl
  · exact congrArg (fun k => do skip; skipCloses (.list :: frames) false >>= k) hon
  · exact congrArg (fun k => do skip; skipCloses (.object :: frames) false >>= k) hon
  · exact congrArg (fun k => do skip; skipNumber; skipCloses frames true >>= k) hon
  · exact congrArg (fun k => do skip; skipString; skipCloses frames true >>= k) hon
  · rename_i c hlist hobject hminus hquote
    by_cases hdigit : c.isDigit
    · simp only [hdigit, pure_bind]
      exact congrArg (fun k => do skipNumber; skipCloses frames true >>= k) hon
    · simp only [hdigit, pure_bind]
      exact congrArg (fun k => do let _ ← scalar c; skipCloses frames true >>= k) hon

theorem skipScalar_of_ne {c : Char} (hminus : c ≠ '-') (hquote : c ≠ '"') :
    skipScalar c = if c.isDigit then skipNumber else (do let _ ← scalar c) := by
  unfold skipScalar
  split
  · exact absurd rfl hminus
  · exact absurd rfl hquote
  · rfl

theorem skipFrom_scalar {n : Nat} {frames : List Frame} {c : Char}
    (hc : front (past text) = some c) (hlist : c ≠ '[') (hobject : c ≠ '\x7b') :
    skipFrom (n + 1) frames text =
      (skipScalar c >>= fun _ => skipRest n frames) (past text) := by
  rw [skipFrom_succ, run_peekPastSpace, hc]
  refine congrFun ?_ _
  split
  · exact absurd ‹_› (Option.some_ne_none c)
  · exact absurd (Option.some.inj ‹_›) hlist
  · exact absurd (Option.some.inj ‹_›) hobject
  · obtain rfl := Option.some.inj ‹some c = some '-'›
    rfl
  · obtain rfl := Option.some.inj ‹some c = some '"'›
    rfl
  · rename_i hminus hquote heq
    obtain rfl := Option.some.inj heq
    rw [skipScalar_of_ne hminus hquote]
    split
    · rfl
    · simp only [bind_assoc, pure_bind]

theorem Reads.skip_word {cs : List Char} {x j : Json} {text : List Piece} {c : Char}
    (hc : front text = some c)
    (h : Reads (do skip; word cs; return x : Reader Json) text j rest) :
    rest.length < text.length := by
  rw [reads_skip_bind] at h
  obtain ⟨⟨⟩, mid, hword, hend⟩ := reads_bind.1 h
  obtain ⟨-, rfl⟩ := reads_pure.1 hend
  exact hword.word_length.trans_lt (length_tail_lt hc)

/-- A value that is neither a list nor an object can be skipped if it can be read. -/
theorem Reads.skipScalar {c : Char} {j : Json} (hc : front text = some c)
    (h : Reads (scalar c) text j rest) :
    Reads (skipScalar c) text () rest ∧ rest.length < text.length := by
  have hdiscard : Reads (do let _ ← scalar c) text () rest :=
    reads_bind.2 ⟨j, rest, h, reads_pure.2 ⟨rfl, rfl⟩⟩
  unfold scalar at h
  split at h
  · exact ⟨hdiscard, Reads.skip_word hc h⟩
  · exact ⟨hdiscard, Reads.skip_word hc h⟩
  · exact ⟨hdiscard, Reads.skip_word hc h⟩
  · rw [reads_skip_bind] at h
    have hskip := Reads.skipNumber h
    exact ⟨reads_skip_bind.2 hskip, hskip.skipNumber_length.trans (length_tail_lt hc)⟩
  · obtain ⟨s, mid, hs, hend⟩ := reads_bind.1 (reads_skip_bind.1 h)
    obtain ⟨-, rfl⟩ := reads_pure.1 hend
    obtain ⟨hskip, hlen⟩ := hs.skipString
    exact ⟨reads_skip_bind.2 hskip, hlen.trans (length_tail_lt hc)⟩
  · rename_i hminus hquote
    split at h
    · rename_i hdigit
      have hskip := Reads.skipNumber h
      rw [skipScalar_of_ne hminus hquote, if_pos hdigit]
      exact ⟨hskip, hskip.skipNumber_length⟩
    · exact absurd h reads_stopAhead

/-! Lists and objects -/

theorem skipFrom_past {steps : Nat} {frames : List Frame} :
    skipFrom (steps + 1) frames (past text) = skipFrom (steps + 1) frames text := by
  rw [skipFrom_succ, run_peekPastSpace, run_peekPastSpace, past_past]

/-- A frame that ends is left. -/
theorem skipCloses_close {frame : Frame} {outer : List Frame} {acceptComma : Bool} {α : Type}
    {f : List Frame → Reader α} (hc : front (past text) = some frame.close) :
    (skipCloses (frame :: outer) acceptComma >>= f) text =
      (skipCloses outer true >>= f) (past text).tail := by
  have hne : (frame.close == ',') = false := by
    cases frame <;> rfl
  rw [skipCloses.eq_def, bind_assoc, run_peekPastSpace, hc]
  simp only [hne, Bool.false_and, Bool.false_eq_true, if_false, beq_self_eq_true, if_true]
  rfl

/-- A frame in which another entry follows stays. -/
theorem Next.skipCloses {first : Bool} {c : Char} {start : List Piece}
    (hnext : Next first text start) (hc : front start = some c) :
    ∃ text', past text' = start ∧ text'.length ≤ text.length ∧
      ∀ frame outer, c ≠ Frame.close frame →
        Reads (skipCloses (frame :: outer) (!first)) text (frame :: outer) text' := by
  unfold Next at hnext
  cases first with
  | true =>
    obtain rfl := hnext
    refine ⟨past text, past_past text, length_past_le text, fun frame outer hne => ?_⟩
    rw [Json.skipCloses.eq_def]
    dsimp only
    rw [reads_past_bind, hc]
    simp [hne]
  | false =>
    obtain ⟨hcomma, rfl⟩ := hnext
    refine ⟨(past text).tail, rfl, ?_, fun frame outer hne => ?_⟩
    · have hlen := length_past_le text
      rw [List.length_tail]
      omega
    · rw [Json.skipCloses.eq_def]
      dsimp only
      rw [reads_past_bind, hcomma]
      simp

theorem reads_skipKey {mid : List Piece} {s : String} (hquote : front (past text) = some '"')
    (hs : Reads stringBody (past text).tail s mid) (hcolon : Reads colon mid () rest) :
    Reads skipKey text () rest ∧ rest.length < text.length := by
  obtain ⟨hskip, hlen⟩ := hs.skipString
  have hrest : rest.length ≤ mid.length := by
    obtain ⟨-, rfl⟩ := reads_colon.1 hcolon
    have hpast := length_past_le mid
    rw [List.length_tail]
    omega
  have htext := length_past_le text
  rw [List.length_tail] at hlen
  refine ⟨?_, by omega⟩
  unfold skipKey
  rw [reads_past_bind, hquote]
  exact reads_skip_bind.2 (reads_bind.2 ⟨(), mid, hskip, hcolon⟩)

/-- A value is passed over in some number of steps, whatever frames are open around it. -/
def Skips (text rest : List Piece) : Prop :=
  ∃ k, 0 < k ∧ k + rest.length ≤ text.length ∧
    ∀ n frames, skipFrom (n + k) frames text = skipRest n frames rest

theorem Skips.of_past (h : Skips (past text) rest) : Skips text rest := by
  obtain ⟨k, hk, hlen, hskip⟩ := h
  refine ⟨k, hk, hlen.trans (length_past_le text), fun n frames => ?_⟩
  obtain ⟨k, rfl⟩ := Nat.exists_eq_add_one_of_ne_zero hk.ne'
  rw [← hskip n frames]
  exact skipFrom_past.symm

/-- The rest of a list is passed over. -/
theorem Reads.skips_items {item : Reader Json} {xs : List Json} {m : Nat} {first : Bool}
    {mid : List Piece} (hitem : ∀ text j rest, Reads item text j rest → Skips text rest)
    (h : Reads (itemsFrom item m first) text xs mid) (hclose : Reads closeList mid () rest) :
    ∃ k, k + rest.length ≤ text.length ∧ ∀ n frames,
      (skipCloses (.list :: frames) (!first) >>= skipOn (n + k)) text = skipRest n frames rest := by
  induction m generalizing text xs first with
  | zero => exact absurd h reads_stop
  | succ m ih =>
    rw [reads_itemsFrom_succ] at h
    rcases h with ⟨-, hc, rfl⟩ | ⟨x, more, start, mid', -, ⟨hnext, hnone, hend⟩, hx, hmore⟩
    · obtain ⟨-, rfl⟩ := reads_closeList.1 hclose
      have hlen := length_past_le text
      rw [past_past]
      refine ⟨0, ?_, fun n frames => skipCloses_close hc⟩
      rw [List.length_tail]
      omega
    · obtain ⟨c, hc⟩ := Option.ne_none_iff_exists'.1 hnone
      have hne : c ≠ ']' := fun e => hend (e ▸ hc)
      obtain ⟨text', rfl, hlen', hcloses⟩ := hnext.skipCloses hc
      obtain ⟨k₁, -, hlen₁, hskip₁⟩ := (hitem _ _ _ hx).of_past
      obtain ⟨k₂, hlen₂, hskip₂⟩ := ih hmore
      refine ⟨k₂ + k₁, by omega, fun n frames => ?_⟩
      calc (skipCloses (.list :: frames) (!first) >>= skipOn (n + (k₂ + k₁))) text
          = skipFrom (n + k₂ + k₁) (.list :: frames) text' := by
            rw [(hcloses .list frames hne).run, skipOn, Nat.add_assoc]
        _ = skipRest (n + k₂) (.list :: frames) mid' := hskip₁ _ _
        _ = skipRest n frames rest := hskip₂ n frames

/-- The rest of an object is passed over. -/
theorem Reads.skips_members {item : Reader Json} {ms : List (String × Json)} {m : Nat}
    {first : Bool} {mid : List Piece}
    (hitem : ∀ text j rest, Reads item text j rest → Skips text rest)
    (h : Reads (membersFrom item m first) text ms mid) (hclose : Reads closeObject mid () rest) :
    ∃ k, k + rest.length ≤ text.length ∧ ∀ n frames,
      (skipCloses (.object :: frames) (!first) >>= skipOn (n + k)) text =
        skipRest n frames rest := by
  induction m generalizing text ms first with
  | zero => exact absurd h reads_stop
  | succ m ih =>
    rw [reads_membersFrom_succ] at h
    rcases h with ⟨-, hc, rfl⟩ | ⟨key, x, more, start, mid₁, mid₂, mid₃, -, hnext, hquote, hstring,
      hcolon, hx, hmore⟩
    · obtain ⟨-, rfl⟩ := reads_closeObject.1 hclose
      have hlen := length_past_le text
      rw [past_past]
      refine ⟨0, ?_, fun n frames => skipCloses_close hc⟩
      rw [List.length_tail]
      omega
    · have hne : '"' ≠ '\x7d' := by decide
      obtain ⟨text', rfl, hlen', hcloses⟩ := hnext.skipCloses hquote
      obtain ⟨hkey, hkeylen⟩ := reads_skipKey hquote hstring hcolon
      obtain ⟨k₁, -, hlen₁, hskip₁⟩ := hitem _ _ _ hx
      obtain ⟨k₂, hlen₂, hskip₂⟩ := ih hmore
      refine ⟨k₂ + k₁, by omega, fun n frames => ?_⟩
      calc (skipCloses (.object :: frames) (!first) >>= skipOn (n + (k₂ + k₁))) text
          = skipFrom (n + k₂ + k₁) (.object :: frames) mid₂ := by
            rw [(hcloses .object frames hne).run, skipOn, hkey.run, Nat.add_assoc]
        _ = skipRest (n + k₂) (.object :: frames) mid₃ := hskip₁ _ _
        _ = skipRest n frames rest := hskip₂ n frames

/-- A value is passed over if the values inside it are. -/
theorem Reads.skips_valueWith {inner : Option (Reader Json)} {j : Json}
    (hinner : ∀ item ∈ inner, ∀ text j rest, Reads item text j rest → Skips text rest)
    (h : Reads (valueWith inner) text j rest) : Skips text rest := by
  rw [reads_valueWith] at h
  rcases h with ⟨item, xs, mid, rfl, hc, -, hxs, hclose⟩ |
    ⟨item, ms, mid, rfl, hc, -, hms, hclose⟩ | ⟨c, hc, hlist, hobject, hscalar⟩
  · have htail := (length_tail_lt hc).trans_le (length_past_le text)
    obtain ⟨k, hlen, hskip⟩ := (reads_items.1 hxs).skips_items (hinner item rfl) hclose
    refine ⟨k + 1, Nat.succ_pos k, by omega, fun n frames => ?_⟩
    rw [← Nat.add_assoc, skipFrom_succ, run_peekPastSpace, hc]
    exact run_skip.trans (hskip n frames)
  · have htail := (length_tail_lt hc).trans_le (length_past_le text)
    obtain ⟨k, hlen, hskip⟩ := (reads_members.1 hms).skips_members (hinner item rfl) hclose
    refine ⟨k + 1, Nat.succ_pos k, by omega, fun n frames => ?_⟩
    rw [← Nat.add_assoc, skipFrom_succ, run_peekPastSpace, hc]
    exact run_skip.trans (hskip n frames)
  · obtain ⟨hskip, hlen⟩ := Reads.skipScalar hc hscalar
    have hpast := length_past_le text
    refine ⟨1, Nat.one_pos, by omega, fun n frames => ?_⟩
    rw [skipFrom_scalar hc hlist hobject]
    exact hskip.run

/-- A value that can be read is passed over. -/
theorem Reads.skips {d : Nat} {j : Json} (h : Reads (value d) text j rest) : Skips text rest := by
  induction d generalizing text j rest with
  | zero => exact Reads.skips_valueWith (by simp) h
  | succ d ih =>
    refine Reads.skips_valueWith (fun item hitem text j rest hx => ?_) h
    obtain rfl := Option.some.inj hitem
    exact ih hx

/-- Skipping a value that can be read leaves the same rest. -/
theorem Reads.skipValue {d : Nat} {j : Json} (h : Reads (value d) text j rest) :
    Reads skipValue text () rest := by
  obtain ⟨k, -, hlen, hskip⟩ := h.skips
  obtain ⟨n, hn⟩ := Nat.exists_eq_add_of_le' (show k ≤ text.length + 1 by omega)
  unfold Json.skipValue
  refine reads_bind.2 ⟨text, text, reads_get.2 ⟨rfl, rfl⟩, ?_⟩
  rw [hn]
  exact hskip n []

end Bindery.Json
