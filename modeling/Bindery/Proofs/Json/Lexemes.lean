import Bindery.Proofs.Json.Written

/-!
# Reading lexemes

What a reader gives for a lexeme depends on the lexeme only, and so does how far it reads: what
stands behind does not matter as long as it does not go on with a number.
-/
namespace Bindery.Json

open Bindery.Text (Piece)

variable {α β : Type} {text mid rest : List Piece}

/-- A reader gives a value and leaves the rest, or it fails. -/
def Gives (r : Reader α) (text : List Piece) (out : Option α) (rest : List Piece) : Prop :=
  ∀ x rest', Reads r text x rest' ↔ out = some x ∧ rest = rest'

theorem Reads.gives {r : Reader α} {x : α} (h : Reads r text x rest) :
    Gives r text (some x) rest := by
  intro y rest'
  constructor
  · intro h'
    obtain ⟨rfl, rfl⟩ := h.unique h'
    exact ⟨rfl, rfl⟩
  · rintro ⟨hy, rfl⟩
    exact Option.some.inj hy ▸ h

theorem gives_none {r : Reader α} (h : ∀ x rest', ¬ Reads r text x rest') :
    Gives r text none rest := by
  intro x rest'
  simpa using h x rest'

theorem gives_pure {x : α} : Gives (pure x) text (some x) text :=
  (reads_pure.2 ⟨rfl, rfl⟩).gives

theorem Gives.bind {r : Reader α} {f : α → Reader β} {out : Option α} {g : α → Option β}
    (h : Gives r text out mid) (hf : ∀ x, out = some x → Gives (f x) mid (g x) rest) :
    Gives (r >>= f) text (out.bind g) rest := by
  intro y rest'
  rw [reads_bind, Option.bind_eq_some_iff]
  constructor
  · rintro ⟨x, mid', hx, hy⟩
    obtain ⟨hout, rfl⟩ := (h x mid').1 hx
    obtain ⟨hg, rfl⟩ := (hf x hout y rest').1 hy
    exact ⟨⟨x, hout, hg⟩, rfl⟩
  · rintro ⟨⟨x, hout, hg⟩, rfl⟩
    exact ⟨x, mid, (h x mid).2 ⟨hout, rfl⟩, (hf x hout y rest).2 ⟨hg, rfl⟩⟩

theorem Gives.map {r : Reader α} {f : α → β} {out : Option α} (h : Gives r text out rest) :
    Gives (r >>= fun x => pure (f x)) text (out.map f) rest := by
  have hbind := h.bind (f := fun x => pure (f x)) (g := fun x => some (f x)) fun x _ => gives_pure
  rwa [Option.map_eq_bind]

theorem Reads.gives_bind {r : Reader α} {f : α → Reader β} {x : α} {out : Option β}
    (h : Reads r text x mid) (hf : Gives (f x) mid out rest) : Gives (r >>= f) text out rest :=
  fun y rest' => h.bind_iff.trans (hf y rest')

theorem gives_skip {f : Unit → Reader α} {p : Piece} {out : Option α}
    (h : Gives (f ()) text out rest) : Gives (skip >>= f) (p :: text) out rest :=
  fun x rest' => reads_skip_bind.trans (h x rest')

theorem gives_peek_iff {f : Option Char → Reader α} {out : Option α} :
    Gives (peek >>= f) text out rest ↔ Gives (f (front text)) text out rest := by
  simp only [Gives, reads_peek_bind]

alias ⟨_, gives_peek⟩ := gives_peek_iff

/-! Strings -/

theorem hexQuad_quad (q : Quad) (rest : List Piece) :
    hexQuad (chars q.digits ++ rest) = .ok (q.value, rest) := by
  obtain ⟨ds, hlen, hhex⟩ := q
  obtain ⟨a, b, c, d, rfl⟩ : ∃ a b c d, ds = [a, b, c, d] := List.length_eq_four.1 hlen
  have hvalue : ∀ x ∈ [a, b, c, d], ∃ n, Text.hexValue? x = some n := fun x hx =>
    Option.isSome_iff_exists.1 (hhex x hx)
  obtain ⟨na, ha⟩ := hvalue a (by simp)
  obtain ⟨nb, hb⟩ := hvalue b (by simp)
  obtain ⟨nc, hc⟩ := hvalue c (by simp)
  obtain ⟨nd, hd⟩ := hvalue d (by simp)
  simp [hexQuad, Quad.value, Piece.char?, ha, hb, hc, hd]

theorem codePoint_unit (q : Quad) (h : ¬ IsHighSurrogate q.value) (hlow : ¬ IsLowSurrogate q.value)
    (rest : List Piece) :
    codePoint (chars q.digits ++ rest) = .ok (Char.ofNat q.value, rest) := by
  unfold codePoint
  rw [hexQuad_quad]
  simp only [IsHighSurrogate, IsLowSurrogate] at h hlow
  have hout : q.value < 0xd800 ∨ 0xdbff < q.value := by omega
  simp [bind, Except.bind, hlow, hout, pure, Except.pure]

theorem codePoint_ne_ok_of_low (q : Quad) (h : IsLowSurrogate q.value) (rest : List Piece)
    (x : Char × List Piece) : codePoint (chars q.digits ++ rest) ≠ .ok x := by
  unfold codePoint
  rw [hexQuad_quad]
  simp only [IsLowSurrogate] at h
  simp [bind, Except.bind, h, throw, throwThe, MonadExceptOf.throw]

theorem codePoint_pair (q r : Quad) (hq : IsHighSurrogate q.value) (hr : IsLowSurrogate r.value)
    (rest : List Piece) :
    codePoint (chars q.digits ++ .char '\\' :: .char 'u' :: (chars r.digits ++ rest)) =
      .ok (Char.ofNat ((q.value - 0xd800) * 0x400 + (r.value - 0xdc00) + 0x10000), rest) := by
  unfold codePoint
  rw [hexQuad_quad]
  simp only [IsHighSurrogate, IsLowSurrogate] at hq hr
  have hlow : ¬ (0xdc00 ≤ q.value ∧ q.value ≤ 0xdfff) := by omega
  have hin : ¬ (q.value < 0xd800 ∨ 0xdbff < q.value) := by omega
  have hin' : ¬ (r.value < 0xdc00 ∨ 0xdfff < r.value) := by omega
  simp [bind, Except.bind, hlow, hin, hexQuad_quad, hin', pure, Except.pure]

/-- Behind the first surrogate of a pair stands the second one. -/
theorem codePoint_high {q : Quad} (hq : IsHighSurrogate q.value) {c : Char} {after : List Piece}
    (h : codePoint (chars q.digits ++ rest) = .ok (c, after)) :
    ∃ low mid, rest = .char '\\' :: .char 'u' :: mid ∧ hexQuad mid = .ok (low, after) ∧
      IsLowSurrogate low := by
  simp only [IsHighSurrogate] at hq
  have hin : ¬ (q.value < 0xd800 ∨ 0xdbff < q.value) := by omega
  unfold codePoint at h
  rw [hexQuad_quad] at h
  obtain ⟨_, hquad, h⟩ := bind_eq_ok_iff.1 h
  obtain rfl := Except.ok.inj hquad
  dsimp only at h
  rw [check_eq_ok_iff] at h
  obtain ⟨-, h⟩ := h
  rw [if_neg (by simpa using hin)] at h
  split at h
  · exact absurd h throw_ne_ok
  · rw [check_eq_ok_iff] at h
    obtain ⟨hfirst, h⟩ := h
    split at h
    · exact absurd h throw_ne_ok
    · rw [check_eq_ok_iff] at h
      obtain ⟨hsecond, h⟩ := h
      obtain ⟨⟨low, mid⟩, hlow, h⟩ := bind_eq_ok_iff.1 h
      dsimp only at h
      rw [check_eq_ok_iff] at h
      simp only [pure_eq_ok_iff, Prod.mk.injEq] at h
      obtain ⟨hrange, -, rfl⟩ := h
      simp only [bne_iff_ne, not_not] at hfirst hsecond
      refine ⟨low, _, by rw [hfirst, hsecond], hlow, ?_⟩
      simp only [IsLowSurrogate]
      simpa using hrange

theorem stringFrom_plain {n : Nat} {read : List Char} {c : Char} (h : ' ' ≤ c ∧ c ≠ '"' ∧ c ≠ '\\')
    (text : List Piece) :
    stringFrom (n + 1) read true (.char c :: text) = stringFrom n (c :: read) true text := by
  obtain ⟨hc, hquote, hescape⟩ := h
  rw [stringFrom]
  · rw [if_neg (not_lt.2 hc)]
  · exact hquote
  · exact hescape

theorem exists_shortEscape {c : Char} (h : c ∈ ['"', '\\', '/', 'b', 'f', 'n', 'r', 't']) :
    c ≠ 'u' ∧ ∃ d, shortEscape? c = some d := by
  simp only [List.mem_cons, List.not_mem_nil, or_false] at h
  rcases h with rfl | rfl | rfl | rfl | rfl | rfl | rfl | rfl <;>
    exact ⟨by decide, _, rfl⟩

theorem stringFrom_short {n : Nat} {read : List Char} {c d : Char} (hc : c ≠ 'u')
    (h : shortEscape? c = some d) (text : List Piece) :
    stringFrom (n + 1) read true (.char '\\' :: .char c :: text) =
      stringFrom n (d :: read) true text := by
  rw [stringFrom]
  simp [hc, Piece.char?, h]

theorem stringFrom_unit_ne_ok {n : Nat} {read : List Char} {x : String × List Piece}
    (h : ∀ y, codePoint text ≠ .ok y) :
    stringFrom n read true (.char '\\' :: .char 'u' :: text) ≠ .ok x := by
  cases n with
  | zero => simp [stringFrom]
  | succ n =>
    rw [stringFrom]
    cases hcode : codePoint text with
    | error s => simp
    | ok y => exact absurd hcode (h y)

/-- The inside of a string from some place on stands for characters, or cannot be read. -/
def Completes (n : Nat) (read : List Char) (text : List Piece) (out : Option (List Char))
    (rest : List Piece) : Prop :=
  ∀ s rest', stringFrom n read true text = .ok (s, rest') ↔
    ∃ cs, out = some cs ∧ String.ofList (read.reverse ++ cs) = s ∧ rest = rest'

theorem Completes.cons {n m : Nat} {read : List Char} {c : Char} {text' : List Piece}
    {out : Option (List Char)} (h : Completes n (c :: read) text out rest)
    (hstep : stringFrom m read true text' = stringFrom n (c :: read) true text) :
    Completes m read text' (out.map (c :: ·)) rest := by
  intro s rest'
  rw [hstep, h s rest']
  cases out with
  | none => simp
  | some cs => simp

theorem completes_none {n : Nat} {read : List Char}
    (h : ∀ x, stringFrom n read true text ≠ .ok x) : Completes n read text none rest := by
  intro s rest'
  simpa using h (s, rest')

/-- Parts of a string, its closing quote and what stands behind it. -/
def inside (parts : List StringPart) (rest : List Piece) : List Piece :=
  chars (parts.flatMap StringPart.text) ++ .char '"' :: rest

theorem inside_cons (part : StringPart) (parts : List StringPart) (rest : List Piece) :
    inside (part :: parts) rest = chars part.text ++ inside parts rest := by
  simp [inside]

/-- Only an escaped unit begins like one. -/
theorem exists_unit_of_inside {parts : List StringPart} {more : List Piece}
    (h : inside parts rest = .char '\\' :: .char 'u' :: more) :
    ∃ q parts', parts = .unit q :: parts' ∧ more = chars q.digits ++ inside parts' rest := by
  cases parts with
  | nil => simp [inside] at h
  | cons part parts =>
    rw [inside_cons] at h
    cases part with
    | plain c hc =>
      simp only [StringPart.text, chars_cons, chars_nil, List.singleton_append, List.cons.injEq,
        Piece.char.injEq] at h
      exact absurd h.1 hc.2.2
    | short c hc =>
      simp only [StringPart.text, chars_cons, chars_nil, List.cons_append, List.cons.injEq,
        Piece.char.injEq] at h
      rw [h.2.1] at hc
      exact absurd hc (by decide)
    | unit q =>
      simp only [StringPart.text, chars_cons, List.cons_append, List.cons.injEq, true_and] at h
      exact ⟨q, parts, rfl, h.symm⟩

theorem codePoint_high_ne_ok {q : Quad} (hq : IsHighSurrogate q.value) {parts : List StringPart}
    (h : ∀ r parts', parts = .unit r :: parts' → ¬ IsLowSurrogate r.value)
    (y : Char × List Piece) : codePoint (chars q.digits ++ inside parts rest) ≠ .ok y := by
  intro hy
  obtain ⟨low, mid, hmid, hquad, hlow⟩ := codePoint_high hq hy
  obtain ⟨r, parts', rfl, rfl⟩ := exists_unit_of_inside hmid
  rw [hexQuad_quad] at hquad
  obtain ⟨rfl, -⟩ := Prod.mk.inj (Except.ok.inj hquad)
  exact h r parts' rfl hlow

/-- A string is read to its closing quote as what its parts stand for. -/
theorem completes_inside (parts : List StringPart) {n : Nat} (hn : parts.length < n)
    (read : List Char) (rest : List Piece) :
    Completes n read (inside parts rest) (content? parts) rest := by
  obtain ⟨n, rfl⟩ := Nat.exists_eq_add_one_of_ne_zero (Nat.ne_zero_of_lt hn)
  fun_induction content? parts generalizing read n with
  | case1 =>
    intro s rest'
    simp [inside, stringFrom]
  | case2 c hc parts ih =>
    obtain ⟨n, rfl⟩ := Nat.exists_eq_add_one_of_ne_zero (show n ≠ 0 by simp at hn; omega)
    rw [inside_cons]
    exact (ih (c :: read) n (by simpa using hn)).cons (stringFrom_plain hc _)
  | case3 c hc parts ih =>
    obtain ⟨n, rfl⟩ := Nat.exists_eq_add_one_of_ne_zero (show n ≠ 0 by simp at hn; omega)
    obtain ⟨hne, d, hd⟩ := exists_shortEscape hc
    rw [inside_cons, hd]
    exact (ih (d :: read) n (by simpa using hn)).cons (stringFrom_short hne hd _)
  | case4 q r parts hq hr ih =>
    simp only [List.length_cons] at hn
    obtain ⟨n, rfl⟩ := Nat.exists_eq_add_one_of_ne_zero (show n ≠ 0 by omega)
    rw [inside_cons, inside_cons]
    exact (ih _ n (by omega)).cons
      (stringFrom_codePoint (codePoint_pair q r hq hr _))
  | case5 q r parts hq hr =>
    rw [inside_cons]
    refine completes_none fun x => stringFrom_unit_ne_ok (codePoint_high_ne_ok hq ?_)
    rintro _ _ h
    obtain ⟨⟨rfl⟩, rfl⟩ := List.cons.inj h
    exact hr
  | case6 q r parts hq hlow =>
    rw [inside_cons]
    exact completes_none fun x => stringFrom_unit_ne_ok (codePoint_ne_ok_of_low q hlow _)
  | case7 q r parts hq hlow ih =>
    obtain ⟨n, rfl⟩ := Nat.exists_eq_add_one_of_ne_zero (show n ≠ 0 by simp at hn; omega)
    rw [inside_cons]
    exact (ih _ n (by simpa using hn)).cons (stringFrom_codePoint (codePoint_unit q hq hlow _))
  | case8 q parts hparts h =>
    rw [inside_cons]
    refine completes_none fun x => stringFrom_unit_ne_ok ?_
    rcases h with hq | hlow
    · exact codePoint_high_ne_ok hq fun r parts' h => (hparts r parts' h).elim
    · exact codePoint_ne_ok_of_low q hlow _
  | case9 q parts hparts h ih =>
    obtain ⟨n, rfl⟩ := Nat.exists_eq_add_one_of_ne_zero (show n ≠ 0 by simp at hn; omega)
    obtain ⟨hq, hlow⟩ := not_or.1 h
    rw [inside_cons]
    exact (ih _ n (by simpa using hn)).cons (stringFrom_codePoint (codePoint_unit q hq hlow _))

theorem text_ne_nil (part : StringPart) : part.text ≠ [] := by
  cases part <;> simp [StringPart.text]

theorem length_lt_inside (parts : List StringPart) (rest : List Piece) :
    parts.length < (inside parts rest).length := by
  induction parts with
  | nil => simp [inside]
  | cons part parts ih =>
    have hpos := List.length_pos_of_ne_nil (text_ne_nil part)
    rw [inside_cons, List.length_append, length_chars, List.length_cons]
    omega

/-- Behind its opening quote a string is read as what it stands for. -/
theorem gives_stringBody (parts : List StringPart) (rest : List Piece) :
    Gives stringBody (inside parts rest) (nameOf? parts) rest := by
  intro s rest'
  have hlen := length_lt_inside parts rest
  rw [reads_stringBody, completes_inside parts (by omega) [] rest s rest', nameOf?,
    Option.map_eq_some_iff, ← exists_and_right]
  simp [and_assoc]

/-! Numbers -/

/-- A reader takes a text from the front and gives the same for it whatever stands behind. -/
def Takes (r : Reader α) (t : List Char) : Prop :=
  ∃ out, ∀ rest, EndsNumber rest → Gives r (chars t ++ rest) out rest

theorem gives_realOf (positive : Bool) (significand : Nat) (e : Int) (text : List Piece) :
    Gives (realOf positive significand e) text ((doubleOf positive significand e).map .real)
      text := by
  unfold realOf
  cases doubleOf positive significand e with
  | none => exact gives_none fun _ _ => reads_stop
  | some x => exact gives_pure

theorem takes_realOf (positive : Bool) (significand : Nat) (e : Int) :
    Takes (realOf positive significand e) [] :=
  ⟨_, fun rest _ => gives_realOf positive significand e rest⟩

theorem front_chars {ds : List Char} (h : IsDigits ds) (rest : List Piece) :
    ∃ c, front (chars ds ++ rest) = some c ∧ c.isDigit = true := by
  obtain ⟨c, ds', rfl⟩ := List.exists_cons_of_ne_nil h.1
  exact ⟨c, rfl, h.2 c List.mem_cons_self⟩

theorem takes_exponentDigits (positive : Bool) (significand : Nat) (scale : Int) (up : Bool)
    {ds : List Char} (h : IsDigits ds) :
    Takes (exponentDigits positive significand scale up) ds := by
  refine ⟨if (absorbExponent 0 ds).2.isEmpty then
      (doubleOf positive significand (if up then scale + (absorbExponent 0 ds).1
        else scale - (absorbExponent 0 ds).1)).map .real
    else if significand != 0 && up then none
    else some (.real (if positive then 0.0 else -0.0)), fun rest hrest => ?_⟩
  obtain ⟨c, hc, hdigit⟩ := front_chars h rest
  have hds := reads_digits h.2 fun c hc => (hrest c hc).1
  unfold exponentDigits
  refine gives_peek ?_
  rw [hc]
  dsimp only
  rw [if_neg (by simp [hdigit])]
  refine Reads.gives_bind (reads_get.2 ⟨rfl, rfl⟩) (hds.gives_bind ?_)
  split
  · exact gives_realOf _ _ _ _
  · split
    · exact gives_none fun _ _ => reads_throw
    · exact gives_pure

theorem exponentPart_eq (positive : Bool) (significand : Nat) (scale : Int) :
    exponentPart positive significand scale = (do
      skip
      match ← peek with
      | some '+' => skip; exponentDigits positive significand scale true
      | some '-' => skip; exponentDigits positive significand scale false
      | _ => exponentDigits positive significand scale true) := rfl

theorem takes_exponentPart (positive : Bool) (significand : Nat) (scale : Int) (x : Exponent) :
    Takes (exponentPart positive significand scale) x.text := by
  obtain ⟨letter, sign, ds, hletter, hsign, hds⟩ := x
  cases sign with
  | some c =>
    rcases hsign c rfl with rfl | rfl
    · obtain ⟨out, hout⟩ := takes_exponentDigits positive significand scale true hds
      exact ⟨out, fun rest hrest => gives_skip (gives_peek (gives_skip (hout rest hrest)))⟩
    · obtain ⟨out, hout⟩ := takes_exponentDigits positive significand scale false hds
      exact ⟨out, fun rest hrest => gives_skip (gives_peek (gives_skip (hout rest hrest)))⟩
  | none =>
    obtain ⟨out, hout⟩ := takes_exponentDigits positive significand scale true hds
    refine ⟨out, fun rest hrest => ?_⟩
    obtain ⟨c, hc, hdigit⟩ := front_chars hds rest
    change Gives _ (.char letter :: (chars ds ++ rest)) _ _
    rw [exponentPart_eq]
    refine gives_skip (gives_peek ?_)
    rw [hc]
    split
    · exact absurd hdigit (by simp_all)
    · exact absurd hdigit (by simp_all)
    · exact hout rest hrest

/-- Neither a digit nor a point stands behind the digits of a fraction. -/
theorem front_exponent (exponent : Option Exponent) {c : Char} (hrest : EndsNumber rest)
    (h : front (chars (exponent.elim [] Exponent.text) ++ rest) = some c) :
    c.isDigit = false ∧ c ≠ '.' := by
  cases exponent with
  | some x =>
    obtain rfl : x.letter = c := Option.some.inj h
    rcases x.letter_eq with hx | hx <;> rw [hx] <;> decide
  | none => exact ⟨(hrest c h).1, (hrest c h).2.1⟩

theorem front_tailText (fraction : Option (List Char)) (exponent : Option Exponent) {c : Char}
    (hrest : EndsNumber rest) (h : front (chars (tailText fraction exponent) ++ rest) = some c) :
    c.isDigit = false := by
  cases fraction with
  | some ds =>
    obtain rfl : '.' = c := Option.some.inj h
    rfl
  | none => exact (front_exponent exponent hrest h).1

/-- A number ends with its exponent, or without one. -/
theorem takes_ending (positive : Bool) (significand : Nat) (scale : Int)
    (exponent : Option Exponent) {last : Reader Json} (hlast : Takes last []) :
    Takes (peek >>= fun c => match c with
      | some 'e' | some 'E' => exponentPart positive significand scale
      | _ => last) (exponent.elim [] Exponent.text) := by
  cases exponent with
  | some x =>
    obtain ⟨out, hout⟩ := takes_exponentPart positive significand scale x
    refine ⟨out, fun rest hrest => gives_peek ?_⟩
    change Gives (match some x.letter with | some 'e' | some 'E' => _ | _ => _) _ _ _
    rcases x.letter_eq with hx | hx
    · rw [hx]
      exact hout rest hrest
    · rw [hx]
      exact hout rest hrest
  | none =>
    obtain ⟨out, hout⟩ := hlast
    refine ⟨out, fun rest hrest => gives_peek ?_⟩
    split
    · exact absurd rfl (hrest _ ‹_›).2.2.1
    · exact absurd rfl (hrest _ ‹_›).2.2.2
    · exact hout rest hrest

theorem takes_fractionPart (positive : Bool) (significand : Nat) (scale : Int) {ds : List Char}
    (hds : IsDigits ds) (exponent : Option Exponent) :
    Takes (fractionPart positive significand scale) (tailText (some ds) exponent) := by
  have hlast := takes_realOf positive (absorb significand ds).1
    (scale - ((ds.length - (absorb significand ds).2.length : Nat) : Int))
  obtain ⟨out, hout⟩ := takes_ending positive (absorb significand ds).1
    (scale - ((ds.length - (absorb significand ds).2.length : Nat) : Int)) exponent hlast
  refine ⟨out, fun rest hrest => gives_skip ?_⟩
  have hread := reads_digits hds.2 fun c hc => (front_exponent exponent hrest hc).1
  change Gives _ (chars (ds ++ exponent.elim [] Exponent.text) ++ rest) _ _
  rw [chars_append, List.append_assoc]
  refine hread.gives_bind ?_
  rw [if_neg (by simp [hds.1])]
  exact hout rest hrest

/-- How a number without fraction and exponent is read. -/
def wholeNumber (positive : Bool) (significand : Nat) (excess : List Char) : Reader Json :=
  if !excess.isEmpty then realOf positive significand excess.length
  else if positive then return .integer significand
  else if significand == 0 || 0x8000000000000000 < significand then realOf false significand 0
  else return .integer (-(significand : Int))

theorem takes_wholeNumber (positive : Bool) (significand : Nat) (excess : List Char) :
    Takes (wholeNumber positive significand excess) [] := by
  unfold wholeNumber
  split
  · exact takes_realOf _ _ _
  · split
    · exact ⟨_, fun rest _ => gives_pure⟩
    · split
      · exact takes_realOf _ _ _
      · exact ⟨_, fun rest _ => gives_pure⟩

/-- How a number is read behind its whole digits. -/
def afterWhole (positive : Bool) (significand : Nat) (excess : List Char) : Reader Json := do
  match ← peek with
  | some '.' => fractionPart positive significand excess.length
  | some 'e' | some 'E' => exponentPart positive significand excess.length
  | _ => wholeNumber positive significand excess

theorem takes_afterWhole (positive : Bool) (significand : Nat) (excess : List Char)
    {fraction : Option (List Char)} (hfraction : ∀ ds ∈ fraction, IsDigits ds)
    (exponent : Option Exponent) :
    Takes (afterWhole positive significand excess) (tailText fraction exponent) := by
  unfold afterWhole
  cases fraction with
  | some ds =>
    obtain ⟨out, hout⟩ := takes_fractionPart positive significand excess.length
      (hfraction ds rfl) exponent
    exact ⟨out, fun rest hrest => gives_peek (hout rest hrest)⟩
  | none =>
    obtain ⟨out, hout⟩ := takes_ending positive significand excess.length exponent
      (takes_wholeNumber positive significand excess)
    refine ⟨out, fun rest hrest => gives_peek ?_⟩
    have hgives := gives_peek_iff.1 (hout rest hrest)
    rw [show tailText none exponent = exponent.elim [] Exponent.text from rfl]
    split
    · exact absurd rfl (front_exponent exponent hrest ‹_›).2
    · rename_i hc
      rwa [hc] at hgives
    · rename_i hc
      rwa [hc] at hgives
    · rename_i _ he hE
      split at hgives
      · exact (he ‹_›).elim
      · exact (hE ‹_›).elim
      · exact hgives

theorem takes_number (n : Number) (positive : Bool) :
    Takes (number positive) (n.whole ++ tailText n.fraction n.exponent) := by
  obtain ⟨minus, whole, fraction, exponent, hwhole, hzero, hfraction⟩ := n
  obtain ⟨out, hout⟩ := takes_afterWhole positive (absorb 0 whole).1 (absorb 0 whole).2 hfraction
    exponent
  refine ⟨out, fun rest hrest => ?_⟩
  have hread := reads_digits hwhole.2 fun c hc =>
    front_tailText fraction exponent hrest hc
  change Gives _ (chars (whole ++ tailText fraction exponent) ++ rest) _ _
  rw [chars_append, List.append_assoc]
  unfold number
  refine hread.gives_bind ?_
  split
  · exact absurd rfl hwhole.1
  · exact absurd (hzero _ rfl) (by simp)
  · exact hout rest hrest

/-- What is taken is what is read where nothing stands behind. -/
theorem Takes.gives {r : Reader α} {t : List Char} (h : Takes r t) (hrest : EndsNumber rest) :
    Gives r (chars t ++ rest) ((r (chars t)).toOption.map Prod.fst) rest := by
  obtain ⟨out, hout⟩ := h
  have halone := hout [] endsNumber_nil
  suffices hsame : (r (chars t)).toOption.map Prod.fst = out by
    rw [hsame]
    exact hout rest hrest
  rw [List.append_nil] at halone
  cases hr : r (chars t) with
  | ok p =>
    exact (halone p.1 p.2).1 hr |>.1.symm
  | error s =>
    cases out with
    | none => rfl
    | some x =>
      have hx : r (chars t) = .ok (x, []) := (halone x []).2 ⟨rfl, rfl⟩
      exact absurd (hr.symm.trans hx) (by simp)

/-! Tokens -/

theorem gives_word (cs : List Char) {j : Json} (rest : List Piece) :
    Gives (word cs >>= fun _ => pure j) (chars cs ++ rest) (some j) rest :=
  (reads_word cs rest).gives_bind gives_pure

/-- A token is read as the document it stands for, whatever stands behind it. -/
theorem gives_scalar (t : Token) (hrest : EndsNumber rest) :
    ∃ c cs, t.text = c :: cs ∧ isSpace (.char c) = false ∧ c ∉ ['[', '\x7b', ']'] ∧
      Gives (scalar c) (chars t.text ++ rest) t.document? rest := by
  cases t with
  | null => exact ⟨'n', _, rfl, rfl, by decide, gives_skip (gives_word ['u', 'l', 'l'] rest)⟩
  | bool b =>
    cases b with
    | true => exact ⟨'t', _, rfl, rfl, by decide, gives_skip (gives_word ['r', 'u', 'e'] rest)⟩
    | false =>
      exact ⟨'f', _, rfl, rfl, by decide, gives_skip (gives_word ['a', 'l', 's', 'e'] rest)⟩
  | string parts =>
    refine ⟨'"', _, rfl, rfl, by decide, ?_⟩
    have htext : chars (Token.string parts).text ++ rest = .char '"' :: inside parts rest := by
      simp [Token.text, quoted, inside]
    rw [htext]
    exact gives_skip (gives_stringBody parts rest).map
  | number n =>
    have htakes := (takes_number n (!n.minus)).gives hrest
    obtain ⟨minus, whole, fraction, exponent, hwhole, hzero, hfraction⟩ := n
    cases minus with
    | true => exact ⟨'-', _, rfl, rfl, by decide, gives_skip htakes⟩
    | false =>
      obtain ⟨d, ds, rfl⟩ := List.exists_cons_of_ne_nil hwhole.1
      have hdigit : d.isDigit = true := hwhole.2 d List.mem_cons_self
      refine ⟨d, _, rfl, (plain_of_isDigit hdigit).1, (plain_of_isDigit hdigit).2, ?_⟩
      rw [scalar_digit hdigit]
      exact htakes

end Bindery.Json
