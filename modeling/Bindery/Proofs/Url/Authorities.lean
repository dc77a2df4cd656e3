import Bindery.Proofs.Splitting
import Bindery.Proofs.Steps
import Bindery.Url.Reference

/-!
# Authorities of server URLs

An authority is read without regard to what follows it. It never ends in a blank or a control
character: neither a host nor a port does.
-/
namespace Bindery

open Text

/-! Characters at the end of a text -/

/-- A blank or a control character, which does not count at the ends of a URL. -/
def Url.isMargin (c : Char) : Bool := c ≤ ' '

namespace Text

/-- Bytes that follow a lead byte are no ASCII. -/
def Following (ranges : List (Nat × Nat)) : Prop := ∀ r ∈ ranges, 0x80 ≤ r.1

theorem following_nil : Following [] := List.forall_mem_nil _

theorem following_followers {lead : Nat} {ranges : List (Nat × Nat)}
    (h : followers lead = some ranges) : Following ranges := by
  unfold followers at h
  unfold Following
  split_ifs at h <;> cases h <;> simp

/-- What comes of bytes that start a character of their own. -/
def started (b : UInt8) (rest : List UInt8) : List Piece :=
  match followers b.toNat with
  | none => .broken [b] :: piecesFrom [] [] rest
  | some [] => .char (charOfBytes [b]) :: piecesFrom [] [] rest
  | some more => piecesFrom [b] more rest

theorem piecesFrom_started (held : List UInt8) (b : UInt8) (rest : List UInt8) :
    piecesFrom held [] (b :: rest) = started b rest := by
  cases held <;> rw [piecesFrom.eq_def] <;> rfl

theorem piecesFrom_expected (held : List UInt8) (low high : Nat) (more : List (Nat × Nat)) (b : UInt8)
    (rest : List UInt8) : piecesFrom held ((low, high) :: more) (b :: rest) =
      if low ≤ b.toNat && b.toNat ≤ high then
        if more = [] then .char (charOfBytes (b :: held).reverse) :: piecesFrom [] [] rest
        else piecesFrom (b :: held) more rest
      else .broken held.reverse :: started b rest := by
  cases held <;> cases more <;> rw [piecesFrom.eq_def] <;> rfl

/-- An ASCII byte at the end is read as a character of its own. -/
theorem exists_piecesFrom_concat (held : List UInt8) {ranges : List (Nat × Nat)}
    (hranges : Following ranges) (bytes : List UInt8) {b : UInt8} (hb : b.toNat < 0x80) :
    ∃ ps, piecesFrom held ranges (bytes ++ [b]) = ps ++ [.char (charOfBytes [b])] := by
  have hlast : started b [] = [.char (charOfBytes [b])] := by
    simp [started, followers, hb, piecesFrom]
  induction bytes generalizing held ranges with
  | nil =>
    cases ranges with
    | nil => exact ⟨[], by rw [List.nil_append, piecesFrom_started, hlast]; rfl⟩
    | cons r more =>
      have hlow : ¬ r.1 ≤ b.toNat := by
        have := hranges r (by simp)
        omega
      refine ⟨[.broken held.reverse], ?_⟩
      rw [List.nil_append, piecesFrom_expected, if_neg (by simp [hlow]), hlast]
      rfl
  | cons d rest ih =>
    obtain ⟨qs, hqs⟩ := ih [] following_nil
    have hstarted : ∃ ps, started d (rest ++ [b]) = ps ++ [.char (charOfBytes [b])] := by
      unfold started
      split
      · exact ⟨.broken [d] :: qs, by rw [hqs]; rfl⟩
      · exact ⟨.char (charOfBytes [d]) :: qs, by rw [hqs]; rfl⟩
      · rename_i more _ hmore
        exact ih [d] (following_followers hmore)
    obtain ⟨ps, hps⟩ := hstarted
    rw [List.cons_append]
    cases ranges with
    | nil => exact ⟨ps, by rw [piecesFrom_started, hps]⟩
    | cons r more =>
      rw [piecesFrom_expected]
      split_ifs
      · exact ⟨.char (charOfBytes (d :: held).reverse) :: qs, by rw [hqs]; rfl⟩
      · exact ih (d :: held) fun x hx => hranges x (by simp [hx])
      · exact ⟨.broken held.reverse :: ps, by rw [hps]; rfl⟩

/-- A character at the end that is no hexadecimal digit is never part of an escape. -/
theorem exists_unescape_last {s : List Char} {c : Char} (hc : hexValue? c = none)
    (hs : s.getLast? = some c) : ∃ bytes, unescape s = bytes ++ String.utf8EncodeChar c := by
  fun_induction unescape s with
  | case1 a b rest high low ha hb ih =>
    cases rest with
    | nil =>
      obtain rfl : b = c := by simpa using hs
      simp [hc] at *
    | cons d rest =>
      obtain ⟨bytes, hbytes⟩ := ih (by simpa using hs)
      exact ⟨_ :: bytes, by rw [hbytes]; rfl⟩
  | case2 a b rest _ ih =>
    obtain ⟨bytes, hbytes⟩ := ih (by simpa using hs)
    exact ⟨_ :: bytes, by rw [hbytes]; rfl⟩
  | case3 d rest _ ih =>
    cases rest with
    | nil =>
      obtain rfl : d = c := by simpa using hs
      exact ⟨[], by simp [unescape]⟩
    | cons e rest =>
      obtain ⟨bytes, hbytes⟩ := ih (by simpa using hs)
      exact ⟨_ ++ bytes, by rw [hbytes, List.append_assoc]⟩
  | case4 => simp at hs

end Text

namespace Url

variable {c : Char}

theorem isMargin_iff : isMargin c = true ↔ c.toNat ≤ 32 := by
  simp [isMargin, Char.le_def, UInt32.le_iff_toNat_le]

/-- What holds of the first characters holds of each that does not count. -/
theorem of_isMargin {p : Char → Bool} (h : ∀ n < 33, p (Char.ofNat n) = true)
    (hc : isMargin c = true) : p c = true := by
  have hchar := h c.toNat (by have := isMargin_iff.1 hc; omega)
  rwa [Char.ofNat_toNat] at hchar

theorem hexValue?_of_isMargin (hc : isMargin c = true) : hexValue? c = none := by
  simpa using of_isMargin (p := fun c => (hexValue? c).isNone) (by decide) hc

theorem mapped_of_isMargin (hc : isMargin c = true) :
    ∃ d, mapped c = [d] ∧ isDomainChar d = false ∧ d ≠ '.' := by
  have h := of_isMargin (p := fun c => (mapped c).length == 1 &&
    (mapped c).all fun d => !isDomainChar d && d != '.') (by decide +kernel) hc
  rw [Bool.and_eq_true, beq_iff_eq, List.length_eq_one_iff] at h
  obtain ⟨⟨d, hd⟩, hall⟩ := h
  exact ⟨d, hd, by simpa [hd] using hall⟩

theorem charOfBytes_of_isMargin (hc : isMargin c = true) :
    ∃ b : UInt8, String.utf8EncodeChar c = [b] ∧ b.toNat < 0x80 ∧ charOfBytes [b] = c := by
  have h := of_isMargin (p := fun c => (String.utf8EncodeChar c).length == 1 &&
    (String.utf8EncodeChar c).all fun b => b.toNat < 0x80 && charOfBytes [b] == c)
    (by decide +kernel) hc
  rw [Bool.and_eq_true, beq_iff_eq, List.length_eq_one_iff] at h
  obtain ⟨⟨b, hb⟩, hall⟩ := h
  exact ⟨b, hb, by simpa [hb] using hall⟩

theorem asciiLabel?_eq_none {label : List Char} {d : Char} (hd : d ∈ label)
    (h : isDomainChar d = false) : asciiLabel? label = none := by
  have hlabel : isLabel label = false := by
    rw [isLabel, List.all_eq_false.2 ⟨d, hd, by simp [h]⟩, Bool.false_and]
  simp [asciiLabel?, hlabel]

/-- No domain name ends in such a character. -/
theorem asciiDomain?_of_isMargin {s : List Char} (hs : s.getLast? = some c)
    (hc : isMargin c = true) : asciiDomain? (unescape s) = none := by
  obtain ⟨bytes, hbytes⟩ := exists_unescape_last (hexValue?_of_isMargin hc) hs
  obtain ⟨b, hencoded, hb, hchar⟩ := charOfBytes_of_isMargin hc
  obtain ⟨ps, hps⟩ := exists_piecesFrom_concat [] following_nil bytes hb
  obtain ⟨d, hmapped, hdomain, hdot⟩ := mapped_of_isMargin hc
  rw [hbytes, hencoded, asciiDomain?, piecesOfBytes, hps, hchar, whole?, List.mapM_append]
  cases ps.mapM Piece.char? with
  | none => rfl
  | some cs =>
    obtain ⟨w, hw, hdw⟩ := exists_mem_splitBy (p := (· == '.')) (s := (cs ++ [c]).flatMap mapped)
      (d := d) (by simp [hmapped]) (by simp [hdot])
    change (splitBy (· == '.') ((String.ofList (cs ++ [c])).toList.flatMap mapped)).mapM asciiLabel?
      >>= _ = none
    rw [String.toList_ofList, mapM_eq_none hw (asciiLabel?_eq_none hdw hdomain)]
    rfl

/-- No host ends in such a character. -/
theorem parse_of_isMargin {s : List Char} (hs : s.getLast? = some c) (hc : isMargin c = true)
    (host : Host) : Host.parse s ≠ .ok host := by
  unfold Host.parse
  split
  · have hbracket : c ≠ ']' := by
      rintro rfl
      cases hc
    simp [Host.bracketed, hs, hbracket]
  · simp [asciiDomain?_of_isMargin hs hc]

/-! Authorities -/

variable {scheme : String} {a : Authority} {whole rest r s : List Char}

/-- A character of an authority. -/
def inAuthority (scheme : String) (c : Char) : Bool := beforePathEnd c && !isSlash scheme c

/-- The port behind a host. -/
def portOf (scheme : String) : List Char → Except Fault (Option Nat)
  | ':' :: digits => (readPort scheme digits).map (·.1)
  | _ => .ok none

/-- The authority that a text without slashes names. -/
def authorityOf (scheme : String) (whole : List Char) : Except Fault Authority := do
  let (login, behind) := splitLogin whole
  let (user, password) := (login.getD []).span (· != ':')
  let (hostText, after) := splitHost false behind
  if hostText.isEmpty then throw .emptyHost
  let host ← Host.parse hostText
  let port ← portOf scheme after
  return ⟨escaped loginEscapes user, escaped loginEscapes password.tail, host, port⟩

/-- A port consists of digits. -/
theorem readPort_eq_ok {digits : List Char} {port : Option Nat} (hno : '\\' ∉ digits)
    (h : readPort scheme digits = .ok (port, r)) : r = [] ∧ ∀ c ∈ digits, isDigit c = true := by
  unfold readPort at h
  rw [List.span_eq_takeWhile_dropWhile] at h
  dsimp only at h
  split at h
  · cases h
  · rename_i hok
    obtain ⟨-, rfl⟩ := Prod.mk.inj (Except.ok.inj h)
    have hnil : digits.dropWhile isDigit = [] := by
      cases hdrop : digits.dropWhile isDigit with
      | nil => rfl
      | cons c more =>
        have hmem : c ∈ digits := (List.dropWhile_suffix isDigit).subset (by simp [hdrop])
        rw [hdrop] at hok
        have hc : c ≠ '\\' := by
          rintro rfl
          exact hno hmem
        simp [hc] at hok
    exact ⟨hnil, by simpa [List.dropWhile_eq_nil_iff] using hnil⟩

/-- A host is followed by nothing or by a colon. -/
theorem splitHost_eq {inside : Bool} {host after : List Char} (h : splitHost inside s = (host, after)) :
    s = host ++ after ∧ ∀ c ∈ after.head?, c = ':' := by
  induction s generalizing inside host after with
  | nil =>
    cases h
    simp
  | cons c rest ih =>
    unfold splitHost at h
    split at h
    · rename_i hcolon
      cases h
      simp only [Bool.and_eq_true, beq_iff_eq] at hcolon
      simpa using hcolon.1
    · cases hrest : splitHost (c == '[' || (inside && c != ']')) rest with
      | mk front back =>
        obtain ⟨rfl, hback⟩ := ih hrest
        rw [hrest] at h
        cases h
        exact ⟨rfl, hback⟩

theorem splitLogin_suffix (s : List Char) : (splitLogin s).2 <:+ s := by
  have hbehind : (s.reverse.takeWhile (· != '@')).reverse <:+ s := by
    rw [← List.reverse_prefix, List.reverse_reverse]
    exact List.takeWhile_prefix _
  unfold splitLogin
  dsimp only
  split
  · exact List.suffix_refl s
  · exact hbehind

theorem readAuthority_eq_ok_iff (hs : isServer scheme = true) (hno : '\\' ∉ whole)
    (hspan : s.span (inAuthority scheme) = (whole, rest)) :
    readAuthority scheme s = .ok (a, r) ↔ authorityOf scheme whole = .ok a ∧ r = rest := by
  have hspan' : s.span (fun c => beforePathEnd c && !isSlash scheme c) = (whole, rest) := hspan
  have hknown : isKnown scheme = true := by simp [isKnown, hs]
  have hbehind := (splitLogin_suffix whole).subset
  unfold readAuthority authorityOf
  simp only [hspan', hs, hknown, Bool.and_true, if_true]
  generalize splitLogin whole = login at hbehind ⊢
  generalize hhost : splitHost false login.2 = host
  generalize List.span (fun x => x != ':') (login.1.getD []) = names
  obtain ⟨login, behind⟩ := login
  obtain ⟨hostText, after⟩ := host
  obtain ⟨user, password⟩ := names
  obtain ⟨hparts, hcolon⟩ := splitHost_eq hhost
  dsimp only at hbehind hparts ⊢
  cases hempty : hostText.isEmpty with
  | true =>
    simp only [check_eq_ok_iff]
    simp
  | false =>
    have hne : behind.isEmpty = false := by
      rw [hparts]
      cases hostText with
      | nil => cases hempty
      | cons c more => rfl
    simp only [hne, Bool.and_false, Bool.false_and, Bool.false_eq_true, if_false]
    cases Host.parse hostText with
    | error why => simp [bind, Except.bind]
    | ok host =>
      cases after with
      | nil =>
        simp only [portOf, bind, Except.bind, pure, Except.pure]
        simp [eq_comm]
      | cons c digits =>
        obtain rfl : c = ':' := hcolon c (by simp)
        have hport : '\\' ∉ digits := fun hmem => hno (hbehind (by simp [hparts, hmem]))
        cases hread : readPort scheme digits with
        | error why => simp [portOf, hread, bind, Except.bind, Except.map]
        | ok pair =>
          obtain ⟨port, more⟩ := pair
          obtain ⟨rfl, -⟩ := readPort_eq_ok hport hread
          simp [portOf, hread, bind, Except.bind, Except.map, pure, Except.pure, eq_comm]

theorem getLast?_splitLogin (hlast : s.getLast? = some c) (hat : c ≠ '@') :
    (splitLogin s).2.getLast? = some c := by
  have htake : ((s.reverse.takeWhile (· != '@')).reverse).getLast? = some c := by
    rw [List.getLast?_reverse]
    rw [← List.head?_reverse] at hlast
    obtain ⟨more, hmore⟩ := List.head?_eq_some_iff.1 hlast
    simp [hmore, hat]
  unfold splitLogin
  dsimp only
  split
  · exact hlast
  · exact htake

/-- No authority ends in a blank or a control character. -/
theorem authorityOf_of_isMargin (hno : '\\' ∉ whole) (hlast : whole.getLast? = some c)
    (hc : isMargin c = true) : authorityOf scheme whole ≠ .ok a := by
  have hne : c ≠ '@' ∧ c ≠ ':' ∧ isDigit c = false := by
    have h := of_isMargin (p := fun c => c != '@' && c != ':' && !isDigit c) (by decide) hc
    simpa [and_assoc] using h
  obtain ⟨hat, hcolon', hdigit⟩ := hne
  have hbehind := getLast?_splitLogin hlast hat
  have hsub := (splitLogin_suffix whole).subset
  intro h
  unfold authorityOf at h
  dsimp only at h
  cases hhost : splitHost false (splitLogin whole).2 with
  | mk hostText after =>
    obtain ⟨hparts, hcolon⟩ := splitHost_eq hhost
    simp only [hhost, check_eq_ok_iff, bind_eq_ok_iff] at h
    obtain ⟨-, host, hparse, port, hport, -⟩ := h
    rw [hparts] at hbehind hsub
    cases after with
    | nil =>
      rw [List.append_nil] at hbehind
      exact parse_of_isMargin hbehind hc host hparse
    | cons d digits =>
      obtain rfl : d = ':' := hcolon d (by simp)
      have hdigits : digits.getLast? = some c := by
        cases digits with
        | nil =>
          simp only [List.getLast?_append, List.getLast?_singleton, Option.some_or,
            Option.some.injEq] at hbehind
          exact absurd hbehind.symm hcolon'
        | cons e more => simpa [List.getLast?_append] using hbehind
      have hmem := List.mem_of_getLast? hdigits
      change (readPort scheme digits).map (·.1) = .ok port at hport
      cases hread : readPort scheme digits with
      | error why =>
        rw [hread] at hport
        cases hport
      | ok pair =>
        obtain ⟨-, hall⟩ := readPort_eq_ok (fun h => hno (hsub (by simp [h]))) hread
        rw [hall c hmem] at hdigit
        cases hdigit

end Url

end Bindery
