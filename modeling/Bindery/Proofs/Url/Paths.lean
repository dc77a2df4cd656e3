import Bindery.Proofs.Url.Authorities

/-!
# Paths of server URLs

The segments of a path are followed one by one, and only the last one is closed when it is dots. So
a slash behind a path adds an empty segment to what the path leads to, unless the path ends in one
already.
-/
namespace Bindery

open Text

/-- A text is cut at its end as if the pieces before were not there. -/
theorem Text.exists_splitBy_concat (p : Char → Bool) (s : List Char) : ∃ front last,
    (∀ t, (∀ c ∈ t, p c = false) → splitBy p (s ++ t) = front ++ [last ++ t]) ∧
      (last = [] ↔ ∀ c ∈ s.getLast?, p c = true) := by
  have hlast : ∀ c ∈ s.rtakeWhile (!p ·), p c = false := fun c hc => by
    simpa using List.mem_rtakeWhile_imp hc
  have hparts := List.rdropWhile_append_rtakeWhile (p := (!p ·)) (l := s)
  have hends : s.rtakeWhile (!p ·) = [] ↔ ∀ c ∈ s.getLast?, p c = true := by
    rw [List.rtakeWhile_eq_nil_iff]
    constructor
    · intro h c hc
      obtain ⟨hne, rfl⟩ := List.mem_getLast?_eq_getLast hc
      simpa using h hne
    · intro h hne
      simpa using h _ (List.getLast?_eq_some_getLast hne)
  rcases List.eq_nil_or_concat (s.rdropWhile (!p ·)) with hnil | ⟨t, d, htd⟩
  · refine ⟨[], s.rtakeWhile (!p ·), fun t ht => ?_, hends⟩
    rw [hnil, List.nil_append] at hparts
    rw [hparts] at hlast ⊢
    exact splitBy_of_all fun c hc => (List.mem_append.1 hc).elim (hlast c) (ht c)
  · have hd : p d = true := by
      have h := List.rdropWhile_last_not (!p ·) s (by simp [htd])
      simpa [htd] using h
    refine ⟨splitBy p t, s.rtakeWhile (!p ·), fun w hw => ?_, hends⟩
    conv_lhs => rw [← hparts, htd]
    rw [List.concat_eq_append, List.append_assoc, List.append_assoc, List.singleton_append,
      splitBy_append hd,
      splitBy_of_all fun c hc => (List.mem_append.1 hc).elim (hlast c) (hw c)]

namespace Url

variable {scheme : String} {done : List String} {front : List (List Char)} {s last : List Char}

/-! Segments -/

def isDots (s : List Char) : Bool := isDoubleDot s || isSingleDot s

/-- The segments after one more, all in reverse. -/
def enter (done : List String) (s : List Char) : List String :=
  if isDoubleDot s then done.tail
  else if isSingleDot s then done
  else escaped pathEscapes s :: done

theorem up_eq_tail (hf : isFile scheme = false) (done : List String) :
    up scheme done = done.tail := by
  match done with
  | [] => rfl
  | [_] => simp [up, hf]
  | _ :: _ :: _ => rfl

theorem follow_cons (hf : isFile scheme = false) (hne : front ≠ []) :
    follow scheme done (s :: front) = follow scheme (enter done s) front := by
  rw [follow, List.isEmpty_eq_false_iff.2 hne]
  simp [enter, up_eq_tail hf, down, hf]

theorem follow_singleton (hf : isFile scheme = false) : follow scheme done [s] =
    if isDots s then "" :: enter done s else enter done s := by
  rw [follow, follow, isDots, enter, down, hf, up_eq_tail hf]
  rcases Bool.eq_false_or_eq_true (isDoubleDot s) with hdouble | hdouble
  · simp [hdouble]
  · rcases Bool.eq_false_or_eq_true (isSingleDot s) with hsingle | hsingle <;> simp [hdouble, hsingle]

/-- Only the last segment is closed. -/
theorem follow_concat (hf : isFile scheme = false) : follow scheme done (front ++ [last]) =
    if isDots last then "" :: enter (front.foldl enter done) last
    else enter (front.foldl enter done) last := by
  induction front generalizing done with
  | nil => exact follow_singleton hf
  | cons s rest ih => rw [List.cons_append, follow_cons hf (by simp), ih, List.foldl_cons]

theorem enter_of_not_isDots (h : isDots s = false) :
    enter done s = escaped pathEscapes s :: done := by
  rw [isDots, Bool.or_eq_false_iff] at h
  rw [enter, h.1, h.2]
  rfl

/-- Dots never go down. -/
theorem length_enter_of_isDots (h : isDots s = true) : (enter done s).length ≤ done.length := by
  rw [isDots, Bool.or_eq_true] at h
  unfold enter
  split_ifs with hdouble hsingle
  · simp
  · exact le_rfl
  · simp [hdouble, hsingle] at h

theorem not_isDots_nil : isDots [] = false := by decide

/-- No blank or control character is part of dots. -/
theorem not_isDots_of_isMargin {c : Char} (hmem : c ∈ s) (hc : isMargin c = true) :
    isDots s = false := by
  have hno : ∀ d ∈ dots, c ∉ d := by
    have h := of_isMargin (p := fun c => dots.all (!·.contains c)) (by decide) hc
    simpa using h
  rw [isDots, Bool.or_eq_false_iff]
  constructor
  · rw [isDoubleDot, List.any_eq_false]
    intro a ha hany
    obtain ⟨b, hb, hs⟩ := List.any_eq_true.1 hany
    rw [← beq_iff_eq.1 hs] at hmem
    exact (List.mem_append.1 hmem).elim (hno a ha) (hno b hb)
  · rw [isSingleDot, List.contains_eq_mem, decide_eq_false_iff_not]
    exact fun hs => hno s hs hmem

/-! Escaped segments -/

theorem escape_append (keep : Char → Bool) (s t : List Char) :
    escape keep (s ++ t) = escape keep s ++ escape keep t := List.flatMap_append

theorem escape_eq_nil_iff {keep : Char → Bool} {s : List Char} : escape keep s = [] ↔ s = [] := by
  constructor
  · intro h
    cases s with
    | nil => rfl
    | cons c rest =>
      rw [escape, List.flatMap_cons, List.append_eq_nil_iff] at h
      obtain ⟨h, -⟩ := h
      split at h
      · cases h
      · obtain ⟨b, more, hb⟩ := List.exists_cons_of_ne_nil (l := String.utf8EncodeChar c)
          (by simp [← List.length_eq_zero_iff, Char.utf8Size_pos c |>.ne'])
        simp [hb, escapeByte] at h
  · rintro rfl
    rfl

theorem escaped_eq_empty_iff {escapes : List Char} : escaped escapes s = "" ↔ s = [] := by
  rw [escaped, ← String.toList_eq_nil_iff, String.toList_ofList, escape_eq_nil_iff]

theorem escaped_append_ne {escapes t : List Char} (ht : t ≠ []) :
    escaped escapes (s ++ t) ≠ escaped escapes s := by
  intro h
  have h' := congrArg String.toList h
  rw [escaped, escaped, String.toList_ofList, String.toList_ofList, escape_append] at h'
  exact ht (escape_eq_nil_iff.1 (List.append_right_eq_self.1 h'))

/-! Paths -/

/-- The segments that a path leads to, written without the slash at its start. -/
def pathOf (scheme : String) (s : List Char) : List String :=
  (follow scheme [] (splitBy (isSlash scheme) s)).reverse

/-- The segments without the empty one at the end that a slash makes. -/
def trunk (segments : List String) : List String :=
  if segments.getLast? = some "" then segments.dropLast else segments

theorem trunk_concat_empty (segments : List String) : trunk (segments ++ [""]) = segments := by
  simp [trunk]

theorem trunk_concat {segments : List String} {x : String} (h : x ≠ "") :
    trunk (segments ++ [x]) = segments ++ [x] := by
  simp [trunk, h]

theorem dropLast_eq_trunk_iff {segments : List String} (hne : segments ≠ []) :
    segments.dropLast = trunk segments ↔ segments.getLast? = some "" := by
  unfold trunk
  split_ifs with h
  · simp [h]
  · simp only [h, iff_false]
    intro heq
    have hlen := congrArg List.length heq
    have hpos := List.length_pos_iff.2 hne
    rw [List.length_dropLast] at hlen
    omega

section

variable (hf : isFile scheme = false)

include hf

theorem follow_ne_nil : follow scheme [] (front ++ [last]) ≠ [] := by
  rw [follow_concat hf]
  cases h : isDots last with
  | true => simp
  | false => simp [enter_of_not_isDots h]

theorem pathOf_nil : pathOf scheme [] = [""] := by
  rw [pathOf, splitBy, follow_singleton hf, not_isDots_nil, if_neg (by simp),
    enter_of_not_isDots not_isDots_nil]
  rfl

theorem pathOf_ne_nil (s : List Char) : pathOf scheme s ≠ [] := by
  obtain ⟨front, last, hsplit, -⟩ := exists_splitBy_concat (isSlash scheme) s
  have h := hsplit [] (by simp)
  rw [List.append_nil] at h
  rw [pathOf, h, ne_eq, List.reverse_eq_nil_iff]
  exact follow_ne_nil hf

/-- A slash at the end makes an empty segment. -/
theorem getLast?_pathOf (h : ∀ c ∈ s.getLast?, isSlash scheme c = true) :
    (pathOf scheme s).getLast? = some "" := by
  obtain ⟨front, last, hsplit, hlast⟩ := exists_splitBy_concat (isSlash scheme) s
  have hs := hsplit [] (by simp)
  obtain rfl := hlast.2 h
  rw [List.append_nil, List.append_nil] at hs
  rw [pathOf, hs, follow_concat hf, not_isDots_nil, if_neg (by simp),
    enter_of_not_isDots not_isDots_nil]
  simp [escaped, escape]

/-- What a slash and what stands in front of it add to a path is an empty segment just if it stands
right behind a segment. -/
theorem dropLast_pathOf_slash_iff {tail : List Char} (htail : ∀ c ∈ tail, isMargin c = true) :
    (pathOf scheme (s ++ (tail ++ ['/']))).dropLast = trunk (pathOf scheme s) ↔
      tail = [] ∧ ∃ c ∈ s.getLast?, isSlash scheme c = false := by
  obtain ⟨front, last, hsplit, hlast⟩ := exists_splitBy_concat (isSlash scheme) s
  have hplain : ∀ c ∈ tail, isSlash scheme c = false := fun c hc => by
    have h := of_isMargin (p := fun c => c != '/' && c != '\\') (by decide) (htail c hc)
    simp only [Bool.and_eq_true, bne_iff_ne] at h
    simp [isSlash, h]
  have hs : pathOf scheme s = (if isDots last then "" :: enter (front.foldl enter []) last
      else enter (front.foldl enter []) last).reverse := by
    have h := hsplit [] (by simp)
    rw [List.append_nil, List.append_nil] at h
    rw [pathOf, h, follow_concat hf]
  have hslash : (pathOf scheme (s ++ (tail ++ ['/']))).dropLast =
      (enter (front.foldl enter []) (last ++ tail)).reverse := by
    rw [pathOf, ← List.append_assoc, splitBy_append (by simp [isSlash]), hsplit tail hplain,
      splitBy, follow_concat hf, not_isDots_nil, if_neg (by simp),
      enter_of_not_isDots not_isDots_nil, List.foldl_concat, List.reverse_cons,
      List.dropLast_concat]
  have hmargin : tail ≠ [] → isDots (last ++ tail) = false := fun hne =>
    not_isDots_of_isMargin (List.mem_append_right _ (List.head_mem hne))
      (htail _ (List.head_mem hne))
  have hlast' : (∃ c ∈ s.getLast?, isSlash scheme c = false) ↔ last ≠ [] := by
    rw [ne_eq, hlast]
    simp
  rw [hlast', hs, hslash]
  generalize front.foldl enter [] = done
  cases hdots : isDots last with
  | true =>
    have hne : last ≠ [] := by
      rintro rfl
      cases hdots
    rw [if_pos rfl, List.reverse_cons, trunk_concat_empty, List.reverse_inj]
    by_cases htl : tail = []
    · simp [htl, hne]
    · have hlen : (enter done last).length ≤ done.length := length_enter_of_isDots hdots
      simp only [htl, false_and, iff_false]
      rw [enter_of_not_isDots (hmargin htl)]
      intro heq
      rw [← heq, List.length_cons] at hlen
      omega
  | false =>
    have hnot : isDots (last ++ tail) = false := by
      by_cases htl : tail = []
      · rwa [htl, List.append_nil]
      · exact hmargin htl
    rw [if_neg (by simp), enter_of_not_isDots hdots, enter_of_not_isDots hnot, List.reverse_cons,
      List.reverse_cons]
    by_cases hnil : last = []
    · rw [hnil, escaped_eq_empty_iff.2 rfl, trunk_concat_empty]
      simp
    · rw [trunk_concat (fun h => hnil (escaped_eq_empty_iff.1 h)), List.append_cancel_left_eq,
        List.singleton_inj]
      constructor
      · exact fun heq => ⟨by_contra fun htl => escaped_append_ne htl heq, hnil⟩
      · rintro ⟨rfl, -⟩
        rw [List.append_nil]

end

/-! The path behind an authority -/

section

variable {a : Authority} {rest : List Char}

/-- What follows an authority. -/
def EndsAuthority (scheme : String) (rest : List Char) : Prop :=
  ∀ c ∈ rest.head?, inAuthority scheme c = false

/-- A URL of a server, without a path. -/
def server (scheme : String) (a : Authority) : Url := ⟨scheme, some a, .segments [], none, none⟩

@[simp] theorem withEnding_scheme (u : Url) (s : List Char) :
    (withEnding u s).scheme = u.scheme := rfl

@[simp] theorem withEnding_authority (u : Url) (s : List Char) :
    (withEnding u s).authority = u.authority := rfl

@[simp] theorem withEnding_segments (u : Url) (s : List Char) :
    (withEnding u s).segments = u.segments := rfl

theorem isFile_of_isServer (hs : isServer scheme = true) : isFile scheme = false := by
  rw [isFile, beq_eq_false_iff_ne]
  rintro rfl
  exact absurd hs (by decide)

theorem along_eq (hf : isFile scheme = false) (s : List Char) : along (server scheme a) [] s =
    withEnding { server scheme a with path := .segments (pathOf scheme (s.takeWhile beforePathEnd)) }
      (s.dropWhile beforePathEnd) := by
  unfold along
  rw [List.span_eq_takeWhile_dropWhile]
  simp only [server, trimmed, hf]
  rfl

theorem beforePathEnd_of_isSlash {c : Char} (h : isSlash scheme c = true) :
    beforePathEnd c = true := by
  simp only [isSlash, Bool.or_eq_true, Bool.and_eq_true, beq_iff_eq] at h
  rcases h with rfl | ⟨rfl, -⟩ <;> rfl

/-- The slash behind an authority starts the path. -/
theorem fromRoot_eq (hs : isServer scheme = true) (hrest : EndsAuthority scheme rest) :
    fromRoot (server scheme a) rest = withEnding { server scheme a with
      path := .segments (pathOf scheme (rest.takeWhile beforePathEnd).tail) }
      (rest.dropWhile beforePathEnd) := by
  have hknown : isKnown (server scheme a).scheme = true := by simp [server, isKnown, hs]
  have hf := isFile_of_isServer hs
  cases rest with
  | nil =>
    rw [fromRoot, if_pos hknown, along_eq hf]
    rfl
  | cons c more =>
    have hc : inAuthority scheme c = false := hrest c (by simp)
    rw [fromRoot]
    dsimp only
    split
    · rename_i hslash
      have hbefore : beforePathEnd c = true := beforePathEnd_of_isSlash hslash
      rw [along_eq hf, List.takeWhile_cons_of_pos hbefore, List.dropWhile_cons_of_pos hbefore]
      rfl
    · rename_i hslash
      have hbefore : ¬ beforePathEnd c = true := fun hbefore =>
        hslash (show isSlash scheme c = true by simpa [inAuthority, hbefore] using hc)
      rw [hknown, Bool.true_or, if_pos rfl, along_eq hf, List.takeWhile_cons_of_neg hbefore,
        List.dropWhile_cons_of_neg hbefore]
      rfl

end

end Url

end Bindery
