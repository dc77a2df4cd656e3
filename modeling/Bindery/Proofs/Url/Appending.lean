import Bindery.Post.Client
import Bindery.Proofs.Url.Paths

/-!
# A slash at the end of a URL

What a text and the text with a slash behind it have in common as URLs of a server: scheme and
authority are the same, and the paths differ by what the slash adds. It adds a segment that is
empty, unless it lands in a query or a fragment.
-/
namespace Bindery.Url

open Text

/-! Cleaning -/

/-- A character that counts wherever it stands. -/
def counts (c : Char) : Bool := c != '\t' && c != '\n' && c != '\r'

/-- What does not count at the end of a text, but would in front of a slash. -/
def trailing (s : List Char) : List Char := (s.rtakeWhile isMargin).filter counts

theorem isMargin_of_mem_trailing {s : List Char} {c : Char} (h : c ∈ trailing s) :
    isMargin c = true := List.mem_rtakeWhile_imp (List.mem_filter.1 h).1

theorem clean_eq (s : List Char) :
    clean s = ((s.dropWhile isMargin).rdropWhile isMargin).filter counts := rfl

/-- Nothing is cleaned away in front of the last character that counts everywhere. -/
theorem clean_append {front tail : List Char} {x : Char} (hx : isMargin x = false)
    (htail : ∀ c ∈ tail, isMargin c = true) :
    clean (front ++ [x] ++ tail) = ((front ++ [x]).dropWhile isMargin).filter counts := by
  obtain ⟨f, hf⟩ : ∃ f, (front ++ [x]).dropWhile isMargin = f ++ [x] := by
    rw [List.dropWhile_append]
    split
    · exact ⟨[], by simp [hx]⟩
    · exact ⟨_, rfl⟩
  have hdrop : (f ++ [x] ++ tail).rdropWhile isMargin = f ++ [x] := by
    rw [List.rdropWhile, List.reverse_append, List.dropWhile_append_of_pos (by simpa using htail)]
    simp [hx]
  rw [clean_eq, List.dropWhile_append, hf, if_neg (by simp), hdrop]

/-- In front of a slash everything counts but what never does. -/
theorem clean_concat_slash {s : List Char} (hs : ¬ ∀ c ∈ s, isMargin c = true) :
    clean (s ++ ['/']) = clean s ++ (trailing s ++ ['/']) := by
  have hne : s.rdropWhile isMargin ≠ [] := fun h => hs (List.rdropWhile_eq_nil_iff.1 h)
  obtain ⟨front, x, hfront⟩ := List.eq_nil_or_concat (s.rdropWhile isMargin) |>.resolve_left hne
  have hx : isMargin x = false := by
    have hlast := List.rdropWhile_last_not isMargin s hne
    simpa [hfront] using hlast
  have hparts : s = front ++ [x] ++ s.rtakeWhile isMargin := by
    rw [← List.concat_eq_append, ← hfront, List.rdropWhile_append_rtakeWhile]
  have hfirst : ((front ++ [x]).dropWhile isMargin).isEmpty = false := by
    rw [List.isEmpty_eq_false_iff, ne_eq, List.dropWhile_eq_nil_iff]
    exact fun h => by simp [h x (by simp)] at hx
  have hclean : clean s = ((front ++ [x]).dropWhile isMargin).filter counts := by
    rw [hparts]
    exact clean_append hx fun c => List.mem_rtakeWhile_imp
  have hslash : clean (s ++ ['/'] ++ []) = ((s ++ ['/']).dropWhile isMargin).filter counts :=
    clean_append (by decide) (by simp)
  have hdrop : s.dropWhile isMargin =
      (front ++ [x]).dropWhile isMargin ++ s.rtakeWhile isMargin := by
    conv_lhs => rw [hparts, List.dropWhile_append, hfirst]
    rfl
  have hrest : (s.dropWhile isMargin).isEmpty = false := by
    rw [List.isEmpty_eq_false_iff, hdrop]
    exact List.append_ne_nil_of_left_ne_nil (List.isEmpty_eq_false_iff.1 hfirst) _
  rw [List.append_nil, List.dropWhile_append, hrest, if_neg Bool.false_ne_true, hdrop,
    List.filter_append, List.filter_append] at hslash
  rw [hslash, hclean, trailing, List.append_assoc]
  rfl

/-- Text that counts nowhere is no URL. -/
theorem clean_of_isMargin {s : List Char} (hs : ∀ c ∈ s, isMargin c = true) :
    clean (s ++ ['/']) = ['/'] := by
  rw [clean_eq, List.dropWhile_append_of_pos hs]
  rfl

/-! Schemes -/

/-- A character of a scheme. -/
def inScheme (c : Char) : Bool := isLetter c || isDigit c || c == '+' || c == '-' || c == '.'

theorem beforePathEnd_of_inScheme {c : Char} (h : inScheme c = true) : beforePathEnd c = true := by
  have hne : c ≠ '?' ∧ c ≠ '#' := ⟨by rintro rfl; exact absurd h (by decide),
    by rintro rfl; exact absurd h (by decide)⟩
  simp [beforePathEnd, hne]

theorem scheme?_eq (s : List Char) : scheme? s =
    if (s.takeWhile inScheme).head?.any isLetter && (s.dropWhile inScheme).head? == some ':' then
      some (String.ofList ((s.takeWhile inScheme).map Char.toLower), (s.dropWhile inScheme).tail)
    else none := by
  unfold scheme?
  rw [List.span_eq_takeWhile_dropWhile]
  rfl

/-- A scheme is read without regard to what follows its colon. -/
theorem scheme?_append {s e r : List Char} {scheme : String} (he : ':' ∉ e)
    (h : scheme? (s ++ e) = some (scheme, r)) : ∃ front r', s = front ++ r' ∧ r = r' ++ e ∧
      (∀ c ∈ front, beforePathEnd c = true) ∧ scheme? s = some (scheme, r') := by
  rw [scheme?_eq] at h
  split at h
  · rename_i hmarks
    simp only [Bool.and_eq_true, beq_iff_eq] at hmarks
    obtain ⟨hletter, hcolon⟩ := hmarks
    have hin : ¬ ∀ c ∈ s, inScheme c = true := by
      intro hall
      rw [List.dropWhile_append_of_pos hall] at hcolon
      exact he ((List.dropWhile_suffix inScheme).subset (List.mem_of_mem_head? hcolon))
    have hdrop : (s ++ e).dropWhile inScheme = s.dropWhile inScheme ++ e := by
      rw [List.dropWhile_append, if_neg (by simpa using hin)]
    have htake : (s ++ e).takeWhile inScheme = s.takeWhile inScheme := by
      have hsame := List.takeWhile_append_dropWhile (p := inScheme) (l := s ++ e)
      rw [hdrop, ← List.append_assoc] at hsame
      have hboth := (List.append_cancel_right hsame).trans
        (List.takeWhile_append_dropWhile (p := inScheme) (l := s)).symm
      exact List.append_cancel_right hboth
    rw [hdrop, htake] at h
    rw [hdrop] at hcolon
    rw [htake] at hletter
    obtain ⟨rfl, rfl⟩ := Prod.mk.inj (Option.some.inj h)
    cases hrest : s.dropWhile inScheme with
    | nil =>
      exact absurd (List.dropWhile_eq_nil_iff.1 hrest) hin
    | cons c rest =>
      rw [hrest] at hcolon
      obtain rfl : c = ':' := by simpa using hcolon
      refine ⟨s.takeWhile inScheme ++ [':'], rest, ?_, rfl, ?_, ?_⟩
      · rw [List.append_assoc, List.singleton_append, ← hrest, List.takeWhile_append_dropWhile]
      · intro c hc
        rcases List.mem_append.1 hc with hc | hc
        · exact beforePathEnd_of_inScheme (List.mem_takeWhile_imp hc)
        · rw [List.mem_singleton.1 hc]
          decide
      · rw [scheme?_eq, hrest, if_pos (by simpa using hletter)]
        rfl
  · cases h

/-! Authorities -/

section Servers

variable {scheme : String} {a : Authority} {u v : Url} {s r e slashes whole rest : List Char}

theorem isSlash_of_isServer (hs : isServer scheme = true) (c : Char) :
    isSlash scheme c = (c == '/' || c == '\\') := by
  simp [isSlash, isKnown, hs]

theorem span_eq {p : Char → Bool} {body rest : List Char} (hbody : ∀ c ∈ body, p c = true)
    (hrest : ∀ c ∈ rest.head?, p c = false) : (body ++ rest).span p = (body, rest) := by
  rw [List.span_eq_takeWhile_dropWhile, List.takeWhile_append_of_pos hbody,
    List.dropWhile_append_of_pos hbody]
  cases rest with
  | nil => simp
  | cons c more => simp [hrest c (by simp)]

/-- The parts of a text behind the scheme of a server. -/
structure ServerParts (scheme : String) (r slashes whole rest : List Char) : Prop where
  eq : r = slashes ++ (whole ++ rest)
  opens : ∀ c ∈ slashes, isSlash scheme c = true
  starts : ∀ c ∈ (whole ++ rest).head?, isSlash scheme c = false
  inside : ∀ c ∈ whole, inAuthority scheme c = true
  ends : EndsAuthority scheme rest

theorem head?_dropWhile (p : Char → Bool) (s : List Char) :
    ∀ c ∈ (s.dropWhile p).head?, p c = false := by
  intro c hc
  have h := List.head?_dropWhile_not p s
  rw [Option.mem_def.1 hc] at h
  exact h

theorem exists_serverParts (scheme : String) (r : List Char) :
    ∃ slashes whole rest, ServerParts scheme r slashes whole rest := by
  refine ⟨r.takeWhile (isSlash scheme), (r.dropWhile (isSlash scheme)).takeWhile (inAuthority scheme),
    (r.dropWhile (isSlash scheme)).dropWhile (inAuthority scheme), ?_, ?_, ?_, ?_, ?_⟩
  · rw [List.takeWhile_append_dropWhile, List.takeWhile_append_dropWhile]
  · exact fun c => List.mem_takeWhile_imp
  · rw [List.takeWhile_append_dropWhile]
    exact head?_dropWhile _ _
  · exact fun c => List.mem_takeWhile_imp
  · exact head?_dropWhile _ _

theorem not_mem_of_inAuthority (hs : isServer scheme = true)
    (h : ∀ c ∈ whole, inAuthority scheme c = true) : '\\' ∉ whole := by
  intro hmem
  simpa [inAuthority, isSlash_of_isServer hs] using h _ hmem

theorem inAuthority_of_isMargin {c : Char} (hs : isServer scheme = true) (hc : isMargin c = true) :
    inAuthority scheme c = true := by
  have h := of_isMargin (p := fun c => beforePathEnd c && !(c == '/' || c == '\\')) (by decide) hc
  rwa [← isSlash_of_isServer hs] at h

theorem authorityOf_nil : authorityOf scheme [] ≠ .ok a := by
  intro h
  unfold authorityOf at h
  dsimp only at h
  rw [check_eq_ok_iff] at h
  exact h.1 rfl

namespace ServerParts

theorem afterScheme_eq_ok_iff (hs : isServer scheme = true)
    (h : ServerParts scheme r slashes whole rest) : afterScheme none scheme r = .ok u ↔
      ∃ a, authorityOf scheme whole = .ok a ∧ u = fromRoot (server scheme a) rest := by
  have hspan : r.span (fun c => c == '/' || c == '\\') = (slashes, whole ++ rest) := by
    rw [h.eq]
    simpa only [← isSlash_of_isServer hs] using span_eq h.opens h.starts
  have hread : ∀ a rest', readAuthority scheme (whole ++ rest) = .ok (a, rest') ↔
      authorityOf scheme whole = .ok a ∧ rest' = rest := fun a rest' =>
    readAuthority_eq_ok_iff hs (not_mem_of_inAuthority hs h.inside) (span_eq h.inside h.ends)
  rw [afterScheme, isFile_of_isServer hs, hs, hspan]
  change afterSlashes scheme (whole ++ rest) = .ok u ↔ _
  simp only [afterSlashes, bind_eq_ok_iff, pure_eq_ok_iff, Prod.exists, hread]
  constructor
  · rintro ⟨a, rest', ⟨ha, rfl⟩, rfl⟩
    exact ⟨a, ha, rfl⟩
  · rintro ⟨a, ha, rfl⟩
    exact ⟨a, rest, ⟨ha, rfl⟩, rfl⟩

/-- What follows the path stays behind it. -/
theorem append (h : ServerParts scheme r slashes whole rest) (hrest : rest ≠ []) (e : List Char) :
    ServerParts scheme (r ++ e) slashes whole (rest ++ e) := by
  obtain ⟨c, more, rfl⟩ := List.exists_cons_of_ne_nil hrest
  refine ⟨by simp [h.eq], h.opens, ?_, h.inside, ?_⟩
  · rw [← List.append_assoc, List.head?_append_of_ne_nil _ (by simp)]
    exact h.starts
  · rw [EndsAuthority, List.head?_append_of_ne_nil _ (by simp)]
    exact h.ends

/-- A slash behind an authority that ends a text starts its path. -/
theorem afterScheme_slash_eq_ok_iff {tail : List Char} (hs : isServer scheme = true)
    (htail : ∀ c ∈ tail, isMargin c = true) (h : ServerParts scheme r slashes whole []) :
    afterScheme none scheme (r ++ (tail ++ ['/'])) = .ok u ↔ tail = [] ∧
      ∃ a, authorityOf scheme whole = .ok a ∧ u = fromRoot (server scheme a) ['/'] := by
  have hslash : isSlash scheme '/' = true := by simp [isSlash]
  by_cases hall : whole ++ tail = []
  · obtain ⟨rfl, rfl⟩ := List.append_eq_nil_iff.1 hall
    have hparts : ServerParts scheme (r ++ ['/']) (slashes ++ ['/']) [] [] := by
      refine ⟨by simp [h.eq], ?_, by simp, by simp, by simp [EndsAuthority]⟩
      simpa [or_imp, forall_and, hslash] using h.opens
    rw [List.nil_append, hparts.afterScheme_eq_ok_iff hs]
    simp [authorityOf_nil]
  · have hinside : ∀ c ∈ whole ++ tail, inAuthority scheme c = true := fun c hc =>
      (List.mem_append.1 hc).elim (h.inside c) fun hc => inAuthority_of_isMargin hs (htail c hc)
    have hparts : ServerParts scheme (r ++ (tail ++ ['/'])) slashes (whole ++ tail) ['/'] := by
      refine ⟨by simp [h.eq], h.opens, ?_, hinside, by simp [EndsAuthority, inAuthority, hslash]⟩
      rw [List.head?_append_of_ne_nil _ hall]
      intro c hc
      have hin := hinside c (List.mem_of_mem_head? hc)
      rw [inAuthority, Bool.and_eq_true] at hin
      simpa using hin.2
    rw [hparts.afterScheme_eq_ok_iff hs]
    constructor
    · rintro ⟨a, ha, hu⟩
      have hnil : tail = [] := by
        by_contra hne
        refine authorityOf_of_isMargin (not_mem_of_inAuthority hs hinside) ?_
          (htail _ (List.getLast_mem hne)) ha
        rw [List.getLast?_append_of_ne_nil _ hne, List.getLast?_eq_some_getLast hne]
      subst hnil
      rw [List.append_nil] at ha
      exact ⟨rfl, a, ha, hu⟩
    · rintro ⟨rfl, a, ha, hu⟩
      rw [List.append_nil]
      exact ⟨a, ha, hu⟩

end ServerParts

/-! Whole texts -/

@[simp] theorem along_scheme (u : Url) (done : List String) (s : List Char) :
    (along u done s).scheme = u.scheme := rfl

@[simp] theorem fromRoot_scheme (u : Url) (s : List Char) : (fromRoot u s).scheme = u.scheme := by
  unfold fromRoot
  split <;> split_ifs <;> rfl

@[simp] theorem fromRoot_authority (u : Url) (s : List Char) :
    (fromRoot u s).authority = u.authority := by
  unfold fromRoot
  split <;> split_ifs <;> rfl

theorem fromRoot_path (u : Url) (s : List Char) :
    (fromRoot u s).path = .segments (fromRoot u s).segments := by
  unfold fromRoot
  split <;> split_ifs <;> rfl

theorem fileAfterSlashes_scheme (h : fileAfterSlashes s = .ok u) : u.scheme = "file" := by
  unfold fileAfterSlashes at h
  dsimp only at h
  split_ifs at h <;> simp only [bind_eq_ok_iff, pure_eq_ok_iff] at h
  · rw [← h, along_scheme]
  · obtain ⟨-, -, rfl⟩ := h
    rw [fromRoot_scheme]
  · obtain ⟨-, -, rfl⟩ := h
    rw [fromRoot_scheme]

theorem file_scheme (h : file none s = .ok u) : u.scheme = "file" := by
  unfold file at h
  dsimp only at h
  repeat' split at h
  all_goals first
    | exact fileAfterSlashes_scheme h
    | exact (Except.ok.inj h) ▸ rfl

theorem afterSlashes_scheme (h : afterSlashes scheme s = .ok u) : u.scheme = scheme := by
  simp only [afterSlashes, bind_eq_ok_iff, pure_eq_ok_iff] at h
  obtain ⟨-, -, rfl⟩ := h
  rw [fromRoot_scheme]

theorem other_scheme (h : other scheme s = .ok u) : u.scheme = scheme := by
  unfold other at h
  split at h
  · exact afterSlashes_scheme h
  · exact Except.ok.inj h ▸ rfl
  · exact Except.ok.inj h ▸ rfl

theorem afterScheme_scheme (h : afterScheme none scheme r = .ok u) : u.scheme = scheme := by
  unfold afterScheme at h
  split_ifs at h with hfile
  · rw [file_scheme h, beq_iff_eq.1 hfile]
  · exact afterSlashes_scheme h
  · exact other_scheme h

/-- What a text is read to once the ends are cleaned away. -/
def readClean (s : List Char) : Except Fault Url :=
  match scheme? s with
  | some (scheme, rest) => afterScheme none scheme rest
  | none => .error .noBase

theorem parse_eq (text : String) : parse text = readClean (clean text.toList) := by
  cases h : scheme? (clean text.toList) <;> simp only [parse, read, readClean, h]

/-- A text up to its path. -/
structure Splits (scheme : String) (a : Authority) (s front rest : List Char) : Prop where
  eq : s = front ++ rest
  before : ∀ c ∈ front, beforePathEnd c = true
  solid : ∃ c ∈ front.getLast?, isSlash scheme c = false
  ends : EndsAuthority scheme rest
  reads : readClean s = .ok (fromRoot (server scheme a) rest)

theorem exists_splits {front : List Char} (hs : isServer scheme = true) (hsfront : s = front ++ r)
    (hfront : ∀ c ∈ front, beforePathEnd c = true) (hscheme : scheme? s = some (scheme, r))
    (h : ServerParts scheme r slashes whole rest) (ha : authorityOf scheme whole = .ok a) :
    Splits scheme a s (front ++ (slashes ++ whole)) rest := by
  have hne : whole ≠ [] := by
    rintro rfl
    exact authorityOf_nil ha
  refine ⟨by rw [hsfront, h.eq]; simp, ?_, ?_, h.ends, ?_⟩
  · intro c hc
    rcases List.mem_append.1 hc with hc | hc
    · exact hfront c hc
    · rcases List.mem_append.1 hc with hc | hc
      · exact beforePathEnd_of_isSlash (h.opens c hc)
      · have := h.inside c hc
        rw [inAuthority, Bool.and_eq_true] at this
        exact this.1
  · refine ⟨whole.getLast hne, ?_, ?_⟩
    · simp [List.getLast?_append, List.getLast?_eq_some_getLast hne]
    · have := h.inside _ (List.getLast_mem hne)
      rw [inAuthority, Bool.and_eq_true] at this
      simpa using this.2
  · rw [readClean, hscheme]
    exact (h.afterScheme_eq_ok_iff hs).2 ⟨a, ha, rfl⟩

/-- What a slash behind a text leaves as it is. -/
theorem exists_splits_of_slash {tail : List Char} (htail : ∀ c ∈ tail, isMargin c = true)
    (hs : isServer v.scheme = true) (h : readClean (s ++ (tail ++ ['/'])) = .ok v) :
    ∃ a front rest, Splits v.scheme a s front rest ∧ (rest = [] → tail = []) ∧
      v = fromRoot (server v.scheme a) (rest ++ (tail ++ ['/'])) := by
  have hcolon : ':' ∉ tail ++ ['/'] := by
    simp only [List.mem_append, List.mem_singleton, not_or]
    exact ⟨fun hmem => absurd (htail _ hmem) (by decide), by decide⟩
  rw [readClean] at h
  cases hscheme : scheme? (s ++ (tail ++ ['/'])) with
  | none =>
    rw [hscheme] at h
    cases h
  | some pair =>
    obtain ⟨scheme, r'⟩ := pair
    rw [hscheme] at h
    obtain rfl := afterScheme_scheme h
    obtain ⟨front, r, hfront, rfl, hbefore, hscheme'⟩ := scheme?_append hcolon hscheme
    obtain ⟨slashes, whole, rest, hparts⟩ := exists_serverParts v.scheme r
    by_cases hrest : rest = []
    · subst hrest
      obtain ⟨rfl, a, ha, hv⟩ := (hparts.afterScheme_slash_eq_ok_iff hs htail).1 h
      exact ⟨a, _, [], exists_splits hs hfront hbefore hscheme' hparts ha, fun _ => rfl, hv⟩
    · obtain ⟨a, ha, hv⟩ := ((hparts.append hrest _).afterScheme_eq_ok_iff hs).1 h
      exact ⟨a, _, rest, exists_splits hs hfront hbefore hscheme' hparts ha, fun hnil =>
        absurd hnil hrest, hv⟩

theorem exists_splits_of_readClean (hs : isServer u.scheme = true) (h : readClean s = .ok u) :
    ∃ a front rest, Splits u.scheme a s front rest ∧ u = fromRoot (server u.scheme a) rest := by
  have h' := h
  rw [readClean] at h'
  cases hscheme : scheme? s with
  | none =>
    rw [hscheme] at h'
    cases h'
  | some pair =>
    obtain ⟨scheme, r⟩ := pair
    rw [hscheme] at h'
    obtain rfl := afterScheme_scheme h'
    have hsplit := scheme?_append (s := s) (e := []) (by simp) (by rwa [List.append_nil])
    simp only [List.append_nil] at hsplit
    obtain ⟨front, r', hfront, rfl, hbefore, -⟩ := hsplit
    obtain ⟨slashes, whole, rest, hparts⟩ := exists_serverParts u.scheme r
    obtain ⟨a, ha, hu⟩ := (hparts.afterScheme_eq_ok_iff hs).1 h'
    exact ⟨a, _, rest, exists_splits hs hfront hbefore hscheme hparts ha, hu⟩

/-! What a slash adds -/

namespace Splits

variable {front : List Char}

theorem segments_eq (hs : isServer scheme = true) (h : EndsAuthority scheme rest) :
    (fromRoot (server scheme a) rest).segments =
      pathOf scheme (rest.takeWhile beforePathEnd).tail := by
  rw [fromRoot_eq hs h, withEnding_segments]
  rfl

theorem beforePathEnd_iff (h : Splits scheme a s front rest) :
    (∀ c ∈ s, beforePathEnd c = true) ↔ ∀ c ∈ rest, beforePathEnd c = true := by
  rw [h.eq]
  simp only [List.forall_mem_append, and_iff_right h.before]

/-- A path behind an authority starts with a slash. -/
theorem exists_path (h : Splits scheme a s front rest)
    (hpath : ∀ c ∈ s, beforePathEnd c = true) :
    rest = [] ∨ ∃ c more, rest = c :: more ∧ isSlash scheme c = true := by
  cases rest with
  | nil => exact .inl rfl
  | cons c more =>
    have hc := h.ends c (by simp)
    rw [inAuthority, h.beforePathEnd_iff.1 hpath c (by simp)] at hc
    exact .inr ⟨c, more, rfl, by simpa using hc⟩

/-- A slash at the end of a path makes an empty segment. -/
theorem getLast?_segments (hs : isServer scheme = true) (h : Splits scheme a s front rest)
    (hpath : ∀ c ∈ s, beforePathEnd c = true) (hslash : ∀ c ∈ s.getLast?, isSlash scheme c = true) :
    (fromRoot (server scheme a) rest).segments.getLast? = some "" := by
  rw [segments_eq hs h.ends, List.takeWhile_eq_self_iff.2 (h.beforePathEnd_iff.1 hpath)]
  refine getLast?_pathOf (isFile_of_isServer hs) fun c hc => hslash c ?_
  obtain rfl | ⟨d, more, rfl, -⟩ := h.exists_path hpath
  · cases hc
  · rw [Option.mem_def] at hc ⊢
    simp only [List.tail_cons] at hc
    rw [h.eq, List.getLast?_append, List.getLast?_cons, hc]
    rfl

/-- The slash ends the path, unless it lands behind the path or what stands in front of it counts. -/
theorem dropLast_segments_iff {tail : List Char} (hs : isServer scheme = true)
    (h : Splits scheme a s front rest) (htail : ∀ c ∈ tail, isMargin c = true)
    (hnil : rest = [] → tail = []) :
    (fromRoot (server scheme a) (rest ++ (tail ++ ['/']))).segments.dropLast =
      trunk (fromRoot (server scheme a) rest).segments ↔
    if ∀ c ∈ s, beforePathEnd c = true then tail = [] ∧ ∃ c ∈ s.getLast?, isSlash scheme c = false
    else (fromRoot (server scheme a) rest).segments.getLast? = some "" := by
  have hf := isFile_of_isServer hs
  have hends : EndsAuthority scheme (rest ++ (tail ++ ['/'])) := by
    by_cases hrest : rest = []
    · simp [hrest, hnil hrest, EndsAuthority, inAuthority, isSlash]
    · rw [EndsAuthority, List.head?_append_of_ne_nil _ hrest]
      exact h.ends
  rw [segments_eq hs hends, segments_eq hs h.ends]
  split_ifs with hpath
  · have hrest := h.beforePathEnd_iff.1 hpath
    have hall : ∀ c ∈ rest ++ (tail ++ ['/']), beforePathEnd c = true := by
      simp only [List.forall_mem_append, List.forall_mem_singleton]
      exact ⟨hrest, fun c hc => of_isMargin (p := beforePathEnd) (by decide) (htail c hc), by decide⟩
    rw [List.takeWhile_eq_self_iff.2 hall, List.takeWhile_eq_self_iff.2 hrest]
    obtain rfl | ⟨c, more, rfl, hc⟩ := h.exists_path hpath
    · obtain rfl := hnil rfl
      have hsolid := h.solid
      rw [← List.append_nil front, ← h.eq] at hsolid
      simp only [hsolid, true_and, iff_true]
      change (pathOf scheme []).dropLast = trunk (pathOf scheme [])
      rw [pathOf_nil hf]
      rfl
    · rw [List.cons_append, List.tail_cons, List.tail_cons, dropLast_pathOf_slash_iff hf htail]
      refine and_congr_right fun _ => ?_
      rw [h.eq, List.getLast?_append]
      cases more with
      | nil => simp [hc]
      | cons d more => simp [List.getLast?_cons]
  · have hstop : ∃ c ∈ rest, ¬ beforePathEnd c = true := by
      rw [h.beforePathEnd_iff] at hpath
      simpa using hpath
    have htake : (rest ++ (tail ++ ['/'])).takeWhile beforePathEnd = rest.takeWhile beforePathEnd := by
      rw [List.takeWhile_append, if_neg]
      intro hlen
      obtain ⟨c, hc, hstop⟩ := hstop
      rw [← (List.takeWhile_prefix _).eq_of_length hlen] at hc
      exact hstop (List.mem_takeWhile_imp hc)
    rw [htake, dropLast_eq_trunk_iff (pathOf_ne_nil hf _)]

end Splits

end Servers

end Bindery.Url
