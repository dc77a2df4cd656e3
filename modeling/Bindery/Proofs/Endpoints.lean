import Bindery.Proofs.Url.Appending

/-!
# Endpoints of a base URL

The slash that a client adds to its base URL is to make endpoints segments of their own behind the
path of the base. It does so unless the base has a query or a fragment, in which the slash lands
then, or ends in a backslash or in characters that only count in front of a slash.
-/
namespace Bindery.Post

open Text Url

/-! Names of endpoints -/

/-- An ASCII letter, a digit or an underscore. -/
def isWordChar (c : Char) : Bool := isLetter c || isDigit c || c == '_'

/-- The name of an endpoint: ASCII words with dots behind them. -/
structure EndpointName (name : String) : Prop where
  chars : ∀ c ∈ name.toList, isWordChar c = true ∨ c = '.'
  first : ∃ c ∈ name.toList.head?, isWordChar c = true

/-- A character that stands for itself wherever it stands in a path. -/
structure Plain (scheme : String) (c : Char) : Prop where
  counts : isMargin c = false ∧ counts c = true
  keeps : keeps pathEscapes c = true
  before : beforePathEnd c = true
  no_slash : isSlash scheme c = false ∧ c ≠ '\\'
  no_colon : c ≠ ':'

theorem plain_of_isWordChar {scheme : String} {c : Char} (h : isWordChar c = true ∨ c = '.') :
    Plain scheme c := by
  have hlt : c.toNat < 128 := by
    rcases h with h | rfl
    · simp only [isWordChar, isLetter, isDigit, Bool.or_eq_true, Bool.and_eq_true,
        decide_eq_true_eq, Char.le_def, UInt32.le_iff_toNat_le, beq_iff_eq] at h
      rcases h with ((h | h) | h) | rfl
      · exact h.2.trans_lt (by decide)
      · exact h.2.trans_lt (by decide)
      · exact h.2.trans_lt (by decide)
      · decide
    · decide
  have hall : ∀ n < 128, isWordChar (Char.ofNat n) = true ∨ Char.ofNat n = '.' →
      (isMargin (Char.ofNat n) = false ∧ Url.counts (Char.ofNat n) = true) ∧
      Url.keeps pathEscapes (Char.ofNat n) = true ∧ beforePathEnd (Char.ofNat n) = true ∧
      (Char.ofNat n ≠ '/' ∧ Char.ofNat n ≠ '\\') ∧ Char.ofNat n ≠ ':' := by decide +kernel
  have hc := hall c.toNat hlt
  rw [Char.ofNat_toNat] at hc
  obtain ⟨hcounts, hkeeps, hbefore, ⟨hslash, hback⟩, hcolon⟩ := hc h
  exact ⟨hcounts, hkeeps, hbefore, ⟨by simp [isSlash, hslash, hback], hback⟩, hcolon⟩

section Names

variable {scheme name : String} {s : List Char} {base : Url} {segments : List String}

theorem clean_of_plain (h : ∀ c ∈ s, Plain scheme c) : clean s = s := by
  have hfirst : ∀ c ∈ s.head?, ¬ isMargin c = true := fun c hc => by
    simp [(h c (List.mem_of_mem_head? hc)).counts.1]
  have hlast : ∀ hne : s ≠ [], ¬ isMargin (s.getLast hne) = true := fun hne => by
    simp [(h _ (List.getLast_mem hne)).counts.1]
  have hdrop : s.dropWhile isMargin = s := by
    cases s with
    | nil => rfl
    | cons c rest => exact List.dropWhile_cons_of_neg (hfirst c (by simp))
  rw [clean_eq, hdrop, List.rdropWhile_eq_self_iff.2 hlast, List.filter_eq_self]
  exact fun c hc => (h c hc).counts.2

theorem getLast?_clean (h : s.getLast? = some '/') : (clean s).getLast? = some '/' := by
  obtain ⟨t, rfl⟩ := List.getLast?_eq_some_iff.1 h
  by_cases hall : ∀ c ∈ t, isMargin c = true
  · rw [clean_of_isMargin hall]
    rfl
  · rw [clean_concat_slash hall, ← List.append_assoc, List.getLast?_concat]

theorem scheme?_of_plain (h : ∀ c ∈ s, Plain scheme c) : scheme? s = none := by
  rw [scheme?_eq, if_neg]
  simp only [Bool.and_eq_true, beq_iff_eq, not_and]
  intro _ hcolon
  exact (h _ ((List.dropWhile_suffix _).subset (List.mem_of_mem_head? hcolon))).no_colon rfl

theorem escaped_of_plain (h : ∀ c ∈ s, Plain scheme c) :
    Url.escaped pathEscapes s = String.ofList s := by
  have hall : s.flatMap (fun c => if keeps pathEscapes c then [c] else
      (String.utf8EncodeChar c).flatMap escapeByte) = s.flatMap fun c => [c] :=
    List.flatMap_congr fun c hc => if_pos (h c hc).keeps
  rw [Url.escaped, escape, hall, List.flatMap_singleton']

theorem EndpointName.not_isDots (h : EndpointName name) : isDots name.toList = false := by
  obtain ⟨c, hc, hword⟩ := h.first
  obtain ⟨rest, hrest⟩ := List.head?_eq_some_iff.1 hc
  have hdot : c ≠ '.' ∧ c ≠ '%' := ⟨by rintro rfl; exact absurd hword (by decide),
    by rintro rfl; exact absurd hword (by decide)⟩
  rw [hrest]
  simp [isDots, isDoubleDot, isSingleDot, dots, hdot, hdot.1.symm, hdot.2.symm]

/-- The name of an endpoint takes the place of the last segment. -/
theorem EndpointName.join_eq (h : EndpointName name) (hf : isFile base.scheme = false)
    (hbase : base.path = .segments segments) : base.join name = .ok { base with
      path := .segments (segments.dropLast ++ [name]), query := none, fragment := none } := by
  have hplain : ∀ c ∈ name.toList, Plain base.scheme c := fun c hc =>
    plain_of_isWordChar (h.chars c hc)
  obtain ⟨c, hc, -⟩ := h.first
  obtain ⟨rest, hrest⟩ := List.head?_eq_some_iff.1 hc
  have hfirst := hplain c (by simp [hrest])
  have hhash : (name.toList.head? == some '#') = false := by
    rw [hrest, List.head?_cons, beq_eq_false_iff_ne]
    rintro h
    obtain rfl := Option.some.inj h
    exact absurd hfirst.before (by decide)
  have hread : base.join name = relative base name.toList := by
    rw [join, Url.read, clean_of_plain hplain, scheme?_of_plain hplain]
    dsimp only
    rw [hhash, if_neg (by simp), hbase, hf]
    rfl
  have hrelative : relative base name.toList =
      .ok (along base (up base.scheme base.segments.reverse) name.toList) := by
    have hbefore := hfirst.before
    have hslash := hfirst.no_slash
    simp only [beforePathEnd, Bool.and_eq_true, bne_iff_ne, isSlash, Bool.or_eq_false_iff,
      beq_eq_false_iff_ne] at hbefore hslash
    simp [hrest, relative, hbefore, hslash]
  have hsegments : base.segments = segments := by rw [Url.segments, hbase]
  have halong : along base segments.reverse.tail name.toList = { base with
      path := .segments (segments.dropLast ++ [name]), query := none, fragment := none } := by
    have hspan : name.toList.span beforePathEnd = (name.toList, []) := by
      have hend : ∀ c ∈ ([] : List Char).head?, beforePathEnd c = false := by simp
      simpa using span_eq (fun c hc => (hplain c hc).before) hend
    rw [along, hspan]
    dsimp only
    rw [splitBy_of_all fun c hc => (hplain c hc).no_slash.1, follow_singleton hf, h.not_isDots,
      if_neg (by simp), enter_of_not_isDots h.not_isDots, escaped_of_plain hplain,
      String.ofList_toList]
    simp [withEnding, ending, trimmed, hf]
  rw [hread, hrelative, up_eq_tail hf, hsegments, halong]

end Names

/-! Requests -/

/-- Whether the slash behind a base ends its path. -/
def EndsPath (base : String) (u : Url) : Prop :=
  if ∀ c ∈ clean base.toList, beforePathEnd c = true then
    base.toList.getLast? = some '/' ∨
      trailing base.toList = [] ∧ ∃ c ∈ (clean base.toList).getLast?, c ≠ '/' ∧ c ≠ '\\'
  else u.segments.getLast? = some ""

section Requests

variable {base : String} {agent : Option String} {timeout : Option Nat} {client : Client}
  {endpoint : String} {u : Url}

theorem make_eq_ok (h : Client.make base agent timeout = .ok client) :
    parse (withSlash base) = .ok client.base := by
  simp only [Client.make, bind_eq_ok_iff] at h
  obtain ⟨u, hu, h⟩ := h
  rw [check_eq_ok_iff] at h
  obtain rfl := pure_eq_ok_iff.1 h.2
  cases hparse : parse (withSlash base) with
  | error why =>
    rw [hparse] at hu
    cases hu
  | ok v =>
    rw [hparse] at hu
    exact congrArg Except.ok (Except.ok.inj hu)

/-- The base of a client is the given one but for the end of its path. -/
theorem exists_base (h : parse (withSlash base) = .ok u) (hs : isServer u.scheme = true) :
    ∃ v, parse base = .ok v ∧ v.scheme = u.scheme ∧ v.authority = u.authority ∧
      u.path = .segments u.segments ∧ (u.segments.dropLast = trunk v.segments ↔ EndsPath base v) := by
  rw [parse_eq] at h ⊢
  by_cases hslash : base.toList.getLast? = some '/'
  · rw [withSlash, hslash, if_pos (by simp)] at h
    obtain ⟨a, front, rest, hsplits, hu⟩ := exists_splits_of_readClean hs h
    refine ⟨u, h, rfl, rfl, by rw [hu, fromRoot_path], ?_⟩
    have hne : u.segments ≠ [] := by
      rw [hu, Splits.segments_eq hs hsplits.ends]
      exact pathOf_ne_nil (isFile_of_isServer hs) _
    rw [dropLast_eq_trunk_iff hne, EndsPath]
    split_ifs with hpath
    · simp only [hslash, true_or, iff_true]
      rw [hu]
      exact hsplits.getLast?_segments hs hpath (by simp [getLast?_clean hslash, isSlash])
    · rfl
  · rw [withSlash, if_neg (by simpa using hslash), String.toList_push] at h
    by_cases hall : ∀ c ∈ base.toList, isMargin c = true
    · rw [clean_of_isMargin hall] at h
      cases h
    · rw [clean_concat_slash hall] at h
      have htail : ∀ c ∈ trailing base.toList, isMargin c = true := fun c => isMargin_of_mem_trailing
      obtain ⟨a, front, rest, hsplits, hnil, hu⟩ := exists_splits_of_slash htail hs h
      refine ⟨_, hsplits.reads, by simp [server], ?_, by rw [hu, fromRoot_path], ?_⟩
      · rw [hu]
        simp [server]
      · generalize u.scheme = scheme at hs hsplits hu
        rw [hu, hsplits.dropLast_segments_iff hs htail hnil, EndsPath]
        simp only [hslash, false_or, isSlash_of_isServer hs, Bool.or_eq_false_iff,
          beq_eq_false_iff_ne]

/-- A form is posted to the scheme and authority of the given base URL. Its path is that of the base,
but for an empty segment at its end, and the endpoint, just if the slash behind the base ends its
path. Otherwise the endpoint takes the place of what stands last in the path of the client's base. -/
theorem request_path_iff (hmake : Client.make base agent timeout = .ok client)
    (hscheme : client.base.scheme = "http" ∨ client.base.scheme = "https")
    (hname : EndpointName endpoint) (form : Form) :
    ∃ u r, parse base = .ok u ∧ client.request endpoint form = .ok r ∧ r.url.scheme = u.scheme ∧
      r.url.authority = u.authority ∧ r.url.query = none ∧ r.url.fragment = none ∧
      r.url.path = .segments (client.base.segments.dropLast ++ [endpoint]) ∧
      (r.url.path = .segments (trunk u.segments ++ [endpoint]) ↔ EndsPath base u) := by
  have hs : isServer client.base.scheme = true := by
    rcases hscheme with h | h <;> rw [h] <;> decide
  obtain ⟨u, hparse, husch, huauth, hpath, hiff⟩ := exists_base (make_eq_ok hmake) hs
  refine ⟨u, ⟨{ client.base with
      path := .segments (client.base.segments.dropLast ++ [endpoint])
      query := none, fragment := none }, form.body, client.userAgent⟩,
    hparse, ?_, husch.symm, huauth.symm, rfl, rfl, rfl, ?_⟩
  · rw [Client.request, hname.join_eq (isFile_of_isServer hs) hpath]
    rfl
  · rw [UrlPath.segments.injEq, List.append_left_inj, hiff]

/-- The slash becomes part of the query, and the endpoint takes the place of the path. -/
theorem request_path_query : ∃ client u r,
    Client.make "http://127.0.0.1:1/api?x=1" none none = .ok client ∧
    (client.base.scheme = "http" ∨ client.base.scheme = "https") ∧ EndpointName "auth.test" ∧
    parse "http://127.0.0.1:1/api?x=1" = .ok u ∧ u.segments = ["api"] ∧
    client.request "auth.test" .empty = .ok r ∧ r.url.authority = u.authority ∧
    r.url.path = .segments ["auth.test"] ∧ ¬ EndsPath "http://127.0.0.1:1/api?x=1" u := by
  let base : Url := ⟨"http", some { host := .ipv4 0x7f000001, port := some 1 }, .segments ["api"],
    some "x=1/", none⟩
  have hmake : Client.make "http://127.0.0.1:1/api?x=1" none none = .ok ⟨base, none, 30000⟩ :=
    eq_ok_of_toOption (by decide +kernel)
  have hname : EndpointName "auth.test" :=
    ⟨by simp [isWordChar, isLetter, isDigit], ⟨'a', by decide +kernel, by decide⟩⟩
  obtain ⟨u, r, hparse, hrequest, -, hauth, -, -, hpath, hiff⟩ :=
    request_path_iff hmake (.inl rfl) hname .empty
  have hsegments : u.segments = ["api"] := by
    have hsame : parse "http://127.0.0.1:1/api?x=1" = .ok { base with query := some "x=1" } :=
      eq_ok_of_toOption (by decide +kernel)
    obtain rfl := Except.ok.inj (hparse.symm.trans hsame)
    rfl
  refine ⟨_, u, r, hmake, .inl rfl, hname, hparse, hsegments, hrequest, hauth, hpath, ?_⟩
  rw [← hiff, hpath, hsegments]
  decide

end Requests

end Bindery.Post
