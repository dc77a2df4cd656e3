import Bindery.Proofs.Source.PlainForms

/-!
# Plain types are read again

Each form of a plain type is read again if the types in it are. With the levels of the rules this
carries over to all plain types.
-/
namespace Bindery.Source

open Bindery.Source.Parser Bindery.Source.Grammar

variable {g : Rules}

/-! Forms of types -/

theorem reads_pathType {p : Path} (plus : Bool) {rest : List Token} (hend : endsType rest = true)
    (hangle : opAhead "<" (p.tokens ++ rest) = false)
    (hp : Reads (path g false) (p.tokens ++ rest) p rest) :
    Reads (Grammar.pathType g .absent plus) (p.tokens ++ rest)
    (.pathType (.plainPlace p)) rest := by
  have hbang := opAhead_of_endsType hend "!" (by simp)
  have hplus := opAhead_of_endsType hend "+" (by simp)
  have hplace : Reads (place g false) (p.tokens ++ rest) (.plainPlace p) rest := by
    simp [Reads, place, hangle, hp.run]
  refine hplace.bind ?_
  cases hsimple : simple? p with
  | none => simp [Reads, hsimple, Tree.isAbsent, hplus]
  | some names => simp [Reads, hsimple, Tree.isAbsent, hbang, hplus]


/-- The tokens of a path start with a name or with the colons of its root. -/
structure StartsPath (ts : List Token) : Prop where
  starts : pathStarts ts = true
  paren : groupAhead .paren ts = false
  bracket : groupAhead .bracket ts = false
  op : ∀ op : String, op.toList.head? ≠ some ':' → opAhead op ts = false

theorem startsPath_tokens {p : Path} (h : p.isPlain = true) (rest : List Token) :
    StartsPath (p.tokens ++ rest) := by
  obtain ⟨rooted, first, others, rfl, hsegments, hopens⟩ := exists_segments h
  rw [Tree.tokens_path, Tree.tokens_ofList, List.map_cons, separated_cons]
  match first with
  | .segment name args =>
    cases rooted with
    | true =>
      refine ⟨?_, rfl, rfl, fun op hop => Bool.eq_false_iff.2 fun h => hop (head?_of_opAhead h)⟩
      simp [Token.operator_colons, pathStarts, opAhead, opAhead.go]
    | false =>
      have hname := isPlain_segment_name (hsegments _ (List.mem_cons_self ..))
      have htry : (name != ⟨"try", false⟩) = true := hopens rfl
      simp [isPlaceWord, placeWords] at hname htry
      refine ⟨?_, rfl, rfl, fun op _ => by simp⟩
      simp [pathStarts]
      simp only [htry, or_false] at hname
      rcases hname with ((h | h | h) | h) | h <;> simp [h]

theorem reads_traitPath {p : Path} {rest : List Token} (hend : endsType rest = true)
    (hp : Reads (path g false) (p.tokens ++ rest) p rest) :
    Reads (traitPath g) (p.tokens ++ rest) p rest := by
  have hparen := (typeEnds hend).paren
  have hcolons := opAhead_of_endsType hend "::" (by simp)
  match p with
  | .path rooted segments =>
    refine hp.bind ?_
    cases hlast : segments.toList.getLast? with
    | none => simp [Reads, hlast, hparen, hcolons]
    | some last => simp [Reads, hlast, hparen, hcolons]

/-- A single trait is read as all bounds of a type. -/
theorem reads_bounds (plus captures consts : Bool) {p : Path} (hplain : p.isPlain = true)
    {rest : List Token} (hend : endsType rest = true)
    (hp : Reads (path g false) (p.tokens ++ rest) p rest) :
    Reads (bounds g plus captures consts) (p.tokens ++ rest)
      ([.traitBound false false .absent p], false) rest := by
  have hstart : startsType (p.tokens ++ rest) = true :=
    startsType_tokens (t := .pathType (.plainPlace p)) hplain rest
  have hpath := startsPath_tokens hplain rest
  have hplus := opAhead_of_endsType hend "+" (by simp)
  have hlife := lifetimeAhead_of_startsType hstart
  have huse := wordAhead_of_startsType hstart (w := "use") (by decide)
  have hfor := wordAhead_of_startsType hstart (w := "for") (by decide)
  have hconst := wordAhead_of_startsType hstart (w := "const") (by decide)
  have hmaybe := hpath.op "?" (by simp)
  have htrait : Reads (traitBound g consts false) (p.tokens ++ rest)
      (some (.traitBound false false .absent p)) rest := by
    simp [Reads, traitBound, binder?, hfor, hpath.bracket, hconst, hmaybe,
      (reads_traitPath hend hp).run]
  have hbound : Reads (bound g captures consts) (p.tokens ++ rest)
      (.traitBound false false .absent p) rest := by
    simp [Reads, bound, hlife, huse, consumed, since, hpath.paren, htrait.run]
  cases plus <;> simp [Reads, bounds, hbound.run, hplus]

theorem reads_someType (plus : Bool) {p : Path} (hplain : p.isPlain = true) {rest : List Token}
    (hend : endsType rest = true) (hp : Reads (path g false) (p.tokens ++ rest) p rest) :
    Reads (opaqueType g plus) (.word "impl" :: p.tokens ++ rest)
      (.someType (.cons (.traitBound false false .absent p) .nil) false) rest := by
  have hbounds := reads_bounds plus true true hplain hend hp
  simp [Reads, opaqueType, hbounds.run, isTraitBound, Tree.ofList]

theorem reads_objectType (plus : Bool) {p : Path} (hplain : p.isPlain = true) {rest : List Token}
    (hend : endsType rest = true) (hp : Reads (path g false) (p.tokens ++ rest) p rest) :
    Reads (objectType g plus) (.word "dyn" :: p.tokens ++ rest)
      (.objectType true (.cons (.traitBound false false .absent p) .nil) false) rest := by
  have hbounds := reads_bounds plus false false hplain hend hp
  have hstar := (startsPath_tokens hplain rest).op "*" (by simp)
  have hobject : Reads (objectBounds g true plus) (p.tokens ++ rest)
      (.objectType true (.cons (.traitBound false false .absent p) .nil) false) rest := by
    simp [Reads, objectBounds, hbounds.run, isTraitBound, Tree.ofList]
  simp [Reads, objectType, consumed, since, hstar, hobject.run]

theorem type_path (plus : Bool) {ts : List Token} (h : StartsPath ts)
    (hstart : startsType ts = true) (left : Option Delimiter) :
    Grammar.type g plus ⟨ts, left⟩ = Grammar.pathType g .absent plus ⟨ts, left⟩ := by
  have hfor := wordAhead_of_startsType hstart (w := "for") (by decide)
  have hfn := wordAhead_of_startsType hstart (w := "fn") (by decide)
  have hunsafe := wordAhead_of_startsType hstart (w := "unsafe") (by decide)
  have hextern := wordAhead_of_startsType hstart (w := "extern") (by decide)
  simp [Grammar.type, hfor, h.paren, fnStarts, hfn, hunsafe, hextern, h.starts]


theorem type_impl (plus : Bool) (ts : List Token) (left : Option Delimiter) :
    Grammar.type g plus ⟨.word "impl" :: ts, left⟩ =
      opaqueType g plus ⟨.word "impl" :: ts, left⟩ := by
  have hkeyword : Ident.isKeyword ⟨"impl", false⟩ = true := by decide
  simp [Grammar.type, fnStarts, pathStarts, hkeyword]

theorem type_dyn (plus : Bool) (ts : List Token) (left : Option Delimiter) :
    Grammar.type g plus ⟨.word "dyn" :: ts, left⟩ =
      objectType g plus ⟨.word "dyn" :: ts, left⟩ := by
  have hkeyword : Ident.isKeyword ⟨"dyn", false⟩ = true := by decide
  simp [Grammar.type, fnStarts, pathStarts, hkeyword]

theorem type_inferred (plus : Bool) (rest : List Token) :
    Reads (Grammar.type g plus) (.word "_" :: rest) .inferredType rest := by
  have hkeyword : Ident.isKeyword ⟨"_", false⟩ = true := by decide
  simp [Reads, Grammar.type, fnStarts, pathStarts, hkeyword]

theorem type_never (plus : Bool) (rest : List Token) :
    Reads (Grammar.type g plus) (.punct '!' false :: rest) .neverType rest := by
  simp [Reads, Grammar.type, fnStarts, pathStarts, opAhead, opAhead.go, dropOp]

theorem type_pointer (plus mutable : Bool) {t : Ty} (h : TypeRereads g t) {rest : List Token}
    (hend : endsType rest = true) : Reads (Grammar.type g plus)
      (.punct '*' false :: .word (if mutable then "mut" else "const") :: t.tokens ++ rest)
      (.pointerType mutable t) rest := by
  have ht := h false rest hend
  cases mutable <;>
    simp [Reads, Grammar.type, fnStarts, pathStarts, pointerType, opAhead, opAhead.go, dropOp,
      ht.run]

theorem type_reference (plus mutable : Bool) (l : Option Ident) {t : Ty}
    (h : TypeRereads g t) (hp : t.isPlain = true) {rest : List Token}
    (hend : endsType rest = true) : Reads (Grammar.type g plus)
      (punct '&' ++ lifetimeTokens l ++ flagWord mutable "mut" ++ t.tokens ++ rest)
      (.referenceType l mutable t) rest := by
  have ht := h false rest hend
  have hstart := startsType_tokens hp rest
  have hlife := lifetimeAhead_of_startsType hstart
  have hmut := wordAhead_of_startsType hstart (w := "mut") (by decide)
  have hahead : ∀ (name : Ident) ts,
      lifetimeAhead (.punct '\'' true :: .ident name :: ts) = true := fun _ _ => rfl
  have hword : ∀ (w : String) ts, lifetimeAhead (.word w :: ts) = false := fun _ _ => rfl
  cases l <;> cases mutable <;>
    simp [Reads, Grammar.type, fnStarts, pathStarts, punct, lifetimeTokens, Token.lifetime,
      flagWord, opAhead, opAhead.go, dropOp, lifetime?, hlife, hmut, hahead, hword, ht.run]

theorem type_slice (plus : Bool) {t : Ty} (h : TypeRereads g t) (rest : List Token) :
    Reads (Grammar.type g plus) (.group .bracket t.tokens :: rest) (.sliceType t) rest := by
  have ht := h true [] rfl
  rw [List.append_nil] at ht
  have hcontent : Reads (bracketType g) (.group .bracket t.tokens :: rest) (.sliceType t) rest := by
    refine reads_delimited ?_ .bracket rest
    simp [Reads, ht.run]
  simp [Reads, Grammar.type, fnStarts, pathStarts, hcontent.run]

theorem type_group {plus : Bool} {inner rest : List Token} {t : Ty}
    (h : Reads (parenType g plus) (.group .paren inner :: rest) t rest) :
    Reads (Grammar.type g plus) (.group .paren inner :: rest) t rest := by
  simp [Reads, Grammar.type, h.run]

theorem type_paren (plus : Bool) {t : Ty} (h : TypeRereads g t) (hp : t.isPlain = true)
    {rest : List Token} (hend : endsType rest = true) :
    Reads (Grammar.type g plus) (.group .paren t.tokens :: rest) (.parenType t) rest := by
  have ht := h true [] rfl
  have hstart := startsType_tokens hp []
  rw [List.append_nil] at ht hstart
  have hlife := lifetimeAhead_of_startsType hstart
  have hmaybe := opAhead_of_startsType hstart "?" (by simp)
  have hne : t.tokens ≠ [] := by
    intro hnil
    rw [hnil] at hstart
    cases hstart
  have hplus := opAhead_of_endsType hend "+" (by simp)
  have hcontent : Reads (parenContent g) t.tokens (.type t) [] := by
    simp [Reads, parenContent, hne, hlife, hmaybe, ht.run]
  refine type_group ((reads_delimited hcontent .paren rest).bind ?_)
  simp [Reads, hplus]

theorem type_tuple (plus trailing : Bool) {ts : List Ty} (h : ∀ t ∈ ts, TypeRereads g t)
    (hp : ∀ t ∈ ts, t.isPlain = true) (hone : trailing = true ∨ ts.length ≠ 1)
    (hnil : trailing = true → ts ≠ []) (rest : List Token) :
    Reads (Grammar.type g plus) (.group .paren (commas trailing (ts.map Tree.tokens)) :: rest)
      (.tupleType (.ofList ts) trailing) rest := by
  have hcontent : Reads (parenContent g) (commas trailing (ts.map Tree.tokens))
      (.complete (.tupleType (.ofList ts) trailing)) [] := by
    cases ts with
    | nil =>
      obtain rfl : trailing = false := by simpa using hnil
      exact fun _ => rfl
    | cons t others =>
      have hmore : others ≠ [] ∨ trailing = true := by
        rcases hone with h | h
        · exact .inr h
        · refine .inl ?_
          rintro rfl
          simp at h
      have hstart := startsType_tokens (hp t (by simp))
        (.punct ',' false :: commas trailing (others.map Tree.tokens))
      have hne := ne_nil_of_startsType hstart
      have hlife := lifetimeAhead_of_startsType hstart
      have hmaybe := opAhead_of_startsType hstart "?" (by simp)
      have hfirst := h t (by simp) true _ (endsType_comma
          (commas trailing (others.map Tree.tokens)))
      have hothers : Reads (Parser.separated List.isEmpty "," (g.type true))
          (commas (trailing && !others.isEmpty) (others.map Tree.tokens) ++ [])
          (others, trailing && !others.isEmpty) [] :=
        reads_separated (fun ts => endsType ts = true)
        (fun t ht => h t (List.mem_cons_of_mem _ ht) true)
        (fun t ht => typeTokens_ne_nil (hp t (List.mem_cons_of_mem _ ht)))
        (fun more => ⟨rfl, rfl⟩) ⟨rfl, rfl⟩ (by simp)
      have hcommas : commas (trailing && !others.isEmpty) (others.map Tree.tokens) ++ [] =
          commas trailing (others.map Tree.tokens) := by
        cases others with
        | nil => rfl
        | cons => simp
      rw [hcommas] at hothers
      rw [List.map_cons, commas_cons (by simpa using hmore)]
      have hcomma : ∀ more, opAhead "," (.punct ',' false :: more) = true := fun _ => by
        simp [opAhead, opAhead.go]
      simp [Reads, parenContent, hne, hlife, hmaybe, hfirst.run, hcomma, dropOp, listed,
        hothers.run]
      rcases hmore with hlast | hlast
      · simp [List.isEmpty_eq_false_iff.2 hlast]
      · simp [hlast]
  exact type_group ((reads_delimited hcontent .paren rest).bind (reads_pure _ _))

/-! Types that are made of others -/

/-- A plain type that is read again. -/
structure PlainRereads (g : Rules) (t : Ty) : Prop where
  plain : t.isPlain = true
  reads : TypeRereads g t

section Composed

variable {t : Ty} {p : Path} {name : Ident}

theorem PlainRereads.ne_nil (h : PlainRereads g t) : t.tokens ≠ [] := (typeTokens_ne_nil h.plain).1

theorem argRereads_type (h : PlainRereads g t) : ArgRereads g (.typeArg t) :=
  ⟨fun rest hrest => reads_typeArg h.reads h.plain hrest.1 hrest.2, h.ne_nil,
    fun rest => opAhead_of_startsType (startsType_tokens h.plain rest) ">" (by simp)⟩

theorem argRereads_lifetime (name : Ident) : ArgRereads g (.lifetimeArg name) :=
  ⟨fun rest h => reads_lifetimeArg name (opAhead_of_endsType h.1 "+" (by simp)),
    by simp [Token.lifetime], fun rest => by simp [Token.lifetime, opAhead, opAhead.go]⟩

theorem segmentRereads_args (hname : name = ⟨"Self", false⟩ ∨ Ident.isKeyword name = false)
    {args : List (Tree (.one .genericArg))} {trailing : Bool} (h : ∀ a ∈ args, ArgRereads g a)
    (hlife : lifetimesFirst (lifetimesAmong (.ofList args)) = true)
    (htrailing : trailing = true → args ≠ []) :
    SegmentRereads g false (.segment name (.angleArgs false (.ofList args) trailing)) := by
  intro rest _
  have hread := reads_angleArguments h htrailing hlife rest
  rw [Tree.tokens_segment, tokens_angleArgs_ofList hlife trailing]
  rw [tokens_angleArgs_ofList hlife trailing] at hread
  exact reads_angleSegment hname hread

/-- What is read by the rule for paths is read as a type. -/
theorem plainRereads_of_path (hp : p.isPlain = true)
    (h : ∀ rest, endsType rest = true → Reads (path g false) (p.tokens ++ rest) p rest) :
    PlainRereads g.above (pathType p) := by
  refine ⟨hp, fun plus rest hend left => ?_⟩
  have hstart := startsPath_tokens hp rest
  change Grammar.type g plus ⟨p.tokens ++ rest, left⟩ = _
  rw [type_path plus hstart (startsType_tokens (t := pathType p) hp rest)]
  exact reads_pathType plus hend (hstart.op "<" (by simp)) (h rest hend) left

/-- A path is read again if the types in it are. -/
theorem reads_pathForm (h : PathForm (PlainRereads g) p) (rest : List Token)
    (hend : endsType rest = true) : Reads (path g false) (p.tokens ++ rest) p rest := by
  obtain ⟨rooted, hsegments⟩ := h
  refine reads_path false rooted (fun s hs => ?_) (endsSegment_of_endsType hend)
    (opAhead_of_endsType hend "::" (by simp))
  cases hsegments s hs with
  | bare hname => exact fun rest h => reads_bareSegment false hname h
  | named hname hlife htrailing hargs =>
    refine segmentRereads_args hname (fun a ha => ?_) hlife htrailing
    cases hargs a ha with
    | lifetime name => exact argRereads_lifetime name
    | type ht => exact argRereads_type ht

theorem plain_reference (l : Option Ident) (mutable : Bool) (h : PlainRereads g t) :
    PlainRereads g.above (.referenceType l mutable t) :=
  ⟨h.plain, fun plus _ hend => type_reference plus mutable l h.reads h.plain hend⟩

/-- A plain type is read again one level above the types in it. -/
theorem typeRereads_of_form (h : TypeForm (PlainRereads g) t) : TypeRereads g.above t := by
  intro plus rest hend
  change Reads (Grammar.type g plus) _ _ _
  cases h with
  | inferred => exact type_inferred plus rest
  | never => exact type_never plus rest
  | paren h => exact type_paren plus h.reads h.plain hend
  | pointer mutable h => exact type_pointer plus mutable h.reads hend
  | reference l mutable h => exact (plain_reference l mutable h).reads plus rest hend
  | slice h => exact type_slice plus h.reads rest
  | tuple h hone hnil =>
    have hread := type_tuple plus _ (fun t ht => (h t ht).reads) (fun t ht => (h t ht).plain) hone
      hnil rest
    simpa [parenthesized] using hread
  | some hplain h =>
    have hread := reads_someType plus hplain hend (reads_pathForm h rest hend)
    rw [Reads, Tree.tokens_someType]
    simpa [plusses, separated, type_impl] using hread.run
  | object hplain h =>
    have hread := reads_objectType plus hplain hend (reads_pathForm h rest hend)
    rw [Reads, Tree.tokens_objectType]
    simpa [plusses, separated, flagWord, type_dyn] using hread.run
  | path hplain h => exact (plainRereads_of_path hplain (reads_pathForm h)).reads plus rest hend

end Composed

/-! All types -/

/-- Plain types are read again with as many levels as they have tokens. -/
theorem typeRereads (n : Nat) : ∀ t : Ty, t.isPlain = true → Token.sizeAll t.tokens < n →
    TypeRereads (rules n) t := by
  induction n with
  | zero => exact fun _ _ h => absurd h (Nat.not_lt_zero _)
  | succ n ih =>
    exact fun t hp hsize => typeRereads_of_form
      (typeForm (fun t hp hsize => ⟨hp, ih t hp hsize⟩) hp (Nat.lt_succ_iff.1 hsize))

end Bindery.Source
