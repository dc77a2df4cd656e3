import Bindery.Proofs.Source.Bare
import Bindery.Proofs.Source.PlainForms

/-!
# Sizes without documentation

Documentation may vanish, but not what stands in a type: a piece of code without documentation has
at least as many tokens as each plain type in it.
-/
namespace Bindery.Source

/-- A token that neither vanishes with a mark in front of it nor makes others vanish. -/
def isFirm : Token → Bool
  | .punct c _ => c != '#' && c != '!'
  | .group d _ => d != .bracket
  | _ => true

section Firm

variable {t : Token} {ts us rest : List Token}

theorem isFirm_bare : isFirm t.bare = isFirm t := by
  cases t <;> simp [Token.bare, isFirm]

/-- Only a hash makes something vanish. -/
theorem consBare_of_ne (h : ∀ joint, t ≠ .punct '#' joint) (rest : List Token) :
    Token.consBare t rest = t :: rest := by
  unfold Token.consBare
  split
  · exact absurd rfl (h _)
  · exact absurd rfl (h _)
  · rfl

theorem ne_hash_of_isFirm (h : isFirm t = true) : ∀ joint, t ≠ .punct '#' joint := by
  rintro joint rfl
  cases h

theorem bareAll_firm (h : isFirm t = true) (rest : List Token) :
    Token.bareAll (t :: rest) = t.bare :: Token.bareAll rest := by
  rw [Token.bareAll, consBare_of_ne (ne_hash_of_isFirm (isFirm_bare.trans h))]

/-- What stands in front of a firm token keeps it. -/
theorem exists_consBare (x : Token) (h : isFirm t = true) (front : List Token) (rest : List Token) :
    ∃ front', Token.consBare x (front ++ t :: rest) = front' ++ t :: rest := by
  generalize hts : front ++ t :: rest = ts
  unfold Token.consBare
  split
  · rename_i joint inner rest'
    split
    · cases front with
      | nil =>
        obtain ⟨rfl, rfl⟩ := List.cons.inj hts
        cases h
      | cons y front => exact ⟨front, (List.cons.inj hts).2.symm⟩
    · exact ⟨_ :: front, by rw [List.cons_append, hts]⟩
  · rename_i joint joint' inner rest'
    split
    · match front, hts with
      | [], hts =>
        obtain ⟨rfl, -⟩ := List.cons.inj hts
        cases h
      | [_], hts =>
        obtain ⟨rfl, -⟩ := List.cons.inj (List.cons.inj hts).2
        cases h
      | _ :: _ :: front, hts => exact ⟨front, (List.cons.inj (List.cons.inj hts).2).2.symm⟩
    · exact ⟨_ :: front, by rw [List.cons_append, hts]⟩
  · exact ⟨x :: front, by rw [List.cons_append, hts]⟩

theorem exists_bareAll_append (h : isFirm t = true) (ts rest : List Token) :
    ∃ front, Token.bareAll (ts ++ t :: rest) = front ++ t.bare :: Token.bareAll rest := by
  induction ts with
  | nil => exact ⟨[], bareAll_firm h rest⟩
  | cons x ts ih =>
    obtain ⟨front, hfront⟩ := ih
    rw [List.cons_append, Token.bareAll, hfront]
    exact exists_consBare _ (isFirm_bare.trans h) front _

/-- A group counts with all that is left of its content. -/
theorem sizeAll_bareAll_group {d : Delimiter} {inner : List Token} (hd : d ≠ .bracket)
    (h : .group d inner ∈ ts) :
    Token.sizeAll (Token.bareAll inner) < Token.sizeAll (Token.bareAll ts) := by
  have hfirm : isFirm (.group d inner) = true := by simpa [isFirm] using hd
  obtain ⟨before, rest, rfl⟩ := List.append_of_mem h
  obtain ⟨front, hfront⟩ := exists_bareAll_append hfirm before rest
  rw [hfront, sizeAll_append, Token.sizeAll, Token.bare, Token.size]
  omega

end Firm

/-! Tokens of plain types -/

/-- Nothing in front of other tokens vanishes. -/
def Stays (ts : List Token) : Prop := ∀ rest, Token.bareAll (ts ++ rest) = ts ++ Token.bareAll rest

namespace Stays

variable {k : Kind} {t : Token} {ts us : List Token}

theorem nil : Stays [] := fun _ => rfl

theorem append (h : Stays ts) (h' : Stays us) : Stays (ts ++ us) := fun rest => by
  rw [List.append_assoc, h, h', List.append_assoc]

theorem cons (ht : t.bare = t) (hmark : ∀ joint, t ≠ .punct '#' joint) (h : Stays ts) :
    Stays (t :: ts) := fun rest => by
  rw [List.cons_append, Token.bareAll, ht, h rest, consBare_of_ne hmark]
  rfl

theorem ident (i : Ident) (h : Stays ts) : Stays (.ident i :: ts) := h.cons rfl (by simp)

theorem punct {c : Char} (hc : c ≠ '#') (joint : Bool) (h : Stays ts) :
    Stays (.punct c joint :: ts) := h.cons rfl (by simpa using hc)

theorem group (h : Stays ts) (d : Delimiter) : Stays [.group d ts] := by
  have hbare : Token.bareAll ts = ts := by simpa [Token.bareAll] using h []
  exact nil.cons (by rw [Token.bare, hbare]) (by simp)

theorem separated {sep : List Token} (hsep : Stays sep) (trailing : Bool)
    {parts : List (List Token)}
    (h : ∀ ts ∈ parts, Stays ts) : Stays (separated sep trailing parts) := by
  fun_induction Source.separated sep trailing parts with
  | case1 => exact nil
  | case2 ts =>
    refine (h ts (by simp)).append ?_
    split
    · exact hsep
    · exact nil
  | case3 ts rest _ ih =>
    obtain ⟨hts, hrest⟩ := List.forall_mem_cons.1 h
    exact (hts.append hsep).append (ih hrest)

/-- Elements of a list with commas between them. -/
theorem commas {xs : List (Tree (.one k))} (trailing : Bool) (h : ∀ x ∈ xs, Stays x.tokens) :
    Stays (commas trailing (xs.map Tree.tokens)) :=
  separated (punct (by decide) false nil) trailing fun ts hts => by
    obtain ⟨x, hx, rfl⟩ := List.mem_map.1 hts
    exact h x hx

end Stays

/-- The tokens of the type stay. -/
def TypeStays (t : Ty) : Prop := Stays t.tokens

theorem stays_segmentForm {s : Tree (.one .segment)} (h : SegmentForm TypeStays s) :
    Stays s.tokens := by
  cases h with
  | bare => exact Stays.nil.ident _
  | @named name args trailing hname hlife _ hargs =>
    have hcommas : Stays (commas trailing (args.map Tree.tokens)) := .commas trailing fun a ha => by
      cases hargs a ha with
      | lifetime name => exact (Stays.nil.ident name).punct (by decide) true
      | type ht => exact ht
    rw [Tree.tokens_segment, tokens_angleArgs_ofList hlife]
    exact ((hcommas.append (Stays.nil.punct (by decide) false)).punct (by decide) false).ident name

theorem stays_pathForm {p : Path} (h : PathForm TypeStays p) : Stays p.tokens := by
  obtain ⟨rooted, hsegments⟩ := h
  have hcolons : Stays (Token.operator "::") :=
    (Stays.nil.punct (by decide) false).punct (by decide) true
  rw [Tree.tokens_path, Tree.tokens_ofList]
  refine .append ?_ (.separated hcolons false fun ts hts => ?_)
  · split
    · exact hcolons
    · exact .nil
  · obtain ⟨s, hs, rfl⟩ := List.mem_map.1 hts
    exact stays_segmentForm (hsegments s hs)

/-- A single bound. -/
theorem stays_bound {p : Path} (h : PathForm TypeStays p) :
    Stays (plusses false [Tree.tokens (.traitBound false false .absent p)]) :=
  .separated (Stays.nil.punct (by decide) false) false (List.forall_mem_singleton.2 (by
    change Stays ([] ++ [] ++ p.tokens)
    exact stays_pathForm h))

theorem stays_plain {t : Ty} (hp : t.isPlain = true) : Stays t.tokens := by
  refine plain_induction (P := TypeStays) (fun t h => ?_) hp
  cases h with
  | inferred => exact Stays.nil.ident _
  | never => exact Stays.nil.punct (by decide) _
  | paren h => exact Stays.group h _
  | pointer mutable h => exact (Stays.ident _ h).punct (by decide) _
  | @reference l mutable t h =>
    have hlifetime : Stays (lifetimeTokens l) := by
      cases l with
      | none => exact .nil
      | some name => exact (Stays.nil.ident name).punct (by decide) true
    have hmut : Stays (flagWord mutable "mut") := by
      cases mutable with
      | false => exact .nil
      | true => exact Stays.nil.ident _
    rw [TypeStays, Tree.tokens_referenceType]
    exact (((Stays.nil.punct (by decide) false).append hlifetime).append hmut).append h
  | slice h => exact Stays.group h _
  | tuple h =>
    rw [TypeStays, Tree.tokens_tupleType, Tree.tokens_ofList]
    exact .group (.commas _ h) _
  | some _ h =>
    rw [TypeStays, Tree.tokens_someType]
    exact .ident _ (stays_bound h)
  | object _ h =>
    rw [TypeStays, Tree.tokens_objectType]
    exact .ident _ (stays_bound h)
  | path _ h => exact stays_pathForm h

/-- Code has at least as many tokens as a plain type in it, apart from documentation. -/
theorem sizeAll_le_bareAll {t : Ty} (hp : t.isPlain = true) {c : Char} (hc : c ∉ ['#', '!'])
    {joint : Bool} {ts : List Token} (h : .punct c joint :: t.tokens <:+: ts) :
    Token.sizeAll t.tokens ≤ Token.sizeAll (Token.bareAll ts) := by
  have hfirm : isFirm (.punct c joint) = true := by simpa [isFirm] using hc
  obtain ⟨before, rest, rfl⟩ := h
  obtain ⟨front, hfront⟩ := exists_bareAll_append hfirm before (t.tokens ++ rest)
  have happend : before ++ .punct c joint :: t.tokens ++ rest =
      before ++ .punct c joint :: (t.tokens ++ rest) := by simp
  rw [happend, hfront, stays_plain hp, sizeAll_append, Token.sizeAll, sizeAll_append]
  omega

end Bindery.Source
