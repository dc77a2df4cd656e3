import Bindery.Proofs.Source.ConfinedTypes
import Bindery.Proofs.Source.Types

/-!
# Where types end

A type whose arguments are paired ends at its last bracket, and so does a small plain one. What is
made of it, be it a tree or a fault, does not depend on what follows.
-/
namespace Bindery.Source

open Bindery.Source.Parser Bindery.Source.Grammar

variable {α β : Type} {g : Rules}

/-- What the parser makes of the tokens does not depend on what follows, as long as `follow` holds
of that. -/
def Ends (follow : List Token → Prop) (p : Parser α) (ts : List Token) : Prop := ∀ left,
  (∃ why, ∀ rest, follow rest → p ⟨ts ++ rest, left⟩ = .error why) ∨
    ∃ x left', ∀ rest, follow rest → p ⟨ts ++ rest, left⟩ = .ok (x, ⟨rest, left'⟩)

/-- A type may end in front of the tokens. -/
def TypeEnd (ts : List Token) : Prop := endsType ts = true

section Ends

variable {follow later : List Token → Prop} {p q : Parser α} {f : α → Parser β}
  {ts us : List Token} {x : α}

theorem ends_of_reads (h : ∀ rest, follow rest → Reads p (ts ++ rest) x rest) :
    Ends follow p ts := fun left => .inr ⟨x, left, fun rest hrest => h rest hrest left⟩

theorem ends_pure : Ends follow (pure x : Parser α) [] := ends_of_reads fun rest _ => reads_pure x rest

theorem Ends.bind (hp : Ends follow p ts) (hf : ∀ x, Ends later (f x) us)
    (hlater : ∀ rest, later rest → follow (us ++ rest)) : Ends later (p >>= f) (ts ++ us) := by
  intro left
  rcases hp left with ⟨why, hwhy⟩ | ⟨x, left', hx⟩
  · exact .inl ⟨why, fun rest hrest => by
      rw [run_bind, List.append_assoc, hwhy _ (hlater rest hrest)]⟩
  · have hrun : ∀ rest, later rest → (p >>= f) ⟨ts ++ us ++ rest, left⟩ = f x ⟨us ++ rest, left'⟩ :=
      fun rest hrest => by rw [run_bind, List.append_assoc, hx _ (hlater rest hrest)]
    rcases hf x left' with ⟨why, hwhy⟩ | ⟨y, left'', hy⟩
    · exact .inl ⟨why, fun rest hrest => (hrun rest hrest).trans (hwhy rest hrest)⟩
    · exact .inr ⟨y, left'', fun rest hrest => (hrun rest hrest).trans (hy rest hrest)⟩

theorem Ends.mono (hp : Ends follow p ts) (hmono : ∀ rest, later rest → follow rest) :
    Ends later p ts := by
  intro left
  rcases hp left with ⟨why, hwhy⟩ | ⟨x, left', hx⟩
  · exact .inl ⟨why, fun rest hrest => hwhy rest (hmono rest hrest)⟩
  · exact .inr ⟨x, left', fun rest hrest => hx rest (hmono rest hrest)⟩

/-- What comes last takes nothing. -/
theorem Ends.bind_last (hp : Ends follow p ts) (hf : ∀ x, Ends follow (f x) []) :
    Ends follow (p >>= f) ts := by
  simpa using hp.bind hf fun _ h => h

/-- The parser goes on as another one does from further on. -/
theorem Ends.of_eq (hq : Ends follow q us)
    (h : ∀ rest left, follow rest → p ⟨ts ++ rest, left⟩ = q ⟨us ++ rest, left⟩) :
    Ends follow p ts := by
  intro left
  rcases hq left with ⟨why, hwhy⟩ | ⟨x, left', hx⟩
  · exact .inl ⟨why, fun rest hrest => (h rest left hrest).trans (hwhy rest hrest)⟩
  · exact .inr ⟨x, left', fun rest hrest => (h rest left hrest).trans (hx rest hrest)⟩

theorem Ends.after (hf : Ends follow (f x) us)
    (hp : ∀ rest, follow rest → Reads p (ts ++ rest) x (us ++ rest)) :
    Ends follow (p >>= f) ts :=
  hf.of_eq fun rest left hrest => by rw [run_bind, (hp rest hrest).run]

end Ends

theorem TypeRereads.ends {t : Ty} (h : TypeRereads g t) (plus : Bool) :
    Ends TypeEnd (g.type plus) t.tokens := ends_of_reads (h plus)

/-! Names with arguments -/

/-- The tokens of a name with arguments. -/
def genericTokens (name : Ident) (inner : List Token) : List Token :=
  .ident name :: .punct '<' false :: (inner ++ [.punct '>' false])

section Generic

variable (hg : ConfinedRules g) {inner : List Token} (hinner : Paired inner)
include hg hinner

theorem ends_angleArguments :
    Ends TypeEnd (angleArguments g) (.punct '<' false :: (inner ++ [.punct '>' false])) := by
  have hno : ∀ rest, opAhead "::" (.punct '<' false :: rest) = false := fun rest => by
    simp [opAhead, opAhead.go]
  refine Ends.after (x := false) ?_ fun rest _ left => by
    rw [run_op?, List.cons_append, hno]
    rfl
  intro left
  rcases (confined_angled (confined_genericArg hg)).run_angles
    (fun r => pure (Tree.angleArgs false (.ofList r.1) r.2)) hinner false false left with
    ⟨why, hwhy⟩ | ⟨r, left', -, hr⟩
  · exact .inl ⟨why, fun rest _ => by simpa using hwhy rest⟩
  · exact .inr ⟨_, left', fun rest _ => by simpa using hr rest⟩

variable {name : Ident} (hname : Ident.isKeyword name = false)
include hname

theorem ends_genericSegment : Ends TypeEnd (segment g false) (genericTokens name inner) := by
  have hargs : Ends TypeEnd (angleArguments g >>= fun args => pure (Tree.segment name args)) _ :=
    (ends_angleArguments hg hinner).bind_last fun _ => ends_pure
  refine hargs.of_eq fun rest left _ => ?_
  rw [genericTokens, List.cons_append, segment_ident false (.inr hname)]
  simp [argumentsAhead, opAhead, opAhead.go]

theorem ends_genericPath : Ends TypeEnd (path g false) (genericTokens name inner) := by
  have hrest : ∀ first, Ends TypeEnd (many (do
      if !(← ahead (opAhead "::")) || (← third (groupAhead .paren)) then return none
      op "::"
      return some (← segment g false)) >>= fun rest =>
        pure (Tree.path false (.ofList (first :: rest)))) [] := fun first => by
    refine Ends.bind_last (ends_of_reads (x := []) fun rest hrest => ?_) fun _ => ends_pure
    have hcolons := opAhead_of_endsType hrest "::" (by simp)
    simp [Reads, many, upTo, hcolons]
  refine Ends.after (x := false) ((ends_genericSegment hg hinner hname).bind_last hrest)
    fun rest _ left => ?_
  rw [run_op?, genericTokens, List.cons_append, opAhead_ident]
  rfl

/-- A name with paired arguments ends at its last bracket. -/
theorem ends_generic (plus : Bool) : Ends TypeEnd (Grammar.type g plus) (genericTokens name inner) := by
  have hplace : Ends TypeEnd (place g false) (genericTokens name inner) := by
    refine Ends.after (x := false) ((ends_genericPath hg hinner hname).bind_last fun _ => ends_pure)
      fun rest _ left => ?_
    rw [run_op?, genericTokens, List.cons_append, opAhead_ident]
    rfl
  have hpath : Ends TypeEnd (Grammar.pathType g .absent plus) (genericTokens name inner) := by
    refine hplace.bind_last fun p => ?_
    cases p with
    | itemPlace => exact ends_pure
    | plainPlace p =>
      refine ends_of_reads (x := .pathType (.plainPlace p)) fun rest hrest => ?_
      have hbang := opAhead_of_endsType hrest "!" (by simp)
      have hplus := opAhead_of_endsType hrest "+" (by simp)
      cases hsimple : simple? p <;> simp [Reads, hsimple, Tree.isAbsent, hbang, hplus]
  have hstart : ∀ ts, StartsPath (.ident name :: ts) := fun ts =>
    ⟨by simp [pathStarts, hname], rfl, rfl, fun op _ => by simp⟩
  exact hpath.of_eq fun rest left _ => type_path plus (hstart _) (by simp [startsType, hname]) left

end Generic

/-! Types of emitted code -/

/-- A type ends at its last token, whatever levels it is read with. -/
def Enclosed (t : Ty) : Prop :=
  ∀ n, 15 ≤ n → Ends TypeEnd ((rules (n + 1)).type true) t.tokens

theorem enclosed_plain {t : Ty} (hplain : t.isPlain = true) (hsize : Token.sizeAll t.tokens < 16) :
    Enclosed t := fun n hn => (typeRereads (n + 1) t hplain (by omega)).ends true

theorem enclosed_word {w : String} (h : (wordType w).isPlain = true) : Enclosed (wordType w) := by
  have hsize : Token.sizeAll (wordType w).tokens = 1 := rfl
  exact enclosed_plain h (by rw [hsize]; decide)

theorem tokens_named (name : Ident) (args : List (Tree (.one .genericArg))) :
    Tree.tokens (pathType (.path false
      (.ofList [.segment name (.angleArgs false (.ofList args) false)]))) =
      genericTokens name
        (orderedArgs (lifetimesAmong (.ofList args)) false (args.map Tree.tokens)) := by
  have htokens : Tree.tokens (pathType (.path false
      (.ofList [.segment name (.angleArgs false (.ofList args) false)]))) =
      .ident name :: Tree.tokens (.angleArgs false (.ofList args) false) ++ [] := rfl
  rw [htokens, Tree.tokens_angleArgs, genericTokens, Tree.tokens_ofList]
  simp [punct]

theorem tokens_borrowingType (name lifetime : Ident) :
    (borrowingType name lifetime).tokens = genericTokens name (Token.lifetime lifetime) :=
  tokens_named name [.lifetimeArg lifetime]

theorem ne_of_not_keyword {name : Ident} (h : Ident.isKeyword name = false) {w : String}
    (hw : Ident.isKeyword ⟨w, false⟩ = true) : name ≠ ⟨w, false⟩ := by
  rintro rfl
  rw [h] at hw
  cases hw

theorem enclosed_borrowingType {name : Ident} (h : Ident.isKeyword name = false)
    (lifetime : Ident) : Enclosed (borrowingType name lifetime) := by
  have hsize : Token.sizeAll (borrowingType name lifetime).tokens = 5 := by
    rw [tokens_borrowingType]
    rfl
  have hsegment : Tree.isPlain (.segment name (.angleArgs false (.ofList [.lifetimeArg lifetime])
      false)) = true := Tree.isPlain_angleArgs.2 ⟨rfl, .inr h, rfl, rfl, .inl rfl⟩
  have hname : (name != ⟨"try", false⟩) = true := by
    simpa using ne_of_not_keyword h (w := "try") (by decide)
  have hplain : (borrowingType name lifetime).isPlain = true := by
    change ((Tree.isPlain (.segment name (.angleArgs false (.ofList [.lifetimeArg lifetime])
      false)) && true) && (name != ⟨"try", false⟩)) = true
    rw [hsegment, hname]
    rfl
  exact enclosed_plain hplain (by rw [hsize]; decide)

/-- A name with paired arguments. -/
theorem enclosed_genericType {w : String} (hw : Ident.isKeyword (plain w) = false) {args : List Ty}
    (h : ∀ t ∈ args, t.IsPaired) : Enclosed (genericType w args) := by
  intro n _
  have hargs : ∀ ts ∈ (args.map Tree.typeArg).map Tree.tokens, Paired ts := by
    intro ts hts
    simp only [List.map_map, List.mem_map, Function.comp_apply] at hts
    obtain ⟨t, ht, rfl⟩ := hts
    exact (h t ht).typeArg
  have htokens := tokens_named (plain w) (args.map Tree.typeArg)
  rw [genericType, segmentWith, htokens]
  exact ends_generic (confinedRules n) (paired_orderedArgs _ false hargs) hw true

end Bindery.Source
