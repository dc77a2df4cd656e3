import Bindery.Proofs.Source.PlainTypes

/-!
# Arguments and paths are read again

A path is read one segment after the other. Types that are its arguments are read by rules below
those for the path, for which it is assumed here.
-/
namespace Bindery.Source

open Bindery.Source.Parser Bindery.Source.Grammar

/-! Generic arguments -/

theorem joinArgs_withCommas (trailing : Bool) (args : List (List Token)) :
    joinArgs true (withCommas trailing args) = commas trailing args := by
  induction args with
  | nil => rfl
  | cons x rest ih =>
    cases rest with
    | nil => simp [withCommas, joinArgs, commas, separated]
    | cons y ys => simpa [withCommas, joinArgs, commas, separated, punct] using ih

theorem filter_append_filter_of_lifetimesFirst {α : Type} {lifetimes : List Bool}
    (h : lifetimesFirst lifetimes = true) (xs : List α) :
    (lifetimes.zip xs).filter (·.1) ++ (lifetimes.zip xs).filter (!·.1) = lifetimes.zip xs := by
  induction lifetimes generalizing xs with
  | nil => simp
  | cons b rest ih =>
    cases xs with
    | nil => simp
    | cons x xs =>
      cases b with
      | true => simpa using ih h xs
      | false =>
        have hrest : ∀ b ∈ rest, b = false := by simpa [lifetimesFirst] using h
        have hzip : ∀ p ∈ rest.zip xs, p.1 = false := fun p hp => hrest _ (List.of_mem_zip hp).1
        have hnone : (rest.zip xs).filter (·.1) = [] := by simpa using hzip
        have hall : (rest.zip xs).filter (!·.1) = rest.zip xs := by simpa using hzip
        simp [hnone, hall]

theorem lifetimesAmong_ofList {k : Kind} (xs : List (Tree (.one k))) :
    lifetimesAmong (.ofList xs) = xs.map lifetimesAmong.isLifetime := by
  induction xs with
  | nil => rfl
  | cons x rest ih => exact congrArg (_ :: ·) ih

theorem length_withCommas {α : Type} (trailing : Bool) (xs : List α) :
    (withCommas trailing xs).length = xs.length := by
  induction xs with
  | nil => rfl
  | cons x rest ih =>
    cases rest with
    | nil => rfl
    | cons y ys => simpa [withCommas] using ih

/-- Arguments stay in order if lifetimes come first. -/
theorem orderedArgs_eq_commas {lifetimes : List Bool} (h : lifetimesFirst lifetimes = true)
    {args : List (List Token)} (hlength : lifetimes.length = args.length) (trailing : Bool) :
    orderedArgs lifetimes trailing args = commas trailing args := by
  have hzip : (lifetimes.zip (withCommas trailing args)).map (·.2) = withCommas trailing args :=
    List.map_snd_zip (by rw [hlength, length_withCommas])
  rw [orderedArgs, ← List.map_append, filter_append_filter_of_lifetimesFirst h, hzip,
    joinArgs_withCommas]

variable {g : Rules}

/-- The rule for types makes the type of its tokens in front of what may follow it. -/
def TypeRereads (g : Rules) (t : Ty) : Prop :=
  ∀ plus rest, endsType rest = true → Reads (g.type plus) (t.tokens ++ rest) t rest

/-- What the rule for an argument makes of a type when nothing belongs to it. -/
theorem reads_afterType {rest : List Token}
    (hassociated : ∀ name args, Reads (associated g name args) rest none rest) (t : Ty) :
    Reads (match t with
    | .pathType (.plainPlace (.path false (.cons (.segment _ (.callArgs ..)) .nil))) =>
      return .typeArg t
    | .pathType (.plainPlace (.path false (.cons (.segment name args) .nil))) =>
      return (← associated g name args).getD (.typeArg t)
    | _ => return .typeArg t) rest (.typeArg t) rest := by
  cases t with
  | pathType p =>
    cases p with
    | itemPlace => exact reads_pure _ _
    | plainPlace p =>
      cases p with
      | path rooted segments =>
      cases rooted with
      | true => exact reads_pure _ _
      | false =>
        cases segments with
        | nil => exact reads_pure _ _
        | cons first others =>
          cases first with
          | segment name args =>
          cases others with
          | nil =>
            cases args with
            | callArgs => exact reads_pure _ _
            | noArgs => exact (hassociated name _).bind (reads_pure _ _)
            | angleArgs => exact (hassociated name _).bind (reads_pure _ _)
          | cons => cases args <;> exact reads_pure _ _
  | _ => exact reads_pure _ _


theorem reads_typeArg {t : Ty} (h : TypeRereads g t) (hp : t.isPlain = true) {rest : List Token}
    (hrest : endsType rest = true) (heq : opAhead "=" rest = false) :
    Reads (genericArg g) (t.tokens ++ rest) (.typeArg t) rest := by
  have hstart := startsType_tokens hp rest
  have hlife := lifetimeAhead_of_startsType hstart
  have hlit := literalAhead_of_startsType hstart
  have hbrace := groupAhead_of_startsType hstart
  have hcolon := opAhead_of_endsType hrest ":" (by simp)
  have hassociated : ∀ name args, Reads (associated g name args) rest none rest := by
    intro name args
    simp [Reads, associated, heq, hcolon]
  refine (reads_ahead lifetimeAhead _).bind ((reads_second (opAhead "+") _).bind ?_)
  rw [hlife, Bool.false_and, if_neg Bool.false_ne_true]
  refine (reads_ahead constStarts _).bind ?_
  rw [constStarts, hlit, hbrace, Bool.or_false, if_neg Bool.false_ne_true]
  exact (h true rest hrest).bind (reads_afterType hassociated t)


theorem reads_lifetimeArg (name : Ident) {rest : List Token} (hrest : opAhead "+" rest = false) :
    Reads (genericArg g) (Token.lifetime name ++ rest) (.lifetimeArg name) rest := by
  refine (reads_ahead lifetimeAhead _).bind ((reads_second (opAhead "+") _).bind ?_)
  rw [if_pos (by simp [Token.lifetime, lifetimeAhead, pastTree, hrest])]
  have hlifetime : Reads lifetime (Token.lifetime name ++ rest) name rest := fun _ => rfl
  exact hlifetime.bind (reads_pure _ _)

/-- A generic argument ends in front of the tokens. -/
def EndsArg (ts : List Token) : Prop := endsType ts = true ∧ opAhead "=" ts = false

/-- The rule for arguments makes the argument of its tokens, which close no list. -/
def ArgRereads (g : Rules) (a : Tree (.one .genericArg)) : Prop :=
  (∀ rest, EndsArg rest → Reads (genericArg g) (a.tokens ++ rest) a rest) ∧
    a.tokens ≠ [] ∧ ∀ rest, opAhead ">" (a.tokens ++ rest) = false

theorem tokens_angleArgs_ofList {args : List (Tree (.one .genericArg))}
    (hlife : lifetimesFirst (lifetimesAmong (.ofList args)) = true) (trailing : Bool) :
    Tree.tokens (.angleArgs false (.ofList args) trailing) =
      .punct '<' false :: commas trailing (args.map Tree.tokens) ++ punct '>' := by
  have hordered : orderedArgs (lifetimesAmong (.ofList args)) trailing (Tree.ofList args).tokens =
      commas trailing (args.map Tree.tokens) := by
    rw [Tree.tokens_ofList]
    refine orderedArgs_eq_commas hlife ?_ trailing
    rw [lifetimesAmong_ofList, List.length_map, List.length_map]
  rw [Tree.tokens_angleArgs, hordered]
  rfl

theorem reads_args {args : List (Tree (.one .genericArg))} (h : ∀ a ∈ args, ArgRereads g a)
    {trailing : Bool} (htrailing : trailing = true → args ≠ []) (rest : List Token) :
    Reads (angled (genericArg g))
      (commas trailing (args.map Tree.tokens) ++ .punct '>' false :: rest)
      (args, trailing) (.punct '>' false :: rest) :=
  reads_separated EndsArg (fun a ha => (h a ha).1) (fun a ha => (h a ha).2)
    (fun more => ⟨⟨rfl, by simp [opAhead, opAhead.go]⟩, by simp [opAhead, opAhead.go]⟩)
    ⟨⟨rfl, by simp [opAhead, opAhead.go]⟩, by simp [opAhead, opAhead.go]⟩ htrailing

theorem reads_angleArguments {args : List (Tree (.one .genericArg))}
    (h : ∀ a ∈ args, ArgRereads g a) {trailing : Bool}
    (htrailing : trailing = true → args ≠ [])
    (hlife : lifetimesFirst (lifetimesAmong (.ofList args)) = true) (rest : List Token) :
    Reads (angleArguments g) (Tree.tokens (.angleArgs false (.ofList args) trailing) ++ rest)
      (.angleArgs false (.ofList args) trailing) rest := by
  have hargs := reads_args h htrailing rest
  rw [tokens_angleArgs_ofList hlife]
  simp [Reads, angleArguments, punct, opAhead, opAhead.go, dropOp, hargs.run]

/-- Arguments behind a double colon, as methods have. -/
theorem reads_turbofish {args : List (Tree (.one .genericArg))}
    (h : ∀ a ∈ args, ArgRereads g a)
    (hlife : lifetimesFirst (lifetimesAmong (.ofList args)) = true) (rest : List Token) :
    Reads (angleArguments g) (Tree.tokens (.angleArgs true (.ofList args) false) ++ rest)
      (.angleArgs true (.ofList args) false) rest := by
  have htokens : Tree.tokens (.angleArgs true (.ofList args) false) =
      Token.operator "::" ++ Tree.tokens (.angleArgs false (.ofList args) false) := rfl
  have hargs := reads_args h (Bool.noConfusion : false = true → args ≠ []) rest
  rw [htokens, tokens_angleArgs_ofList hlife]
  simp [Reads, angleArguments, punct, Token.operator_colons, opAhead, opAhead.go, dropOp, hargs.run]

/-! Paths -/

/-- Where a segment ends without arguments. -/
structure EndsSegment (ts : List Token) : Prop where
  angle : opAhead "<" ts = false
  colons : opAhead "::" ts = true → opAhead "<" (pastTree (pastTree ts)) = false

theorem endsSegment_of_endsType {ts : List Token} (h : endsType ts = true) : EndsSegment ts :=
  ⟨opAhead_of_endsType h "<" (by simp), fun hcolons => by
    rw [opAhead_of_endsType h "::" (by simp)] at hcolons
    cases hcolons⟩

theorem reads_noArguments (inExpr : Bool) {rest : List Token} (h : EndsSegment rest) :
    Reads (argumentsAhead inExpr) rest false rest := by
  cases hcolons : opAhead "::" rest with
  | false => simp [Reads, argumentsAhead, h.angle, hcolons]
  | true => simp [Reads, argumentsAhead, h.angle, hcolons, h.colons hcolons]

/-- Behind a name that may have arguments they are looked for. -/
theorem segment_ident (inExpr : Bool) {name : Ident}
    (hname : name = ⟨"Self", false⟩ ∨ Ident.isKeyword name = false) (rest : List Token)
    (left : Option Delimiter) : segment g inExpr ⟨.ident name :: rest, left⟩ =
      (do if ← argumentsAhead inExpr then return .segment name (← angleArguments g)
          else return .segment name .noArgs : Parser _) ⟨rest, left⟩ := by
  have hall : ∀ w ∈ placeWords, Ident.isKeyword ⟨w, false⟩ = true ∧ w ≠ "Self" := by decide
  have hplace : isPlaceWord name = false := by
    refine List.any_eq_false.2 fun w hw => ?_
    rw [beq_iff_eq]
    rintro rfl
    rcases hname with hself | hident
    · exact (hall w hw).2 (congrArg Ident.word hself)
    · rw [(hall w hw).1] at hident
      cases hident
  simp [isPlaceWord, placeWords] at hplace
  rcases hname with rfl | hident
  · simp [Grammar.segment]
  · by_cases hself : name = ⟨"Self", false⟩
    · simp [Grammar.segment, hself]
    · simp [Grammar.segment, hplace, hself, hident]

theorem reads_bareSegment (inExpr : Bool) {name : Ident}
    (hname : (isPlaceWord name || name == ⟨"Self", false⟩ || !Ident.isKeyword name) = true)
    {rest : List Token} (h : EndsSegment rest) :
    Reads (segment g inExpr) (.ident name :: rest) (.segment name .noArgs) rest := by
  by_cases hplace : isPlaceWord name = true
  · simp [isPlaceWord, placeWords] at hplace
    simp [Reads, Grammar.segment, hplace]
  · intro left
    rw [segment_ident inExpr (by simpa [hplace] using hname)]
    simp [(reads_noArguments inExpr h).run]

theorem reads_angleSegment {name : Ident}
    (hname : name = ⟨"Self", false⟩ ∨ Ident.isKeyword name = false)
    {args : Tree (.many .genericArg)} {trailing : Bool} {ts rest : List Token}
    (h : Reads (angleArguments g) (.punct '<' false :: ts) (.angleArgs false args trailing) rest) :
    Reads (segment g false) (.ident name :: .punct '<' false :: ts)
      (.segment name (.angleArgs false args trailing)) rest := by
  have hopens : Reads (argumentsAhead false) (.punct '<' false :: ts) true
      (.punct '<' false :: ts) := by
    simp [Reads, argumentsAhead, opAhead, opAhead.go]
  intro left
  rw [segment_ident false hname]
  simp [hopens.run, h.run]


/-- The rule for segments makes the segment of its tokens in front of what may follow it. -/
def SegmentRereads (g : Rules) (inExpr : Bool) (s : Tree (.one .segment)) : Prop :=
  ∀ rest, EndsSegment rest → Reads (segment g inExpr) (s.tokens ++ rest) s rest

/-- A segment behind a double colon, and what may follow it. -/
theorem run_nextSegment (s : Tree (.one .segment)) (ts : List Token) :
    opAhead "::" (Token.operator "::" ++ (s.tokens ++ ts)) = true ∧
      groupAhead .paren (pastTree (pastTree (Token.operator "::" ++ (s.tokens ++ ts)))) = false ∧
      EndsSegment (Token.operator "::" ++ (s.tokens ++ ts)) := by
  cases s with
  | segment name args =>
    refine ⟨?_, ?_, ?_, fun _ => ?_⟩ <;>
      simp [Token.operator_colons, opAhead, opAhead.go, pastTree]

/-- Segments each behind a double colon. -/
theorem reads_moreSegments (inExpr : Bool) {segments : List (Tree (.one .segment))}
    (h : ∀ s ∈ segments, SegmentRereads g inExpr s) {rest : List Token}
    (hrest : EndsSegment rest) (hcolons : opAhead "::" rest = false) :
    Reads (many do
      if !(← ahead (opAhead "::")) || (← third (groupAhead .paren)) then return none
      op "::"
      return some (← segment g inExpr))
      (segments.flatMap (fun s => Token.operator "::" ++ s.tokens) ++ rest) segments rest := by
  refine reads_many EndsSegment (fun s hs more hmore => ?_)
    (fun s _ more => ?_) hrest ?_ (fun s _ => by simp [Token.operator_colons])
  · obtain ⟨hahead, hparen, -⟩ := run_nextSegment s more
    have hread := h s hs more hmore
    have hdrop : dropOp [':', ':'] (Token.operator "::" ++ (s.tokens ++ more)) =
        s.tokens ++ more := by
      simp [Token.operator_colons, dropOp]
    rw [List.append_assoc]
    simp [Reads, hahead, hparen, hdrop, hread.run]
  · rw [List.append_assoc]
    exact (run_nextSegment s more).2.2
  · simp [Reads, hcolons]

theorem reads_path (inExpr rooted : Bool) {first : Tree (.one .segment)}
    {others : List (Tree (.one .segment))}
    (h : ∀ s ∈ first :: others, SegmentRereads g inExpr s) {rest : List Token}
    (hrest : EndsSegment rest) (hcolons : opAhead "::" rest = false) :
    Reads (path g inExpr) (Tree.tokens (.path rooted (.ofList (first :: others))) ++ rest)
      (.path rooted (.ofList (first :: others))) rest := by
  have hothers := reads_moreSegments inExpr (fun s hs => h s (List.mem_cons_of_mem first hs))
    hrest hcolons
  have hmore : EndsSegment (others.flatMap (fun s => Token.operator "::" ++ s.tokens) ++ rest) := by
    cases others with
    | nil => exact hrest
    | cons s rest =>
      rw [List.flatMap_cons, List.append_assoc, List.append_assoc]
      exact (run_nextSegment s _).2.2
  have hroot : Reads (op? "::") (Tree.tokens (.path rooted (.ofList (first :: others))) ++ rest)
      rooted
      (first.tokens ++ (others.flatMap (fun s => Token.operator "::" ++ s.tokens) ++ rest)) := by
    rw [Tree.tokens_path, Tree.tokens_ofList, List.map_cons, separated_cons, List.flatMap_map]
    cases rooted with
    | true => simp [Reads, Token.operator_colons, opAhead, opAhead.go, dropOp]
    | false =>
      cases first with
      | segment name args => simp [Reads]
  exact hroot.bind ((h first (by simp) _ hmore).bind (hothers.bind (reads_pure _ _)))

end Bindery.Source
