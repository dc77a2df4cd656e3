import Bindery.Proofs.Source.Gaps
import Bindery.Proofs.Source.PlainForms
import Bindery.Proofs.Source.Values

/-!
# Code that is laid out without gaps

Only what is kept as tokens has no layout. None of the forms that emitted code consists of is, so
each is laid out without a gap if its parts are, whatever its role.
-/
namespace Bindery.Source

open Bindery.Layout

/-! Documents -/

section Documents

variable {d : Doc} {xs : List Doc} {ds : List (List Doc)} {role : Role} {e : Expr}

attribute [simp] gapAmong_cons gapAmong_append gapAmong_dedent gapAmong_bodied

@[simp] theorem gapAmong_nil : gapAmong [] = false := rfl

@[simp] theorem hasGap_word (s : String) : (word s).hasGap = false := rfl

@[simp] theorem hasGap_brk (b : Break) : (Doc.brk b).hasGap = false := rfl

@[simp] theorem hasGap_marks : nbsp.hasGap = false ∧ zero.hasGap = false ∧ space.hasGap = false ∧
    line.hasGap = false ∧ never.hasGap = false ∧ spaceIfMore.hasGap = false ∧
    lineIfMore.hasGap = false ∧ lastComma.hasGap = false ∧ lastCommaOrSpace.hasGap = false :=
  ⟨rfl, rfl, rfl, rfl, rfl, rfl, rfl, rfl, rfl⟩

@[simp] theorem hasGap_cbox (indent : Int) : (cbox indent xs).hasGap = gapAmong xs := rfl

@[simp] theorem hasGap_ibox (indent : Int) : (ibox indent xs).hasGap = gapAmong xs := rfl

@[simp] theorem hasGap_cboxUpTo (limit : Nat) (indent : Int) :
    (cboxUpTo limit indent xs).hasGap = gapAmong xs := by
  rw [cboxUpTo, hasGap_cbox]
  split
  · rw [gapAmong_append]
    exact Bool.or_false _
  · rfl

@[simp] theorem gapAmong_flag (present : Bool) (w : String) :
    gapAmong (flag present w) = false := by
  cases present <;> rfl

@[simp] theorem gapAmong_lifetimeDocs (l : Option Ident) : gapAmong (lifetimeDocs l) = false := by
  cases l <;> rfl

theorem gapAmong_flatten (h : ∀ d ∈ ds, gapAmong d = false) : gapAmong ds.flatten = false := by
  induction ds with
  | nil => rfl
  | cons d rest ih =>
    obtain ⟨hd, hrest⟩ := List.forall_mem_cons.1 h
    simp [hd, ih hrest]

theorem gapAmong_joined {sep : List Doc} (hsep : gapAmong sep = false)
    (h : ∀ d ∈ ds, gapAmong d = false) : gapAmong (joined sep ds) = false := by
  fun_induction joined sep ds with
  | case1 => rfl
  | case2 x => exact h x (by simp)
  | case3 x rest _ ih =>
    obtain ⟨hx, hrest⟩ := List.forall_mem_cons.1 h
    simp [hx, hsep, ih hrest]

theorem gapAmong_withCommas (hlast : d.hasGap = false) (h : ∀ d ∈ ds, gapAmong d = false) :
    gapAmong (Layout.withCommas d ds) = false := by
  fun_induction Layout.withCommas d ds with
  | case1 => rfl
  | case2 x => simp [h x (by simp), hlast]
  | case3 x rest _ ih =>
    obtain ⟨hx, hrest⟩ := List.forall_mem_cons.1 h
    simp [hx, ih hrest]

theorem hasGap_listBox (indent : Int) (h : ∀ d ∈ ds, gapAmong d = false) :
    (listBox indent ds).hasGap = false := by
  have hcommas := gapAmong_withCommas (d := lastComma) (by simp) h
  simp [listBox, hcommas]

theorem gapAmong_enclosed (opening closing : String) (h : ∀ d ∈ ds, gapAmong d = false) :
    gapAmong (enclosed opening closing ds) = false := by
  simp [enclosed, hasGap_listBox step h]

theorem gapAmong_tupleDocs (h : ∀ d ∈ ds, gapAmong d = false) :
    gapAmong (tupleDocs ds) = false := by
  unfold tupleDocs
  split
  · simpa using h
  · have hcommas := gapAmong_withCommas (d := lastComma) (by simp) h
    simp [hcommas]

@[simp] theorem gapAmong_namesDocs (p : SimplePath) : gapAmong (namesDocs p) = false := by
  have hnames : gapAmong (joined [word "::"] (p.names.map fun n => [word n.text])) = false :=
    gapAmong_joined rfl fun d hd => by
      obtain ⟨n, -, rfl⟩ := List.mem_map.1 hd
      rfl
  rw [namesDocs, gapAmong_append, hnames]
  split <;> rfl

@[simp] theorem gapAmong_visDocs (vis : Visibility) : gapAmong (visDocs vis) = false := by
  cases vis <;> simp [visDocs]

@[simp] theorem gapAmong_frontDocs (f : Front) : gapAmong (frontDocs f) = false := by
  simp [frontDocs]

/-! Expressions in their roles -/

theorem gapAmong_wrapped (h : gapAmong xs = false) : gapAmong (wrapped role e xs) = false := by
  cases role <;> simp [wrapped, wrappedBody, h]

theorem gapAmong_framed (h : gapAmong xs = false) : gapAmong (framed role e xs) = false := by
  cases role <;> simp [framed, gapAmong_wrapped, h]

theorem gapAmong_chained (h : gapAmong xs = false) : gapAmong (chained role e xs) = false := by
  cases role <;> simp [chained, gapAmong_wrapped, h]

theorem gapAmong_dotBreak (atStart : Bool) (receiver : Expr) :
    gapAmong (dotBreak atStart receiver) = false := by
  unfold dotBreak
  split <;> rfl

theorem gapAmong_smallBlock (h : gapAmong xs = false) : gapAmong (smallBlock xs) = false := by
  unfold smallBlock
  split
  · rfl
  · simp [h]

theorem hasGap_conditionDocs (h : gapAmong xs = false) : (conditionDocs e xs).hasGap = false := by
  unfold conditionDocs
  split <;> simp [h]

end Documents

/-! Trees -/

/-- Nothing that a tree is laid out as is a gap. -/
def NoGap : {s : Shape} → Laid s → Prop
  | .one _, docs => gapAmong docs = false
  | .many _, docs => ∀ d ∈ docs, gapAmong d = false
  | .maybe _, docs => ∀ d ∈ docs, gapAmong d = false

/-- The tree is laid out without gaps, whatever its role. -/
def Gapless {s : Shape} (t : Tree s) : Prop := ∀ role, NoGap (t.docs role)

section Trees

variable {k : Kind} {x : Tree (.one k)} {xs : List (Tree (.one k))} {rest : Tree (.many k)}

theorem Gapless.docs (h : Gapless x) (role : Role) : gapAmong (x.docs role) = false := h role

theorem Gapless.elems (h : Gapless rest) (role : Role) : ∀ d ∈ rest.docs role, gapAmong d = false :=
  h role

theorem Gapless.flatten (h : Gapless rest) (role : Role) :
    gapAmong (rest.docs role).flatten = false := gapAmong_flatten (h role)

@[simp] theorem gapless_nil : Gapless (.nil : Tree (.many k)) := fun _ _ h =>
  absurd h List.not_mem_nil

@[simp] theorem gapless_cons (hx : Gapless x) (hrest : Gapless rest) : Gapless (.cons x rest) :=
  fun role => List.forall_mem_cons.2 ⟨hx role, hrest role⟩

@[simp] theorem gapless_ofList (h : ∀ x ∈ xs, Gapless x) : Gapless (Tree.ofList xs) := by
  induction xs with
  | nil => exact gapless_nil
  | cons x rest ih =>
    obtain ⟨hx, hrest⟩ := List.forall_mem_cons.1 h
    exact gapless_cons hx (ih hrest)

@[simp] theorem gapless_absent : Gapless (.absent : Tree (.maybe k)) := fun _ _ h => by cases h

@[simp] theorem gapless_present (h : Gapless x) : Gapless (.present x) := fun role d hd => by
  obtain rfl := Option.some.inj hd
  exact h role

end Trees

/-! Attributes -/

mutual

theorem gapAmong_attrToken (last : Bool) (e : InputEnd) (t : Token) :
    gapAmong (attrToken last e t).1 = false := by
  match t with
  | .ident n =>
    rw [attrToken]
    split <;> rfl
  | .literal t =>
    rw [attrToken]
    split <;> rfl
  | .punct c joint =>
    simp only [attrToken]
    repeat' split
    all_goals rfl
  | .group .paren inner =>
    have hinner := gapAmong_attrTokens .mark inner
    simp only [attrToken]
    split <;> simp [hinner]
  | .group .bracket inner => simp [attrToken, gapAmong_attrTokens .mark inner]
  | .group .brace inner => simp [attrToken, gapAmong_attrTokens .mark inner]

theorem gapAmong_attrTokens (e : InputEnd) (ts : List Token) :
    gapAmong (attrTokens e ts).1 = false := by
  match ts with
  | [] => rfl
  | t :: rest =>
    simp [attrTokens, gapAmong_attrToken rest.isEmpty e t,
      gapAmong_attrTokens (attrToken rest.isEmpty e t).2 rest]

end

@[simp] theorem gapless_listAttribute (w : String) (ts : List Token) :
    Gapless (listAttribute w ts) := fun role => by
  change gapAmong (hashDocs false (namesDocs _ ++
      (attrToken true .mark (.group .paren ts)).1)) = false
  simp [hashDocs, gapAmong_attrToken]

@[simp] theorem gapless_doc (inner : Bool) (line : String) :
    Gapless (.valueAttr inner (SimplePath.ofWord "doc") (textExpr line)) := fun _ =>
  gapAmong_doc inner line

@[simp] theorem gapless_docs (lines : List String) : ∀ a ∈ docs lines, Gapless a := by
  intro a ha
  obtain ⟨line, -, rfl⟩ := List.mem_map.1 ha
  exact gapless_doc false line

/-- The file of a module, which is no comment. -/
@[simp] theorem gapless_pathAttribute (file : String) : Gapless (textAttribute "path" file) :=
  fun _ => by
    have hdoc : (SimplePath.ofWord "path").isWord "doc" = false := rfl
    have hword : (SimplePath.ofWord "path").isWord "comment" = false := rfl
    have hcomment : commentOf? false (SimplePath.ofWord "path") (textExpr file) = none := by
      cases h : (Lexer.text (quote file).toList).map (·.1) <;>
        simp [commentOf?, textExpr, h, hdoc, hword]
    change gapAmong ((commentOf? _ _ _).getD _) = false
    rw [hcomment]
    rfl

/-! Types -/

section Types

variable {p : Path} {t : Ty}

theorem gapless_argForm {a : Tree (.one .genericArg)} (h : ArgForm Gapless a) : Gapless a := by
  cases h with
  | lifetime name => exact fun _ => rfl
  | type ht => exact fun _ => ht .usual

theorem forall_mem_lifetimesFirst {P : List Doc → Prop} {ds : List (List Doc)} (h : ∀ d ∈ ds, P d)
    (lifetimes : List Bool) : ∀ d ∈ Layout.lifetimesFirst lifetimes ds, P d := by
  intro d hd
  obtain ⟨⟨l, d⟩, hmem, rfl⟩ := List.mem_map.1 hd
  rcases List.mem_append.1 hmem with hmem | hmem
  · exact h d (List.of_mem_zip (List.mem_of_mem_filter hmem)).2
  · exact h d (List.of_mem_zip (List.mem_of_mem_filter hmem)).2

theorem gapless_angleArgs (colons : Bool) {args : List (Tree (.one .genericArg))} (trailing : Bool)
    (h : ∀ a ∈ args, Gapless a) : Gapless (.angleArgs colons (.ofList args) trailing) := by
  intro role
  have hdocs := forall_mem_lifetimesFirst ((gapless_ofList h).elems .usual)
    (lifetimesAmong (.ofList args))
  change gapAmong (if (Layout.lifetimesFirst _ _).isEmpty then []
    else (if role == .value then [word "::"] else []) ++ enclosed "<" ">" _) = false
  split
  · rfl
  · rw [gapAmong_append, gapAmong_enclosed _ _ hdocs]
    split <;> rfl

theorem gapless_segment {args : Tree (.one .arguments)} (name : Ident) (h : Gapless args) :
    Gapless (.segment name args) := fun role => by
  change gapAmong (word name.text :: args.docs role) = false
  rw [gapAmong_cons, h.docs]
  rfl

theorem gapless_segmentForm {s : Tree (.one .segment)} (h : SegmentForm Gapless s) :
    Gapless s := by
  cases h with
  | bare => exact fun _ => rfl
  | named _ _ _ hargs =>
    exact gapless_segment _ (gapless_angleArgs _ _ fun a ha => gapless_argForm (hargs a ha))

theorem gapless_pathForm (h : PathForm Gapless p) : Gapless p := by
  obtain ⟨rooted, hsegments⟩ := h
  intro role
  have hjoined := gapAmong_joined (rfl : gapAmong [word "::"] = false)
    ((gapless_ofList fun s hs => gapless_segmentForm (hsegments s hs)).elems role)
  change gapAmong (flag rooted "::" ++ joined [word "::"] _) = false
  rw [gapAmong_append, gapAmong_flag, hjoined]
  rfl

/-- A single trait. -/
theorem gapless_bound (h : PathForm Gapless p) :
    Gapless (.cons (.traitBound false false .absent p) .nil) := by
  refine gapless_cons (fun _ => ?_) gapless_nil
  change gapAmong ([] ++ [] ++ [] ++ p.docs .usual ++ []) = false
  simp [(gapless_pathForm h).docs]

/-- Plain types are laid out without gaps. -/
theorem gapless_plain (hp : t.isPlain = true) : Gapless t := by
  refine plain_induction (fun t h => ?_) hp
  cases h with
  | inferred => exact fun _ => rfl
  | never => exact fun _ => rfl
  | @paren t h =>
    intro _
    change gapAmong ([word "("] ++ t.docs .usual ++ [word ")"]) = false
    simp [h.docs]
  | @pointer mutable t h =>
    intro _
    change gapAmong (word "*" :: word (if mutable then "mut " else "const ") ::
        t.docs .usual) = false
    simp [h.docs]
  | @reference l mutable t h =>
    intro _
    change gapAmong (word "&" :: lifetimeDocs l ++ flag mutable "mut " ++ t.docs .usual) = false
    simp [h.docs]
  | @slice t h =>
    intro _
    change gapAmong ([word "["] ++ t.docs .usual ++ [word "]"]) = false
    simp [h.docs]
  | @tuple ts _ h =>
    intro _
    change gapAmong (tupleDocs _) = false
    exact gapAmong_tupleDocs ((gapless_ofList h).elems .usual)
  | @some p _ h =>
    intro _
    change gapAmong (word "impl " :: plusDocs _) = false
    rw [plusDocs, gapAmong_cons, gapAmong_joined rfl ((gapless_bound h).elems .usual)]
    rfl
  | @object p _ h =>
    intro _
    change gapAmong (word "dyn " :: plusDocs _) = false
    rw [plusDocs, gapAmong_cons, gapAmong_joined rfl ((gapless_bound h).elems .usual)]
    rfl
  | path _ h => exact fun _ => gapless_pathForm h .usual

/-- Names without arguments, plain or not. -/
theorem gapless_names (rooted : Bool) (names : List Ident) :
    Gapless (.path rooted (.ofList (names.map segmentOf))) := fun role => by
  have hsegments : ∀ s ∈ names.map segmentOf, Gapless s := fun s hs => by
    obtain ⟨name, -, rfl⟩ := List.mem_map.1 hs
    exact fun _ => rfl
  change gapAmong (flag rooted "::" ++ joined [word "::"] _) = false
  rw [gapAmong_append, gapAmong_flag, gapAmong_joined rfl ((gapless_ofList hsegments).elems role)]
  rfl

end Types

/-! Paths of values -/

@[simp] theorem gapless_wordPath (words : List String) : Gapless (wordPath words) := by
  have hnames := gapless_names false (words.map plain)
  rwa [List.map_map] at hnames

/-- What a path of names has under some words. -/
theorem gapless_within {p : Path} (h : IsNames p) (words : List String) :
    Gapless (within p words) := by
  obtain ⟨rooted, first, others, -, -⟩ := h
  have hnames := gapless_names rooted (first :: others ++ words.map plain)
  rw [List.map_append, List.map_map] at hnames
  simpa [within, extend, Function.comp_def] using hnames

/-! Expressions -/

section Expressions

variable {e f left right value : Expr} {args : List Expr} {name : Ident}

/-- An expression whose layout does not depend on its role otherwise. -/
theorem gapless_framed (xs : List Doc) (hdocs : ∀ role, e.docs role = framed role e xs)
    (h : gapAmong xs = false) : Gapless e := fun role => by
  change gapAmong (e.docs role) = false
  rw [hdocs]
  exact gapAmong_framed h

@[simp] theorem gapless_pathExpr {p : Path} (hp : Gapless p) : Gapless (pathExpr p) :=
  gapless_framed (p.docs .value) (fun _ => rfl) (hp.docs .value)

@[simp] theorem gapless_nameExpr (name : Ident) : Gapless (nameExpr name) :=
  gapless_pathExpr (gapless_names false [name])

@[simp] theorem gapless_wordExpr (w : String) : Gapless (wordExpr w) := gapless_nameExpr (plain w)

@[simp] theorem gapless_literal (text : String) : Gapless (.literalExpr text) :=
  gapless_framed [word text] (fun _ => rfl) rfl

@[simp] theorem gapless_text (text : String) : Gapless (textExpr text) :=
  gapless_literal (quote text)

@[simp] theorem gapless_binary {op : String} (hleft : Gapless left) (hright : Gapless right) :
    Gapless (.binaryExpr left op right) :=
  gapless_framed [ibox step ([ibox (-step) (left.docs .usual), space, word op, nbsp] ++
    right.docs .usual)] (fun _ => rfl) (by simp [hleft.docs, hright.docs])

@[simp] theorem gapless_assign (hleft : Gapless left) (hright : Gapless right) :
    Gapless (.assignExpr left right) :=
  gapless_framed [ibox 0 (left.docs .usual ++ [word " = ", never] ++ right.docs .usual)]
    (fun _ => rfl) (by simp [hleft.docs, hright.docs])

@[simp] theorem gapless_negated (h : Gapless e) : Gapless (negated e) :=
  gapless_framed (word "!" :: e.docs .usual) (fun _ => rfl) (by simp [h.docs])

@[simp] theorem gapless_borrowed (h : Gapless e) : Gapless (borrowed e) :=
  gapless_framed (word "&" :: flag false "mut " ++ e.docs .usual) (fun _ => rfl) (by simp [h.docs])

@[simp] theorem gapless_return (h : Gapless e) : Gapless (.returnExpr (.present e)) :=
  gapless_framed (word "return" :: word " " :: e.docs .usual) (fun _ => rfl) (by simp [h.docs])

@[simp] theorem gapless_let {p : Pat} (hp : Gapless p) (he : Gapless e) : Gapless (.letExpr p e) :=
  gapless_framed [ibox 0 [word "let ", ibox 0 (p.docs .usual), word " = ", never,
    ibox 0 (e.docs .usual)]] (fun _ => rfl) (by simp [hp.docs, he.docs])

/-- An expression that may be the receiver in a chain. -/
theorem gapless_chained (xs : Role → List Doc)
    (hdocs : ∀ role, e.docs role = chained role e (xs role))
    (h : ∀ role, gapAmong (xs role) = false) : Gapless e := fun role => by
  change gapAmong (e.docs role) = false
  rw [hdocs]
  exact gapAmong_chained (h role)

@[simp] theorem gapless_field (h : Gapless e) : Gapless (fieldOf e name) :=
  gapless_chained (fun role => e.docs role.chainedOn ++ dotBreak role.atStart e ++
    [word ".", word name.text]) (fun _ => rfl) fun role => by simp [h.docs, gapAmong_dotBreak]

@[simp] theorem gapless_selfField : Gapless (selfField name) :=
  gapless_field (gapless_wordExpr "self")

@[simp] theorem gapless_await (h : Gapless e) : Gapless (.awaitExpr e) :=
  gapless_chained (fun role => e.docs role.chainedOn ++ dotBreak role.atStart e ++ [word ".await"])
    (fun _ => rfl) fun role => by simp [h.docs, gapAmong_dotBreak]

theorem gapAmong_argDocs (h : ∀ a ∈ args, Gapless a) :
    gapAmong (argDocs (.ofList args) ((Tree.ofList args).docs .usual)) = false := by
  have hbox : gapAmong [listBox step ((Tree.ofList args).docs .usual)] = false := by
    simp [hasGap_listBox step ((gapless_ofList h).elems .usual)]
  match args, h with
  | [], _ => exact hbox
  | [e], h =>
    change gapAmong (if isBlockLike e then e.docs .usual else [listBox step _]) = false
    split
    · exact (h e (by simp)).docs .usual
    · exact hbox
  | _ :: _ :: _, _ => exact hbox

/-- A method, maybe with type arguments. -/
theorem gapless_methodExpr {types : Tree (.one .arguments)} (he : Gapless e)
    (htypes : Gapless types) (h : ∀ a ∈ args, Gapless a) :
    Gapless (.methodExpr e name types (.ofList args) false) := by
  intro role
  have hargs := gapAmong_argDocs h
  have hdocs : ∃ indent, Tree.docs (.methodExpr e name types (.ofList args) false) role =
      chained role (.methodExpr e name types (.ofList args) false)
        (e.docs role.chainedOn ++ dotBreak role.atStart e ++ [word ".", word name.text] ++
          types.docs .value ++ [cbox indent ([word "("] ++
            argDocs (.ofList args) ((Tree.ofList args).docs .usual) ++ [word ")"])]) := ⟨_, rfl⟩
  obtain ⟨indent, hdocs⟩ := hdocs
  change gapAmong _ = false
  rw [hdocs]
  exact gapAmong_chained (by simp [he.docs, gapAmong_dotBreak, htypes.docs, hargs])

@[simp] theorem gapless_method {w : String} (he : Gapless e) (h : ∀ a ∈ args, Gapless a) :
    Gapless (methodOf e w args) := gapless_methodExpr he (fun _ => rfl) h

/-- An expression that is a block of its own unless it is a receiver. -/
theorem gapless_wrapped (xs : Role → List Doc)
    (hdocs : ∀ role, e.docs role = xs role ∨ e.docs role = wrapped role e (xs role))
    (h : ∀ role, gapAmong (xs role) = false) : Gapless e := fun role => by
  change gapAmong (e.docs role) = false
  rcases hdocs role with hdocs | hdocs
  · rw [hdocs, h]
  · rw [hdocs, gapAmong_wrapped (h role)]

@[simp] theorem gapless_call (hf : Gapless f) (h : ∀ a ∈ args, Gapless a) :
    Gapless (callOf f args) :=
  gapless_wrapped (fun role => f.docs role.called ++ [word "("] ++
      argDocs (.ofList args) ((Tree.ofList args).docs .usual) ++ [word ")"])
    (fun role => by cases role <;> first | exact .inl rfl | exact .inr rfl)
    fun role => by simp [hf.docs, gapAmong_argDocs h]

@[simp] theorem gapless_try (h : Gapless e) : Gapless (.tryExpr e) :=
  gapless_wrapped (fun role => e.docs role.passed ++ [word "?"])
    (fun role => by cases role <;> first | exact .inl rfl | exact .inr rfl)
    fun role => by simp [h.docs]

@[simp] theorem gapless_unit : Gapless (.tupleExpr .nil false) := by
  intro role
  have hdocs : Tree.docs (.tupleExpr .nil false) role = bodyBox [] ∨
      Tree.docs (.tupleExpr .nil false) role =
        framed role (.tupleExpr .nil false) (tupleDocs []) := by
    cases role <;> first | exact .inl rfl | exact .inr rfl
  change gapAmong _ = false
  rcases hdocs with hdocs | hdocs
  · rw [hdocs]
    rfl
  · rw [hdocs]
    exact gapAmong_framed (gapAmong_tupleDocs (by simp))

@[simp] theorem gapless_setField (h : Gapless e) : Gapless (setField name e) := fun _ => by
  change gapAmong ([] ++ word name.text :: [word ": ", ibox 0 (e.docs .usual)]) = false
  simp [h.docs]

@[simp] theorem gapless_sameField : Gapless (sameField name) := fun _ => rfl

theorem gapAmong_fieldDocs {ds : List (List Doc)} (h : ∀ d ∈ ds, gapAmong d = false) :
    gapAmong (fieldDocs ds none) = false := by
  have hcommas := gapAmong_withCommas (d := lastCommaOrSpace) (by simp) h
  simp [fieldDocs, hcommas]

@[simp] theorem gapless_struct {p : Path} (hp : Gapless p)
    {fields : List (Tree (.one .fieldValue))} (h : ∀ x ∈ fields, Gapless x) :
    Gapless (.structExpr (.plainPlace p) (.ofList fields) true false .absent) :=
  gapless_framed [cboxUpTo 34 step ([ibox (-step) (p.docs .value), word " \x7b"] ++
    fieldDocs ((Tree.ofList fields).docs .usual) none), word "\x7d"] (fun _ => rfl)
    (by simp [hp.docs, gapAmong_fieldDocs ((gapless_ofList h).elems .usual)])

end Expressions

/-! Patterns -/

@[simp] theorem gapless_namePat (name : Ident) : Gapless (namePat name) := fun _ => rfl

@[simp] theorem gapless_mutPat (name : Ident) : Gapless (.identPat false true name .absent) :=
  fun _ => rfl

@[simp] theorem gapless_somePat (name : Ident) : Gapless (somePat name) := fun _ => rfl

/-- A closure with one parameter. -/
@[simp] theorem gapless_closure {name : Ident} {body : Expr} (h : Gapless body) :
    Gapless (closureOf name body) := by
  have hbody : gapAmong (if isOpenBody body then body.docs .usual
      else [wrappedBody body (body.docs .usual) "" ""]) = false := by
    split <;> simp [wrappedBody, h.docs]
  refine gapless_framed [ibox 0 ([] ++ closureFlagDocs {} ++ ([cbox step (dedent (word "|" ::
    zero :: [word name.text] ++ [word "|", space])), never] ++ _))] (fun _ => rfl) ?_
  simp [closureFlagDocs, hbody]

/-! Statements -/

section Statements

variable {e : Expr} {p : Pat} {ss : List Stmt}

@[simp] theorem gapless_exprStmt (h : Gapless e) (semi : Bool) :
    Gapless (.exprStmt e semi) := fun _ => by
  change gapAmong [ibox 0 (e.docs .lineStart ++ flag _ ";"), line] = false
  simp [h.docs]

/-- A block that is a value alone has a layout of its own. -/
theorem docs_blockOf (ss : List Stmt) {role : Role} (hrole : role = .usual ∨ role = .tall) :
    (blockOf ss).docs role = ((Tree.ofList ss).docs .usual).flatten ∨
      ∃ e, ss = [valueStmt e] := by
  match ss with
  | [.exprStmt e false] => exact .inr ⟨e, rfl⟩
  | [] => rcases hrole with rfl | rfl <;> exact .inl rfl
  | .exprStmt e true :: _ => rcases hrole with rfl | rfl <;> exact .inl rfl
  | .exprStmt e false :: _ :: _ => rcases hrole with rfl | rfl <;> exact .inl rfl
  | .letStmt .. :: _ => rcases hrole with rfl | rfl <;> exact .inl rfl
  | .itemStmt _ :: _ => rcases hrole with rfl | rfl <;> exact .inl rfl
  | .macroStmt .. :: _ => rcases hrole with rfl | rfl <;> exact .inl rfl
  | .emptyStmt :: _ => rcases hrole with rfl | rfl <;> exact .inl rfl

theorem gapAmong_blockOf (h : ∀ s ∈ ss, Gapless s) {role : Role}
    (hrole : role = .usual ∨ role = .tall) :
    gapAmong ((blockOf ss).docs role) = false := by
  rcases docs_blockOf ss hrole with hdocs | ⟨e, rfl⟩
  · rw [hdocs]
    exact (gapless_ofList h).flatten .usual
  · have hvalue : gapAmong [ibox 0 (e.docs .lineStart ++ flag _ ";"), line] = false :=
      (h _ (List.mem_singleton_self _)).docs .usual
    rcases hrole with rfl | rfl
    · change gapAmong ([] ++ [ibox 0 (e.docs .lineStart), space]) = false
      simpa using hvalue
    · exact hvalue

@[simp] theorem gapless_ifStmt (he : Gapless e) (h : ∀ s ∈ ss, Gapless s) :
    Gapless (ifStmt e ss) := fun _ => by
  have hblock := gapAmong_blockOf h (.inr rfl : Role.tall = .usual ∨ Role.tall = .tall)
  have hbody : gapAmong (if false || ((blockOf ss).docs .tall).isEmpty
      then smallBlock ((blockOf ss).docs .tall)
      else word "\x7b" :: dedent (line :: (blockOf ss).docs .tall) ++ [word "\x7d"]) = false := by
    split
    · exact gapAmong_smallBlock hblock
    · simp [hblock]
  obtain ⟨body, ends, hdocs, hbody⟩ : ∃ body ends, (ifStmt e ss).docs .usual = [ibox 0 ([cbox step
      ([word "if ", cbox (-step) [conditionDocs e (e.docs .usual)]] ++ body)] ++ flag ends ";"),
        line] ∧ gapAmong body = false := ⟨_, _, rfl, hbody⟩
  change gapAmong ((ifStmt e ss).docs .usual) = false
  rw [hdocs]
  simp [hasGap_conditionDocs (he.docs .usual), hbody]

@[simp] theorem gapless_letStmt (hp : Gapless p) (he : Gapless e) :
    Gapless (.letStmt .nil p (.present e) .absent) := fun _ => by
  change gapAmong ([] ++ [ibox 0 (word "let " :: p.docs .usual ++
    word " = " :: never :: e.docs .usual ++ [word ";"]), line]) = false
  simp [hp.docs, he.docs]

@[simp] theorem gapless_letElse (hp : Gapless p) (he : Gapless e) (h : ∀ s ∈ ss, Gapless s) :
    Gapless (.letStmt .nil p (.present e) (.present (blockOf ss))) := fun _ => by
  change gapAmong ([] ++ [ibox 0 (word "let " :: p.docs .usual ++
    word " = " :: never :: e.docs .usual ++ [space, word "else "]), never,
    cbox step (smallBlock ((blockOf ss).docs .usual)), word ";", line]) = false
  simp [hp.docs, he.docs, gapAmong_smallBlock (gapAmong_blockOf h (.inl rfl))]

@[simp] theorem gapless_itemStmt {i : Item} (h : Gapless i) : Gapless (.itemStmt i) :=
  fun _ => h .usual

end Statements

/-! Items -/

section Items

variable {t : Ty} {name : Ident} {attrs : List Attribute} {e : Expr}

theorem gapAmong_attrs (h : ∀ a ∈ attrs, Gapless a) :
    gapAmong ((Tree.ofList attrs).docs .usual).flatten = false := (gapless_ofList h).flatten .usual

@[simp] theorem gapless_fieldNamed (hattrs : ∀ a ∈ attrs, Gapless a) {vis : Visibility}
    (ht : t.isPlain = true) : Gapless (fieldNamed attrs vis name t) := fun _ => by
  change gapAmong (((Tree.ofList attrs).docs .usual).flatten ++ visDocs vis ++
    nameDocs (some name) ++ t.docs .usual) = false
  simp [gapAmong_attrs hattrs, nameDocs, (gapless_plain ht).docs]

@[simp] theorem gapless_paramOf (ht : t.isPlain = true) : Gapless (paramOf name t) := fun _ => by
  change gapAmong ([] ++ [word name.text] ++ word ": " :: t.docs .usual) = false
  simp [(gapless_plain ht).docs]

@[simp] theorem gapless_selfRef : Gapless selfRef := fun _ => rfl

@[simp] theorem gapless_selfMut : Gapless selfMut := fun _ => rfl

@[simp] theorem gapless_publicFn (hattrs : ∀ a ∈ attrs, Gapless a) {async : Bool}
    {inputs : List (Tree (.one .param))} (hinputs : ∀ p ∈ inputs, Gapless p) {output : Ty}
    (houtput : output.isPlain = true) {ss : List Stmt} (hss : ∀ s ∈ ss, Gapless s) :
    Gapless (publicFn attrs { async } name inputs output ss) := fun _ => by
  have hcommas := gapAmong_withCommas (d := lastComma) (by simp)
    ((gapless_ofList hinputs).elems .usual)
  change gapAmong (((Tree.ofList attrs).docs .usual).flatten ++ bodied ([word "pub "] ++ [] ++
    (([] ++ flag async "async " ++ [] ++ []) ++ [word "fn ", word name.text] ++ [] ++
      [word "(", never, cbox 0 (dedent (zero :: Layout.withCommas lastComma _)), word ")",
        cbox (-step) (word " -> " :: output.docs .usual)] ++ [nbsp]))
    ((blockOf ss).docs .tall)) = false
  simp [gapAmong_attrs hattrs, hcommas, (gapless_plain houtput).docs, gapAmong_blockOf hss]

@[simp] theorem gapless_implOf (ht : t.isPlain = true) {items : List Item}
    (h : ∀ i ∈ items, Gapless i) : Gapless (implOf t items) := fun _ => by
  change gapAmong ([] ++ bodied ([ibox (-step) ([cbox step [word "impl"], nbsp] ++ [] ++
    t.docs .usual)] ++ [nbsp]) ([] ++ ((Tree.ofList items).docs .tall).flatten)) = false
  simp [(gapless_plain ht).docs, (gapless_ofList h).flatten]

@[simp] theorem gapless_constItem (ht : t.isPlain = true) (he : Gapless e) :
    Gapless (.constItem .nil {} name t (.present e)) := fun _ => by
  change gapAmong ([] ++ [cbox 0 ([] ++ [word "const ", word name.text, word ": "] ++
    t.docs .usual ++ word " = " :: never :: e.docs .usual ++ [word ";"]), line]) = false
  simp [(gapless_plain ht).docs, he.docs]

/-- The lifetime that a struct borrows for. -/
@[simp] theorem gapless_borrowing (lifetime : Ident) : Gapless (borrowing lifetime) :=
  gapless_present fun _ => rfl

@[simp] theorem gapless_structOf (hattrs : ∀ a ∈ attrs, Gapless a) {front : Front}
    {generics : Tree (.maybe .params)} (hgenerics : Gapless generics)
    {fields : List (Tree (.one .field))} (h : ∀ f ∈ fields, Gapless f) :
    Gapless (structOf attrs front name generics fields) := fun _ => by
  have hparams : gapAmong ((generics.docs .usual).getD []) = false := by
    cases hdocs : generics.docs .usual with
    | none => rfl
    | some docs => exact hgenerics .usual docs hdocs
  have hfields : gapAmong (((Tree.ofList fields).docs .usual).map (· ++ [word ",", line])).flatten =
      false := gapAmong_flatten fun d hd => by
    obtain ⟨docs, hdocs, rfl⟩ := List.mem_map.1 hd
    simp [(gapless_ofList h).elems .usual docs hdocs]
  change gapAmong (((Tree.ofList attrs).docs .usual).flatten ++ bodied (frontDocs front ++
    [word "struct ", word name.text] ++ (generics.docs .usual).getD [] ++ [nbsp])
    (((Tree.ofList fields).docs .usual).flatMap (· ++ [word ",", line]))) = false
  rw [List.flatMap_def]
  simp [gapAmong_attrs hattrs, hparams, hfields]

/-- A module in a file of its own. -/
@[simp] theorem gapless_moduleItem (hattrs : ∀ a ∈ attrs, Gapless a) (front : Front) :
    Gapless (.moduleItem (.ofList attrs) front false name .absent) := fun _ => by
  change gapAmong (((Tree.ofList attrs).docs .usual).flatten ++
    [cbox step (frontDocs front ++ [] ++ [word "mod ", word name.text] ++ [word ";"]),
    line]) = false
  simp [gapAmong_attrs hattrs]

end Items

/-- A file has a layout if its parts have. -/
theorem text?_isSome_of_gapless {f : File} (hattrs : ∀ a ∈ f.attrs, Gapless a)
    (hitems : ∀ i ∈ f.items, Gapless i) : f.text?.isSome = true := by
  have hflat : ∀ {k : Kind} {xs : List (Tree (.one k))}, (∀ x ∈ xs, Gapless x) →
      gapAmong (xs.flatMap (·.docs .usual)) = false := fun {k xs} h => by
    rw [List.flatMap_def]
    refine gapAmong_flatten fun d hd => ?_
    obtain ⟨x, hx, rfl⟩ := List.mem_map.1 hd
    exact (h x hx).docs .usual
  rw [text?_isSome, hflat hattrs, hflat hitems]
  rfl

end Bindery.Source
