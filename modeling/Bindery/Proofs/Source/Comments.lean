import Bindery.Proofs.Source.Bare
import Bindery.Proofs.Source.Gaps
import Bindery.Proofs.Source.Pieces

/-!
# Documentation is read again

Documentation is written as a comment where its text permits that, and as an attribute elsewhere.
Whatever the text, what is written is read as one attribute and never as code; but a carriage return
alone makes a comment unreadable.
-/
namespace Bindery.Source

open Bindery.Layout Bindery.Text

/-! Comment marks in pairs -/

section Nesting

variable {body rest s t : List Char} {depth : Nat}

/-- The end of a comment whose marks are paired is not missed, and not found too early. -/
theorem commentEnd_of_nests (h : nests depth body = true) (hlast : ¬['/'] <:+ body) :
    Lexer.commentEnd (depth + 1) (body ++ '*' :: '/' :: rest) = some rest := by
  fun_induction nests depth body with
  | case1 depth s ih =>
    rw [List.cons_append, List.cons_append, Lexer.commentEnd]
    exact ih h fun hs => hlast (hs.trans ⟨['/', '*'], rfl⟩)
  | case2 s => cases h
  | case3 s depth ih =>
    rw [List.cons_append, List.cons_append, Lexer.commentEnd, if_neg (by omega)]
    exact ih h fun hs => hlast (hs.trans ⟨['*', '/'], rfl⟩)
  | case4 depth c s hopen hclose ih =>
    have hrest := ih h fun hs => hlast (hs.trans ⟨[c], rfl⟩)
    rw [List.cons_append]
    cases s with
    | nil =>
      have hc : c ≠ '/' := by
        rintro rfl
        exact hlast (List.suffix_refl _)
      rw [Lexer.commentEnd.eq_def]
      split <;> simp_all
    | cons d s =>
      rw [Lexer.commentEnd.eq_def]
      split <;> simp_all
  | case5 depth =>
    obtain rfl : depth = 0 := by simpa using h
    rfl

theorem nests_cons {c : Char} (hopen : c = '/' → s.head? ≠ some '*')
    (hclose : c = '*' → s.head? ≠ some '/') : nests depth (c :: s) = nests depth s := by
  rw [nests.eq_def]
  split <;> simp_all

/-- Whether marks are paired does not depend on what ends a line, or on how. -/
theorem nests_append_congr (hs : ∀ c ∈ s.head?, c ≠ '/' ∧ c ≠ '*')
    (ht : ∀ c ∈ t.head?, c ≠ '/' ∧ c ≠ '*') (h : ∀ depth, nests depth s = nests depth t) :
    nests depth (body ++ s) = nests depth (body ++ t) := by
  fun_induction nests depth body with
  | case1 depth body ih =>
    simpa only [List.cons_append, nests] using ih
  | case2 body => simp only [List.cons_append, nests]
  | case3 body depth ih => simpa only [List.cons_append, nests] using ih
  | case4 depth c body hopen hclose ih =>
    have hcons : ∀ u : List Char, (∀ c ∈ u.head?, c ≠ '/' ∧ c ≠ '*') →
        nests depth (c :: body ++ u) = nests depth (body ++ u) := by
      intro u hu
      refine nests_cons (fun hc hhead => ?_) fun hc hhead => ?_
      · cases body with
        | nil => exact (hu '*' hhead).2 rfl
        | cons d body => exact hopen body hc (by simpa using hhead)
      · cases body with
        | nil => exact (hu '/' hhead).1 rfl
        | cons d body => exact hclose body hc (by simpa using hhead)
    rw [hcons s hs, hcons t ht, ih]
  | case5 depth => exact h depth

/-! Lines without spaces at their ends -/

/-- A line is what is left of it and spaces. -/
theorem exists_spaces (line : List Char) : ∃ n, line.reverse =
    (line.dropWhile (· == ' ')).reverse ++ List.replicate n ' ' := by
  refine ⟨(line.takeWhile (· == ' ')).length, ?_⟩
  have htake : line.takeWhile (· == ' ') =
      List.replicate (line.takeWhile (· == ' ')).length ' ' :=
    List.eq_replicate_iff.2 ⟨rfl, fun c hc => by simpa using List.mem_takeWhile_imp hc⟩
  conv_lhs => rw [← List.takeWhile_append_dropWhile (p := (· == ' ')) (l := line),
    List.reverse_append, htake, List.reverse_replicate]

variable {line : List Char}

theorem nests_go : ∀ depth, nests depth (line.reverse ++ s) = nests depth (trimLines.go line s) := by
  fun_induction trimLines.go line s with
  | case1 line => exact fun depth => by rw [List.append_nil]
  | case2 line s ih =>
    intro depth
    obtain ⟨n, hn⟩ := exists_spaces line
    have hspaces : ∀ c ∈ (List.replicate n ' ' ++ '\n' :: s).head?, c ≠ '/' ∧ c ≠ '*' := by
      cases n <;> simp [List.replicate_succ]
    rw [hn, List.append_assoc]
    refine nests_append_congr hspaces (by simp) fun depth => ?_
    have hskip : ∀ n, nests depth (List.replicate n ' ' ++ '\n' :: s) = nests depth s := by
      intro n
      induction n with
      | zero => exact nests_cons (by simp) (by simp)
      | succ n ih =>
        rw [List.replicate_succ, List.cons_append, nests_cons (by simp) (by simp), ih]
    rw [hskip, nests_cons (by simp) (by simp)]
    exact ih depth
  | case3 line c s _ ih =>
    intro depth
    rw [← ih depth, List.reverse_cons, List.append_assoc, List.singleton_append]

/-- A slash at the end stands behind every line feed. -/
theorem suffix_of_append {x y : List Char} (h : ['/'] <:+ x ++ '\n' :: y) : ['/'] <:+ y := by
  obtain ⟨t, ht⟩ := h
  rcases List.eq_nil_or_concat y with rfl | ⟨y, d, rfl⟩
  · exact absurd (List.append_inj_right' ht rfl) (by decide)
  · rw [List.concat_eq_append, ← List.cons_append, ← List.append_assoc] at ht
    rw [List.concat_eq_append, List.append_inj_right' ht rfl]
    exact List.suffix_append y [d]

theorem suffix_of_go (h : ['/'] <:+ trimLines.go line s) : ['/'] <:+ line.reverse ++ s := by
  fun_induction trimLines.go line s with
  | case1 line => rwa [List.append_nil]
  | case2 line s ih =>
    exact (ih (suffix_of_append h)).trans ⟨line.reverse ++ ['\n'], by simp⟩
  | case3 line c s _ ih => simpa using ih h

theorem eq_nil_of_go (h : trimLines.go line s = []) : line = [] ∧ s = [] := by
  fun_induction trimLines.go line s with
  | case1 line => exact ⟨List.reverse_eq_nil_iff.1 h, rfl⟩
  | case2 line s ih => simp at h
  | case3 line c s _ ih => exact absurd (ih h).1 (by simp)

theorem head_go : ∀ c ∈ (trimLines.go line s).head?, c = '\n' ∨ c ∈ (line.reverse ++ s).head? := by
  fun_induction trimLines.go line s with
  | case1 line => exact fun c hc => .inr (by rwa [List.append_nil])
  | case2 line s ih =>
    intro c hc
    obtain ⟨n, hn⟩ := exists_spaces line
    rw [hn, List.append_assoc]
    cases hline : (line.dropWhile (· == ' ')).reverse with
    | nil =>
      rw [hline] at hc
      exact .inl (by simpa using hc.symm)
    | cons d more =>
      rw [hline] at hc
      exact .inr (by simpa using hc)
  | case3 line c s _ ih => simpa using ih

theorem mem_of_mem_go {c : Char} (h : c ∈ trimLines.go line s) : c ∈ line.reverse ++ s := by
  fun_induction trimLines.go line s with
  | case1 line => simpa using h
  | case2 line s ih =>
    rcases List.mem_append.1 h with h | h
    · exact List.mem_append_left _ (List.mem_reverse.2
        ((List.dropWhile_suffix _).subset (List.mem_reverse.1 h)))
    · rcases List.mem_cons.1 h with rfl | h
      · simp
      · exact List.mem_append_right _ (List.mem_cons_of_mem _ (by simpa using ih h))
  | case3 line c s _ ih => simpa using ih h

theorem nests_trimLines (s : List Char) : nests 0 (trimLines s) = nests 0 s := (nests_go 0).symm

theorem suffix_of_trimLines (h : ['/'] <:+ trimLines s) : ['/'] <:+ s := by
  simpa using suffix_of_go h

theorem head_trimLines : ∀ c ∈ (trimLines s).head?, c = '\n' ∨ c ∈ s.head? := by
  intro c hc
  simpa using head_go c hc

theorem trimLines_subset (s : List Char) : trimLines s ⊆ s := fun c hc => by
  simpa using mem_of_mem_go hc

end Nesting

namespace Lexer

variable {s rest content : List Char} {outer : List (Delimiter × List Token)} {done : List Token}
  {inner : Bool}

/-! Comments at the start of a text -/

/-- What is left of the last line of a comment. -/
theorem restOfLine_append (h : '\n' ∉ s) (rest : List Char) :
    restOfLine (s ++ '\n' :: rest) = (dropCarriageReturn s, '\n' :: rest) := by
  induction s with
  | nil => rfl
  | cons c s ih =>
    obtain ⟨hc, hs⟩ := not_or.1 (List.mem_cons.not.1 h)
    by_cases hreturn : c = '\r' ∧ s = []
    · obtain ⟨rfl, rfl⟩ := hreturn
      rfl
    · have hdrop : dropCarriageReturn (c :: s) = c :: dropCarriageReturn s := by
        cases s with
        | nil => simpa [dropCarriageReturn] using hreturn
        | cons d s =>
          simp only [dropCarriageReturn, List.getLast?_cons_cons]
          split_ifs <;> rfl
      have hline : restOfLine (c :: (s ++ '\n' :: rest)) =
          (c :: (restOfLine (s ++ '\n' :: rest)).1, (restOfLine (s ++ '\n' :: rest)).2) := by
        rw [restOfLine.eq_def]
        split
        · rename_i heq
          cases heq
        · rename_i heq
          exact absurd (List.cons.inj heq).1.symm hc
        · rename_i heq
          obtain ⟨rfl, htail⟩ := List.cons.inj heq
          cases s with
          | nil => exact absurd ⟨rfl, rfl⟩ hreturn
          | cons d s =>
            obtain ⟨rfl, -⟩ := List.cons.inj htail
            exact absurd List.mem_cons_self hs
        · rename_i heq
          obtain ⟨rfl, rfl⟩ := List.cons.inj heq
          rfl
      rw [List.cons_append, hline, ih hs, hdrop]

theorem readOn_docContent (hskip : skipOnce s = none) (hleaf : treeTurn outer done s = .stop none)
    (h : docContent s = some (content, inner, rest)) : readOn outer done s =
      if docComment.bareReturn content then none
      else readOn outer (docTokens content inner ++ done) rest := by
  have hturn : turn outer done s = if docComment.bareReturn content then .stop none
      else .go outer (docTokens content inner ++ done) rest := by
    rw [turn, skipSpace_eq, hskip, Option.elim_none, docComment_eq, h, Option.bind_some]
    dsimp only
    cases docComment.bareReturn content with
    | true => exact hleaf
    | false => rfl
  rw [readOn_eq, hturn]
  cases docComment.bareReturn content <;> rfl

/-- A comment is no token. -/
theorem treeTurn_comment {c : Char} (hc : c = '/' ∨ c = '*') :
    treeTurn outer done ('/' :: c :: s) = .stop none := by
  have hpunct : punct ('/' :: c :: s) = none := by
    have hstarts : startsPunct ('/' :: c :: s) = false := by
      rcases hc with rfl | rfl <;> simp [startsPunct, startsWith, List.isPrefixOf]
    simp [punct, hstarts]
  have hleaf : leaf ('/' :: c :: s) = none := by
    rw [leaf, literal_eq_none_of_isPunct (by decide) (by decide), hpunct]
    have hstart : startsIdentifier '/' = false := by decide
    simp [ident, identAny, word, lit, errorLiteral, startsWith, List.isPrefixOf, hstart]
  rw [treeTurn.eq_def]
  simp [hleaf, opening, closing]

/-! Line comments and block comments -/

theorem isSpace_slash : isSpace '/' = false := by decide

theorem readOn_innerLine (h : '\n' ∉ s) (rest : List Char) :
    readOn outer done ('/' :: '/' :: '!' :: (s ++ '\n' :: rest)) =
      if docComment.bareReturn (dropCarriageReturn s) then none
      else readOn outer (docTokens (dropCarriageReturn s) true ++ done) ('\n' :: rest) := by
  refine readOn_docContent ?_ (treeTurn_comment (.inl rfl)) ?_
  · simp [skipOnce, startsWith, List.isPrefixOf, isSpace_slash]
  · simp [docContent, startsWith, List.isPrefixOf, restOfLine_append h]

/-- Four slashes are a plain comment. -/
theorem readOn_outerLine (h : '\n' ∉ s) (hslash : s.head? ≠ some '/') (rest : List Char) :
    readOn outer done ('/' :: '/' :: '/' :: (s ++ '\n' :: rest)) =
      if docComment.bareReturn (dropCarriageReturn s) then none
      else readOn outer (docTokens (dropCarriageReturn s) false ++ done) ('\n' :: rest) := by
  have hfour : startsWith "////" ('/' :: '/' :: '/' :: (s ++ '\n' :: rest)) = false := by
    cases s with
    | nil => simp [startsWith, List.isPrefixOf]
    | cons c s =>
      have hc : c ≠ '/' := by simpa using hslash
      simp [startsWith, List.isPrefixOf, hc.symm]
  refine readOn_docContent ?_ (treeTurn_comment (.inl rfl)) ?_
  · rw [skipOnce, hfour]
    simp [startsWith, List.isPrefixOf, isSpace_slash]
  · rw [docContent, hfour]
    simp [startsWith, List.isPrefixOf, restOfLine_append h]

section Blocks

variable {body : List Char} (hnests : nests 0 body = true) (hlast : ¬['/'] <:+ body)

include hnests hlast

theorem blockComment_eq {m : Char} (hm : m ≠ '/') (hstar : m = '*' → body.head? ≠ some '/')
    (rest : List Char) :
    blockComment ('/' :: '*' :: m :: (body ++ '*' :: '/' :: rest)) = some rest := by
  have hall : nests 0 (m :: body) = true := by
    rwa [nests_cons (fun h => absurd h hm) hstar]
  have hend : ¬['/'] <:+ m :: body := fun h => by
    rcases List.suffix_cons_iff.1 h with h | h
    · exact hm (List.cons.inj h).1.symm
    · exact hlast h
  exact commentEnd_of_nests hall hend

omit hnests hlast in
theorem take_block (m : Char) (body rest : List Char) :
    (('/' :: '*' :: m :: (body ++ '*' :: '/' :: rest)).take
      (('/' :: '*' :: m :: (body ++ '*' :: '/' :: rest)).length - rest.length - 2)).drop 3 = body := by
  have hlen : ('/' :: '*' :: m :: (body ++ '*' :: '/' :: rest)).length - rest.length - 2 =
      body.length + 3 := by
    simp
    omega
  rw [hlen]
  simp

theorem readOn_innerBlock (rest : List Char) :
    readOn outer done ('/' :: '*' :: '!' :: (body ++ '*' :: '/' :: rest)) =
      if docComment.bareReturn body then none
      else readOn outer (docTokens body true ++ done) rest := by
  have hblock := blockComment_eq hnests hlast (m := '!') (by decide) (by simp) rest
  refine readOn_docContent ?_ (treeTurn_comment (.inr rfl)) ?_
  · simp [skipOnce, startsWith, List.isPrefixOf, isSpace_slash]
  · rw [docContent, hblock, Option.map_some, take_block]
    simp [startsWith, List.isPrefixOf]

/-- Two stars start a comment that documents, unless it is over at once or another one follows. -/
theorem readOn_outerBlock (hhead : ∃ c ∈ body.head?, c ≠ '*' ∧ c ≠ '/') (rest : List Char) :
    readOn outer done ('/' :: '*' :: '*' :: (body ++ '*' :: '/' :: rest)) =
      if docComment.bareReturn body then none
      else readOn outer (docTokens body false ++ done) rest := by
  obtain ⟨c, hc, hstar, hslash⟩ := hhead
  obtain ⟨more, hmore⟩ := List.head?_eq_some_iff.1 hc
  have hblock := blockComment_eq hnests hlast (m := '*') (by decide)
    (fun _ h => hslash (by rw [hc] at h; exact Option.some.inj h)) rest
  have hthree : startsWith "/***" ('/' :: '*' :: '*' :: (body ++ '*' :: '/' :: rest)) = false := by
    simp [startsWith, List.isPrefixOf, hmore, hstar.symm]
  have hempty : startsWith "/**/" ('/' :: '*' :: '*' :: (body ++ '*' :: '/' :: rest)) = false := by
    simp [startsWith, List.isPrefixOf, hmore, hslash.symm]
  refine readOn_docContent ?_ (treeTurn_comment (.inr rfl)) ?_
  · rw [skipOnce, hthree, hempty]
    simp [startsWith, List.isPrefixOf, isSpace_slash]
  · rw [docContent, hblock, hthree]
    simp only [Option.map_some, take_block]
    simp [startsWith, List.isPrefixOf]

end Blocks

/-! Attributes -/

theorem readOn_brackets {w : String} (hw : isWord w.toList = true) (text : String)
    (rest : List Char) :
    readOn outer done ('[' :: (w.toList ++ ' ' :: '=' :: ' ' :: ((quote text).toList ++ ']' :: rest))) =
      readOn outer (.group .bracket [.word w, .punct '=' false, .literal (quote text)] :: done)
        rest := by
  have hends : EndsWord (' ' :: '=' :: ' ' :: ((quote text).toList ++ ']' :: rest)) := by
    intro c hc
    obtain rfl : ' ' = c := by simpa using hc
    decide
  have hequals : startsPunct (' ' :: ((quote text).toList ++ ']' :: rest)) = false := by
    simp [startsPunct, isPunct]
  rw [readOn_open (by decide) (by decide) (by simp [startsWith, errorLiteral, List.isPrefixOf]) rfl,
    readOn_word hw hends, readOn_space (by decide),
    readOn_mark ⟨by decide, by decide, by decide⟩, hequals, readOn_space (by decide),
    readOn_quote text (by intro c hc; obtain rfl : ']' = c := by simpa using hc
                          decide),
    readOn_close (by decide) (by decide) (by decide) rfl]
  rfl

variable (outer done) in
/-- An attribute that is not written as a comment. -/
theorem readOn_hashed {w : String} (hw : isWord w.toList = true) (text : String) (inner : Bool)
    (rest : List Char) :
    readOn outer done ('#' :: ((if inner then ['!'] else []) ++
        '[' :: (w.toList ++ ' ' :: '=' :: ' ' :: ((quote text).toList ++ ']' :: rest)))) =
      readOn outer (.group .bracket [.word w, .punct '=' false, .literal (quote text)] ::
        ((if inner then [.punct '!' false] else []) ++ .punct '#' inner :: done)) rest := by
  have hhash : Mark '#' := ⟨by decide, by decide, by decide⟩
  have hmark : Mark '!' := ⟨by decide, by decide, by decide⟩
  have hbracket : ∀ s, startsPunct ('[' :: s) = false := fun s => by simp [startsPunct, isPunct]
  cases inner with
  | true =>
    have hbang : ∀ s, startsPunct ('!' :: s) = true := fun s => by
      simp [startsPunct, startsWith, List.isPrefixOf, isPunct]
    simp only [if_true, List.cons_append, List.nil_append]
    rw [readOn_mark hhash, hbang, readOn_mark hmark, hbracket,
      readOn_brackets hw]
  | false =>
    simp only [Bool.false_eq_true, if_false, List.nil_append]
    rw [readOn_mark hhash, hbracket, readOn_brackets hw]

theorem mem_of_bareReturn (h : docComment.bareReturn s = true) : '\r' ∈ s := by
  induction s with
  | nil => cases h
  | cons c s ih =>
    rw [docComment.bareReturn, Bool.or_eq_true, Bool.and_eq_true, beq_iff_eq] at h
    rcases h with ⟨rfl, -⟩ | h
    · exact List.mem_cons_self
    · exact List.mem_cons_of_mem _ (ih h)

/-- On one line every carriage return is alone. -/
theorem bareReturn_iff (h : '\n' ∉ s) : docComment.bareReturn s = true ↔ '\r' ∈ s := by
  refine ⟨mem_of_bareReturn, fun hmem => ?_⟩
  induction s with
  | nil => cases hmem
  | cons c s ih =>
    obtain ⟨-, hs⟩ := not_or.1 (List.mem_cons.not.1 h)
    rw [docComment.bareReturn, Bool.or_eq_true, Bool.and_eq_true, beq_iff_eq]
    rcases List.mem_cons.1 hmem with rfl | hmem
    · refine .inl ⟨rfl, ?_⟩
      rw [bne_iff_ne]
      exact fun hhead => hs (List.mem_of_mem_head? hhead)
    · exact .inr (ih hs hmem)

end Lexer

/-! Documentation -/

section Documentation

open Lexer

variable {text : List Char} {line : String} {inner : Bool}

theorem trimEnd_subset (text : List Char) : Layout.trimEnd text ⊆ text := by
  intro c hc
  rw [Layout.trimEnd, List.mem_reverse] at hc
  exact List.mem_reverse.1 ((List.dropWhile_suffix _).subset hc)

theorem dropCarriageReturn_subset (text : List Char) : dropCarriageReturn text ⊆ text := by
  unfold dropCarriageReturn
  split
  · exact List.dropLast_subset text
  · exact List.Subset.refl text

/-- An attribute with documentation, latest token first. -/
def attributeTokens (inner joint : Bool) (text : String) : List Token :=
  .group .bracket (docBody text) :: ((if inner then [.punct '!' false] else []) ++ [.punct '#' joint])

theorem docTokens_eq (content : List Char) (inner : Bool) :
    docTokens content inner = attributeTokens inner false (String.ofList content) := by
  rw [docTokens, attributeTokens, docBody, quote, String.toList_ofList]
  rfl

theorem startsWithAny_eq_false_iff {marks : List Char} :
    startsWithAny marks text = false ↔ ∀ c ∈ text.head?, c ∉ marks := by
  cases text <;> simp [startsWithAny]

theorem commentDocs_eq_some {onLine inBlock : String} {refusedOnLine refusedInBlock : List Char}
    {docs : List Doc} (hrefused : refusedOnLine ⊆ refusedInBlock)
    (h : commentDocs onLine inBlock refusedOnLine refusedInBlock text = some docs) :
    ('\n' ∉ text ∧ (∀ c ∈ text.head?, c ∉ refusedOnLine) ∧
      docs = [word onLine, word (String.ofList (Layout.trimEnd text)), Layout.line]) ∨
    ('\n' ∈ text ∧ nests 0 text = true ∧ ¬['/'] <:+ text ∧
      (∀ c ∈ text.head?, c ∉ refusedInBlock) ∧
      docs = [word inBlock, word (String.ofList (trimLines text)), word "*/", Layout.line]) := by
  unfold commentDocs at h
  split at h
  · rename_i hline
    simp only [Bool.and_eq_true, Bool.not_eq_true', List.contains_eq_mem, decide_eq_false_iff_not,
      startsWithAny_eq_false_iff] at hline
    exact .inl ⟨hline.1, hline.2, (Option.some.inj h).symm⟩
  · rename_i hline
    split at h
    · rename_i hblock
      simp only [Bool.and_eq_true, Bool.not_eq_true', startsWithAny_eq_false_iff, fitsComment,
        bne_iff_ne] at hblock
      obtain ⟨⟨hnests, hlast⟩, hhead⟩ := hblock
      refine .inr ⟨?_, hnests, ?_, hhead, (Option.some.inj h).symm⟩
      · by_contra hfeed
        refine hline ?_
        simp only [Bool.and_eq_true, Bool.not_eq_true', List.contains_eq_mem,
          decide_eq_false_iff_not, startsWithAny_eq_false_iff]
        exact ⟨hfeed, fun c hc hmem => hhead c hc (hrefused hmem)⟩
      · rintro ⟨t, ht⟩
        exact hlast (by rw [← ht, List.getLast?_concat])
    · cases h

/-- Documentation is read as itself, whatever stands between its quotes. -/
theorem commentOf?_eq (inner : Bool) (line : String) :
    commentOf? inner (SimplePath.ofWord "doc") (textExpr line) =
      if inner then commentDocs "//!" "/*!" [] [] line.toList
      else commentDocs "///" "/**" ['/'] ['*', '/'] line.toList := by
  have hquote := text_quote line []
  rw [List.append_nil] at hquote
  rw [commentOf?_doc, hquote]
  rfl

/-- What is written of documentation is read as an attribute with documentation, or cannot be read
because of a carriage return. -/
def Rereads (inner : Bool) (line : String) (written : List Char) : Prop :=
  (∃ text joint, ∀ outer done rest, readOn outer done (written ++ '\n' :: rest) =
    readOn outer (attributeTokens inner joint text ++ done) ('\n' :: rest)) ∨
  '\r' ∈ line.toList ∧ ∀ outer done rest, readOn outer done (written ++ '\n' :: rest) = none

theorem rereads_of_content {written content : List Char} (hsub : content ⊆ line.toList)
    (h : ∀ outer done rest, readOn outer done (written ++ '\n' :: rest) =
      if docComment.bareReturn content then none
      else readOn outer (docTokens content inner ++ done) ('\n' :: rest)) :
    Rereads inner line written := by
  cases hbare : docComment.bareReturn content with
  | true =>
    exact .inr ⟨hsub (mem_of_bareReturn hbare), fun outer done rest => by
      rw [h, hbare, if_pos rfl]⟩
  | false =>
    refine .inl ⟨String.ofList content, false, fun outer done rest => ?_⟩
    rw [h, hbare, if_neg Bool.false_ne_true, docTokens_eq]

theorem rereads_line (hfeed : '\n' ∉ line.toList)
    (hslash : inner = false → ∀ c ∈ line.toList.head?, c ≠ '/') :
    Rereads inner line ((if inner then "//!" else "///").toList ++ Layout.trimEnd line.toList) := by
  have hsub := trimEnd_subset line.toList
  have hfeed' : '\n' ∉ Layout.trimEnd line.toList := fun h => hfeed (hsub h)
  refine rereads_of_content (List.Subset.trans (dropCarriageReturn_subset _) hsub)
    fun outer done rest => ?_
  cases inner with
  | true => exact readOn_innerLine hfeed' rest
  | false =>
    refine readOn_outerLine hfeed' (fun hhead => ?_) rest
    obtain ⟨t, ht⟩ : Layout.trimEnd line.toList <+: line.toList := List.rdropWhile_prefix _ _
    exact hslash rfl '/' (by rw [← ht, List.head?_append, hhead]; rfl) rfl

theorem rereads_block (hnests : nests 0 line.toList = true) (hlast : ¬['/'] <:+ line.toList)
    (hfeed : '\n' ∈ line.toList)
    (hhead : inner = false → ∀ c ∈ line.toList.head?, c ≠ '*' ∧ c ≠ '/') :
    Rereads inner line ((if inner then "/*!" else "/**").toList ++
      (trimLines line.toList ++ ['*', '/'])) := by
  have hnests' : nests 0 (trimLines line.toList) = true := (nests_trimLines _).trans hnests
  have hlast' : ¬['/'] <:+ trimLines line.toList := fun h => hlast (suffix_of_trimLines h)
  refine rereads_of_content (trimLines_subset line.toList) fun outer done rest => ?_
  cases inner with
  | true => simpa using readOn_innerBlock hnests' hlast' ('\n' :: rest)
  | false =>
    have hfirst : ∃ c ∈ (trimLines line.toList).head?, c ≠ '*' ∧ c ≠ '/' := by
      cases htrim : trimLines line.toList with
      | nil =>
        obtain ⟨-, hnil⟩ := eq_nil_of_go htrim
        rw [hnil] at hfeed
        cases hfeed
      | cons c more =>
        refine ⟨c, rfl, ?_⟩
        rcases head_trimLines c (by rw [htrim]; rfl) with rfl | hc
        · decide
        · exact hhead rfl c hc
    simpa using readOn_outerBlock hnests' hlast' hfirst ('\n' :: rest)

/-- Documentation is words of which each stands behind the one before, and a break. -/
theorem documentation_rereads (inner : Bool) (line : String) : ∃ words b,
    Tree.docs (.valueAttr inner (SimplePath.ofWord "doc") (textExpr line)) .usual =
      words.map .text ++ [b] ∧ (b = Layout.line ∨ b = space) ∧
      Rereads inner line (String.join words).toList := by
  change ∃ words b, (commentOf? inner (SimplePath.ofWord "doc") (textExpr line)).getD
    (hashDocs inner [.text "doc", .text " = ", .text (quote line)]) = _ ∧ _
  cases hcomment : commentOf? inner (SimplePath.ofWord "doc") (textExpr line) with
  | none =>
    refine ⟨[if inner then "#!" else "#", "[", "doc", " = ", quote line, "]"], space, ?_, .inr rfl,
      .inl ⟨line, inner, fun outer done rest => ?_⟩⟩
    · cases inner <;> rfl
    · have hread := readOn_hashed outer done (w := "doc") (by decide +kernel) line inner ('\n' :: rest)
      cases inner <;> simpa [attributeTokens, docBody, punct] using hread
  | some docs =>
    rw [commentOf?_eq] at hcomment
    have hdocs : commentDocs (if inner then "//!" else "///") (if inner then "/*!" else "/**")
        (if inner then [] else ['/']) (if inner then [] else ['*', '/']) line.toList = some docs := by
      cases inner <;> exact hcomment
    rcases commentDocs_eq_some (by cases inner <;> decide) hdocs with
      ⟨hfeed, hhead, rfl⟩ | ⟨hfeed, hnests, hlast, hhead, rfl⟩
    · refine ⟨[_, _], Layout.line, rfl, .inl rfl, ?_⟩
      have hread : Rereads inner line ((if inner then "//!" else "///").toList ++
          Layout.trimEnd line.toList) := rereads_line hfeed (by rintro rfl; simpa using hhead)
      simpa using hread
    · refine ⟨[_, _, _], Layout.line, rfl, .inl rfl, ?_⟩
      have hread : Rereads inner line ((if inner then "/*!" else "/**").toList ++
          (trimLines line.toList ++ ['*', '/'])) :=
        rereads_block hnests hlast hfeed (by rintro rfl; simpa using hhead)
      simpa using hread

end Documentation

end Bindery.Source
