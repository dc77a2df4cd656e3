import Bindery.Proofs.Index
import Bindery.Proofs.Pages
import Bindery.Proofs.Source.Comments

/-!
# The text of the index

The index is laid out one line below the other, whatever the names of the units and the label are.
The lines that declare units are read as the tokens they are made of, so the text is read again
unless the label has a carriage return or a line feed.
-/
namespace Bindery.Source

open Bindery.Layout Bindery.Text Emission

/-! Declarations -/

/-- A declaration of a unit, with the file of the unit if that is given. -/
def declaration (place : Option String) (name : Ident) : Item :=
  moduleItem (place.toList.map (textAttribute "path")) name

/-- The pieces that a declaration is written as. -/
def declarationText (place : Option String) (name : Ident) : List String :=
  (place.elim [] fun file => ["#", "[", "path", " = ", quote file, "]", "\n"]) ++
    [String.join ["pub ", "mod ", name.text, ";"], "\n"]

theorem docs_place (file : String) : (textAttribute "path" file).docs .usual =
    ["#", "[", "path", " = ", quote file, "]"].map .text ++ [space] := by
  have hcomment : commentOf? false (SimplePath.ofWord "path") (textExpr file) = none := by
    have hdoc : (SimplePath.ofWord "path").isWord "doc" = false := by decide
    have hother : (SimplePath.ofWord "path").isWord "comment" = false := by decide
    cases h : (Lexer.text (quote file).toList).map (·.1) <;>
      simp [commentOf?, textExpr, h, hdoc, hother]
  change (commentOf? false (SimplePath.ofWord "path") (textExpr file)).getD
    (hashDocs false [.text "path", .text " = ", .text (quote file)]) = _
  rw [hcomment]
  rfl

theorem docs_moduleItem (attrs : List Attribute) (name : Ident) :
    (moduleItem attrs name).docs .usual = attrs.flatMap (·.docs .usual) ++
      [cbox step (["pub ", "mod ", name.text, ";"].map .text), line] := by
  have hitem : ∀ t : Tree (.many .attr), (Tree.moduleItem t publicFront false name .absent).docs .usual =
      (t.docs .usual).flatten ++
        [cbox step (["pub ", "mod ", name.text, ";"].map .text), line] := fun _ => rfl
  rw [moduleItem, hitem, docs_ofList, List.flatMap_def]

theorem flat_declaration (place : Option String) (name : Ident) :
    List.Forall₂ Flat ((declaration place name).docs .usual) (declarationText place name) := by
  have hitem : List.Forall₂ Flat
      [cbox step (["pub ", "mod ", name.text, ";"].map .text), line]
      [String.join ["pub ", "mod ", name.text, ";"], "\n"] :=
    .cons (.box true step _) (.cons flat_line .nil)
  rw [declaration, docs_moduleItem]
  cases place with
  | none => exact hitem
  | some file =>
    rw [Option.toList_some, List.map_singleton, List.flatMap_singleton, docs_place]
    exact List.rel_append (List.rel_append (flat_words _) (.cons flat_space .nil)) hitem

section Reading

open Lexer

variable {place : Option String} {name : Ident} {rest : List Char} {done : List Token}

/-- A unit whose name is a word that may be raw. -/
structure Nameable (name : Ident) : Prop where
  word : isWord name.word.toList = true
  raw : name.raw = true → name.word ∉ neverRaw

theorem endsWord_space (rest : List Char) : EndsWord (' ' :: rest) := by
  intro c hc
  obtain rfl : ' ' = c := by simpa using hc
  decide

theorem endsWord_semicolon (rest : List Char) : EndsWord (';' :: rest) := by
  intro c hc
  obtain rfl : ';' = c := by simpa using hc
  decide

theorem readOn_module (h : Nameable name) (done : List Token) (rest : List Char) :
    readOn [] done ("pub".toList ++ ' ' :: ("mod".toList ++ ' ' :: (name.text.toList ++
      ';' :: '\n' :: rest))) =
      readOn [] (.punct ';' false :: .ident name :: .word "mod" :: .word "pub" :: done) rest := by
  have hend : startsPunct ('\n' :: rest) = false := by simp [startsPunct, isPunct]
  rw [readOn_word (by decide +kernel) (endsWord_space _), readOn_space (by decide),
    readOn_word (by decide +kernel) (endsWord_space _), readOn_space (by decide),
    readOn_ident h.word h.raw (endsWord_semicolon _),
    readOn_mark ⟨by decide, by decide, by decide⟩, hend, readOn_space (by decide)]

theorem tokens_place (file : String) : (textAttribute "path" file).tokens =
    [.punct '#' false, .group .bracket [.word "path", .punct '=' false, .literal (quote file)]] := by
  change hashed false (_ ++ punct '=' ++ Literal.tokens (quote file)) = _
  rw [Literal.tokens_quote]
  rfl

theorem readOn_declaration (h : Nameable name) (place : Option String) (done : List Token)
    (rest : List Char) :
    readOn [] done ((String.join (declarationText place name)).toList ++ rest) =
      readOn [] ((declaration place name).tokens.reverse ++ done) rest := by
  have hmodule := readOn_module h done rest
  cases place with
  | none =>
    simpa [declarationText, declaration, moduleItem, flagWord, punct] using hmodule
  | some file =>
    have hplace := readOn_hashed [] done (w := "path") (by decide +kernel) file false
      ('\n' :: ("pub".toList ++ ' ' :: ("mod".toList ++ ' ' :: (name.text.toList ++
        ';' :: '\n' :: rest))))
    have hread := hplace.trans ((readOn_space (by decide)).trans (readOn_module h _ rest))
    simpa [declarationText, declaration, moduleItem, flagWord, punct, tokens_place] using hread

theorem readOn_declarations {ds : List (Option String × Ident)} (h : ∀ d ∈ ds, Nameable d.2) :
    readOn [] done (String.join (ds.flatMap fun d => declarationText d.1 d.2)).toList =
      some (done.reverse ++ ds.flatMap fun d => (declaration d.1 d.2).tokens) := by
  induction ds generalizing done with
  | nil => simpa using readOn_nil
  | cons d rest ih =>
    have hd := readOn_declaration (h d (by simp)) d.1 done
      (String.join (rest.flatMap fun d => declarationText d.1 d.2)).toList
    rw [ih fun x hx => h x (List.mem_cons_of_mem _ hx)] at hd
    simpa using hd

end Reading

/-! The file -/

section Index

open Lexer

variable {p : Plan} {s : Settings} {f : File}

/-- Only reserved words are made raw. -/
theorem mem_rawKeywords {unit : String} {name : Ident} (h : nameIdent unit = .ok name)
    (hraw : name.raw = true) : name.word ∈ Naming.rawKeywords := by
  have hname : Ident.ofName? unit = some name := by
    unfold nameIdent at h
    split at h
    · rename_i i hi
      rw [hi, Except.ok.inj h]
    · cases h
  unfold Ident.ofName? at hname
  split_ifs at hname with hpath hword
  · rw [eq_of_ofWord?_eq_some hname] at hraw
    cases hraw
  · cases hname
    exact List.contains_iff_mem.1 hword
  · rw [eq_of_ofWord?_eq_some hname] at hraw
    cases hraw

theorem exists_declaration {unit : String} {i : Item} (h : declareUnit unit = .ok i) :
    ∃ place name, i = declaration place name ∧ Nameable name := by
  obtain ⟨name, hname, hi⟩ := bind_eq_ok_iff.1 h
  obtain rfl := pure_eq_ok_iff.1 hi
  have hnameable : Nameable name := by
    refine ⟨?_, fun hraw => ?_⟩
    · rw [(nameIdent_ok hname).1]
      exact exists_nameIdent_iff.1 ⟨name, hname⟩
    · have hnone : ∀ k ∈ Naming.rawKeywords, k ∉ neverRaw := by decide
      refine hnone _ (mem_rawKeywords hname hraw)
  refine ⟨if Naming.isPathKeyword unit then some (unit ++ ".rs") else none, name, ?_, hnameable⟩
  rw [declaration]
  split <;> rfl

theorem exists_declarations (h : index p s = .ok f) :
    ∃ ds : List (Option String × Ident), (∀ d ∈ ds, Nameable d.2) ∧
      f = ⟨[.valueAttr true (SimplePath.ofWord "doc")
        (textExpr s!" Generated bindings for the `{s.label}` catalog.")],
        ds.map fun d => declaration d.1 d.2⟩ := by
  obtain ⟨items, hitems, hf⟩ := bind_eq_ok_iff.1 h
  obtain rfl := pure_eq_ok_iff.1 hf
  have hall : ∀ {us : List (String × List Method)} {items : List Item},
      List.Forall₂ (fun u i => declareUnit u.1 = .ok i) us items →
      ∃ ds : List (Option String × Ident), (∀ d ∈ ds, Nameable d.2) ∧
        items = ds.map fun d => declaration d.1 d.2 := by
    intro us items hall
    induction hall with
    | nil => exact ⟨[], List.forall_mem_nil _, rfl⟩
    | cons hi _ ih =>
      obtain ⟨place, name, rfl, hname⟩ := exists_declaration hi
      obtain ⟨ds, hds, rfl⟩ := ih
      exact ⟨(place, name) :: ds, List.forall_mem_cons.2 ⟨hname, hds⟩, rfl⟩
  obtain ⟨ds, hds, rfl⟩ := hall (mapM_eq_ok_iff.1 hitems)
  have hservices : Nameable (plain servicesUnit) := ⟨by decide +kernel, fun h => by cases h⟩
  exact ⟨(none, plain servicesUnit) :: ds, List.forall_mem_cons.2 ⟨hservices, hds⟩, rfl⟩

/-- What the index says of the catalog. -/
def indexDoc (s : Settings) : String := s!" Generated bindings for the `{s.label}` catalog."

theorem toList_indexDoc (s : Settings) : (indexDoc s).toList =
    " Generated bindings for the `".toList ++ s.label.toList ++ "` catalog.".toList := by
  have hdoc : indexDoc s = " Generated bindings for the `" ++ s.label ++ "` catalog." := rfl
  rw [hdoc, String.toList_append, String.toList_append]

/-- The words around a label hold no end of a line. -/
theorem not_mem_of_all {c : Char} (hc : c = '\n' ∨ c = '\r') {t : List Char}
    (h : (t.all fun d => d != '\n' && d != '\r') = true) : c ∉ t := by
  intro hmem
  have hc' := List.all_eq_true.1 h c hmem
  rcases hc with rfl | rfl <;> simp at hc'

theorem mem_indexDoc {c : Char} (hc : c = '\n' ∨ c = '\r') :
    c ∈ (indexDoc s).toList ↔ c ∈ s.label.toList := by
  have hfront := not_mem_of_all hc (t := " Generated bindings for the `".toList) (by decide +kernel)
  have hback := not_mem_of_all hc (t := "` catalog.".toList) (by decide +kernel)
  rw [toList_indexDoc, List.mem_append, List.mem_append]
  simp only [hfront, hback, false_or, or_false]

/-- Nothing is cut off at its end. -/
theorem indexDoc_ends (s : Settings) : Layout.trimEnd (indexDoc s).toList = (indexDoc s).toList ∧
    dropCarriageReturn (indexDoc s).toList = (indexDoc s).toList := by
  have hlast : ∃ t, (indexDoc s).toList = t ++ ['.'] := by
    refine ⟨" Generated bindings for the `".toList ++ s.label.toList ++ "` catalog".toList, ?_⟩
    have hdot : "` catalog.".toList = "` catalog".toList ++ ['.'] := by decide +kernel
    rw [toList_indexDoc, hdot, ← List.append_assoc]
  obtain ⟨t, ht⟩ := hlast
  rw [ht]
  constructor
  · simp [Layout.trimEnd]
  · simp [dropCarriageReturn]

/-- The label is written in a comment at the top. -/
theorem docs_indexDoc (hfeed : '\n' ∉ s.label.toList) :
    Tree.docs (.valueAttr true (SimplePath.ofWord "doc") (textExpr (indexDoc s))) .usual =
      ["//!", indexDoc s].map .text ++ [line] := by
  have hline : '\n' ∉ (indexDoc s).toList := (mem_indexDoc (.inl rfl)).not.2 hfeed
  have hcomment : commentOf? true (SimplePath.ofWord "doc") (textExpr (indexDoc s)) =
      some [word "//!", word (String.ofList (Layout.trimEnd (indexDoc s).toList)), line] := by
    rw [commentOf?_eq, if_pos rfl, commentDocs, if_pos]
    simpa [startsWithAny_eq_false_iff] using hline
  change (commentOf? true (SimplePath.ofWord "doc") (textExpr (indexDoc s))).getD _ = _
  rw [hcomment, (indexDoc_ends s).1, String.ofList_toList]
  rfl

theorem tokens_indexDoc (s : Settings) :
    Tree.tokens (.valueAttr true (SimplePath.ofWord "doc") (textExpr (indexDoc s))) =
      (docTokens (indexDoc s).toList true).reverse := by
  change hashed true (_ ++ punct '=' ++ Literal.tokens (quote (indexDoc s))) = _
  rw [Literal.tokens_quote, docTokens_eq, String.ofList_toList]
  rfl

theorem text_index {ds : List (Option String × Ident)} (hfeed : '\n' ∉ s.label.toList) :
    (File.mk [.valueAttr true (SimplePath.ofWord "doc") (textExpr (indexDoc s))]
      (ds.map fun d => declaration d.1 d.2)).text? =
      some (String.join (["//!", indexDoc s, "\n"] ++ ds.flatMap fun d => declarationText d.1 d.2)) := by
  have hitems : List.Forall₂ Flat ((ds.map fun d => declaration d.1 d.2).flatMap (·.docs .usual))
      (ds.flatMap fun d => declarationText d.1 d.2) := by
    rw [List.flatMap_map]
    induction ds with
    | nil => exact .nil
    | cons d rest ih => exact List.rel_append (flat_declaration d.1 d.2) ih
  have hdoc : List.Forall₂ Flat (["//!", indexDoc s].map .text ++ [line]) ["//!", indexDoc s, "\n"] :=
    List.rel_append (flat_words _) (.cons flat_line .nil)
  rw [File.text?, List.flatMap_singleton, docs_indexDoc hfeed]
  exact render?_flat (List.rel_append hdoc hitems) (by simp) (by simp)

/-- The text of an index is read as the tokens that were laid out, unless its label has a carriage
return, which makes it unreadable. -/
theorem exists_index_text (h : index p s = .ok f) (hfeed : '\n' ∉ s.label.toList) :
    ∃ code, f.text? = some code ∧
      readOn [] [] code.toList = if '\r' ∈ s.label.toList then none else some f.tokens := by
  obtain ⟨ds, hds, rfl⟩ := exists_declarations h
  have hline : '\n' ∉ (indexDoc s).toList := (mem_indexDoc (.inl rfl)).not.2 hfeed
  refine ⟨_, text_index hfeed, ?_⟩
  have hcode : (String.join (["//!", indexDoc s, "\n"] ++
      ds.flatMap fun d => declarationText d.1 d.2)).toList =
      '/' :: '/' :: '!' :: ((indexDoc s).toList ++
        '\n' :: (String.join (ds.flatMap fun d => declarationText d.1 d.2)).toList) := by
    simp
  have hbare : docComment.bareReturn (indexDoc s).toList = true ↔ '\r' ∈ s.label.toList :=
    (bareReturn_iff hline).trans (mem_indexDoc (.inr rfl))
  rw [hcode, readOn_innerLine hline, (indexDoc_ends s).2]
  split_ifs with hb hr hr
  · rfl
  · exact absurd (hbare.1 hb) hr
  · exact absurd (hbare.2 hr) hb
  · rw [readOn_space (by decide), readOn_declarations hds, List.append_nil, File.tokens,
      List.flatMap_map, List.flatMap_singleton]
    exact congrArg (fun ts => some (ts ++ _)) (tokens_indexDoc s).symm

end Index

end Bindery.Source
