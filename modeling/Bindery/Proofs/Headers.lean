import Bindery.Proofs.Documentation.Files
import Bindery.Proofs.IndexText

/-!
# Headers and the code below them

A file is code that was read again, laid out below the header. The header is a comment on the first
line unless its label has a line feed: what stands behind it is read as code. What documentation is
written as is never read as code.

The code of an index is laid out as its tokens stand. That of other files need not be: a list has a
comma behind its last element only if it takes several lines, and the body of a closure is enclosed
if it moves to a line of its own. So what is said of their code is said before it is laid out.
-/
namespace Bindery

open Text Source Emission

/-! First lines -/

namespace Text

/-- A text up to its first line feed. -/
def firstLine (text : String) : String := String.ofList (text.toList.takeWhile (· != '\n'))

/-- A text from its first line feed on. -/
def behindFirstLine (text : String) : String := String.ofList (text.toList.dropWhile (· != '\n'))

theorem forall_ne_iff {cs : List Char} : (∀ c ∈ cs, (c != '\n') = true) ↔ '\n' ∉ cs :=
  ⟨fun h hmem => by simpa using h _ hmem, fun h _ hc => bne_iff_ne.2 (ne_of_mem_of_not_mem hc h)⟩

theorem firstLine_eq_iff {text : String} : firstLine text = text ↔ '\n' ∉ text.toList := by
  rw [firstLine, ← String.toList_inj, String.toList_ofList, List.takeWhile_eq_self_iff,
    forall_ne_iff]

theorem behindFirstLine_eq_empty {text : String} :
    behindFirstLine text = "" ↔ '\n' ∉ text.toList := by
  rw [behindFirstLine, ← String.toList_inj, String.toList_ofList, String.toList_empty,
    List.dropWhile_eq_nil_iff, forall_ne_iff]

/-- More lines at the end are all behind the first one. -/
theorem lines_append (text rest : String) :
    firstLine (text ++ "\n" ++ rest) = firstLine text ∧
      behindFirstLine (text ++ "\n" ++ rest) = behindFirstLine text ++ "\n" ++ rest := by
  have hchars : ∀ cs : List Char,
      (cs ++ '\n' :: rest.toList).takeWhile (· != '\n') = cs.takeWhile (· != '\n') ∧
        (cs ++ '\n' :: rest.toList).dropWhile (· != '\n') =
          cs.dropWhile (· != '\n') ++ '\n' :: rest.toList := by
    intro cs
    induction cs with
    | nil => simp
    | cons c cs ih =>
      rw [List.cons_append, List.takeWhile_cons, List.takeWhile_cons, List.dropWhile_cons,
        List.dropWhile_cons, ih.1, ih.2]
      split <;> simp
  have htext : (text ++ "\n" ++ rest).toList = text.toList ++ '\n' :: rest.toList := by simp
  obtain ⟨hfirst, hbehind⟩ := hchars text.toList
  rw [firstLine, behindFirstLine, htext, hfirst, hbehind, firstLine, behindFirstLine]
  refine ⟨rfl, ?_⟩
  rw [← String.toList_inj]
  simp

end Text

/-! The header -/

section Header

variable {s : Settings}

theorem toList_header (s : Settings) : s.header.toList =
    "// Code generated by methodgen from ".toList ++ s.label.toList ++ ". DO NOT EDIT.".toList := by
  have hheader : s.header = "// Code generated by methodgen from " ++ s.label ++ ". DO NOT EDIT." := rfl
  rw [hheader, String.toList_append, String.toList_append]

theorem mem_header : '\n' ∈ s.header.toList ↔ '\n' ∈ s.label.toList := by
  have hfront := not_mem_of_all (.inl rfl) (t := "// Code generated by methodgen from ".toList)
    (by decide +kernel)
  have hback := not_mem_of_all (.inl rfl) (t := ". DO NOT EDIT.".toList) (by decide +kernel)
  rw [toList_header, List.mem_append, List.mem_append]
  simp only [hfront, hback, false_or, or_false]

/-- A comment on the first line is not read. -/
theorem tokens?_comment {text : String} {cs : List Char} (htext : text.toList = '/' :: '/' :: ' ' :: cs)
    (hfeed : '\n' ∈ text.toList) : tokens? text = tokens? (behindFirstLine text) := by
  obtain ⟨line, rest, hlines, hline⟩ := List.eq_append_cons_of_mem hfeed
  have hdrop : text.toList.dropWhile (· != '\n') = '\n' :: rest := by
    rw [hlines, List.dropWhile_append_of_pos (forall_ne_iff.2 hline)]
    simp
  have hskip : Lexer.skipOnce text.toList = some ('\n' :: rest) := by
    have hrest := Lexer.restOfLine_append hline rest
    rw [← hlines, htext] at hrest
    simp [htext, Lexer.skipOnce, Lexer.startsWith, List.isPrefixOf, hrest]
  rw [tokens?_eq (by simp [htext]), tokens?_eq (by simp [behindFirstLine, hdrop]),
    Lexer.readOn_skip hskip, behindFirstLine, hdrop, String.toList_ofList]

theorem append_blank (text code : String) :
    text ++ "\n\n" ++ code = text ++ "\n" ++ ("\n" ++ code) := by
  rw [← String.toList_inj]
  simp

/-- Only the first line of a header is not read. -/
theorem tokens?_header (s : Settings) (code : String) :
    tokens? (s.header ++ "\n\n" ++ code) = tokens? (behindFirstLine s.header ++ "\n\n" ++ code) := by
  have hchars : ∃ cs, (s.header ++ "\n" ++ ("\n" ++ code)).toList = '/' :: '/' :: ' ' :: cs :=
    ⟨_, by rw [String.toList_append, String.toList_append, toList_header]; rfl⟩
  obtain ⟨cs, hcs⟩ := hchars
  rw [append_blank, append_blank, tokens?_comment hcs (by simp), (lines_append _ _).2]

end Header

/-! Files -/

/-- Code that was read again and is laid out below the header of a file. What the header says behind
its first line is read in front of the code. -/
structure OutputFile.LaidOut (file : OutputFile) (s : Settings) (emitted : String × File) (f : File)
    (code : String) : Prop where
  name : file.name = emitted.1 ++ ".rs"
  read : File.ofTokens emitted.2.tokens = .ok f
  text : f.text? = some code
  content : file.content = s.header ++ "\n\n" ++ code
  firstLine : firstLine file.content = s.header ↔ '\n' ∉ s.label.toList
  tokens : tokens? file.content = tokens? (behindFirstLine s.header ++ "\n\n" ++ code)

section Contents

variable {c : Catalog} {s : Settings} {o : Output}

theorem layOut_eq_ok {f : File} {content : String} (h : layOut f s = .ok content) :
    ∃ code, f.text? = some code ∧ content = s.header ++ "\n\n" ++ code := by
  unfold layOut at h
  split at h
  · rename_i code hcode
    exact ⟨code, hcode, (Except.ok.inj h).symm⟩
  · cases h

theorem exists_laidOut {emitted : String × File} {file : OutputFile}
    (h : render emitted.1 emitted.2 s = .ok file) : ∃ f code, file.LaidOut s emitted f code := by
  obtain ⟨f, hread, content, hcontent, rfl⟩ := render_eq_ok h
  obtain ⟨code, hcode, rfl⟩ := layOut_eq_ok hcontent
  refine ⟨f, code, rfl, hread, hcode, rfl, ?_, tokens?_header s code⟩
  dsimp only
  rw [append_blank, (lines_append s.header ("\n" ++ code)).1, firstLine_eq_iff, mem_header.not]

theorem emitted_of_generate (h : generate c s = .ok o) :
    ∃ fs, c.emitted s = .ok fs ∧ o.LaysOut s fs := by
  obtain ⟨t, ms, ht, hacc, hrender⟩ := generate_eq_ok_iff.1 h
  obtain ⟨fs, hfs, hlays⟩ := Plan.emitted_of_render hrender
  refine ⟨fs, ?_, hlays⟩
  rw [Catalog.emitted, Plan.ofCatalog, hacc.methods, ht]
  exact hfs

theorem exists_index_contents (h : generate c s = .ok o) (hindex : s.hasIndex = true)
    (hfeed : '\n' ∉ s.label.toList) : ∃ f content, ⟨"mod.rs", content⟩ ∈ o.files ∧
      File.ofTokens f.tokens = .ok f ∧ layOut f s = .ok content ∧
      tokens? content = if '\r' ∈ s.label.toList then none else some f.tokens := by
  obtain ⟨t, ms, -, hacc, hrender⟩ := generate_eq_ok_iff.1 h
  obtain ⟨others, f, file, hf, hfile, hfiles⟩ := exists_index hrender hindex
  obtain ⟨f', hread, content, hcontent, rfl⟩ := render_eq_ok hfile
  have hrereads := index_rereads hf hacc.unit_ne_underscore
  obtain rfl : f = f' := Except.ok.inj (hrereads.symm.trans hread)
  obtain ⟨code, hcode, rfl⟩ := layOut_eq_ok hcontent
  obtain ⟨code', hcode', htokens⟩ := exists_index_text hf hfeed
  obtain rfl : code = code' := Option.some.inj (hcode.symm.trans hcode')
  refine ⟨f, _, by rw [hfiles]; simp, hrereads, hcontent, ?_⟩
  have hbehind : behindFirstLine s.header = "" := behindFirstLine_eq_empty.2 (mem_header.not.2 hfeed)
  rw [tokens?_header, hbehind, tokens?_eq (by simp)]
  have hcodes : ("" ++ "\n\n" ++ code).toList = '\n' :: '\n' :: code.toList := by simp
  rw [hcodes, Lexer.readOn_space (by decide), Lexer.readOn_space (by decide), htokens]

end Contents

/-- Every file of an output is code that was read again, laid out below the header. The header is
one line unless the label has a line feed, and then what stands behind it is read in front of the
code. The text of an index is read as the code it was laid out from, unless the label has a carriage
return, which makes it unreadable. Documentation is read as one attribute and never as code, and
only a carriage return makes it unreadable. -/
theorem generate_contents {c : Catalog} {s : Settings} {o : Output} (h : generate c s = .ok o) :
    (∃ fs, c.emitted s = .ok fs ∧
      List.Forall₂ (fun emitted file => ∃ f code, file.LaidOut s emitted f code) fs o.files) ∧
    (behindFirstLine s.header = "" ↔ '\n' ∉ s.label.toList) ∧
    (s.hasIndex = true → '\n' ∉ s.label.toList → ∃ f content, ⟨"mod.rs", content⟩ ∈ o.files ∧
      File.ofTokens f.tokens = .ok f ∧ layOut f s = .ok content ∧
      tokens? content = if '\r' ∈ s.label.toList then none else some f.tokens) ∧
    ∀ inner line, ∃ words b,
      Tree.docs (.valueAttr inner (SimplePath.ofWord "doc") (textExpr line)) .usual =
        words.map .text ++ [b] ∧ (b = Layout.line ∨ b = Layout.space) ∧
      Rereads inner line (String.join words).toList := by
  obtain ⟨fs, hfs, hlays⟩ := emitted_of_generate h
  refine ⟨⟨fs, hfs, hlays.imp fun emitted file hfile => exists_laidOut hfile⟩, ?_,
    exists_index_contents h, documentation_rereads⟩
  rw [behindFirstLine_eq_empty, mem_header.not]

/-- A label that goes on below the first line. -/
def Settings.escaping : Settings := { label := "x\npub const EVIL: u8 = 1; //", hasIndex := false }

theorem tokens_escaping : tokens? (behindFirstLine Settings.escaping.header ++ "\n\n" ++ "") =
    some [.word "pub", .word "const", .word "EVIL", .punct ':' false, .word "u8", .punct '=' false,
      .literal "1", .punct ';' false] := by
  have hchars : (behindFirstLine Settings.escaping.header ++ "\n\n" ++ "").toList =
      '\n' :: ("pub".toList ++ ' ' :: ("const".toList ++ ' ' :: ("EVIL".toList ++ ':' :: ' ' ::
        ("u8".toList ++ ' ' :: '=' :: ' ' :: '1' :: ';' :: ' ' ::
          ("//. DO NOT EDIT.".toList ++ ['\n', '\n']))))) := by decide +kernel
  have hone : ∀ s, Lexer.leaf ('1' :: ';' :: ' ' :: s) = some (.literal "1", ';' :: ' ' :: s) := by
    intro s
    have hliteral : Lexer.literal ('1' :: ';' :: ' ' :: s) = some (';' :: ' ' :: s) := by rfl
    rw [Lexer.leaf, hliteral]
    simp
  have hblank : ∀ s, Lexer.startsPunct (' ' :: s) = false := fun s => by
    simp [Lexer.startsPunct, Lexer.isPunct]
  have hskip : Lexer.skipOnce ("//. DO NOT EDIT.".toList ++ ['\n', '\n']) = some ['\n', '\n'] := by
    decide +kernel
  have hmark : ∀ c, c = ':' ∨ c = '=' ∨ c = ';' → Lexer.Mark c := by
    rintro c (rfl | rfl | rfl) <;> exact ⟨by decide, by decide, by decide⟩
  rw [tokens?_eq (by rw [hchars]; decide), hchars, Lexer.readOn_space (by decide),
    Lexer.readOn_word (by decide +kernel) (endsWord_space _), Lexer.readOn_space (by decide),
    Lexer.readOn_word (by decide +kernel) (endsWord_space _), Lexer.readOn_space (by decide),
    Lexer.readOn_word (by decide +kernel) (by simp [Lexer.EndsWord]; decide),
    Lexer.readOn_mark (hmark _ (by simp)), hblank, Lexer.readOn_space (by decide),
    Lexer.readOn_word (by decide +kernel) (endsWord_space _), Lexer.readOn_space (by decide),
    Lexer.readOn_mark (hmark _ (by simp)), hblank, Lexer.readOn_space (by decide),
    Lexer.readOn_leaf (by decide) (by decide) (by decide) (by decide) (hone _),
    Lexer.readOn_mark (hmark _ (by simp)), hblank, Lexer.readOn_space (by decide),
    Lexer.readOn_skip hskip, Lexer.readOn_space (by decide), Lexer.readOn_space (by decide),
    Lexer.readOn_nil]
  rfl

/-- Its second line is a constant in front of no code at all. -/
theorem escaping_contents : ∃ o file emitted f code, generate ⟨[]⟩ .escaping = .ok o ∧
    o.files = [file] ∧ file.LaidOut .escaping emitted f code ∧ f = ⟨[], []⟩ ∧
    firstLine file.content ≠ Settings.escaping.header ∧
    tokens? file.content = some [.word "pub", .word "const", .word "EVIL", .punct ':' false,
      .word "u8", .punct '=' false, .literal "1", .punct ';' false] := by
  have hok : (generate ⟨[]⟩ .escaping).toOption.isSome = true := by decide +kernel
  obtain ⟨o, ho⟩ := Option.isSome_iff_exists.1 hok
  replace ho := eq_ok_of_toOption ho
  obtain ⟨⟨fs, hfs, hfiles⟩, -⟩ := generate_contents ho
  obtain ⟨p, hp, hfs⟩ := bind_eq_ok_iff.1 hfs
  obtain ⟨t, -, hfs⟩ := bind_eq_ok_iff.1 hfs
  obtain rfl : Plan.ofMethods [] = p := Except.ok.inj hp
  have hemitted : (Plan.ofMethods []).emitted t .escaping = .ok [(servicesUnit, ⟨[], []⟩)] := rfl
  obtain rfl := Except.ok.inj (hfs.symm.trans hemitted)
  obtain ⟨file, files, ⟨f, code, hfile⟩, hrest, hcons⟩ := List.forall₂_cons_left_iff.1 hfiles
  obtain rfl := List.forall₂_nil_left_iff.1 hrest
  have hread : File.ofTokens (File.mk [] []).tokens = .ok ⟨[], []⟩ := rfl
  obtain rfl := Except.ok.inj (hfile.read.symm.trans hread)
  obtain rfl : "" = code := Option.some.inj hfile.text
  have hfeed : '\n' ∈ Settings.escaping.label.toList := by decide +kernel
  refine ⟨o, file, _, _, "", ho, hcons, hfile, rfl, fun hfirst => hfile.firstLine.1 hfirst hfeed,
    hfile.tokens.trans tokens_escaping⟩

end Bindery
