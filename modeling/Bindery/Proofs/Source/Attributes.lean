import Bindery.Proofs.Source.Running
import Bindery.Proofs.Source.Spelled

/-!
# Attributes and visibilities are read again

A tree is written by its tokens, and the rule for its sort makes the same tree of them. Emitted code
has attributes of two forms only, so both are run through the rules here.
-/
namespace Bindery.Source

open Bindery.Source.Parser Bindery.Source.Grammar

/-! Attributes -/

variable (g : Rules)

section Words

variable {w : String} (h : Ident.isKeyword (plain w) = false)
include h

theorem ne_of_isKeyword {k : String} (hk : Ident.isKeyword (plain k) = true) : w ≠ k := by
  rintro rfl
  rw [h] at hk
  cases hk

theorem reads_simplePath (rest : List Token) (hrest : opAhead "::" rest = false) :
    Reads simplePath (.word w :: rest) (SimplePath.ofWord w) rest := by
  have hw : Ident.isKeyword ⟨w, false⟩ = false := h
  simp [Reads, simplePath, chain, chainFrom, Token.word, pathWordAhead, hw, hrest,
    SimplePath.ofWord, SimplePath.ofName]

theorem reads_textBody (inner : Bool) (text : String) :
    Reads (attributeBody g inner) (.word w :: punct '=' ++ [.literal (quote text)])
      (.valueAttr inner (SimplePath.ofWord w) (textExpr text)) [] := by
  have hpath := reads_simplePath h (punct '=' ++ [.literal (quote text)]) rfl
  simp [Reads, attributeBody, ne_of_isKeyword h (k := "unsafe") (by decide), hpath.run]
  simp [punct, groupStarts, attributeValue, literalAhead, opAhead, opAhead.go, dropOp, textExpr]

theorem reads_listBody (inner : Bool) (ts : List Token) :
    Reads (attributeBody g inner) [.word w, .group .paren ts]
      (.listAttr inner (SimplePath.ofWord w) .paren ts) [] := by
  have hpath := reads_simplePath h [.group .paren ts] (by simp)
  simp [Reads, attributeBody, ne_of_isKeyword h (k := "unsafe") (by decide), hpath.run,
    groupStarts]

end Words

/-- An attribute is read again from the content of its brackets. -/
def AttributeRereads (inner : Bool) (a : Attribute) : Prop :=
  ∃ body, a.tokens = hashed inner body ∧ Reads (attributeBody g inner) body a []

theorem valueAttr_rereads {w : String} (h : Ident.isKeyword (plain w) = false) (inner : Bool)
    (text : String) :
    AttributeRereads g inner (.valueAttr inner (SimplePath.ofWord w) (textExpr text)) := by
  refine ⟨_, ?_, reads_textBody g h inner text⟩
  change hashed inner (_ ++ punct '=' ++ Literal.tokens (quote text)) = _
  rw [Literal.tokens_quote]
  rfl

theorem listAttribute_rereads {w : String} (h : Ident.isKeyword (plain w) = false)
    (ts : List Token) : AttributeRereads g false (listAttribute w ts) :=
  ⟨_, rfl, reads_listBody g h false ts⟩

theorem docs_reread (lines : List String) : ∀ a ∈ docs lines, AttributeRereads g false a := by
  intro a ha
  obtain ⟨line, -, rfl⟩ := List.mem_map.1 ha
  exact valueAttr_rereads g (by decide) false line

variable {g} {attrs : List Attribute} {rest : List Token}

theorem reads_outerAttributes (h : ∀ a ∈ attrs, AttributeRereads g false a)
    (hrest : opAhead "#" rest = false) :
    Reads (outerAttributes g) (attrs.flatMap Tree.tokens ++ rest) (Tree.ofList attrs) rest := by
  refine (reads_many (fun _ => True) (fun a ha more _ => ?_) (fun _ _ _ => trivial) trivial ?_
    fun a ha => ?_).bind (reads_pure _ _)
  · obtain ⟨body, htokens, hbody⟩ := h a ha
    have hgroup := reads_delimited hbody .bracket more
    simp [Reads, htokens, hashed, punct, bracketed, opAhead, opAhead.go, dropOp, hgroup.run]
  · simp [Reads, hrest]
  · obtain ⟨body, htokens, -⟩ := h a ha
    simp [htokens, hashed, punct]

/-- No attribute comes next. -/
theorem reads_noOuter (h : opAhead "#" rest = false) : Reads (outerAttributes g) rest .nil rest :=
  reads_outerAttributes (fun _ h => absurd h List.not_mem_nil) h

/-- No attribute of what contains the tokens comes next. -/
def NoInner (ts : List Token) : Prop := (opAhead "#" ts && opAhead "!" (pastTree ts)) = false

theorem reads_innerAttributes (h : ∀ a ∈ attrs, AttributeRereads g true a) (hrest : NoInner rest) :
    Reads (innerAttributes g) (attrs.flatMap Tree.tokens ++ rest) (Tree.ofList attrs) rest := by
  refine (reads_many (fun _ => True) (fun a ha more _ => ?_) (fun _ _ _ => trivial) trivial ?_
    fun a ha => ?_).bind (reads_pure _ _)
  · obtain ⟨body, htokens, hbody⟩ := h a ha
    have hgroup := reads_delimited hbody .bracket more
    simp [Reads, htokens, hashed, punct, bracketed, opAhead, opAhead.go, dropOp, hgroup.run,
      pastTree]
  · refine (reads_ahead _ _).bind ((reads_second _ _).bind ?_)
    rw [show (opAhead "#" rest && opAhead "!" (pastTree rest)) = false from hrest]
    exact reads_pure _ _
  · obtain ⟨body, htokens, -⟩ := h a ha
    simp [htokens, hashed, punct]

theorem reads_noInner (h : NoInner rest) : Reads (innerAttributes g) rest .nil rest :=
  reads_innerAttributes (fun _ h => absurd h List.not_mem_nil) h

/-! Visibilities -/

theorem reads_everywhere (h : groupAhead .paren rest = false) :
    Reads visibility (.word "pub" :: rest) .everywhere rest := by
  have hpub : wordAhead "pub" (.word "pub" :: rest) = true := rfl
  intro left
  simp only [visibility, run_bind, run_word?, hpub, List.tail_cons]
  simp
  split
  · simp at h
  · rfl

theorem reads_inherited (h : wordAhead "pub" rest = false) :
    Reads visibility rest .inherited rest := by
  simp [Reads, visibility, h]

end Bindery.Source
