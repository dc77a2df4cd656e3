import Bindery.Proofs.Source.Documented

/-!
# Tokens without documentation

Attributes that document something vanish, wherever they stand in a sequence of tokens. So code is
the same without documentation if it differs in that alone.
-/
namespace Bindery.Source

/-- Tokens that are the same without documentation, and stay so in front of such tokens. -/
def SameBare (ts us : List Token) : Prop := ∀ rest more,
  Token.bareAll rest = Token.bareAll more → Token.bareAll (ts ++ rest) = Token.bareAll (us ++ more)

namespace SameBare

variable {ts us : List Token}

theorem nil : SameBare [] [] := fun _ _ h => h

theorem bareAll_eq (h : SameBare ts us) : Token.bareAll ts = Token.bareAll us := by
  simpa using h [] [] rfl

theorem append {ts' us' : List Token} (h : SameBare ts us) (h' : SameBare ts' us') :
    SameBare (ts ++ ts') (us ++ us') := by
  intro rest more hrest
  rw [List.append_assoc, List.append_assoc]
  exact h _ _ (h' rest more hrest)

theorem cons (t : Token) (h : SameBare ts us) : SameBare (t :: ts) (t :: us) := by
  intro rest more hrest
  simp only [List.cons_append, Token.bareAll]
  rw [h rest more hrest]

theorem refl (ts : List Token) : SameBare ts ts := by
  induction ts with
  | nil => exact nil
  | cons t ts ih => exact ih.cons t

theorem group (h : SameBare ts us) (d : Delimiter) : SameBare [.group d ts] [.group d us] := by
  intro rest more hrest
  simp only [List.cons_append, List.nil_append, Token.bareAll, Token.bare, hrest, h.bareAll_eq]

theorem flatMap {α : Type} {f : α → List Token} {xs ys : List α}
    (h : List.Forall₂ (fun x y => SameBare (f x) (f y)) xs ys) :
    SameBare (xs.flatMap f) (ys.flatMap f) := by
  induction h with
  | nil => exact nil
  | cons hfirst _ ih =>
    rw [List.flatMap_cons, List.flatMap_cons]
    exact hfirst.append ih

/-- Elements with a comma behind each. -/
theorem commas {parts others : List (List Token)} (h : List.Forall₂ SameBare parts others) :
    SameBare (commas true parts) (commas true others) := by
  induction h with
  | nil => exact nil
  | cons hfirst _ ih =>
    rw [commas_cons (.inr rfl), commas_cons (.inr rfl)]
    exact hfirst.append (ih.cons _)

end SameBare

/-- What stands in the brackets of documentation. -/
def docBody (line : String) : List Token := .word "doc" :: punct '=' ++ [.literal (quote line)]

theorem tokens_textAttribute (inner : Bool) (line : String) :
    Tree.tokens (.valueAttr inner (SimplePath.ofWord "doc") (textExpr line)) =
      hashed inner (docBody line) := by
  change hashed inner (_ ++ punct '=' ++ Literal.tokens (quote line)) = _
  rw [Literal.tokens_quote]
  rfl

/-- Documentation vanishes. -/
theorem bareAll_doc (inner : Bool) (line : String) (rest : List Token) :
    Token.bareAll (hashed inner (docBody line) ++ rest) = Token.bareAll rest := by
  cases inner <;> rfl

theorem bareAll_docs (lines : List String) (rest : List Token) :
    Token.bareAll ((docs lines).flatMap Tree.tokens ++ rest) = Token.bareAll rest := by
  induction lines with
  | nil => rfl
  | cons line lines ih =>
    rw [docs, List.map_cons, List.flatMap_cons, List.append_assoc, textAttribute,
      tokens_textAttribute, bareAll_doc]
    exact ih

theorem sameBare_docs (lines lines' : List String) :
    SameBare ((docs lines).flatMap Tree.tokens) ((docs lines').flatMap Tree.tokens) := by
  intro rest more hrest
  rw [bareAll_docs, bareAll_docs, hrest]

end Bindery.Source
