import Bindery.Source.Build
import Bindery.Source.Spelling
import Mathlib

/-!
# Tokens of emitted trees

How the trees that emitted code consists of are written, one equation for each form.
-/
namespace Bindery.Source

/-! Lists and parts that may be missing -/

namespace Tree

variable {k : Kind}

@[simp] theorem tokens_nil : (nil : Tree (.many k)).tokens = [] := rfl

@[simp] theorem tokens_cons (x : Tree (.one k)) (rest : Tree (.many k)) :
    (cons x rest).tokens = x.tokens :: rest.tokens := rfl

@[simp] theorem tokens_absent : (absent : Tree (.maybe k)).tokens = none := rfl

@[simp] theorem tokens_present (x : Tree (.one k)) : (present x).tokens = some x.tokens := rfl

@[simp] theorem tokens_ofList (xs : List (Tree (.one k))) :
    (ofList xs).tokens = xs.map tokens := by
  induction xs with
  | nil => rfl
  | cons x rest ih => exact congrArg (x.tokens :: ·) ih

theorem ofList_toList : (t : Tree (.many k)) → ofList t.toList = t
  | .nil => rfl
  | .cons x rest => congrArg (cons x) (ofList_toList rest)

end Tree

/-! Literals -/

theorem toList_quote (text : String) :
    (quote text).toList = '"' :: (Text.literalBody text.toList ++ ['"']) := by
  simp [quote, Text.literal]

@[simp] theorem Literal.tokens_quote (text : String) :
    Literal.tokens (quote text) = [.literal (quote text)] := by
  have hne : ∀ other : String, other.toList.head? ≠ some '"' → quote text ≠ other := by
    rintro _ hhead rfl
    simp [toList_quote] at hhead
  have htruth : Literal.isTruth (quote text) = false := by
    simp [Literal.isTruth, hne "true" (by decide), hne "false" (by decide)]
  rw [Literal.tokens, htruth, toList_quote]
  rfl

/-! Types and paths -/

section Types

variable (t : Ty) (p : Path) (name : Ident)

@[simp] theorem Tree.tokens_inferredType : Tree.tokens .inferredType = [.word "_"] := rfl

@[simp] theorem Tree.tokens_neverType : Tree.tokens .neverType = punct '!' := rfl

@[simp] theorem Tree.tokens_parenType : Tree.tokens (.parenType t) = parenthesized t.tokens := rfl

@[simp] theorem Tree.tokens_pathType (p : Place) : Tree.tokens (.pathType p) = p.tokens := rfl

@[simp] theorem Tree.tokens_pointerType (mutable : Bool) :
    Tree.tokens (.pointerType mutable t) =
      punct '*' ++ [.word (if mutable then "mut" else "const")] ++ t.tokens := rfl

@[simp] theorem Tree.tokens_referenceType (l : Option Ident) (mutable : Bool) :
    Tree.tokens (.referenceType l mutable t) =
      punct '&' ++ lifetimeTokens l ++ flagWord mutable "mut" ++ t.tokens := rfl

@[simp] theorem Tree.tokens_sliceType : Tree.tokens (.sliceType t) = bracketed t.tokens := rfl

@[simp] theorem Tree.tokens_tupleType (elems : Tree (.many .type)) (trailing : Bool) :
    Tree.tokens (.tupleType elems trailing) = parenthesized (commas trailing elems.tokens) := rfl

@[simp] theorem Tree.tokens_someType (bounds : Tree (.many .bound)) (trailing : Bool) :
    Tree.tokens (.someType bounds trailing) = .word "impl" :: plusses trailing bounds.tokens := rfl

@[simp] theorem Tree.tokens_objectType (marked : Bool) (bounds : Tree (.many .bound))
    (trailing : Bool) : Tree.tokens (.objectType marked bounds trailing) =
      flagWord marked "dyn" ++ plusses trailing bounds.tokens := rfl

@[simp] theorem Tree.tokens_plainPlace : Tree.tokens (.plainPlace p) = p.tokens := rfl

@[simp] theorem Tree.tokens_path (rooted : Bool) (segments : Tree (.many .segment)) :
    Tree.tokens (.path rooted segments) = (if rooted then Token.operator "::" else []) ++
      separated (Token.operator "::") false segments.tokens := rfl

@[simp] theorem Tree.tokens_segment (args : Tree (.one .arguments)) :
    Tree.tokens (.segment name args) = .ident name :: args.tokens := rfl

@[simp] theorem Tree.tokens_noArgs : Tree.tokens .noArgs = [] := rfl

@[simp] theorem Tree.tokens_angleArgs (turbofish : Bool) (args : Tree (.many .genericArg))
    (trailing : Bool) : Tree.tokens (.angleArgs turbofish args trailing) =
      (if turbofish then Token.operator "::" else []) ++ punct '<' ++
        orderedArgs (lifetimesAmong args) trailing args.tokens ++ punct '>' := rfl

@[simp] theorem Tree.tokens_lifetimeArg :
    Tree.tokens (.lifetimeArg name) = Token.lifetime name := rfl

@[simp] theorem Tree.tokens_typeArg : Tree.tokens (.typeArg t) = t.tokens := rfl

@[simp] theorem Tree.tokens_traitBound :
    Tree.tokens (.traitBound false false .absent p) = p.tokens := rfl

end Types

theorem Token.operator_colons :
    Token.operator "::" = [.punct ':' true, .punct ':' false] := rfl

/-! Items -/

section Items

variable (attrs : Tree (.many .attr)) (front : Front) (name : Ident)

@[simp] theorem tokens_publicFront : publicFront.tokens = [.word "pub"] := rfl

@[simp] theorem Tree.tokens_moduleItem (guarded : Bool) (content : Tree (.maybe .members)) :
    Tree.tokens (.moduleItem attrs front guarded name content) =
      attrs.tokens.flatten ++ front.tokens ++ flagWord guarded "unsafe" ++
        [.word "mod", .ident name] ++ content.tokens.getD (punct ';') := rfl

end Items

end Bindery.Source
