import Bindery.Layout.Code
import Bindery.Proofs.Source.Documented

/-!
# Documentation leaves no gaps

Whether code can be laid out does not depend on its documentation.
-/
namespace Bindery.Source

open Bindery.Layout

section Gaps

variable {d : Doc} {xs ys : List Doc}

theorem gapAmong_cons : gapAmong (d :: xs) = (d.hasGap || gapAmong xs) := by rw [gapAmong]

theorem gapAmong_append : gapAmong (xs ++ ys) = (gapAmong xs || gapAmong ys) := by
  induction xs with
  | nil => rfl
  | cons d rest ih => rw [List.cons_append, gapAmong_cons, gapAmong_cons, ih, Bool.or_assoc]

theorem gapAmong_dedent : gapAmong (dedent xs) = gapAmong xs := by
  fun_induction dedent xs with
  | case1 => rfl
  | case2 => rfl
  | case3 d rest _ ih => rw [gapAmong_cons, gapAmong_cons, ih]

/-- A body with a gap is a gap of its item. -/
theorem gapAmong_bodied (head content : List Doc) :
    gapAmong (bodied head content) = (gapAmong head || gapAmong content) := by
  have hline : gapAmong (bodyDocs content) = gapAmong content := by
    rw [bodyDocs, gapAmong_dedent]
    rfl
  have hbox : gapAmong (bodied head content) =
      (gapAmong (head ++ [word "\x7b"] ++ bodyDocs content) || false) := rfl
  rw [hbox, gapAmong_append, gapAmong_append, hline]
  simp [gapAmong, Doc.hasGap, word]

theorem gapAmong_comment {onLine inBlock : String} {refusedOnLine refusedInBlock text : List Char}
    (h : commentDocs onLine inBlock refusedOnLine refusedInBlock text = some xs) :
    gapAmong xs = false := by
  unfold commentDocs at h
  split at h
  · cases h
    rfl
  · split at h
    · cases h
      rfl
    · cases h

theorem commentOf?_doc (inner : Bool) (line : String) :
    commentOf? inner (SimplePath.ofWord "doc") (textExpr line) =
      ((Lexer.text (quote line).toList).map (·.1)).bind fun text =>
        if inner then commentDocs "//!" "/*!" [] [] text
        else commentDocs "///" "/**" ['/'] ['*', '/'] text := by
  have hdoc : (SimplePath.ofWord "doc").isWord "doc" = true := rfl
  cases h : (Lexer.text (quote line).toList).map (·.1) <;> simp [commentOf?, textExpr, h, hdoc]

/-- Documentation, be it a comment or not, leaves no gap. -/
theorem gapAmong_doc (inner : Bool) (line : String) : gapAmong (Tree.docs
    (.valueAttr inner (SimplePath.ofWord "doc") (textExpr line)) .usual) = false := by
  change gapAmong ((commentOf? inner (SimplePath.ofWord "doc") (textExpr line)).getD
    (hashDocs inner [word "doc", word " = ", word (quote line)])) = false
  cases hcomment : commentOf? inner (SimplePath.ofWord "doc") (textExpr line) with
  | none => cases inner <;> rfl
  | some xs =>
    rw [commentOf?_doc] at hcomment
    obtain ⟨text, -, htext⟩ := Option.bind_eq_some_iff.1 hcomment
    cases inner
    · exact gapAmong_comment htext
    · exact gapAmong_comment htext

theorem gapAmong_docs (lines : List String) :
    gapAmong ((Tree.ofList (docs lines)).docs .usual).flatten = false := by
  induction lines with
  | nil => rfl
  | cons line lines ih =>
    change gapAmong (Tree.docs (textAttribute "doc" line) .usual ++
      ((Tree.ofList (docs lines)).docs .usual).flatten) = false
    rw [gapAmong_append, ih, textAttribute, gapAmong_doc]
    rfl

end Gaps

/-! Parts with other documentation -/

theorem SameField.gapAmong_eq {f f' : Tree (.one .field)} (h : SameField f f') :
    gapAmong (f.docs .usual) = gapAmong (f'.docs .usual) := by
  obtain ⟨lines, lines', vis, name, t⟩ := h
  have hdocs : ∀ lines, (fieldNamed (docs lines) vis name t).docs .usual =
      ((Tree.ofList (docs lines)).docs .usual).flatten ++ visDocs vis ++ nameDocs (some name) ++
        t.docs .usual := fun _ => rfl
  simp only [hdocs, gapAmong_append, gapAmong_docs]

theorem docs_fnItem (lines : List String) (front : Front) (sig : Tree (.one .signature))
    (body : Tree (.maybe .block)) (role : Role) :
    (Tree.fnItem (.ofList (docs lines)) front sig body).docs role =
      ((Tree.ofList (docs lines)).docs .usual).flatten ++ match body.docs .tall with
        | some content => bodied (frontDocs front ++ sig.docs .tall) content
        | none => [cbox step (frontDocs front ++ sig.docs .usual), line] := rfl

theorem SameFn.gapAmong_eq {i i' : Item} (h : SameFn i i') (role : Role) :
    gapAmong (i.docs role) = gapAmong (i'.docs role) := by
  obtain ⟨lines, lines', front, sig, body⟩ := h
  simp only [docs_fnItem, gapAmong_append, gapAmong_docs]

/-- Lists of parts that have gaps in the same places. -/
theorem gapAmong_flatMap_eq {α : Type} {f : α → List Doc} {xs ys : List α}
    (h : List.Forall₂ (fun x y => gapAmong (f x) = gapAmong (f y)) xs ys) :
    gapAmong (xs.flatMap f) = gapAmong (ys.flatMap f) := by
  induction h with
  | nil => rfl
  | cons hfirst _ ih =>
    rw [List.flatMap_cons, List.flatMap_cons, gapAmong_append, gapAmong_append, hfirst, ih]

theorem docs_ofList {k : Kind} (xs : List (Tree (.one k))) (role : Role) :
    (Tree.ofList xs).docs role = xs.map (·.docs role) := by
  induction xs with
  | nil => rfl
  | cons x rest ih => exact congrArg (x.docs role :: ·) ih

theorem SameItem.gapAmong_eq {i i' : Item} (h : SameItem i i') :
    gapAmong (i.docs .usual) = gapAmong (i'.docs .usual) := by
  cases h with
  | refl => rfl
  | @structItem fields fields' h attrs front name ps trailing rs =>
    have hdocs : ∀ fields, (Tree.structItem attrs front name ps
        (.namedFields (.ofList fields) trailing) rs).docs .usual =
        (attrs.docs .usual).flatten ++ bodied (frontDocs front ++
          [word "struct ", word name.text] ++ (ps.docs .usual).getD [] ++
          rulesAt .beforeBody (rs.docs (.rules .beforeBody)))
          (((Tree.ofList fields).docs .usual).flatMap (· ++ [word ",", line])) := fun _ => rfl
    have hfields : ∀ fields : List (Tree (.one .field)),
        ((Tree.ofList fields).docs .usual).flatMap (· ++ [word ",", line]) =
          fields.flatMap fun f => f.docs .usual ++ [word ",", line] := fun fields => by
      rw [docs_ofList, List.flatMap_map]
    rw [hdocs, hdocs, gapAmong_append, gapAmong_append, gapAmong_bodied, gapAmong_bodied, hfields,
      hfields]
    rw [gapAmong_flatMap_eq (h.imp fun f f' hf => by
      rw [gapAmong_append, gapAmong_append, hf.gapAmong_eq])]
  | @implItem fns fns' h attrs t =>
    have hdocs : ∀ fns, (Tree.implItem attrs {} false .absent false .absent t .absent
        (.members .nil (.ofList fns))).docs .usual =
        (attrs.docs .usual).flatten ++ bodied ([ibox (-step) ([cbox step [word "impl"], nbsp] ++
          t.docs .usual)] ++ rulesAt .beforeBody none)
          ((Tree.ofList fns).docs .tall).flatten := fun _ => rfl
    have hfns : ∀ fns : List Item, ((Tree.ofList fns).docs .tall).flatten =
        fns.flatMap (·.docs .tall) := fun fns => by
      rw [docs_ofList, List.flatMap_def]
    rw [hdocs, hdocs, gapAmong_append, gapAmong_append, gapAmong_bodied, gapAmong_bodied, hfns,
      hfns, gapAmong_flatMap_eq (h.imp fun i i' hi => hi.gapAmong_eq .tall)]

/-! Files -/

/-- Files of which both can be laid out, or none. -/
def SameLayout (f f' : File) : Prop := f.text?.isSome = f'.text?.isSome

theorem text?_isSome (f : File) : f.text?.isSome =
    !(gapAmong (f.attrs.flatMap (·.docs .usual)) || gapAmong (f.items.flatMap (·.docs .usual))) := by
  have hbox : f.text? = render? [cbox 0 (f.attrs.flatMap (·.docs .usual) ++
    f.items.flatMap (·.docs .usual))] := rfl
  have hgap : gapAmong [cbox 0 (f.attrs.flatMap (·.docs .usual) ++
      f.items.flatMap (·.docs .usual))] =
      (gapAmong (f.attrs.flatMap (·.docs .usual) ++ f.items.flatMap (·.docs .usual)) || false) := rfl
  rw [hbox, render?, hgap, Bool.or_false, gapAmong_append]
  generalize (gapAmong _ || gapAmong _) = gap
  cases gap <;> rfl

theorem sameLayout_of_items (attrs : List Attribute) {items items' : List Item}
    (h : List.Forall₂ SameItem items items') : SameLayout ⟨attrs, items⟩ ⟨attrs, items'⟩ := by
  rw [SameLayout, text?_isSome, text?_isSome]
  dsimp only
  rw [gapAmong_flatMap_eq (h.imp fun _ _ hi => hi.gapAmong_eq)]

/-- Documentation of the file. -/
theorem sameLayout_of_doc (line line' : String) (items : List Item) :
    SameLayout ⟨[.valueAttr true (SimplePath.ofWord "doc") (textExpr line)], items⟩
      ⟨[.valueAttr true (SimplePath.ofWord "doc") (textExpr line')], items⟩ := by
  rw [SameLayout, text?_isSome, text?_isSome]
  simp only [List.flatMap_cons, List.flatMap_nil, List.append_nil, gapAmong_doc]

end Bindery.Source
