import Bindery.Proofs.Documentation.Catalogs
import Bindery.Proofs.Emitted
import Bindery.Proofs.Index
import Bindery.Proofs.Source.Bare

/-!
# Code in two runs

Emitted items that differ in documentation. Their types end by themselves, since the runtime and the
types of the catalog were read, and no service or call is named by a reserved word.
-/
namespace Bindery.Emission

open Source Source.Grammar Naming

theorem servicePath_eq (name : Ident) : servicePath name = .path false (.ofList
    [segmentOf (plain "super"), segmentOf (plain "services"), segmentOf name]) := rfl

theorem isPlain_servicePath {name : Ident} (h : Ident.isKeyword name = false) :
    (servicePath name).isPlain = true := by
  have hname : Tree.isPlain (segmentOf name) = true := by
    change (isPlaceWord name || name == ⟨"Self", false⟩ || !Ident.isKeyword name) = true
    simp [h]
  have hsegments : (Tree.ofList
      [segmentOf (plain "super"), segmentOf (plain "services"), segmentOf name]).isPlain = true :=
    Tree.isPlain_ofList.2 (by
      simp only [List.forall_mem_cons, List.not_mem_nil, false_imp_iff, implies_true, and_true]
      exact ⟨rfl, rfl, hname⟩)
  rw [servicePath_eq]
  change ((Tree.ofList
    [segmentOf (plain "super"), segmentOf (plain "services"), segmentOf name]).isPlain && true) = true
  rw [hsegments]
  rfl

theorem size_servicePath (name : Ident) :
    Token.sizeAll (pathType (servicePath name)).tokens = 7 := by
  have htokens : (pathType (servicePath name)).tokens = .word "super" :: (Token.operator "::" ++
      .word "services" :: (Token.operator "::" ++ [.ident name])) := by
    rw [servicePath_eq]
    rfl
  rw [htokens]
  rfl

theorem enclosed_service {name : Ident} (h : Ident.isKeyword name = false) :
    Enclosed (pathType (servicePath name)) :=
  enclosed_plain (isPlain_servicePath h) (by rw [size_servicePath]; decide)

theorem enclosed_owner {name : Ident} (h : Ident.isKeyword name = false) (lifetime : Ident) :
    Enclosed (.referenceType (some lifetime) false (pathType (servicePath name))) := by
  have htokens : Tree.tokens (.referenceType (some lifetime) false (pathType (servicePath name))) =
      .punct '&' false :: .punct '\'' true :: .ident lifetime ::
        (pathType (servicePath name)).tokens := rfl
  have hsize := size_servicePath name
  refine enclosed_plain (isPlain_servicePath h) ?_
  rw [htokens]
  simp only [Token.sizeAll, Token.size, hsize]
  decide

/-- The runtime of usable settings is a path that was read. -/
theorem hasPairedSegments_runtime {s : Settings} {t : Target} (h : Target.of s = .ok t) :
    HasPairedSegments t.runtime := by
  unfold Target.of at h
  split at h
  · rename_i path hpath
    cases h
    obtain ⟨p, hp, hpath⟩ := bind_eq_ok_iff.1 hpath
    obtain ⟨-, hpath⟩ := check_eq_ok_iff.1 hpath
    obtain ⟨-, hpath⟩ := check_eq_ok_iff.1 hpath
    cases pure_eq_ok_iff.1 hpath
    unfold Settings.runtimePath at hp
    split at hp
    · rename_i path hread
      cases hp
      exact Path.hasPairedSegments_of_read hread
    · cases hp
  · cases h

theorem isPaired_targetType {t : Target} (h : HasPairedSegments t.runtime) (w : String) :
    (t.type w).IsPaired := by
  obtain ⟨rooted, segments, hruntime, hsegments⟩ := h
  have hwithin : within t.runtime [w] =
      .path rooted (.ofList (segments ++ [segmentOf (plain w)])) := by
    rw [hruntime]
    change Tree.path rooted (.ofList ((Tree.ofList segments).toList ++ _)) = _
    rw [Tree.toList_ofList]
    rfl
  change (within t.runtime [w]).IsPaired
  rw [hwithin]
  refine Tree.isPaired_path fun x hx => ?_
  rcases List.mem_append.1 hx with hx | hx
  · exact hsegments x hx
  · cases List.mem_singleton.1 hx
    exact Tree.isPaired_noArgs.segment

theorem isPaired_of_readType {endpoint text : String} {t : Ty} (h : readType endpoint text = .ok t) :
    t.IsPaired := by
  unfold readType at h
  split at h
  · rename_i t' hread
    cases h
    exact Ty.isPaired_of_read hread
  · cases h

/-! Code in two runs -/

/-- Items that differ in documentation: the rule reads both in step, and without it they are the
same. -/
structure SameCode (rule : Rules → Parser Item) (R : Item → Item → Prop) (i i' : Item) : Prop where
  inStep : ∀ n, 15 ≤ n →
    Parser.InStep (fun _ => True) R (rule (rules (n + 1))) i.tokens i'.tokens
  bare : SameBare i.tokens i'.tokens
  left : ∀ rest, NoInner (i.tokens ++ rest)
  right : ∀ rest, NoInner (i'.tokens ++ rest)

section Lists

variable {rule : Rules → Parser Item} {R : Item → Item → Prop} {is is' : List Item}
  (h : List.Forall₂ (SameCode rule R) is is')
include h

theorem SameCode.noInner_left : NoInner (is.flatMap Tree.tokens) := by
  cases h with
  | nil => rfl
  | cons hfirst _ => exact hfirst.left _

theorem SameCode.noInner_right : NoInner (is'.flatMap Tree.tokens) := by
  cases h with
  | nil => rfl
  | cons hfirst _ => exact hfirst.right _

theorem SameCode.inStep_map {n : Nat} (hn : 15 ≤ n) :
    List.Forall₂ (Parser.InStep (fun _ => True) R (rule (rules (n + 1)))) (is.map Tree.tokens)
      (is'.map Tree.tokens) := by
  rw [List.forall₂_map_left_iff, List.forall₂_map_right_iff]
  exact h.imp fun _ _ hi => hi.inStep n hn

theorem SameCode.bare_flatMap : SameBare (is.flatMap Tree.tokens) (is'.flatMap Tree.tokens) :=
  .flatMap (h.imp fun _ _ hi => hi.bare)

end Lists

/-- Attributes in front of something else are outer ones. -/
theorem noInner_docs (lines : List String) {ts : List Token} (h : NoInner ts) :
    NoInner ((docs lines).flatMap Tree.tokens ++ ts) := by
  cases lines with
  | nil => exact h
  | cons line lines => rfl

/-! Functions -/

/-- Functions that differ in documentation. -/
theorem sameCode_publicFn (lines lines' : List String) (async : Bool) (name : Ident)
    (inputs : List (Tree (.one .param))) {output : Ty} (h : Enclosed output) (stmts : List Stmt) :
    SameCode implMember SameFn (publicFn (docs lines) { async } name inputs output stmts)
      (publicFn (docs lines') { async } name inputs output stmts) where
  inStep n hn := inStep_fn (g := rules n) async name inputs (h n hn) stmts lines lines'
  bare := by
    rw [tokens_publicFn, tokens_publicFn]
    exact (sameBare_docs lines lines').append (.refl _)
  left rest := by
    rw [tokens_publicFn, List.append_assoc]
    exact noInner_docs lines rfl
  right rest := by
    rw [tokens_publicFn, List.append_assoc]
    exact noInner_docs lines' rfl

end Bindery.Emission
