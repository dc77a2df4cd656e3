import Bindery.Proofs.Files.Trees

/-!
# Making directories

Making directories adds some on the way of the path and changes nothing else, even if it fails. It
does nothing if the path leads to a directory already.
-/
namespace Bindery.Files.Tree

variable {t t' : Tree}

/-- A place on the way that a path takes. -/
def OnWay (t : Tree) (path : String) (q : Place) : Prop :=
  ∃ names, names <+: steps path ∧ t.follow (t.start path) names = .ok q

/-- Nothing has changed but that there are more directories on the way of a path. -/
structure Extended (path : String) (t t' : Tree) : Prop where
  grown : Grown t t'
  nodes : ∀ q, t'.get? q = t.get? q ∨
    t.get? q = none ∧ t'.get? q = some .directory ∧ t'.OnWay path q

theorem OnWay.grown {path : String} {q : Place} (h : t.OnWay path q) (hg : Grown t t') :
    t'.OnWay path q := by
  obtain ⟨names, hprefix, hq⟩ := h
  refine ⟨names, hprefix, ?_⟩
  rw [start_grown hg]
  exact follow_grown hg hq

theorem OnWay.below {path above : String} {q : Place} (h : t.OnWay above q)
    (habove : parent? path = some above) : t.OnWay path q := by
  obtain ⟨names, hprefix, hq⟩ := h
  obtain ⟨hsteps, hstart⟩ := parent?_eq_some habove
  refine ⟨names, ?_, ?_⟩
  · rw [hsteps] at hprefix
    exact hprefix.trans ( List.dropLast_prefix _)
  · rwa [start, ← hstart]

namespace Extended

variable {path : String}

theorem refl (path : String) (t : Tree) : Extended path t t := ⟨.refl t, fun _ => .inl rfl⟩

theorem trans {t'' : Tree} (h : Extended path t t') (h' : Extended path t' t'') :
    Extended path t t'' := by
  refine ⟨h.grown.trans h'.grown, fun q => ?_⟩
  rcases h.nodes q with hq | ⟨hnone, hdir, hway⟩
  · rw [← hq]
    exact h'.nodes q
  · refine .inr ⟨hnone, h'.grown.directories q hdir, hway.grown h'.grown⟩

theorem below {above : String} (h : Extended above t t') (habove : parent? path = some above) :
    Extended path t t' :=
  ⟨h.grown, fun q => (h.nodes q).imp_right fun ⟨hnone, hdir, hway⟩ =>
    ⟨hnone, hdir, hway.below habove⟩⟩

end Extended

theorem makeDirectory_eq_ok_iff {path : String} : t.makeDirectory path = .ok t' ↔
    ∃ p n slash, t.resolve path = .ok (p, .name n slash) ∧ t.get? (n :: p) = none ∧
      t' = t.put (n :: p) .directory := by
  unfold makeDirectory
  rw [bind_eq_ok_iff]
  constructor
  · rintro ⟨⟨p, target⟩, hr, h⟩
    split at h
    · exact absurd h throw_ne_ok
    · rename_i q n slash heq
      cases heq
      split at h
      · exact absurd h throw_ne_ok
      · rename_i hnode
        exact ⟨p, n, slash, hr, hnode, (pure_eq_ok_iff.1 h).symm⟩
  · rintro ⟨p, n, slash, hr, hnode, rfl⟩
    refine ⟨_, hr, ?_⟩
    dsimp only
    rw [hnode]
    rfl

theorem extended_of_makeDirectory {path : String} (h : t.makeDirectory path = .ok t') :
    Extended path t t' := by
  obtain ⟨p, n, slash, hr, hnode, rfl⟩ := makeDirectory_eq_ok_iff.1 h
  obtain ⟨hplain, hsize, front, hsteps, hfront⟩ := exists_of_resolve_name hr
  have hgrown : Grown t (t.put (n :: p) .directory) := .put (by simp [hnode]) _
  refine ⟨hgrown, fun q => ?_⟩
  by_cases hq : q = n :: p
  · subst hq
    refine .inr ⟨hnode, get?_put_self .., steps path, List.prefix_rfl, ?_⟩
    rw [hsteps, follow_append, start_grown hgrown, bind_eq_ok_iff]
    refine ⟨p, follow_grown hgrown hfront, ?_⟩
    rw [follow_singleton, descend_eq_ok_iff]
    exact .inr (.inr ⟨hplain.step, hplain.down, hsize, get?_put_self .., rfl⟩)
  · exact .inl (get?_put_ne hq t _)

/-- Whether or not all directories could be made. -/
theorem makeDirectoriesFrom_extended (n : Nat) (t : Tree) (path : String) :
    Extended path t (t.makeDirectoriesFrom n path).1 := by
  induction n generalizing t path with
  | zero => exact .refl path t
  | succ n ih =>
    unfold makeDirectoriesFrom
    split
    · exact .refl path t
    · split
      · rename_i hmake
        exact extended_of_makeDirectory hmake
      · split
        · exact .refl path t
        · rename_i above habove
          have habove := (ih t above).below habove
          split
          · rename_i hfrom
            rwa [hfrom] at habove
          · rename_i made hfrom
            rw [hfrom] at habove
            split
            · rename_i hmake
              exact habove.trans (extended_of_makeDirectory hmake)
            · exact habove
      · exact .refl path t

theorem makeDirectories_extended (t : Tree) (path : String) :
    Extended path t (t.makeDirectories path).1 := makeDirectoriesFrom_extended _ t path

/-- A directory that is there is not made again. -/
theorem makeDirectories_of_walk {path : String} (hallowed : Allowed path) {p : Place}
    (h : t.walk path = .ok p) : t.makeDirectories path = (t, .ok ()) := by
  unfold makeDirectories makeDirectoriesFrom
  by_cases hne : path = ""
  · rw [if_pos (by simpa using hne)]
  · obtain ⟨q, target, hr, hnode⟩ := exists_resolve_of_walk hallowed hne h
    have hmake : t.makeDirectory path = .error .alreadyExists := by
      rw [makeDirectory, hr]
      cases target with
      | dots => rfl
      | name n slash =>
        simp only [bind, Except.bind, hnode n slash rfl]
        rfl
    have hdir : t.isDirectory path = true := by
      rw [isDirectory, hr]
      cases target with
      | dots => rfl
      | name n slash => exact beq_iff_eq.2 (hnode n slash rfl)
    rw [if_neg (by simpa using hne), hmake]
    dsimp only
    rw [hdir]
    rfl

end Bindery.Files.Tree
