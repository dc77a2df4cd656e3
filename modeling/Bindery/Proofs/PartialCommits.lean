import Bindery.Proofs.Committing

/-!
# Commits that fail

A commit that fails while files are written beside their targets leaves all targets as they are. If
a file cannot be moved, those before it stay moved: only it and the files behind it are left as they
are. Whatever is still beside its target is removed.
-/
namespace Bindery

open Files Tree

theorem remove_eq_ok_iff {t t' : Tree} {path : String} : t.remove path = .ok t' ↔
    ∃ p n text, t.resolve path = .ok (p, .name n false) ∧
      t.get? (n :: p) = some (.file text) ∧ t' = t.erase (n :: p) := by
  unfold Tree.remove
  rw [bind_eq_ok_iff]
  constructor
  · rintro ⟨⟨p, target⟩, hr, h⟩
    split at h
    · exact absurd h throw_ne_ok
    · rename_i q n slash heq
      cases heq
      split at h
      · exact absurd h throw_ne_ok
      · exact absurd h throw_ne_ok
      · rename_i text hnode
        split at h
        · exact absurd h throw_ne_ok
        · rename_i hslash
          obtain rfl := Bool.eq_false_iff.2 hslash
          exact ⟨p, n, text, hr, hnode, (pure_eq_ok_iff.1 h).symm⟩
  · rintro ⟨p, n, text, hr, hnode, rfl⟩
    refine ⟨_, hr, ?_⟩
    dsimp only
    rw [hnode]
    rfl

theorem remove_apply_of_ok {t t' : Tree} {path : String} (h : t.remove path = .ok t') :
    (Disk.remove path : StateM Tree _) t = (.ok (), t') := by
  change change _ t = _
  rw [change, h]

theorem WellNamed.sublist {files part : List OutputFile} (h : WellNamed files)
    (hpart : part.Sublist files) : WellNamed part :=
  ⟨fun f hf => h.plain f (hpart.subset hf), h.distinct.sublist (hpart.map _),
    fun f hf g hg => h.apart f (hpart.subset hf) g (hpart.subset hg)⟩

namespace Commit

variable {dir : String} {files : List OutputFile} {t t' : Tree} {p : Files.Place}

theorem temp_staged (dir : String) (f : OutputFile) :
    (staged dir f).temp = tempPath (join dir f.name) := by
  simp only [staged]

theorem target_staged (dir : String) (f : OutputFile) :
    (staged dir f).target = join dir f.name := by
  simp only [staged]

/-! Removing what is beside the targets -/

/-- The tree without the file beside a target. -/
def cleared (p : Files.Place) (t : Tree) (f : OutputFile) : Tree := t.erase (tempName f.name :: p)

theorem get?_cleared_ne {f : OutputFile} {q : Files.Place} (h : q ≠ tempName f.name :: p) :
    (cleared p t f).get? q = t.get? q := get?_erase_ne h t

theorem cleared_grown {f : OutputFile} (h : IsBeside dir p t f) : Grown t (cleared p t f) := by
  refine ⟨rfl, fun q hq => ?_⟩
  rwa [get?_cleared_ne]
  rintro rfl
  rw [h.node] at hq
  cases hq

theorem remove_temp {f : OutputFile} (hname : IsPlain f.name) (hp : t.walk dir = .ok p)
    (h : IsBeside dir p t f) : t.remove (staged dir f).temp = .ok (cleared p t f) :=
  remove_eq_ok_iff.2
    ⟨p, _, _, (resolve_temp_eq_ok_iff hname).2 ⟨h.temp, p, hp, rfl⟩, h.node, rfl⟩

/-- What was written beside the targets can be removed. -/
theorem removeTemps_staged (hw : WellNamed files) (hp : t.walk dir = .ok p)
    (h : ∀ f ∈ files, IsBeside dir p t f) :
    (removeTemps (files.map (staged dir)) : StateM Tree _) t =
      ([], files.foldl (cleared p) t) := by
  induction files generalizing t with
  | nil => rfl
  | cons f rest ih =>
    obtain ⟨hf, hrest⟩ := List.forall_mem_cons.1 h
    have hbeside : ∀ g ∈ rest, IsBeside dir p (cleared p t f) g := fun g hg =>
      ⟨(hrest g hg).temp, (get?_cleared_ne fun e =>
        hw.head_ne hg (tempName_inj.1 (List.cons.inj e).1)).trans (hrest g hg).node⟩
    rw [List.map_cons, removeTemps, bind_apply,
      remove_apply_of_ok (remove_temp (hw.plain f (by simp)) hp hf)]
    dsimp only
    rw [bind_apply, pure_apply, bind_apply, ih hw.tail (walk_grown (cleared_grown hf) hp) hbeside]
    rfl

theorem foldl_cleared_of_not_mem {q : Files.Place} (h : ∀ f ∈ files, q ≠ tempName f.name :: p) :
    (files.foldl (cleared p) t).get? q = t.get? q := by
  induction files generalizing t with
  | nil => rfl
  | cons f rest ih =>
    rw [List.foldl_cons, ih fun g hg => h g (by simp [hg])]
    exact get?_cleared_ne (h f (by simp))

theorem here_foldl_cleared : (files.foldl (cleared p) t).here = t.here := by
  induction files generalizing t with
  | nil => rfl
  | cons f rest ih => exact ih

theorem foldl_cleared_grown (h : ∀ f ∈ files, IsBeside dir p t f) :
    Grown t (files.foldl (cleared p) t) := by
  refine ⟨here_foldl_cleared, fun q hq => ?_⟩
  rwa [foldl_cleared_of_not_mem]
  rintro f hf rfl
  rw [(h f hf).node] at hq
  cases hq

theorem foldl_cleared_of_none {q : Files.Place} (h : t.get? q = none) :
    (files.foldl (cleared p) t).get? q = none := by
  induction files generalizing t with
  | nil => exact h
  | cons f rest ih =>
    rw [List.foldl_cons]
    refine ih ?_
    by_cases hq : q = tempName f.name :: p
    · rw [hq]
      exact get?_erase_self ..
    · rwa [get?_cleared_ne hq]

/-- What was beside the targets is gone. -/
theorem foldl_cleared_of_mem {f : OutputFile} (hf : f ∈ files) :
    (files.foldl (cleared p) t).get? (tempName f.name :: p) = none := by
  induction files generalizing t with
  | nil => cases hf
  | cons g rest ih =>
    rw [List.foldl_cons]
    rcases List.mem_cons.1 hf with rfl | hf
    · exact foldl_cleared_of_none (get?_erase_self ..)
    · exact ih hf

/-! Writing that fails -/

/-- The files that are written beside their targets until there is one that cannot be. -/
inductive Landed (dir : String) : Tree → List OutputFile → List OutputFile → Prop
  | nil {t : Tree} : Landed dir t [] []
  | next {t t' : Tree} {f : OutputFile} {rest done : List OutputFile}
    (hwrite : t.write (staged dir f).temp (some f.content) = .ok t')
    (hrest : Landed dir t' rest done) : Landed dir t (f :: rest) (f :: done)
  | stop {t : Tree} {f : OutputFile} {rest : List OutputFile} {fault : Fault}
    (hwrite : t.write (staged dir f).temp (some f.content) = .error fault) :
    Landed dir t (f :: rest) []

/-- What was written before a file that cannot be written is removed. -/
theorem stage_failed {done : List Staged} {why : Failure} {events : List Event}
    (hw : WellNamed files) (hp : t.walk dir = .ok p)
    (h : (stage dir done files : StateM Tree _) t = ((.error why, events), t')) :
    ∃ front f back fault, files = front ++ f :: back ∧ Landed dir t files front ∧
      why = .write (tempPath (join dir f.name)) fault ∧ (∀ g ∈ front, FitsBeside dir p t g) ∧
      (removeTemps (done ++ front.map (staged dir)) : StateM Tree _) (front.foldl (beside p) t) =
        (events, t') := by
  induction files generalizing done t with
  | nil => cases h
  | cons f rest ih =>
    rw [stage_cons] at h
    cases hwrite : t.write (staged dir f).temp (some f.content) with
    | ok t1 =>
      rw [hwrite] at h
      obtain ⟨q, hq, hfits, rfl⟩ := (write_temp_eq_ok_iff (hw.plain f (by simp))).1 hwrite
      obtain rfl : q = p := Except.ok.inj (hq.symm.trans hp)
      have hgrown : Grown t (beside q t f) := .put hfits.free _
      obtain ⟨front, g, back, fault, rfl, hlanded, rfl, hfront, hremove⟩ :=
        ih hw.tail (walk_grown hgrown hp) h
      refine ⟨f :: front, g, back, fault, rfl, .next hwrite hlanded, rfl,
        List.forall_mem_cons.2 ⟨hfits, ?_⟩, ?_⟩
      · exact fun k hk => (fitsBeside_beside (hw.head_ne (by simp [hk]))).1 (hfront k hk)
      · rwa [List.map_cons, List.foldl_cons, List.append_cons]
    | error fault =>
      rw [hwrite, temp_staged] at h
      cases h
      exact ⟨[], f, rest, fault, rfl, .stop hwrite, rfl, by simp, by simp⟩

/-- Nothing but what is beside the targets can have changed, and what was written there is gone. -/
theorem get?_of_stage_failed {why : Failure} {events : List Event} (hw : WellNamed files)
    (hp : t.walk dir = .ok p)
    (h : (stage dir [] files : StateM Tree _) t = ((.error why, events), t')) :
    Grown t t' ∧ (∀ q, (∀ f ∈ files, q ≠ tempName f.name :: p) → t'.get? q = t.get? q) ∧
      ∃ done, Landed dir t files done ∧ ∀ f ∈ done,
        Fits (staged dir f).temp (tempName f.name) ∧ t'.get? (tempName f.name :: p) = none := by
  obtain ⟨front, f, back, fault, rfl, hlanded, -, hfront, hremove⟩ := stage_failed hw hp h
  have hfrontNamed : WellNamed front := hw.sublist (List.sublist_append_left ..)
  have hgrown := foldl_beside_grown hfront
  have hbeside : ∀ g ∈ front, IsBeside dir p (front.foldl (beside p) t) g := fun g hg =>
    ⟨(hfront g hg).temp, foldl_beside_of_mem hfrontNamed.own hg⟩
  rw [List.nil_append, removeTemps_staged hfrontNamed (walk_grown hgrown hp) hbeside] at hremove
  obtain rfl : front.foldl (cleared p) (front.foldl (beside p) t) = t' :=
    congrArg Prod.snd hremove
  refine ⟨hgrown.trans (foldl_cleared_grown hbeside), fun q hq => ?_, front, hlanded,
    fun g hg => ⟨(hfront g hg).temp, foldl_cleared_of_mem hg⟩⟩
  have hfront : ∀ g ∈ front, q ≠ tempName g.name :: p := fun g hg => hq g (by simp [hg])
  rw [foldl_cleared_of_not_mem hfront, foldl_beside_of_not_mem hfront]

/-- A file that cannot be written is the first one if the directory cannot be reached. -/
theorem stage_unreached {why : Failure} {events : List Event} (hw : WellNamed files)
    (hp : ∀ p, t.walk dir ≠ .ok p)
    (h : (stage dir [] files : StateM Tree _) t = ((.error why, events), t')) :
    t' = t ∧ Landed dir t files [] ∧
      ∃ f ∈ files, ∃ fault, why = .write (tempPath (join dir f.name)) fault := by
  cases files with
  | nil => cases h
  | cons f rest =>
    rw [stage_cons] at h
    cases hwrite : t.write (staged dir f).temp (some f.content) with
    | ok t1 =>
      obtain ⟨p, hwalk, -⟩ := (write_temp_eq_ok_iff (hw.plain f (by simp))).1 hwrite
      exact absurd hwalk (hp p)
    | error fault =>
      rw [hwrite, temp_staged] at h
      cases h
      exact ⟨rfl, .stop hwrite, f, by simp, fault, rfl⟩

/-! Moves that fail -/

/-- Files before one that cannot be moved stay moved, and the others are removed. -/
theorem move_failed {why : Failure} {events : List Event} (hw : WellNamed files)
    (hp : t.walk dir = .ok p) (hbeside : ∀ f ∈ files, IsBeside dir p t f)
    (h : (move (files.map (staged dir)) : StateM Tree _) t = ((.error why, events), t')) :
    ∃ front f back fault, files = front ++ f :: back ∧ why = .write (join dir f.name) fault ∧
      (∀ g ∈ front, FitsOver dir p t g) ∧
      t' = (f :: back).foldl (cleared p) (front.foldl (moved p) t) := by
  induction files generalizing t events with
  | nil => cases h
  | cons f rest ih =>
    obtain ⟨hf, hrest⟩ := List.forall_mem_cons.1 hbeside
    rw [List.map_cons, move_cons] at h
    cases hrename : t.rename (staged dir f).temp (staged dir f).target with
    | ok t1 =>
      rw [hrename] at h
      obtain ⟨hfits, rfl⟩ := (rename_temp_eq_ok_iff (hw.plain f (by simp)) hp hf).1 hrename
      have hmoved : ∀ g ∈ rest, IsBeside dir p (moved p t f) g := fun g hg =>
        ⟨(hrest g hg).temp, (get?_moved_temp hw hg).trans (hrest g hg).node⟩
      have hwalk := walk_grown (moved_grown hf hfits) hp
      cases hmove : (move (rest.map (staged dir)) : StateM Tree _) (moved p t f) with
      | mk result t2 =>
        obtain ⟨result, events'⟩ := result
        dsimp only at h
        rw [hmove] at h
        cases h
        obtain ⟨front, g, back, fault, rfl, rfl, hfront, rfl⟩ := ih hw.tail hwalk hmoved hmove
        refine ⟨f :: front, g, back, fault, rfl, rfl, List.forall_mem_cons.2 ⟨hfits, ?_⟩, rfl⟩
        exact fun k hk => (fitsOver_moved hw (by simp [hk])).1 (hfront k hk)
    | error fault =>
      rw [hrename, ← List.map_cons, removeTemps_staged hw hp hbeside, target_staged] at h
      cases h
      exact ⟨[], f, rest, fault, rfl, rfl, by simp, rfl⟩

/-- Moving some files leaves those behind them beside their targets. -/
theorem isBeside_foldl_moved {front back : List OutputFile} (hw : WellNamed (front ++ back))
    (h : ∀ f ∈ front ++ back, IsBeside dir p t f) :
    ∀ g ∈ back, IsBeside dir p (front.foldl (moved p) t) g := by
  intro g hg
  have hmem : g ∈ front ++ back := List.mem_append_right front hg
  refine ⟨(h g hmem).temp, ?_⟩
  rw [foldl_moved_of_not_mem, (h g hmem).node]
  refine fun k hk => ⟨fun e => ?_, fun e => ?_⟩
  · exact hw.apart k (List.mem_append_left back hk) g hmem (List.cons.inj e).1.symm
  · have hdistinct := hw.distinct
    rw [List.map_append] at hdistinct
    exact List.disjoint_of_nodup_append hdistinct (List.mem_map_of_mem hk)
      (tempName_inj.1 (List.cons.inj e).1 ▸ List.mem_map_of_mem hg)

theorem foldl_moved_grown (h : ∀ f ∈ files, FitsOver dir p t f ∧ IsBeside dir p t f) :
    Grown t (files.foldl (moved p) t) := by
  refine ⟨here_foldl_moved, fun q hq => ?_⟩
  rwa [foldl_moved_of_not_mem]
  refine fun f hf => ⟨fun e => (h f hf).1.free (e ▸ hq), ?_⟩
  rintro rfl
  rw [(h f hf).2.node] at hq
  cases hq

end Commit

/-! Whole outputs -/

/-- How a commit into a directory of a tree ends, and the tree that it leaves. -/
def commitTo (dir : String) (o : Output) (t : Tree) : Except Failure Unit × Tree :=
  let r := (commit dir o : StateM Tree _) t
  (r.1.1, r.2)

/-- What is at a target in the directory of a path, and below it, is as it was, but that directories
were made on the way of the path. -/
def Kept (dir : String) (t t' : Tree) (name : String) : Prop :=
  ∀ p q, t'.walk dir = .ok p → (name :: p) <:+ q → t'.get? q = t.get? q ∨
    t.get? q = none ∧ t'.get? q = some .directory ∧ t'.OnWay dir q

section

open Commit

variable {dir : String} {o : Output} {t t' : Tree} {p : Files.Place}

theorem ne_of_suffix {name other : String} {q : Files.Place} (h : (name :: p) <:+ q)
    (hne : name ≠ other) : q ≠ other :: p := by
  rintro rfl
  exact hne (List.cons.inj (h.eq_of_length rfl)).1

/-- A target is kept by what leaves it alone after the directories were made. -/
theorem kept_of_extended {t1 : Tree} {name : String} (h : Extended dir t t1) (hgrown : Grown t1 t')
    (hsame : ∀ p q, t'.walk dir = .ok p → (name :: p) <:+ q → t'.get? q = t1.get? q) :
    Kept dir t t' name := by
  intro p q hp hq
  rw [hsame p q hp hq]
  exact (h.nodes q).imp_right fun ⟨hnone, hdir, hway⟩ => ⟨hnone, hdir, hway.grown hgrown⟩

/-- All targets are kept if a file cannot be written beside its own. -/
theorem kept_of_stage_failed {t1 : Tree} {why : Failure} {events : List Event}
    (hw : WellNamed o.files) (hextended : Extended dir t t1)
    (h : (stage dir [] o.files : StateM Tree _) t1 = ((.error why, events), t')) :
    (∃ f ∈ o.files, ∃ fault, why = .write (tempPath (join dir f.name)) fault) ∧
      ∀ f ∈ o.files, Kept dir t t' f.name := by
  by_cases hreached : ∃ p, t1.walk dir = .ok p
  · obtain ⟨p, hp⟩ := hreached
    obtain ⟨front, g, back, fault, hfiles, -, hwhy, -⟩ := stage_failed hw hp h
    obtain ⟨hgrown, hsame, -⟩ := get?_of_stage_failed hw hp h
    refine ⟨⟨g, by simp [hfiles], fault, hwhy⟩, fun f hf => ?_⟩
    refine kept_of_extended hextended hgrown fun p' q hp' hq => hsame q fun k hk => ?_
    obtain rfl := Except.ok.inj ((walk_grown hgrown hp).symm.trans hp')
    exact ne_of_suffix hq (hw.apart f hf k hk)
  · obtain ⟨rfl, -, g, hg, fault, hwhy⟩ := stage_unreached hw (not_exists.1 hreached) h
    refine ⟨⟨g, hg, fault, hwhy⟩, fun f hf => ?_⟩
    exact kept_of_extended hextended (.refl t') fun _ _ _ _ => rfl

theorem read_target {f : OutputFile} (hname : IsPlain f.name)
    (hfits : Fits (join dir f.name) f.name) (hp : t.walk dir = .ok p)
    (h : t.get? (f.name :: p) = some (.file (some f.content))) :
    t.read (join dir f.name) = .ok f.content :=
  read_eq_ok_iff.2 ⟨p, f.name, (resolve_join_eq_ok_iff hname).2 ⟨hfits, p, hp, rfl⟩, h⟩

/-- The targets before one that cannot be taken hold their files, and the others are kept. -/
theorem kept_of_move_failed {t1 : Tree} {why : Failure} {events : List Event}
    (hw : WellNamed o.files) (hextended : Extended dir t t1) (hp : t1.walk dir = .ok p)
    (hfits : ∀ f ∈ o.files, FitsBeside dir p t1 f)
    (h : (move (o.files.map (staged dir)) : StateM Tree _) (o.files.foldl (beside p) t1) =
      ((.error why, events), t')) :
    ∃ done f back fault, o.files = done ++ f :: back ∧ why = .write (join dir f.name) fault ∧
      (∀ g ∈ done, t'.read (join dir g.name) = .ok g.content) ∧
      ∀ g ∈ f :: back, Kept dir t t' g.name := by
  have hwritten := foldl_beside_grown hfits
  have hbeside : ∀ f ∈ o.files, IsBeside dir p (o.files.foldl (beside p) t1) f := fun f hf =>
    ⟨(hfits f hf).temp, foldl_beside_of_mem hw.own hf⟩
  obtain ⟨done, f, back, fault, hfiles, rfl, hover, rfl⟩ :=
    move_failed hw (walk_grown hwritten hp) hbeside h
  have hdone : ∀ g ∈ done, g ∈ o.files := fun g hg => by simp [hfiles, hg]
  have hrest : ∀ g ∈ f :: back, g ∈ o.files := fun g hg => by
    rw [hfiles]
    exact List.mem_append_right done hg
  have happart : ∀ g ∈ f :: back, ∀ k ∈ done, g.name ≠ k.name := fun g hg k hk e => by
    have hdistinct := hw.distinct
    rw [hfiles, List.map_append] at hdistinct
    exact List.disjoint_of_nodup_append hdistinct (List.mem_map_of_mem hk)
      (e ▸ List.mem_map_of_mem hg)
  have hmoved := foldl_moved_grown fun g hg => ⟨hover g hg, hbeside g (hdone g hg)⟩
  have hleft : ∀ g ∈ f :: back,
      IsBeside dir p (done.foldl (moved p) (o.files.foldl (beside p) t1)) g :=
    isBeside_foldl_moved (hfiles ▸ hw) (hfiles ▸ hbeside)
  have hgrown := hwritten.trans (hmoved.trans (foldl_cleared_grown hleft))
  have hwalk := walk_grown hgrown hp
  refine ⟨done, f, back, fault, hfiles, rfl, fun g hg => ?_, fun g hg => ?_⟩
  · have hdoneNamed : WellNamed done :=
      hw.sublist (hfiles ▸ List.sublist_append_left done (f :: back))
    refine read_target (hw.plain g (hdone g hg)) (hover g hg).target hwalk ?_
    rw [foldl_cleared_of_not_mem, (foldl_moved_of_mem hdoneNamed hg).1]
    exact fun k hk e => hw.apart g (hdone g hg) k (hrest k hk) (List.cons.inj e).1
  · refine kept_of_extended hextended hgrown fun p' q hp' hq => ?_
    obtain rfl := Except.ok.inj (hwalk.symm.trans hp')
    have htemp : ∀ k ∈ o.files, q ≠ tempName k.name :: p := fun k hk =>
      ne_of_suffix hq (hw.apart g (hrest g hg) k hk)
    rw [foldl_cleared_of_not_mem fun k hk => htemp k (hrest k hk), foldl_moved_of_not_mem,
      foldl_beside_of_not_mem htemp]
    exact fun k hk => ⟨ne_of_suffix hq (happart g hg k hk), htemp k (hdone k hk)⟩

/-- A commit that ends well leaves the content of each file at its target. -/
theorem read_of_committed (hw : WellNamed o.files) (h : (commitTo dir o t).1 = .ok ()) :
    ∀ f ∈ o.files, (commitTo dir o t).2.read (join dir f.name) = .ok f.content := by
  intro f hf
  have hne : o.files ≠ [] := List.ne_nil_of_mem hf
  have hrun : (commit dir o : StateM Tree _) t = ((.ok (), ((commit dir o : StateM Tree _) t).1.2),
      (commitTo dir o t).2) := Prod.ext (Prod.ext h rfl) rfl
  obtain ⟨t1, p, -, hp, hfits, htree⟩ := (commit_eq_ok_iff hw hne).1 ⟨_, hrun⟩
  have hplaced : Placed p o t1 (committed p o t1) := placed_committed hw
  rw [htree]
  exact read_target (hw.plain f hf) (hfits.upon f hf).target
    (walk_grown (hplaced.grown hfits) hp) (hplaced.targets f hf)

/-- A commit that ends well puts all files at their targets. One that fails has put those before the
first that could not be moved, and keeps the other targets: all of them if the directory or a file
beside its target could not be made. -/
theorem commit_outcome (hw : WellNamed o.files) (dir : String) (t : Tree) :
    ((commitTo dir o t).1 = .ok () →
      ∀ f ∈ o.files, (commitTo dir o t).2.read (join dir f.name) = .ok f.content) ∧
    ∀ why, (commitTo dir o t).1 = .error why → ∃ done rest, o.files = done ++ rest ∧
      (∀ f ∈ done, (commitTo dir o t).2.read (join dir f.name) = .ok f.content) ∧
      (∀ f ∈ rest, Kept dir t (commitTo dir o t).2 f.name) ∧
      ((∃ fault, why = .write dir fault) ∧ done = [] ∨
        (∃ f ∈ o.files, ∃ fault, why = .write (tempPath (join dir f.name)) fault) ∧ done = [] ∨
        ∃ f back fault, rest = f :: back ∧ why = .write (join dir f.name) fault) := by
  refine ⟨read_of_committed hw, fun why h => ?_⟩
  have hextended := makeDirectories_extended t dir
  unfold commitTo at h ⊢
  rw [commit_apply] at h ⊢
  cases hmake : t.makeDirectories dir with | mk t1 result
  rw [hmake] at h hextended
  cases result with
  | error fault =>
    cases h
    refine ⟨[], o.files, rfl, by simp, fun f hf => ?_, .inl ⟨⟨fault, rfl⟩, rfl⟩⟩
    exact kept_of_extended hextended (.refl t1) fun _ _ _ _ => rfl
  | ok u =>
    dsimp only at h ⊢
    cases hstage : (stage dir [] o.files : StateM Tree _) t1 with | mk staging t2
    obtain ⟨staging, events⟩ := staging
    rw [hstage] at h
    cases staging with
    | error why' =>
      cases h
      obtain ⟨hwhy, hkept⟩ := kept_of_stage_failed hw hextended hstage
      exact ⟨[], o.files, rfl, by simp, hkept, .inr (.inl ⟨hwhy, rfl⟩)⟩
    | ok ss =>
      have hne : o.files ≠ [] := by
        intro hnil
        rw [hnil] at hstage
        cases hstage
        cases h
      obtain ⟨p, hp⟩ := exists_walk_of_stage hw.own hne hstage
      obtain ⟨hbeside, rfl, -, rfl⟩ := (stage_eq_ok_iff hw.own hp).1 hstage
      dsimp only at h ⊢
      cases hmove : (move ([] ++ o.files.map (staged dir)) : StateM Tree _)
        (o.files.foldl (beside p) t1) with | mk moving t3
      obtain ⟨moving, events'⟩ := moving
      rw [hmove] at h
      cases h
      obtain ⟨done, f, back, fault, hfiles, hwhy, hdone, hkept⟩ :=
        kept_of_move_failed hw hextended hp hbeside hmove
      exact ⟨done, f :: back, hfiles, hdone, hkept, .inr (.inr ⟨f, back, fault, rfl, hwhy⟩)⟩

end

/-- A tree with a directory in the place of a target. -/
def blockedTree : Tree :=
  ⟨[(["work"], .directory), (["out", "work"], .directory), (["b.rs", "out", "work"], .directory)],
    ["work"]⟩

def blockedOutput : Output := ⟨[⟨"a.rs", "A"⟩, ⟨"b.rs", "B"⟩]⟩

theorem wellNamed_blocked : WellNamed blockedOutput.files := by
  have hown : PlainNamed blockedOutput.files := .of_names (by decide) (by decide +kernel)
  exact ⟨hown.plain, hown.distinct, by decide +kernel⟩

/-- The first target is taken although the second cannot be. -/
theorem blocked_halfway : WellNamed blockedOutput.files ∧
    (commitTo "out" blockedOutput blockedTree).1.toOption = none ∧
    (blockedTree.read "out/a.rs").toOption = none ∧
    ((commitTo "out" blockedOutput blockedTree).2.read "out/a.rs").toOption = some "A" :=
  ⟨wellNamed_blocked, by decide +kernel, by decide +kernel, by decide +kernel⟩

theorem blocked_split : ∃ done rest, blockedOutput.files = done ++ rest ∧
    (∀ f ∈ done, (commitTo "out" blockedOutput blockedTree).2.read (join "out" f.name) =
      .ok f.content) ∧
    ∀ f ∈ rest, Kept "out" blockedTree (commitTo "out" blockedOutput blockedTree).2 f.name := by
  have hfails : (commitTo "out" blockedOutput blockedTree).1.toOption = none := by decide +kernel
  cases hresult : (commitTo "out" blockedOutput blockedTree).1 with
  | ok u =>
    rw [hresult] at hfails
    cases hfails
  | error why =>
    obtain ⟨done, rest, hfiles, hdone, hkept, -⟩ :=
      (commit_outcome wellNamed_blocked "out" blockedTree).2 why hresult
    exact ⟨done, rest, hfiles, hdone, hkept⟩

end Bindery
