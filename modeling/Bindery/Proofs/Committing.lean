import Bindery.Commit
import Bindery.Proofs.Files.Directories

/-!
# Committing to directories

Files that are different and stay apart on their way are put into a directory one by one. All of
them get there exactly if each of them can, and nothing is changed but what they take the place of.
-/
namespace Bindery

open Files Tree

/-! Names on the way -/

/-- The name under which a file is written beside its target. -/
def tempName (name : String) : String := name ++ ".tmp"

/-- A file is on its way in the directory of its target. -/
theorem exists_tempPath_join {name : String} (hname : IsPlain name) (dir : String) :
    ∃ above, tempPath (join dir name) = join above (tempName name) ∧ SameWay above dir := by
  obtain ⟨front, hpieces, -, -⟩ := exists_pieces_join hname dir
  rw [tempPath, fileName?_eq hpieces hname]
  exact exists_withFileName_join hname dir _

theorem length_tempName (name : String) : (tempName name).length = name.length + 4 := by
  simp [tempName, show ".tmp".length = 4 from rfl]

theorem isPlain_tempName {name : String} (h : IsPlain name) : IsPlain (tempName name) := by
  have hlong : ∀ other : String, other.length < 4 → tempName name ≠ other := by
    rintro _ hshort rfl
    rw [length_tempName] at hshort
    omega
  refine ⟨isStep_iff.2 ⟨hlong "" (by decide), hlong "." (by decide)⟩, hlong ".." (by decide), ?_⟩
  simpa [tempName] using h.whole

theorem tempName_ne (name : String) : tempName name ≠ name := by
  intro h
  have hlength := congrArg String.length h
  rw [length_tempName] at hlength
  omega

theorem tempName_inj {name other : String} : tempName name = tempName other ↔ name = other :=
  String.append_left_inj ".tmp"

/-- Files with names of their own. -/
structure PlainNamed (files : List OutputFile) : Prop where
  plain : ∀ f ∈ files, IsPlain f.name
  distinct : (files.map (·.name)).Nodup

theorem PlainNamed.of_names {files : List OutputFile} (hdistinct : (files.map (·.name)).Nodup)
    (h : ∀ name ∈ files.map (·.name), isStep name = true ∧ name ≠ ".." ∧ '/' ∉ name.toList) :
    PlainNamed files := by
  refine ⟨fun f hf => ?_, hdistinct⟩
  obtain ⟨hstep, hdown, hwhole⟩ := h f.name (List.mem_map_of_mem hf)
  exact ⟨hstep, hdown, hwhole⟩

theorem PlainNamed.tail {f : OutputFile} {rest : List OutputFile} (h : PlainNamed (f :: rest)) :
    PlainNamed rest :=
  ⟨fun g hg => h.plain g (by simp [hg]), (List.nodup_cons.1 h.distinct).2⟩

theorem PlainNamed.head_ne {f g : OutputFile} {rest : List OutputFile}
    (h : PlainNamed (f :: rest)) (hg : g ∈ rest) : g.name ≠ f.name := by
  intro e
  exact (List.nodup_cons.1 h.distinct).1 (List.mem_map.2 ⟨g, hg, e⟩)

/-- Files that can be put into one directory together: none takes the place of another, not even
while it is on its way. -/
structure WellNamed (files : List OutputFile) : Prop where
  plain : ∀ f ∈ files, IsPlain f.name
  distinct : (files.map (·.name)).Nodup
  apart : ∀ f ∈ files, ∀ g ∈ files, f.name ≠ tempName g.name

theorem WellNamed.tail {f : OutputFile} {rest : List OutputFile} (h : WellNamed (f :: rest)) :
    WellNamed rest :=
  ⟨fun g hg => h.plain g (by simp [hg]), (List.nodup_cons.1 h.distinct).2,
    fun g hg k hk => h.apart g (by simp [hg]) k (by simp [hk])⟩

theorem WellNamed.own {files : List OutputFile} (h : WellNamed files) : PlainNamed files :=
  ⟨h.plain, h.distinct⟩

theorem WellNamed.head_ne {f g : OutputFile} {rest : List OutputFile} (h : WellNamed (f :: rest))
    (hg : g ∈ rest) : g.name ≠ f.name := h.own.head_ne hg

/-! One operation after the other -/

theorem bind_apply {σ α β : Type} (x : StateM σ α) (f : α → StateM σ β) (s : σ) :
    (x >>= f) s = f (x s).1 (x s).2 := rfl

theorem pure_apply {σ α : Type} (a : α) (s : σ) : (pure a : StateM σ α) s = (a, s) := rfl

section Disk

variable {t t' : Tree} {why : Fault} {path target text : String}

theorem write_apply_of_ok (h : t.write path (some text) = .ok t') :
    (Disk.write path text : StateM Tree _) t = (.ok (), t') := by
  change change _ t = _
  rw [change, h]

theorem write_apply_of_error (h : t.write path (some text) = .error why) :
    (Disk.write path text : StateM Tree _) t = (.error why, t) := by
  change change _ t = _
  rw [change, h]

theorem rename_apply_of_ok (h : t.rename path target = .ok t') :
    (Disk.rename path target : StateM Tree _) t = (.ok (), t') := by
  change change _ t = _
  rw [change, h]

theorem rename_apply_of_error (h : t.rename path target = .error why) :
    (Disk.rename path target : StateM Tree _) t = (.error why, t) := by
  change change _ t = _
  rw [change, h]

end Disk

namespace Commit

variable {dir : String} {done : List Staged} {files : List OutputFile} {t t' : Tree}
  {p : Files.Place}

/-! Writing beside the targets -/

/-- Where a file is written, and where it belongs. -/
def staged (dir : String) (f : OutputFile) : Staged :=
  ⟨tempPath (join dir f.name), join dir f.name⟩

theorem stage_cons (f : OutputFile) (rest : List OutputFile) :
    (stage dir done (f :: rest) : StateM Tree _) t =
      match t.write (staged dir f).temp (some f.content) with
      | .ok t' => (stage dir (done ++ [staged dir f]) rest : StateM Tree _) t'
      | .error why => ((.error (.write (staged dir f).temp why),
          ((removeTemps done : StateM Tree _) t).1), ((removeTemps done : StateM Tree _) t).2) := by
  rw [stage, bind_apply]
  unfold staged
  cases h : t.write (tempPath (join dir f.name)) (some f.content) with
  | ok t' => rw [write_apply_of_ok h]
  | error why =>
    rw [write_apply_of_error h]
    dsimp only
    rw [bind_apply, pure_apply]

theorem stage_error {why : Failure}
    (h : ((stage dir done files : StateM Tree _) t).1.1 = .error why) :
    ∃ path fault, why = .write path fault := by
  induction files generalizing done t with
  | nil => cases h
  | cons f rest ih =>
    rw [stage_cons] at h
    split at h
    · exact ih h
    · cases h
      exact ⟨_, _, rfl⟩

/-- A file can be written beside its target. -/
structure FitsBeside (dir : String) (p : Files.Place) (t : Tree) (f : OutputFile) : Prop where
  temp : Fits (staged dir f).temp (tempName f.name)
  free : t.get? (tempName f.name :: p) ≠ some .directory

/-- The tree with a file beside its target. -/
def beside (p : Files.Place) (t : Tree) (f : OutputFile) : Tree :=
  t.put (tempName f.name :: p) (.file (some f.content))

theorem resolve_temp_eq_ok_iff {f : OutputFile} (hname : IsPlain f.name)
    {r : Files.Place × Target} : t.resolve (staged dir f).temp = .ok r ↔
      Fits (staged dir f).temp (tempName f.name) ∧
        ∃ p, t.walk dir = .ok p ∧ r = (p, .name (tempName f.name) false) := by
  obtain ⟨above, habove, hway⟩ := exists_tempPath_join hname dir
  rw [staged, habove, resolve_join_eq_ok_iff (isPlain_tempName hname), walk_eq_of_sameWay hway]

theorem write_temp_eq_ok_iff {f : OutputFile} (hname : IsPlain f.name) :
    t.write (staged dir f).temp (some f.content) = .ok t' ↔
      ∃ p, t.walk dir = .ok p ∧ FitsBeside dir p t f ∧ t' = beside p t f := by
  rw [write_eq_ok_iff]
  constructor
  · rintro ⟨q, n, hr, hfree, rfl⟩
    obtain ⟨hfits, p, hp, heq⟩ := (resolve_temp_eq_ok_iff hname).1 hr
    cases heq
    exact ⟨q, hp, ⟨hfits, hfree⟩, rfl⟩
  · rintro ⟨p, hp, ⟨hfits, hfree⟩, rfl⟩
    exact ⟨p, _, (resolve_temp_eq_ok_iff hname).2 ⟨hfits, p, hp, rfl⟩, hfree, rfl⟩

theorem fitsBeside_beside {f g : OutputFile} (h : g.name ≠ f.name) :
    FitsBeside dir p (beside p t f) g ↔ FitsBeside dir p t g := by
  have hne : tempName g.name :: p ≠ tempName f.name :: p := fun e =>
    h (tempName_inj.1 (List.cons.inj e).1)
  have hsame : (beside p t f).get? (tempName g.name :: p) = t.get? (tempName g.name :: p) :=
    get?_put_ne hne t _
  exact ⟨fun ⟨htemp, hfree⟩ => ⟨htemp, hsame ▸ hfree⟩,
    fun ⟨htemp, hfree⟩ => ⟨htemp, hsame.symm ▸ hfree⟩⟩

theorem stage_eq_ok_iff (hw : PlainNamed files) (hp : t.walk dir = .ok p) {ss : List Staged}
    {events : List Event} :
    (stage dir done files : StateM Tree _) t = ((.ok ss, events), t') ↔
      (∀ f ∈ files, FitsBeside dir p t f) ∧ ss = done ++ files.map (staged dir) ∧ events = [] ∧
        t' = files.foldl (beside p) t := by
  induction files generalizing done t with
  | nil =>
    rw [stage, pure_apply]
    constructor
    · intro h
      cases h
      simp
    · rintro ⟨-, rfl, rfl, rfl⟩
      simp
  | cons f rest ih =>
    have hname := hw.plain f (by simp)
    rw [stage_cons, List.forall_mem_cons, List.map_cons, List.foldl_cons]
    cases hwrite : t.write (staged dir f).temp (some f.content) with
    | ok t1 =>
      obtain ⟨q, hq, hfits, rfl⟩ := (write_temp_eq_ok_iff hname).1 hwrite
      obtain rfl : q = p := Except.ok.inj (hq.symm.trans hp)
      have hgrown : Grown t (beside q t f) := .put hfits.free _
      have hrest : (∀ g ∈ rest, FitsBeside dir q (beside q t f) g) ↔
          ∀ g ∈ rest, FitsBeside dir q t g :=
        forall₂_congr fun g hg => fitsBeside_beside (hw.head_ne hg)
      dsimp only
      rw [ih hw.tail (walk_grown hgrown hp), hrest, and_iff_right hfits, List.append_assoc,
        List.singleton_append]
    | error why =>
      refine ⟨fun h => ?_, fun ⟨⟨hfits, _⟩, _⟩ => ?_⟩
      · cases h
      · have hok := (write_temp_eq_ok_iff hname).2 ⟨p, hp, hfits, rfl⟩
        rw [hwrite] at hok
        cases hok

/-- A directory that files have been written in can be reached. -/
theorem exists_walk_of_stage {ss : List Staged} {events : List Event} (hw : PlainNamed files)
    (hne : files ≠ [])
    (h : (stage dir done files : StateM Tree _) t = ((.ok ss, events), t')) :
    ∃ p, t.walk dir = .ok p := by
  obtain ⟨f, rest, rfl⟩ := List.exists_cons_of_ne_nil hne
  rw [stage_cons] at h
  split at h
  · rename_i hwrite
    obtain ⟨p, hp, -⟩ := (write_temp_eq_ok_iff (hw.plain f (by simp))).1 hwrite
    exact ⟨p, hp⟩
  · cases h

theorem foldl_beside_of_not_mem {q : Files.Place} (h : ∀ f ∈ files, q ≠ tempName f.name :: p) :
    (files.foldl (beside p) t).get? q = t.get? q := by
  induction files generalizing t with
  | nil => rfl
  | cons f rest ih =>
    rw [List.foldl_cons, ih fun g hg => h g (by simp [hg])]
    exact get?_put_ne (h f (by simp)) t _

theorem foldl_beside_of_mem (hw : PlainNamed files) {f : OutputFile} (hf : f ∈ files) :
    (files.foldl (beside p) t).get? (tempName f.name :: p) = some (.file (some f.content)) := by
  induction files generalizing t with
  | nil => cases hf
  | cons g rest ih =>
    rw [List.foldl_cons]
    rcases List.mem_cons.1 hf with rfl | hf
    · rw [foldl_beside_of_not_mem]
      · exact get?_put_self ..
      · intro g hg e
        exact hw.head_ne hg (tempName_inj.1 (List.cons.inj e).1).symm
    · exact ih hw.tail hf

theorem here_foldl_beside : (files.foldl (beside p) t).here = t.here := by
  induction files generalizing t with
  | nil => rfl
  | cons f rest ih => exact ih

theorem foldl_beside_grown (h : ∀ f ∈ files, FitsBeside dir p t f) :
    Grown t (files.foldl (beside p) t) := by
  refine ⟨here_foldl_beside, fun q hq => ?_⟩
  rwa [foldl_beside_of_not_mem]
  exact fun f hf e => (h f hf).free (e ▸ hq)

/-! Moving over the targets -/

theorem move_cons (s : Staged) (rest : List Staged) :
    (move (s :: rest) : StateM Tree _) t =
      match t.rename s.temp s.target with
      | .ok t' =>
        let r := (move rest : StateM Tree _) t'
        ((r.1.1, ⟨.info, "wrote generated unit", [("path", s.target)]⟩ :: r.1.2), r.2)
      | .error why =>
        let r := (removeTemps (s :: rest) : StateM Tree _) t
        ((.error (.write s.target why), r.1), r.2) := by
  rw [move, bind_apply]
  cases h : t.rename s.temp s.target with
  | ok t' =>
    rw [rename_apply_of_ok h]
    dsimp only
    rw [bind_apply]
    generalize (move rest : StateM Tree _) t' = r
    rfl
  | error why =>
    rw [rename_apply_of_error h]
    dsimp only
    rw [bind_apply]
    rfl

theorem move_error {ss : List Staged} {why : Failure}
    (h : ((move ss : StateM Tree _) t).1.1 = .error why) :
    ∃ path fault, why = .write path fault := by
  induction ss generalizing t with
  | nil => cases h
  | cons s rest ih =>
    rw [move_cons] at h
    split at h
    · exact ih h
    · cases h
      exact ⟨_, _, rfl⟩

/-- A file can be moved over its target. -/
structure FitsOver (dir : String) (p : Files.Place) (t : Tree) (f : OutputFile) : Prop where
  target : Fits (staged dir f).target f.name
  free : t.get? (f.name :: p) ≠ some .directory

/-- The tree with a file in the place of its target. -/
def moved (p : Files.Place) (t : Tree) (f : OutputFile) : Tree :=
  (t.erase (tempName f.name :: p)).put (f.name :: p) (.file (some f.content))

/-- A file is beside its target. -/
structure IsBeside (dir : String) (p : Files.Place) (t : Tree) (f : OutputFile) : Prop where
  temp : Fits (staged dir f).temp (tempName f.name)
  node : t.get? (tempName f.name :: p) = some (.file (some f.content))

theorem rename_temp_eq_ok_iff {f : OutputFile} (hname : IsPlain f.name) (hp : t.walk dir = .ok p)
    (h : IsBeside dir p t f) :
    t.rename (staged dir f).temp (staged dir f).target = .ok t' ↔
      FitsOver dir p t f ∧ t' = moved p t f := by
  have htemp := (resolve_temp_eq_ok_iff hname).2 ⟨h.temp, p, hp, rfl⟩
  rw [rename_eq_ok_iff]
  constructor
  · rintro ⟨q, n, r, m, text, hr, hr', hnode, hfree, rfl⟩
    cases htemp.symm.trans hr
    obtain ⟨hfits, r', hwalk, heq⟩ := (resolve_join_eq_ok_iff hname).1 hr'
    cases heq
    obtain rfl : r = p := Except.ok.inj (hwalk.symm.trans hp)
    cases h.node.symm.trans hnode
    exact ⟨⟨hfits, hfree⟩, rfl⟩
  · rintro ⟨⟨hfits, hfree⟩, rfl⟩
    exact ⟨p, _, p, _, _, htemp, (resolve_join_eq_ok_iff hname).2 ⟨hfits, p, hp, rfl⟩, h.node,
      hfree, rfl⟩

theorem get?_moved_ne {f : OutputFile} {q : Files.Place} (htarget : q ≠ f.name :: p)
    (htemp : q ≠ tempName f.name :: p) : (moved p t f).get? q = t.get? q := by
  rw [moved, get?_put_ne htarget, get?_erase_ne htemp]

theorem moved_grown {f : OutputFile} (h : IsBeside dir p t f) (hfits : FitsOver dir p t f) :
    Grown t (moved p t f) := by
  refine ⟨rfl, fun q hq => ?_⟩
  rwa [get?_moved_ne]
  · exact fun e => hfits.free (e ▸ hq)
  · rintro rfl
    rw [h.node] at hq
    cases hq

section

variable {f g : OutputFile} {rest : List OutputFile} (hw : WellNamed (f :: rest)) (hg : g ∈ rest)
include hw hg

/-- Moving one file leaves the others as they are. -/
theorem get?_moved_target : (moved p t f).get? (g.name :: p) = t.get? (g.name :: p) :=
  get?_moved_ne (fun e => hw.head_ne hg (List.cons.inj e).1)
    fun e => hw.apart g (by simp [hg]) f (by simp) (List.cons.inj e).1

theorem get?_moved_temp :
    (moved p t f).get? (tempName g.name :: p) = t.get? (tempName g.name :: p) :=
  get?_moved_ne (fun e => hw.apart f (by simp) g (by simp [hg]) (List.cons.inj e).1.symm)
    fun e => hw.head_ne hg (tempName_inj.1 (List.cons.inj e).1)

theorem fitsOver_moved : FitsOver dir p (moved p t f) g ↔ FitsOver dir p t g := by
  constructor
  · exact fun ⟨htarget, hfree⟩ => ⟨htarget, get?_moved_target hw hg ▸ hfree⟩
  · exact fun ⟨htarget, hfree⟩ => ⟨htarget, (get?_moved_target hw hg).symm ▸ hfree⟩

end

theorem move_eq_ok_iff (hw : WellNamed files) (hp : t.walk dir = .ok p)
    (h : ∀ f ∈ files, IsBeside dir p t f) :
    (∃ events, (move (files.map (staged dir)) : StateM Tree _) t = ((.ok (), events), t')) ↔
      (∀ f ∈ files, FitsOver dir p t f) ∧ t' = files.foldl (moved p) t := by
  induction files generalizing t with
  | nil =>
    rw [List.map_nil, move, pure_apply]
    constructor
    · rintro ⟨events, h⟩
      cases h
      simp
    · rintro ⟨-, rfl⟩
      exact ⟨_, rfl⟩
  | cons f rest ih =>
    have hname := hw.plain f (by simp)
    obtain ⟨hf, hrest⟩ := List.forall_mem_cons.1 h
    rw [List.map_cons, move_cons, List.forall_mem_cons, List.foldl_cons]
    cases hrename : t.rename (staged dir f).temp (staged dir f).target with
    | ok t1 =>
      obtain ⟨hfits, rfl⟩ := (rename_temp_eq_ok_iff hname hp hf).1 hrename
      have hgrown := moved_grown hf hfits
      have hbeside : ∀ g ∈ rest, IsBeside dir p (moved p t f) g := fun g hg =>
        ⟨(hrest g hg).temp, (get?_moved_temp hw hg).trans (hrest g hg).node⟩
      have hover : (∀ g ∈ rest, FitsOver dir p (moved p t f) g) ↔
          ∀ g ∈ rest, FitsOver dir p t g := forall₂_congr fun g hg => fitsOver_moved hw hg
      have hmoved := ih hw.tail (walk_grown hgrown hp) hbeside
      rw [hover] at hmoved
      rw [and_iff_right hfits, ← hmoved]
      dsimp only
      generalize (move (rest.map (staged dir)) : StateM Tree _) (moved p t f) = r
      obtain ⟨⟨result, events⟩, t2⟩ := r
      constructor
      · rintro ⟨_, heq⟩
        cases heq
        exact ⟨_, rfl⟩
      · rintro ⟨_, heq⟩
        cases heq
        exact ⟨_, rfl⟩
    | error why =>
      constructor
      · rintro ⟨_, heq⟩
        cases heq
      · rintro ⟨⟨hfits, -⟩, -⟩
        have hok := (rename_temp_eq_ok_iff hname hp hf).2 ⟨hfits, rfl⟩
        rw [hrename] at hok
        cases hok

theorem here_foldl_moved : (files.foldl (moved p) t).here = t.here := by
  induction files generalizing t with
  | nil => rfl
  | cons f rest ih => exact ih

theorem foldl_moved_of_not_mem {q : Files.Place}
    (h : ∀ f ∈ files, q ≠ f.name :: p ∧ q ≠ tempName f.name :: p) :
    (files.foldl (moved p) t).get? q = t.get? q := by
  induction files generalizing t with
  | nil => rfl
  | cons f rest ih =>
    rw [List.foldl_cons, ih fun g hg => h g (by simp [hg])]
    exact get?_moved_ne (h f (by simp)).1 (h f (by simp)).2

/-- A place that no other file takes. -/
theorem foldl_moved_head {f : OutputFile} {rest : List OutputFile} (hw : WellNamed (f :: rest)) :
    ∀ name, name = f.name ∨ name = tempName f.name →
      (rest.foldl (moved p) t).get? (name :: p) = t.get? (name :: p) := by
  rintro name (rfl | rfl) <;> refine foldl_moved_of_not_mem fun g hg => ⟨fun e => ?_, fun e => ?_⟩
  · exact hw.head_ne hg (List.cons.inj e).1.symm
  · exact hw.apart f (by simp) g (by simp [hg]) (List.cons.inj e).1
  · exact hw.apart g (by simp [hg]) f (by simp) (List.cons.inj e).1.symm
  · exact hw.head_ne hg (tempName_inj.1 (List.cons.inj e).1).symm

theorem foldl_moved_of_mem (hw : WellNamed files) {f : OutputFile} (hf : f ∈ files) :
    (files.foldl (moved p) t).get? (f.name :: p) = some (.file (some f.content)) ∧
      (files.foldl (moved p) t).get? (tempName f.name :: p) = none := by
  induction files generalizing t with
  | nil => cases hf
  | cons g rest ih =>
    rw [List.foldl_cons]
    rcases List.mem_cons.1 hf with rfl | hf
    · have hne : tempName f.name :: p ≠ f.name :: p := fun e =>
        tempName_ne _ (List.cons.inj e).1
      rw [foldl_moved_head hw _ (.inl rfl), foldl_moved_head hw _ (.inr rfl), moved,
        get?_put_self, get?_put_ne hne, get?_erase_self]
      exact ⟨rfl, rfl⟩
    · exact ih hw.tail hf

/-! Both loops -/

/-- Writing beside the targets leaves them as they are. -/
theorem fitsOver_foldl_beside (hw : WellNamed files) {f : OutputFile} (hf : f ∈ files) :
    FitsOver dir p (files.foldl (beside p) t) f ↔ FitsOver dir p t f := by
  have hsame : (files.foldl (beside p) t).get? (f.name :: p) = t.get? (f.name :: p) :=
    foldl_beside_of_not_mem fun g hg e => hw.apart f hf g hg (List.cons.inj e).1
  exact ⟨fun ⟨htarget, hfree⟩ => ⟨htarget, hsame ▸ hfree⟩,
    fun ⟨htarget, hfree⟩ => ⟨htarget, hsame.symm ▸ hfree⟩⟩

/-- What was written beside the targets can be moved if nothing is in the way of the targets. -/
theorem move_staged_iff (hw : WellNamed files) (hp : t.walk dir = .ok p)
    (h : ∀ f ∈ files, FitsBeside dir p t f) :
    (∃ events, (move (files.map (staged dir)) : StateM Tree _) (files.foldl (beside p) t) =
        ((.ok (), events), t')) ↔
      (∀ f ∈ files, FitsOver dir p t f) ∧
        t' = files.foldl (moved p) (files.foldl (beside p) t) := by
  have hbeside : ∀ f ∈ files, IsBeside dir p (files.foldl (beside p) t) f := fun f hf =>
    ⟨(h f hf).temp, foldl_beside_of_mem hw.own hf⟩
  rw [move_eq_ok_iff hw (walk_grown (foldl_beside_grown h) hp) hbeside]
  exact and_congr_left' (forall₂_congr fun f hf => fitsOver_foldl_beside hw hf)

end Commit

/-! Whole outputs -/

section

open Commit

variable {dir : String} {o : Output} {t t' : Tree} {p : Files.Place}

theorem makeDirectories_apply (path : String) : (Disk.makeDirectories path : StateM Tree _) t =
    ((t.makeDirectories path).2, (t.makeDirectories path).1) := rfl

theorem commit_apply : (commit dir o : StateM Tree _) t =
    match (t.makeDirectories dir).2 with
    | .error why => ((.error (.write dir why), []), (t.makeDirectories dir).1)
    | .ok () =>
      let r := (stage dir [] o.files : StateM Tree _) (t.makeDirectories dir).1
      match r.1.1 with
      | .error why => ((.error why, r.1.2), r.2)
      | .ok ss => (move ss : StateM Tree _) r.2 := by
  rw [commit, bind_apply, makeDirectories_apply]
  dsimp only
  cases (t.makeDirectories dir).2 with
  | error why => rfl
  | ok u =>
    dsimp only
    rw [bind_apply]
    generalize (stage dir [] o.files : StateM Tree _) (t.makeDirectories dir).1 = r
    obtain ⟨⟨result, events⟩, t1⟩ := r
    cases result <;> rfl

/-- An output that could not be put into a directory was not written somewhere. -/
theorem commit_error {why : Failure} (h : ((commit dir o : StateM Tree _) t).1.1 = .error why) :
    ∃ path fault, why = .write path fault := by
  rw [commit_apply] at h
  dsimp only at h
  split at h
  · cases h
    exact ⟨_, _, rfl⟩
  · split at h
    · rename_i hstage
      cases h
      exact stage_error hstage
    · exact move_error h

/-- Each file of an output can be put into a directory. -/
structure FitsIn (dir : String) (p : Files.Place) (t : Tree) (o : Output) : Prop where
  beside : ∀ f ∈ o.files, FitsBeside dir p t f
  upon : ∀ f ∈ o.files, FitsOver dir p t f

/-- The tree with an output in a directory. -/
def committed (p : Files.Place) (o : Output) (t : Tree) : Tree :=
  o.files.foldl (moved p) (o.files.foldl (beside p) t)

theorem commit_eq_ok_iff (hw : WellNamed o.files) (hne : o.files ≠ []) :
    (∃ events, (commit dir o : StateM Tree _) t = ((.ok (), events), t')) ↔
      ∃ t1 p, t.makeDirectories dir = (t1, .ok ()) ∧ t1.walk dir = .ok p ∧ FitsIn dir p t1 o ∧
        t' = committed p o t1 := by
  rw [commit_apply]
  cases t.makeDirectories dir with | mk t1 result
  cases result with
  | error why =>
    constructor
    · rintro ⟨_, h⟩
      cases h
    · rintro ⟨_, _, h, -⟩
      cases h
  | ok u =>
    dsimp only
    generalize hstage : (stage dir [] o.files : StateM Tree _) t1 = r
    obtain ⟨⟨staging, events'⟩, t2⟩ := r
    constructor
    · rintro ⟨events, h⟩
      cases staging with
      | error why => cases h
      | ok ss =>
        obtain ⟨p, hp⟩ := exists_walk_of_stage hw.own hne hstage
        obtain ⟨hbeside, rfl, -, rfl⟩ := (stage_eq_ok_iff hw.own hp).1 hstage
        obtain ⟨hover, rfl⟩ := (move_staged_iff hw hp hbeside).1 ⟨events, h⟩
        exact ⟨t1, p, rfl, hp, ⟨hbeside, hover⟩, rfl⟩
    · rintro ⟨_, p, hmake, hp, ⟨hbeside, hover⟩, rfl⟩
      cases hmake
      have hok : (stage dir [] o.files : StateM Tree _) t1 =
          ((.ok (o.files.map (staged dir)), []), o.files.foldl (beside p) t1) :=
        (stage_eq_ok_iff hw.own hp).2 ⟨hbeside, rfl, rfl, rfl⟩
      cases hstage.symm.trans hok
      exact (move_staged_iff hw hp hbeside).2 ⟨hover, rfl⟩

/-- An output is in a directory, nothing is left of its way there, and nothing else is changed. -/
structure Placed (p : Files.Place) (o : Output) (t t' : Tree) : Prop where
  here : t'.here = t.here
  targets : ∀ f ∈ o.files, t'.get? (f.name :: p) = some (.file (some f.content))
  temps : ∀ f ∈ o.files, t'.get? (tempName f.name :: p) = none
  others : ∀ q, (∀ f ∈ o.files, q ≠ f.name :: p ∧ q ≠ tempName f.name :: p) → t'.get? q = t.get? q

theorem placed_committed (hw : WellNamed o.files) : Placed p o t (committed p o t) where
  here := here_foldl_moved.trans here_foldl_beside
  targets f hf := (foldl_moved_of_mem hw hf).1
  temps f hf := (foldl_moved_of_mem hw hf).2
  others q hq := by
    rw [committed, foldl_moved_of_not_mem hq, foldl_beside_of_not_mem fun f hf => (hq f hf).2]

/-- Directories are still there. -/
theorem Placed.grown (h : Placed p o t t') (hfits : FitsIn dir p t o) : Grown t t' := by
  refine ⟨h.here, fun q hq => ?_⟩
  rwa [h.others]
  exact fun f hf => ⟨fun e => (hfits.upon f hf).free (e ▸ hq),
    fun e => (hfits.beside f hf).free (e ▸ hq)⟩

/-- An output that is in a directory can be put there again. -/
theorem Placed.fits (h : Placed p o t t') (hfits : FitsIn dir p t o) : FitsIn dir p t' o where
  beside f hf := ⟨(hfits.beside f hf).temp, by simp [h.temps f hf]⟩
  upon f hf := ⟨(hfits.upon f hf).target, by simp [h.targets f hf]⟩

/-- An output that is put into a directory again leaves everything as it was. -/
theorem Placed.again {t'' : Tree} (h : Placed p o t t') (h' : Placed p o t' t'') : Same t' t'' := by
  refine ⟨h'.here, fun q => ?_⟩
  by_cases hq : ∀ f ∈ o.files, q ≠ f.name :: p ∧ q ≠ tempName f.name :: p
  · exact h'.others q hq
  · push Not at hq
    obtain ⟨f, hf, hq⟩ := hq
    by_cases htarget : q = f.name :: p
    · rw [htarget, h'.targets f hf, h.targets f hf]
    · rw [hq htarget, h'.temps f hf, h.temps f hf]

end

end Bindery
