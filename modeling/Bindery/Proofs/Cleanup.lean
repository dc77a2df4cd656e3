import Bindery.Proofs.PartialCommits

/-!
# What commits leave behind

A commit removes what it wrote beside the targets, however it ends. One that ends before files are
moved changes nothing else, but that directories were made on the way of its path. To say which
files were written, a commit is run on a tree that keeps a record.
-/
namespace Bindery

open Files Tree

/-! Keeping a record -/

/-- A tree, with the paths that files were written to. -/
structure Recorded where
  tree : Tree
  written : List String := []

namespace Recorded

variable {α β : Type}

/-- Does to the tree what is done to one without a record. -/
def onTree (x : StateM Tree α) : StateM Recorded α := fun r =>
  ((x r.tree).1, ⟨(x r.tree).2, r.written⟩)

instance : Disk (StateM Recorded) where
  makeDirectories path := onTree (Disk.makeDirectories path)
  read path := onTree (Disk.read path)
  write path text := fun r =>
    match r.tree.write path (some text) with
    | .ok t => (.ok (), ⟨t, r.written ++ [path]⟩)
    | .error why => (.error why, r)
  rename path target := onTree (Disk.rename path target)
  remove path := onTree (Disk.remove path)

section

variable {t t' : Tree} {why : Fault} {path text : String}

theorem write_of_ok (h : t.write path (some text) = .ok t') (written : List String) :
    (Disk.write path text : StateM Recorded _) ⟨t, written⟩ =
      (.ok (), ⟨t', written ++ [path]⟩) := by
  change (match t.write path (some text) with | .ok t => _ | .error why => _) = _
  rw [h]

theorem write_of_error (h : t.write path (some text) = .error why) (written : List String) :
    (Disk.write path text : StateM Recorded _) ⟨t, written⟩ = (.error why, ⟨t, written⟩) := by
  change (match t.write path (some text) with | .ok t => _ | .error why => _) = _
  rw [h]

end

theorem onTree_bind (x : StateM Tree α) (f : α → StateM Tree β) :
    onTree (x >>= f) = onTree x >>= fun a => onTree (f a) := rfl

end Recorded

open Recorded

namespace Commit

variable {dir : String} {files done : List OutputFile} {ss : List Staged} {t t' : Tree}
  {p : Files.Place} {written : List String}

theorem removeTemps_onTree (ss : List Staged) :
    (removeTemps ss : StateM Recorded _) = onTree (removeTemps ss) := by
  induction ss with
  | nil => rfl
  | cons s rest ih =>
    unfold removeTemps
    rw [ih, onTree_bind]
    refine congrArg (onTree (Disk.remove s.temp) >>= ·) (funext fun result => ?_)
    cases result <;> rfl

theorem move_onTree (ss : List Staged) :
    (move ss : StateM Recorded _) = onTree (move ss) := by
  induction ss with
  | nil => rfl
  | cons s rest ih =>
    unfold move
    rw [ih, removeTemps_onTree, onTree_bind]
    refine congrArg (onTree (Disk.rename s.temp s.target) >>= ·) (funext fun result => ?_)
    cases result <;> rfl

/-- The record of writing beside the targets says which files could be written. -/
theorem stage_recorded (h : Landed dir t files done) (ss : List Staged) (written : List String) :
    (stage dir ss files : StateM Recorded _) ⟨t, written⟩ =
      (((stage dir ss files : StateM Tree _) t).1,
        ⟨((stage dir ss files : StateM Tree _) t).2,
          written ++ done.map fun f => (staged dir f).temp⟩) := by
  induction h generalizing ss written with
  | nil => simp [stage, pure_apply]
  | @next t t' f rest done hwrite hrest ih =>
    rw [stage_cons, hwrite]
    rw [temp_staged] at hwrite
    rw [stage, bind_apply, write_of_ok hwrite]
    dsimp only
    rw [← staged, ih, List.append_assoc, List.map_cons, List.singleton_append, temp_staged]
  | @stop t f rest fault hwrite =>
    rw [stage_cons, hwrite]
    rw [temp_staged] at hwrite ⊢
    rw [stage, bind_apply, write_of_error hwrite]
    dsimp only
    rw [bind_apply, removeTemps_onTree, pure_apply, List.map_nil, List.append_nil]
    rfl

theorem exists_landed (dir : String) (t : Tree) (files : List OutputFile) :
    ∃ done, Landed dir t files done := by
  induction files generalizing t with
  | nil => exact ⟨[], .nil⟩
  | cons f rest ih =>
    cases hwrite : t.write (staged dir f).temp (some f.content) with
    | ok t' =>
      obtain ⟨done, hrest⟩ := ih t'
      exact ⟨f :: done, .next hwrite hrest⟩
    | error fault => exact ⟨[], .stop hwrite⟩

theorem Landed.unique {done' : List OutputFile} (h : Landed dir t files done)
    (h' : Landed dir t files done') : done = done' := by
  induction h generalizing done' with
  | nil =>
    cases h'
    rfl
  | next hwrite hrest ih =>
    cases h' with
    | next hwrite' hrest' =>
      cases hwrite.symm.trans hwrite'
      rw [ih hrest']
    | stop hwrite' => cases hwrite.symm.trans hwrite'
  | stop hwrite =>
    cases h' with
    | next hwrite' hrest' => cases hwrite.symm.trans hwrite'
    | stop hwrite' => rfl

theorem Landed.sublist (h : Landed dir t files done) : done.Sublist files := by
  induction h with
  | nil => exact .slnil
  | next hwrite hrest ih => exact ih.cons_cons _
  | stop hwrite => exact List.nil_sublist _

theorem landed_of_stage {ss : List Staged} {events : List Event}
    (h : (stage dir [] files : StateM Tree _) t = ((.ok ss, events), t')) :
    Landed dir t files files := by
  suffices hall : ∀ done, (stage dir done files : StateM Tree _) t = ((.ok ss, events), t') →
      Landed dir t files files from hall [] h
  clear h
  induction files generalizing t with
  | nil => exact fun _ _ => .nil
  | cons f rest ih =>
    intro done h
    rw [stage_cons] at h
    split at h
    · rename_i hwrite
      exact .next hwrite (ih _ h)
    · cases h

/-- However moving ends, nothing is left beside the targets. -/
theorem temps_of_move {result : Except Failure Unit} {events : List Event} (hw : WellNamed files)
    (hp : t.walk dir = .ok p) (hbeside : ∀ f ∈ files, IsBeside dir p t f)
    (h : (move (files.map (staged dir)) : StateM Tree _) t = ((result, events), t')) :
    Grown t t' ∧ ∀ f ∈ files, t'.get? (tempName f.name :: p) = none := by
  cases result with
  | ok u =>
    obtain ⟨hover, rfl⟩ := (move_eq_ok_iff hw hp hbeside).1 ⟨events, h⟩
    exact ⟨foldl_moved_grown fun f hf => ⟨hover f hf, hbeside f hf⟩,
      fun f hf => (foldl_moved_of_mem hw hf).2⟩
  | error why =>
    obtain ⟨front, f, back, fault, rfl, -, hover, rfl⟩ := move_failed hw hp hbeside h
    have hfront : ∀ g ∈ front, g ∈ front ++ f :: back := fun g hg => List.mem_append_left _ hg
    have hleft := isBeside_foldl_moved hw hbeside
    have hmoved := foldl_moved_grown fun g hg => ⟨hover g hg, hbeside g (hfront g hg)⟩
    refine ⟨hmoved.trans (foldl_cleared_grown hleft), fun g hg => ?_⟩
    rcases List.mem_append.1 hg with hg | hg
    · have hfrontNamed := hw.sublist (List.sublist_append_left front (f :: back))
      exact foldl_cleared_of_none (foldl_moved_of_mem hfrontNamed hg).2
    · exact foldl_cleared_of_mem hg

end Commit

/-! Whole outputs -/

/-- How a commit into a directory of a tree ends, and the tree that it leaves, with a record of what
was written on the way. -/
def recordedCommit (dir : String) (o : Output) (t : Tree) : Except Failure Unit × Recorded :=
  let r := (commit dir o : StateM Recorded _) ⟨t, []⟩
  (r.1.1, r.2)

/-- A path leads to a place where no file is. -/
def Vacant (t : Tree) (path : String) : Prop :=
  ∃ p n, t.resolve path = .ok (p, .name n false) ∧ t.get? (n :: p) = none

/-- A failure to make the directory, or to write a file beside its target. -/
inductive Early (dir : String) (files : List OutputFile) : Failure → Prop
  | directory (fault : Fault) : Early dir files (.write dir fault)
  | beside {f : OutputFile} (hf : f ∈ files) (fault : Fault) :
    Early dir files (.write (tempPath (join dir f.name)) fault)

/-- Nothing is changed but what is beside the targets, and that directories were made on the way of
the path. -/
structure OnlyBeside (dir : String) (files : List OutputFile) (t t' : Tree) : Prop where
  here : t'.here = t.here
  nodes : ∀ q, (∀ p f, t'.walk dir = .ok p → f ∈ files → q ≠ tempName f.name :: p) →
    t'.get? q = t.get? q ∨ t.get? q = none ∧ t'.get? q = some .directory ∧ t'.OnWay dir q

section

open Commit

variable {dir : String} {o : Output} {t t1 t2 t' : Tree} {p : Files.Place}

theorem commit_recorded (dir : String) (o : Output) (t : Tree) :
    (commit dir o : StateM Recorded _) ⟨t, []⟩ =
      match (t.makeDirectories dir).2 with
      | .error why => ((.error (.write dir why), []), ⟨(t.makeDirectories dir).1, []⟩)
      | .ok () =>
        let r := (stage dir [] o.files : StateM Recorded _) ⟨(t.makeDirectories dir).1, []⟩
        match r.1.1 with
        | .error why => ((.error why, r.1.2), r.2)
        | .ok ss => (move ss : StateM Recorded _) r.2 := by
  have hmake : (Disk.makeDirectories dir : StateM Recorded _) ⟨t, []⟩ =
      ((t.makeDirectories dir).2, ⟨(t.makeDirectories dir).1, []⟩) := rfl
  rw [commit, bind_apply, hmake]
  dsimp only
  cases (t.makeDirectories dir).2 with
  | error why => rfl
  | ok u =>
    dsimp only
    rw [bind_apply]
    generalize (stage dir [] o.files : StateM Recorded _) ⟨(t.makeDirectories dir).1, []⟩ = r
    obtain ⟨⟨result, events⟩, r⟩ := r
    cases result <;> rfl

/-- How far a commit comes, and what it leaves. -/
inductive Course (dir : String) (o : Output) (t : Tree) : Except Failure Unit × Recorded → Prop
  | unmade {t1 : Tree} {fault : Fault} (hmake : t.makeDirectories dir = (t1, .error fault)) :
    Course dir o t (.error (.write dir fault), ⟨t1, []⟩)
  | unstaged {t1 t2 : Tree} {done : List OutputFile} {why : Failure} {events : List Event}
    (hmake : t.makeDirectories dir = (t1, .ok ())) (hlanded : Landed dir t1 o.files done)
    (hstage : (stage dir [] o.files : StateM Tree _) t1 = ((.error why, events), t2)) :
    Course dir o t (.error why, ⟨t2, done.map fun f => (staged dir f).temp⟩)
  | moved {t1 t2 t3 : Tree} {ss : List Staged} {result : Except Failure Unit}
    {events events' : List Event} (hmake : t.makeDirectories dir = (t1, .ok ()))
    (hstage : (stage dir [] o.files : StateM Tree _) t1 = ((.ok ss, events), t2))
    (hmove : (move ss : StateM Tree _) t2 = ((result, events'), t3)) :
    Course dir o t (result, ⟨t3, o.files.map fun f => (staged dir f).temp⟩)

theorem commitTo_of_course {r : Except Failure Unit × Recorded} (h : Course dir o t r) :
    commitTo dir o t = (r.1, r.2.tree) := by
  unfold commitTo
  rw [commit_apply]
  cases h with
  | unmade hmake => rw [hmake]
  | unstaged hmake hlanded hstage =>
    rw [hmake]
    dsimp only
    rw [hstage]
  | moved hmake hstage hmove =>
    rw [hmake]
    dsimp only
    rw [hstage]
    dsimp only
    rw [hmove]

theorem course_recorded (dir : String) (o : Output) (t : Tree) :
    Course dir o t (recordedCommit dir o t) := by
  unfold recordedCommit
  rw [commit_recorded]
  cases hmake : t.makeDirectories dir with | mk t1 result
  cases result with
  | error fault => exact .unmade hmake
  | ok u =>
    obtain ⟨done, hlanded⟩ := exists_landed dir t1 o.files
    dsimp only
    rw [stage_recorded hlanded, List.nil_append]
    cases hstage : (stage dir [] o.files : StateM Tree _) t1 with | mk staging t2
    obtain ⟨staging, events⟩ := staging
    cases staging with
    | error why => exact .unstaged hmake hlanded hstage
    | ok ss =>
      obtain rfl := hlanded.unique (landed_of_stage hstage)
      dsimp only
      rw [move_onTree]
      exact .moved hmake hstage rfl

/-! Temporary files -/

theorem vacant_temp {f : OutputFile} (hname : IsPlain f.name)
    (hfits : Fits (staged dir f).temp (tempName f.name)) (hp : t.walk dir = .ok p)
    (h : t.get? (tempName f.name :: p) = none) : Vacant t (staged dir f).temp :=
  ⟨p, _, (resolve_temp_eq_ok_iff hname).2 ⟨hfits, p, hp, rfl⟩, h⟩

/-- A file that cannot be written leaves none of those that were written, and changes nothing but
what is beside the targets. -/
theorem left_by_stage {done : List OutputFile} {why : Failure} {events : List Event}
    (hw : WellNamed o.files) (hlanded : Landed dir t1 o.files done)
    (h : (stage dir [] o.files : StateM Tree _) t1 = ((.error why, events), t2)) :
    Grown t1 t2 ∧ (∀ f ∈ done, Vacant t2 (staged dir f).temp) ∧
      ∀ q, (∀ p f, t2.walk dir = .ok p → f ∈ o.files → q ≠ tempName f.name :: p) →
        t2.get? q = t1.get? q := by
  by_cases hreached : ∃ p, t1.walk dir = .ok p
  · obtain ⟨p, hp⟩ := hreached
    obtain ⟨hgrown, hsame, _, hlanded', hgone⟩ := get?_of_stage_failed hw hp h
    obtain rfl := hlanded.unique hlanded'
    have hwalk := walk_grown hgrown hp
    refine ⟨hgrown, fun f hf => ?_, fun q hq => hsame q fun f hf => hq p f hwalk hf⟩
    have hname := hw.plain f (hlanded.sublist.subset hf)
    exact vacant_temp hname (hgone f hf).1 hwalk (hgone f hf).2
  · obtain ⟨rfl, hlanded', -⟩ := stage_unreached hw (not_exists.1 hreached) h
    obtain rfl := hlanded.unique hlanded'
    exact ⟨.refl t2, by simp, fun _ _ => rfl⟩

/-- However moving ends, none of what was written before is left. -/
theorem left_by_move {ss : List Staged} {result : Except Failure Unit} {events events' : List Event}
    (hw : WellNamed o.files)
    (hstage : (stage dir [] o.files : StateM Tree _) t1 = ((.ok ss, events), t2))
    (hmove : (move ss : StateM Tree _) t2 = ((result, events'), t')) :
    ∀ f ∈ o.files, Vacant t' (staged dir f).temp := by
  intro f hf
  obtain ⟨p, hp⟩ := exists_walk_of_stage hw.own (List.ne_nil_of_mem hf) hstage
  obtain ⟨hfits, rfl, -, rfl⟩ := (stage_eq_ok_iff hw.own hp).1 hstage
  have hbeside : ∀ g ∈ o.files, IsBeside dir p (o.files.foldl (beside p) t1) g := fun g hg =>
    ⟨(hfits g hg).temp, foldl_beside_of_mem hw.own hg⟩
  have hwalk := walk_grown (foldl_beside_grown hfits) hp
  obtain ⟨hgrown, hgone⟩ := temps_of_move hw hwalk hbeside hmove
  exact vacant_temp (hw.plain f hf) (hfits f hf).temp (walk_grown hgrown hwalk) (hgone f hf)

theorem vacant_of_course {r : Except Failure Unit × Recorded} (hw : WellNamed o.files)
    (h : Course dir o t r) : ∀ path ∈ r.2.written,
      (∃ f ∈ o.files, path = tempPath (join dir f.name)) ∧ Vacant r.2.tree path := by
  intro path hpath
  cases h with
  | unmade hmake => cases hpath
  | unstaged hmake hlanded hstage =>
    obtain ⟨f, hf, rfl⟩ := List.mem_map.1 hpath
    exact ⟨⟨f, hlanded.sublist.subset hf, temp_staged dir f⟩,
      (left_by_stage hw hlanded hstage).2.1 f hf⟩
  | moved hmake hstage hmove =>
    obtain ⟨f, hf, rfl⟩ := List.mem_map.1 hpath
    exact ⟨⟨f, hf, temp_staged dir f⟩, left_by_move hw hstage hmove f hf⟩

/-! Failures before files are moved -/

theorem steps_join {name : String} (hname : IsPlain name) (dir : String) :
    steps (join dir name) = steps dir ++ [name] := by
  obtain ⟨front, hpieces, hsteps, -⟩ := exists_pieces_join hname dir
  rw [steps_eq_of_pieces hpieces, List.filter_append, hsteps, List.filter_cons_of_pos hname.step,
    List.filter_nil]

/-- A file that cannot be moved is neither the directory nor beside a target. -/
theorem not_early_target {f : OutputFile} {fault : Fault} (hw : WellNamed o.files)
    (hf : f ∈ o.files) : ¬Early dir o.files (.write (join dir f.name) fault) := by
  have hsteps := steps_join (hw.plain f hf) dir
  generalize hpath : join dir f.name = path at hsteps
  intro h
  cases h with
  | directory =>
    have hlength := congrArg List.length hsteps
    simp at hlength
  | @beside g hg =>
    obtain ⟨above, htemp, hway⟩ := exists_tempPath_join (hw.plain g hg) dir
    rw [htemp, steps_join (isPlain_tempName (hw.plain g hg)), hway.steps] at hsteps
    have hlast := List.append_cancel_left hsteps
    exact hw.apart f hf g hg (List.cons.inj hlast).1.symm

theorem onlyBeside_of_extended {files : List OutputFile} (h : Extended dir t t1)
    (hgrown : Grown t1 t')
    (hsame : ∀ q, (∀ p f, t'.walk dir = .ok p → f ∈ files → q ≠ tempName f.name :: p) →
      t'.get? q = t1.get? q) : OnlyBeside dir files t t' := by
  refine ⟨hgrown.here.trans h.grown.here, fun q hq => ?_⟩
  rw [hsame q hq]
  exact (h.nodes q).imp_right fun ⟨hnone, hdir, hway⟩ => ⟨hnone, hdir, hway.grown hgrown⟩

theorem onlyBeside_of_course {r : Except Failure Unit × Recorded} {why : Failure}
    (hw : WellNamed o.files) (h : Course dir o t r) (hwhy : r.1 = .error why)
    (hearly : Early dir o.files why) : OnlyBeside dir o.files t r.2.tree := by
  have hextended := makeDirectories_extended t dir
  cases h with
  | unmade hmake =>
    rw [hmake] at hextended
    exact onlyBeside_of_extended hextended (.refl _) fun _ _ => rfl
  | unstaged hmake hlanded hstage =>
    rw [hmake] at hextended
    obtain ⟨hgrown, -, hsame⟩ := left_by_stage hw hlanded hstage
    exact onlyBeside_of_extended hextended hgrown hsame
  | moved hmake hstage hmove =>
    dsimp only at hwhy
    rw [hwhy] at hmove
    have hne : o.files ≠ [] := by
      intro hnil
      rw [hnil] at hstage
      cases hstage
      cases hmove
    obtain ⟨p, hp⟩ := exists_walk_of_stage hw.own hne hstage
    obtain ⟨hfits, rfl, -, rfl⟩ := (stage_eq_ok_iff hw.own hp).1 hstage
    have hwalk := walk_grown (foldl_beside_grown hfits) hp
    obtain ⟨front, f, back, fault, hfiles, rfl, -⟩ := move_failed hw hwalk
      (fun g hg => ⟨(hfits g hg).temp, foldl_beside_of_mem hw.own hg⟩) hmove
    exact absurd hearly (not_early_target hw (by simp [hfiles]))

/-- However a commit ends, nothing that it wrote is left beside the targets. If it could not make
the directory, or not write a file there, it changed nothing else. -/
theorem commit_cleans_up (hw : WellNamed o.files) (dir : String) (t : Tree) :
    commitTo dir o t = ((recordedCommit dir o t).1, (recordedCommit dir o t).2.tree) ∧
    (∀ path ∈ (recordedCommit dir o t).2.written,
      (∃ f ∈ o.files, path = tempPath (join dir f.name)) ∧ Vacant (commitTo dir o t).2 path) ∧
    ∀ why, (commitTo dir o t).1 = .error why → Early dir o.files why →
      OnlyBeside dir o.files t (commitTo dir o t).2 := by
  have hcourse := course_recorded dir o t
  have hsame := commitTo_of_course hcourse
  refine ⟨hsame, ?_, ?_⟩
  · rw [hsame]
    exact vacant_of_course hw hcourse
  · rw [hsame]
    exact fun why => onlyBeside_of_course hw hcourse

end

/-- A tree with a directory where a file would be on its way. -/
def stagedTree : Tree :=
  ⟨[(["work"], .directory), (["out", "work"], .directory), (["b.rs.tmp", "out", "work"], .directory),
    (["a.rs.tmp", "out", "work"], .file (some "old"))], ["work"]⟩

/-- The second file cannot be written. The first one, which took the place of an older file, is
removed. -/
theorem blocked_cleared : (commitTo "out" blockedOutput stagedTree).1 =
      .error (.write "out/b.rs.tmp" .isDirectory) ∧
    (recordedCommit "out" blockedOutput stagedTree).2.written = ["out/a.rs.tmp"] ∧
    Vacant (commitTo "out" blockedOutput stagedTree).2 "out/a.rs.tmp" ∧
    OnlyBeside "out" blockedOutput.files stagedTree (commitTo "out" blockedOutput stagedTree).2 := by
  have hwhy : (commitTo "out" blockedOutput stagedTree).1 =
      .error (.write "out/b.rs.tmp" .isDirectory) := by
    have hfails : (match (commitTo "out" blockedOutput stagedTree).1 with
        | .error (.write path .isDirectory) => path == "out/b.rs.tmp"
        | _ => false) = true := by decide +kernel
    split at hfails
    · rename_i path heq
      rw [heq, beq_iff_eq.1 hfails]
    · cases hfails
  have hwritten : (recordedCommit "out" blockedOutput stagedTree).2.written = ["out/a.rs.tmp"] := by
    decide +kernel
  have htemp : tempPath (join "out" "b.rs") = "out/b.rs.tmp" := by decide +kernel
  obtain ⟨-, hvacant, hearly⟩ := commit_cleans_up wellNamed_blocked "out" stagedTree
  have hb : Early "out" blockedOutput.files (.write (tempPath (join "out" "b.rs")) .isDirectory) :=
    .beside (List.mem_cons_of_mem _ (List.mem_singleton.2 rfl)) _
  refine ⟨hwhy, hwritten, (hvacant _ ?_).2, hearly _ hwhy (htemp ▸ hb)⟩
  rw [hwritten]
  exact List.mem_singleton.2 rfl

end Bindery
