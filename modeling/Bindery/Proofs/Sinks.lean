import Bindery.Proofs.Cleanup
import Bindery.Proofs.Delivering

/-!
# Directories and shelves

A directory and a shelf that take the same output hold the same files only if no file is named as a
later one is on its way. Such a file is lost: the later one is written in its place before it gets
there, or moved away from its place, and the commit ends well.
-/
namespace Bindery

open Files Tree

/-- No file takes the place that one behind it has on its way. -/
def Unclashing (files : List OutputFile) : Prop :=
  files.Pairwise fun f g => f.name ≠ tempName g.name

namespace Commit

variable {dir : String} {f : OutputFile} {files : List OutputFile} {t t' : Tree} {p : Files.Place}
  {events : List Event}

/-! Moving what may be anything -/

/-- What is in a directory after files were moved there, other than at their targets. -/
structure Vacated (p : Files.Place) (files : List OutputFile) (t t' : Tree) : Prop where
  grown : Grown t t'
  temps : ∀ f ∈ files, (∀ g ∈ files, g.name ≠ tempName f.name) →
    t'.get? (tempName f.name :: p) = none
  others : ∀ q, (∀ f ∈ files, q ≠ f.name :: p ∧ q ≠ tempName f.name :: p) → t'.get? q = t.get? q

theorem vacated_rename (hname : IsPlain f.name) (hp : t.walk dir = .ok p)
    (h : t.rename (staged dir f).temp (staged dir f).target = .ok t') :
    Fits (staged dir f).target f.name ∧ Vacated p [f] t t' := by
  obtain ⟨q, n, r, m, text, htemp, htarget, hnode, hfree, rfl⟩ := rename_eq_ok_iff.1 h
  obtain ⟨-, q', hq, heq⟩ := (resolve_temp_eq_ok_iff hname).1 htemp
  cases heq
  obtain rfl := Except.ok.inj (hq.symm.trans hp)
  obtain ⟨hfits, r', hr, heq⟩ := (resolve_join_eq_ok_iff hname).1 htarget
  cases heq
  obtain rfl := Except.ok.inj (hr.symm.trans hp)
  have hother : ∀ q', q' ≠ f.name :: r → q' ≠ tempName f.name :: r →
      ((t.erase (tempName f.name :: r)).put (f.name :: r) (.file text)).get? q' = t.get? q' :=
    fun q' htarget htemp => by rw [get?_put_ne htarget, get?_erase_ne htemp]
  refine ⟨hfits, ⟨rfl, fun q' hq' => ?_⟩, ?_, fun q' hq' => ?_⟩
  · rwa [hother]
    · exact fun e => hfree (e ▸ hq')
    · rintro rfl
      rw [hnode] at hq'
      cases hq'
  · rintro g hg -
    obtain rfl := List.mem_singleton.1 hg
    rw [get?_put_ne fun e => tempName_ne _ (List.cons.inj e).1]
    exact get?_erase_self ..
  · obtain ⟨htarget, htemp⟩ := hq' f (List.mem_singleton.2 rfl)
    exact hother q' htarget htemp

theorem Vacated.cons {t1 : Tree} {rest : List OutputFile} (hw : PlainNamed (f :: rest))
    (h : Vacated p [f] t t1) (hrest : Vacated p rest t1 t') : Vacated p (f :: rest) t t' := by
  refine ⟨h.grown.trans hrest.grown, fun g hg hfree => ?_, fun q hq => ?_⟩
  · obtain ⟨hhead, htail⟩ := List.forall_mem_cons.1 hfree
    rcases List.mem_cons.1 hg with rfl | hg
    · rw [hrest.others]
      · exact h.temps g (by simp) (by simpa using hhead)
      · refine fun k hk => ⟨fun e => htail k hk (List.cons.inj e).1.symm, fun e => ?_⟩
        exact hw.head_ne hk (tempName_inj.1 (List.cons.inj e).1).symm
    · exact hrest.temps g hg htail
  · obtain ⟨hhead, htail⟩ := List.forall_mem_cons.1 hq
    rw [hrest.others q htail]
    exact h.others q (by simpa using hhead)

/-- Moving files one by one. -/
theorem move_cons_ok {rest : List OutputFile}
    (h : (move ((f :: rest).map (staged dir)) : StateM Tree _) t = ((.ok (), events), t')) :
    ∃ t1 events', t.rename (staged dir f).temp (staged dir f).target = .ok t1 ∧
      (move (rest.map (staged dir)) : StateM Tree _) t1 = ((.ok (), events'), t') := by
  rw [List.map_cons, move_cons] at h
  cases hrename : t.rename (staged dir f).temp (staged dir f).target with
  | error why =>
    rw [hrename] at h
    cases h
  | ok t1 =>
    rw [hrename] at h
    dsimp only at h
    cases hmove : (move (rest.map (staged dir)) : StateM Tree _) t1 with | mk result t2
    obtain ⟨result, events'⟩ := result
    rw [hmove] at h
    cases h
    exact ⟨t1, events', rfl, hmove⟩

theorem vacated_move (hw : PlainNamed files) (hp : t.walk dir = .ok p)
    (h : (move (files.map (staged dir)) : StateM Tree _) t = ((.ok (), events), t')) :
    Vacated p files t t' := by
  induction files generalizing t events with
  | nil =>
    cases h
    exact ⟨.refl _, by simp, fun _ _ => rfl⟩
  | cons f rest ih =>
    obtain ⟨t1, events', hrename, hmove⟩ := move_cons_ok h
    obtain ⟨-, hhead⟩ := vacated_rename (hw.plain f (by simp)) hp hrename
    exact hhead.cons hw (ih hw.tail (walk_grown hhead.grown hp) hmove)

/-! Clashes -/

/-- A file in the place of a later one on its way is moved away. -/
theorem lost_of_clash (hw : PlainNamed files) (hp : t.walk dir = .ok p)
    (h : (move (files.map (staged dir)) : StateM Tree _) t = ((.ok (), events), t'))
    (hclash : ¬Unclashing files) : ∃ f ∈ files, t'.get? (f.name :: p) = none := by
  induction files generalizing t events with
  | nil => exact absurd .nil hclash
  | cons f rest ih =>
    obtain ⟨t1, events', hrename, hmove⟩ := move_cons_ok h
    obtain ⟨-, hhead⟩ := vacated_rename (hw.plain f (by simp)) hp hrename
    have hwalk := walk_grown hhead.grown hp
    by_cases hrest : Unclashing rest
    · have hmem : ∃ g ∈ rest, f.name = tempName g.name := by
        by_contra hfree
        push Not at hfree
        exact hclash (.cons hfree hrest)
      obtain ⟨g, hg, hname⟩ := hmem
      refine ⟨f, by simp, ?_⟩
      rw [hname]
      refine (vacated_move hw.tail hwalk hmove).temps g hg fun k hk => ?_
      rw [← hname]
      exact hw.head_ne hk
    · obtain ⟨g, hg, hnone⟩ := ih hw.tail hwalk hmove hrest
      exact ⟨g, by simp [hg], hnone⟩

/-- Without clashes each file gets to its target, and stays there. -/
theorem targets_of_move (hw : PlainNamed files) (hfree : Unclashing files)
    (hp : t.walk dir = .ok p) (hbeside : ∀ f ∈ files, IsBeside dir p t f)
    (h : (move (files.map (staged dir)) : StateM Tree _) t = ((.ok (), events), t')) :
    ∀ f ∈ files, Fits (staged dir f).target f.name ∧
      t'.get? (f.name :: p) = some (.file (some f.content)) := by
  induction files generalizing t events with
  | nil => simp
  | cons f rest ih =>
    obtain ⟨hf, hrest⟩ := List.forall_mem_cons.1 hbeside
    obtain ⟨hhead, htail⟩ := List.pairwise_cons.1 hfree
    obtain ⟨t1, events', hrename, hmove⟩ := move_cons_ok h
    obtain ⟨hfits, rfl⟩ := (rename_temp_eq_ok_iff (hw.plain f (by simp)) hp hf).1 hrename
    have hwalk := walk_grown (moved_grown hf hfits) hp
    have hleft : ∀ g ∈ rest, IsBeside dir p (moved p t f) g := by
      refine fun g hg => ⟨(hrest g hg).temp, ?_⟩
      rw [get?_moved_ne, (hrest g hg).node]
      · exact fun e => hhead g hg (List.cons.inj e).1.symm
      · exact fun e => hw.head_ne hg (tempName_inj.1 (List.cons.inj e).1)
    refine List.forall_mem_cons.2 ⟨⟨hfits.target, ?_⟩, ih hw.tail htail hwalk hleft hmove⟩
    rw [(vacated_move hw.tail hwalk hmove).others]
    · exact get?_put_self ..
    · refine fun g hg => ⟨fun e => hw.head_ne hg (List.cons.inj e).1.symm, fun e => ?_⟩
      exact hhead g hg (List.cons.inj e).1

end Commit

/-! Whole outputs -/

/-- The directory of a path, once it is made, holds no file, and none is below it. -/
def Unfilled (dir : String) (t : Tree) : Prop :=
  ∀ p q text, (t.makeDirectories dir).1.walk dir = .ok p → p <:+ q → q ≠ p →
    t.get? q ≠ some (.file text)

/-- The directory of a path holds the files that an empty shelf would after it took an output. -/
structure Agrees (dir : String) (o : Output) (t : Tree) : Prop where
  targets : ∀ f ∈ o.files,
    (t.read (join dir f.name)).toOption = (Shelf.commit [] o).get? f.name
  others : ∀ p q text, t.walk dir = .ok p → p <:+ q → q ≠ p → t.get? q = some (.file text) →
    ∃ f ∈ o.files, q = f.name :: p

section

open Commit

variable {dir : String} {o : Output} {t t1 t' : Tree} {p : Files.Place}

/-- A commit that ends well has made the directory, written all files and moved them. -/
theorem exists_of_commitTo_ok (h : commitTo dir o t = (.ok (), t')) : ∃ t1 t2 ss events events',
    t.makeDirectories dir = (t1, .ok ()) ∧
      (stage dir [] o.files : StateM Tree _) t1 = ((.ok ss, events), t2) ∧
      (move ss : StateM Tree _) t2 = ((.ok (), events'), t') := by
  have hcourse := course_recorded dir o t
  rw [commitTo_of_course hcourse] at h
  generalize recordedCommit dir o t = r at h hcourse
  cases hcourse with
  | unmade => cases h
  | unstaged => cases h
  | moved hmake hstage hmove =>
    cases h
    exact ⟨_, _, _, _, _, hmake, hstage, hmove⟩

/-- Making directories puts no file into one. -/
theorem Unfilled.made (h : Unfilled dir t) (hmake : t.makeDirectories dir = (t1, .ok ()))
    (hp : t1.walk dir = .ok p) {q : Files.Place} {text : Option String} (hbelow : p <:+ q)
    (hne : q ≠ p) : t1.get? q ≠ some (.file text) := by
  have hextended := makeDirectories_extended t dir
  have hfree := h p q text
  rw [hmake] at hextended hfree
  rcases hextended.nodes q with hsame | ⟨-, hdir, -⟩
  · rw [hsame]
    exact hfree hp hbelow hne
  · simp [hdir]

theorem read_ne_ok_of_none {name text : String} (hname : IsPlain name) (hp : t.walk dir = .ok p)
    (h : t.get? (name :: p) = none) : t.read (join dir name) ≠ .ok text := by
  intro hread
  obtain ⟨q, n, hr, hnode⟩ := read_eq_ok_iff.1 hread
  obtain ⟨-, q', hq, heq⟩ := (resolve_join_eq_ok_iff hname).1 hr
  cases heq
  obtain rfl := Except.ok.inj (hq.symm.trans hp)
  rw [h] at hnode
  cases hnode

/-- What a commit that ends well leaves of the files. -/
theorem exists_of_committed (hw : PlainNamed o.files) (hne : o.files ≠ [])
    (h : commitTo dir o t = (.ok (), t')) : ∃ t1 p events,
      t.makeDirectories dir = (t1, .ok ()) ∧ t1.walk dir = .ok p ∧
      (∀ f ∈ o.files, FitsBeside dir p t1 f) ∧
      (move (o.files.map (staged dir)) : StateM Tree _) (o.files.foldl (beside p) t1) =
        ((.ok (), events), t') := by
  obtain ⟨t1, t2, ss, events, events', hmake, hstage, hmove⟩ := exists_of_commitTo_ok h
  obtain ⟨p, hp⟩ := exists_walk_of_stage hw hne hstage
  obtain ⟨hfits, rfl, -, rfl⟩ := (stage_eq_ok_iff hw hp).1 hstage
  exact ⟨t1, p, events', hmake, hp, hfits, hmove⟩

/-- A commit from an empty directory that ends well does the same as one to an empty shelf exactly
if no file is named as one behind it is on its way. -/
theorem agrees_iff_unclashing (hw : PlainNamed o.files) (hfree : Unfilled dir t)
    (h : commitTo dir o t = (.ok (), t')) : Agrees dir o t' ↔ Unclashing o.files := by
  by_cases hne : o.files = []
  · obtain ⟨t1, t2, ss, events, events', hmake, hstage, hmove⟩ := exists_of_commitTo_ok h
    rw [hne] at hstage
    cases hstage
    cases hmove
    refine iff_of_true ⟨by simp [hne], fun p q text hp hbelow hq hnode => ?_⟩ ?_
    · exact absurd hnode (hfree.made hmake hp hbelow hq)
    · simp [hne, Unclashing]
  · obtain ⟨t1, p, events, hmake, hp, hfits, hmove⟩ := exists_of_committed hw hne h
    have hgrown := foldl_beside_grown hfits
    have hwritten := walk_grown hgrown hp
    have hvacated := vacated_move hw hwritten hmove
    have hwalk := walk_grown hvacated.grown hwritten
    constructor
    · intro hagrees
      by_contra hclash
      obtain ⟨f, hf, hnone⟩ := lost_of_clash hw hwritten hmove hclash
      have hread := hagrees.targets f hf
      rw [Shelf.get?_commit_of_mem hw.distinct hf] at hread
      exact read_ne_ok_of_none (hw.plain f hf) hwalk hnone (eq_ok_of_toOption hread)
    · intro hunclashing
      have hbeside : ∀ f ∈ o.files, IsBeside dir p (o.files.foldl (beside p) t1) f := fun f hf =>
        ⟨(hfits f hf).temp, foldl_beside_of_mem hw hf⟩
      have htargets := targets_of_move hw hunclashing hwritten hbeside hmove
      refine ⟨fun f hf => ?_, fun p' q text hp' hbelow hq hnode => ?_⟩
      · obtain ⟨htarget, hnode⟩ := htargets f hf
        rw [Shelf.get?_commit_of_mem hw.distinct hf,
          read_target (hw.plain f hf) htarget hwalk hnode]
        rfl
      · obtain rfl := Except.ok.inj (hwalk.symm.trans hp')
        by_contra hother
        push Not at hother
        have htemp : ∀ f ∈ o.files, q ≠ tempName f.name :: p := by
          rintro f hf rfl
          rw [hvacated.temps f hf fun g hg e => hother g hg (by rw [e])] at hnode
          cases hnode
        rw [hvacated.others q fun f hf => ⟨hother f hf, htemp f hf⟩,
          foldl_beside_of_not_mem htemp] at hnode
        exact hfree.made hmake hp hbelow hq hnode

end

theorem unfilled_empty (dir : String) : Unfilled dir .empty := by
  intro p q text _ _ _
  cases q with
  | nil => simp [Tree.get?]
  | cons name q =>
    rw [get?_cons, Tree.empty, List.lookup_cons]
    split <;> simp

/-- The first file is named as the second one is on its way. -/
def clashingOutput : Output := ⟨[⟨"a.tmp", "T"⟩, ⟨"a", "A"⟩]⟩

def reversedOutput : Output := ⟨[⟨"a", "A"⟩, ⟨"a.tmp", "T"⟩]⟩

/-- The same two files get to an empty directory in one order only, although both commits end
well. -/
theorem order_decides : ∃ t t', commitTo "out" clashingOutput .empty = (.ok (), t) ∧
    (t.read "out/a").toOption = some "T" ∧ ¬Agrees "out" clashingOutput t ∧
    commitTo "out" reversedOutput .empty = (.ok (), t') ∧ Agrees "out" reversedOutput t' := by
  have hok : ∀ o ∈ [clashingOutput, reversedOutput],
      (commitTo "out" o .empty).1.toOption = some () := by decide +kernel
  have hends : ∀ o ∈ [clashingOutput, reversedOutput],
      commitTo "out" o .empty = (.ok (), (commitTo "out" o .empty).2) := fun o ho =>
    Prod.ext (eq_ok_of_toOption (hok o ho)) rfl
  have hclashing := hends clashingOutput (by simp)
  have hreversed := hends reversedOutput (by simp)
  refine ⟨_, _, hclashing, by decide +kernel, ?_, hreversed, ?_⟩
  · rw [agrees_iff_unclashing (PlainNamed.of_names (by decide) (by decide +kernel))
      (unfilled_empty _) hclashing]
    simp [Unclashing, clashingOutput, tempName]
  · rw [agrees_iff_unclashing (PlainNamed.of_names (by decide) (by decide +kernel))
      (unfilled_empty _) hreversed]
    simp [Unclashing, reversedOutput, tempName]

end Bindery
