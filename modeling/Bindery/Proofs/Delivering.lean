import Bindery.Delivery
import Bindery.Proofs.Committing
import Bindery.Proofs.Consistency
import Bindery.Proofs.FileNames

/-!
# What runs leave

The files of an output are named after units, which are identifiers and not reserved, so that they
can be put into one directory. A run leaves them there and changes nothing else.
-/
namespace Bindery

open Files Tree

/-! The names of an output -/

theorem isPlain_fileName {unit : String} (h : Naming.isIdentifier unit = true) :
    IsPlain (unit ++ ".rs") := by
  have hslash : '/' ∉ unit.toList :=
    Naming.not_mem_of_isIdentifier (by decide) Text.isAlphanumeric_slash h
  have hlong : ∀ other : String, other.length < 3 → unit ++ ".rs" ≠ other := by
    rintro _ hshort rfl
    rw [String.length_append, show ".rs".length = 3 from rfl] at hshort
    omega
  refine ⟨isStep_iff.2 ⟨hlong "" (by decide), hlong "." (by decide)⟩, hlong ".." (by decide), ?_⟩
  simpa using hslash

/-- No file is named as another one is on its way. -/
theorem fileName_ne_tempName (unit other : String) : unit ++ ".rs" ≠ tempName (other ++ ".rs") := by
  intro h
  have hlast := congrArg (fun name => name.toList.getLast?) h
  simp [tempName] at hlast

theorem wellNamed_of_units {us : List String} {files : List OutputFile} (hn : us.Nodup)
    (hid : ∀ u ∈ us, Naming.isIdentifier u = true)
    (h : files.map (·.name) = us.map (· ++ ".rs")) : WellNamed files := by
  have hfile : ∀ f ∈ files, ∃ unit ∈ us, unit ++ ".rs" = f.name := by
    intro f hf
    have hmem : f.name ∈ files.map (·.name) := List.mem_map_of_mem hf
    rw [h] at hmem
    exact List.mem_map.1 hmem
  refine ⟨fun f hf => ?_, ?_, fun f hf g hg => ?_⟩
  · obtain ⟨unit, hu, hname⟩ := hfile f hf
    rw [← hname]
    exact isPlain_fileName (hid unit hu)
  · rw [h]
    exact hn.map fun a b hab => (String.append_left_inj ".rs").1 hab
  · obtain ⟨unit, -, hname⟩ := hfile f hf
    obtain ⟨other, -, hother⟩ := hfile g hg
    rw [← hname, ← hother]
    exact fileName_ne_tempName unit other

theorem wellNamed_of_generate {c : Catalog} {s : Settings} {o : Output}
    (h : generate c s = .ok o) : WellNamed o.files ∧ o.files ≠ [] := by
  obtain ⟨ms, hacc, hnames⟩ := exists_names h
  refine ⟨wellNamed_of_units hacc.units_nodup hacc.units_isIdentifier hnames, ?_⟩
  intro hnil
  rw [Output.names, hnil] at hnames
  cases hnames

/-! Shelves -/

namespace Shelf

theorem commit_cons (shelf : Shelf) (f : OutputFile) (rest : List OutputFile) :
    shelf.commit ⟨f :: rest⟩ = commit (Keyed.put f.name f.content shelf) ⟨rest⟩ := rfl

theorem get?_commit_of_not_mem {files : List OutputFile} {name : String}
    (h : name ∉ files.map (·.name)) (shelf : Shelf) :
    (shelf.commit ⟨files⟩).get? name = shelf.get? name := by
  induction files generalizing shelf with
  | nil => rfl
  | cons f rest ih =>
    obtain ⟨hne, hrest⟩ := not_or.1 (List.mem_cons.not.1 h)
    rw [commit_cons, ih hrest]
    exact Keyed.lookup_put_ne hne f.content shelf

theorem get?_commit_of_mem {files : List OutputFile} (hn : (files.map (·.name)).Nodup)
    {f : OutputFile} (hf : f ∈ files) (shelf : Shelf) :
    (shelf.commit ⟨files⟩).get? f.name = some f.content := by
  induction files generalizing shelf with
  | nil => cases hf
  | cons g rest ih =>
    obtain ⟨hnot, hrest⟩ := List.nodup_cons.1 hn
    rw [commit_cons]
    rcases List.mem_cons.1 hf with rfl | hf
    · rw [get?_commit_of_not_mem hnot]
      exact Keyed.lookup_put_self f.name f.content shelf
    · exact ih hrest hf _

end Shelf

/-! Runs -/

/-- What a run into a directory of a tree reports, and the tree that it leaves. -/
def deliverTo (c : Catalog) (s : Settings) (dir : String) (t : Tree) :
    Except Failure Output × Tree :=
  let r := (deliver c s dir : StateM Tree _) t
  (r.1.1, r.2)

/-- An output is in the directory of a path, nothing is left of its way there, and nothing else is
changed but that directories were made on the way of the path. -/
structure Delivered (o : Output) (dir : String) (p : Files.Place) (t t' : Tree) : Prop where
  reached : t'.walk dir = .ok p
  here : t'.here = t.here
  targets : ∀ f ∈ o.files, t'.get? (f.name :: p) = some (.file (some f.content))
  readable : ∀ f ∈ o.files, t'.read (join dir f.name) = .ok f.content
  temps : ∀ f ∈ o.files, t'.get? ((f.name ++ ".tmp") :: p) = none
  others : ∀ q, (∀ f ∈ o.files, q ≠ f.name :: p ∧ q ≠ (f.name ++ ".tmp") :: p) →
    t'.get? q = t.get? q ∨ t.get? q = none ∧ t'.get? q = some .directory ∧ t'.OnWay dir q

/-- A file of that name can be put into a directory where there is none. -/
def FreeIn (dir : String) (p : Files.Place) (t : Tree) (name : String) : Prop :=
  (∀ path ∈ [join dir name, tempPath (join dir name)], Allowed path) ∧
    ∀ n ∈ [name, tempName name], n.utf8ByteSize ≤ nameLimit ∧ t.get? (n :: p) = none

instance (path : String) : Decidable (Allowed path) :=
  decidable_of_iff ('\x00' ∉ path.toList ∧ path.utf8ByteSize ≤ pathLimit)
    ⟨fun ⟨hzero, hsize⟩ => ⟨hzero, hsize⟩, fun h => ⟨h.1, h.2⟩⟩

instance (dir : String) (p : Files.Place) (t : Tree) (name : String) :
    Decidable (FreeIn dir p t name) :=
  inferInstanceAs (Decidable ((∀ path ∈ [join dir name, tempPath (join dir name)], Allowed path) ∧
    ∀ n ∈ [name, tempName name], n.utf8ByteSize ≤ nameLimit ∧ t.get? (n :: p) = none))

section

variable {c : Catalog} {s : Settings} {dir : String} {o : Output} {t t' : Tree}
  {p : Files.Place}

theorem deliverTo_of_error {why : Failure} (h : generate c s = .error why) :
    deliverTo c s dir t = (.error why, t) := by
  unfold deliverTo deliver
  -- the journal runs part of the generation again
  generalize Journal.ofRun c s = journal
  rw [h]
  rfl

theorem deliverTo_of_ok (h : generate c s = .ok o) : deliverTo c s dir t =
    (((commit dir o : StateM Tree _) t).1.1.map fun _ => o,
      ((commit dir o : StateM Tree _) t).2) := by
  unfold deliverTo deliver
  generalize Journal.ofRun c s = journal
  rw [h]
  dsimp only
  rw [bind_apply]
  generalize (commit dir o : StateM Tree _) t = r
  generalize Journal.complete o = event
  obtain ⟨⟨result, events⟩, t'⟩ := r
  cases result <;> rfl

theorem deliverTo_eq_ok_iff (h : generate c s = .ok o) : deliverTo c s dir t = (.ok o, t') ↔
    ∃ t1 p, t.makeDirectories dir = (t1, .ok ()) ∧ t1.walk dir = .ok p ∧ FitsIn dir p t1 o ∧
      t' = committed p o t1 := by
  obtain ⟨hw, hne⟩ := wellNamed_of_generate h
  rw [deliverTo_of_ok h, ← commit_eq_ok_iff hw hne]
  generalize (commit dir o : StateM Tree _) t = r
  obtain ⟨⟨result, events⟩, t1⟩ := r
  cases result with
  | error why =>
    constructor
    · intro h
      cases h
    · rintro ⟨_, h⟩
      cases h
  | ok u =>
    constructor
    · intro h
      cases h
      exact ⟨events, rfl⟩
    · rintro ⟨_, h⟩
      cases h
      rfl

/-- Where it leads to if the names of the output are free in the directory. -/
theorem deliverTo_of_free (h : generate c s = .ok o) (hmake : (t.makeDirectories dir).2 = .ok ())
    (hp : (t.makeDirectories dir).1.walk dir = .ok p)
    (hfree : ∀ name ∈ o.names, FreeIn dir p (t.makeDirectories dir).1 name) :
    ∃ t', deliverTo c s dir t = (.ok o, t') := by
  refine ⟨_, (deliverTo_eq_ok_iff h).2 ⟨_, p, Prod.ext rfl hmake, hp, ⟨fun f hf => ?_, fun f hf => ?_⟩,
    rfl⟩⟩
  · obtain ⟨hpaths, hnames⟩ := hfree f.name (List.mem_map_of_mem hf)
    obtain ⟨hsize, hnone⟩ := hnames (tempName f.name) (by simp)
    exact ⟨⟨hpaths _ (by simp [Commit.staged]), hsize⟩, by simp [hnone]⟩
  · obtain ⟨hpaths, hnames⟩ := hfree f.name (List.mem_map_of_mem hf)
    obtain ⟨hsize, hnone⟩ := hnames f.name (by simp)
    exact ⟨⟨hpaths _ (by simp [Commit.staged]), hsize⟩, by simp [hnone]⟩

/-- Output that is not delivered could not be written somewhere. -/
theorem exists_write_of_ne_ok (h : generate c s = .ok o)
    (hne : ∀ t', deliverTo c s dir t ≠ (.ok o, t')) :
    ∃ path why, (deliverTo c s dir t).1 = .error (.write path why) := by
  rw [deliverTo_of_ok h] at hne ⊢
  cases hresult : ((commit dir o : StateM Tree _) t).1.1 with
  | error why =>
    obtain ⟨path, fault, rfl⟩ := commit_error hresult
    exact ⟨path, fault, rfl⟩
  | ok u =>
    rw [hresult] at hne
    exact absurd rfl (hne _)

theorem delivered_of_fits {t1 : Tree} (hw : WellNamed o.files)
    (hmake : t.makeDirectories dir = (t1, .ok ())) (hp : t1.walk dir = .ok p)
    (hfits : FitsIn dir p t1 o) : Delivered o dir p t (committed p o t1) := by
  have hplaced : Placed p o t1 (committed p o t1) := placed_committed hw
  have hgrown := hplaced.grown hfits
  have hwalk := walk_grown hgrown hp
  have hextended := makeDirectories_extended t dir
  rw [hmake] at hextended
  refine ⟨hwalk, hplaced.here.trans hextended.grown.here, hplaced.targets, fun f hf => ?_,
    hplaced.temps, fun q hq => ?_⟩
  · have hr := (resolve_join_eq_ok_iff (hw.plain f hf)).2
      ⟨(hfits.upon f hf).target, p, hwalk, rfl⟩
    exact read_eq_ok_iff.2 ⟨p, f.name, hr, hplaced.targets f hf⟩
  · rw [hplaced.others q hq]
    exact (hextended.nodes q).imp_right fun ⟨hnone, hdir, hway⟩ =>
      ⟨hnone, hdir, hway.grown hgrown⟩

/-- What was delivered is delivered again, and leaves the same. -/
theorem deliverTo_again (h : generate c s = .ok o) (hp : t.walk dir = .ok p)
    (hfits : FitsIn dir p t o) :
    ∃ t'', deliverTo c s dir (committed p o t) = (.ok o, t'') ∧ Same (committed p o t) t'' := by
  obtain ⟨hw, hne⟩ := wellNamed_of_generate h
  have hplaced : Placed p o t (committed p o t) := placed_committed hw
  have hwalk := walk_grown (hplaced.grown hfits) hp
  obtain ⟨f, rest, hfiles⟩ := List.exists_cons_of_ne_nil hne
  have hf : f ∈ o.files := by simp [hfiles]
  have hmake := makeDirectories_of_walk
    (allowed_of_join (hw.plain f hf) (hfits.upon f hf).target.allowed) hwalk
  exact ⟨_, (deliverTo_eq_ok_iff h).2 ⟨_, p, hmake, hwalk, hplaced.fits hfits, rfl⟩,
    hplaced.again (placed_committed hw)⟩

theorem shelve_of_ok (h : generate c s = .ok o) (shelf : Shelf) :
    (shelve c s shelf).1 = .ok (o, shelf.commit o) := by
  unfold shelve
  generalize Journal.ofRun c s = journal
  rw [h]

/-- A directory and an empty shelf hold the same. -/
theorem get?_shelf_iff (hw : WellNamed o.files) (h : Delivered o dir p t t') (name text : String) :
    (Shelf.commit [] o).get? name = some text ↔
      name ∈ o.names ∧ t'.get? (name :: p) = some (.file (some text)) := by
  by_cases hname : name ∈ o.names
  · obtain ⟨f, hf, rfl⟩ := List.mem_map.1 hname
    rw [Shelf.get?_commit_of_mem hw.distinct hf, h.targets f hf]
    simp [hname]
  · rw [Shelf.get?_commit_of_not_mem hname]
    simp [hname, Shelf.get?]

end

/-- A run that cannot generate output leaves the tree alone. Any other run puts its output into the
directory and changes nothing else, or could not write something. Running it again after it has
worked changes nothing, and a shelf would hold the same files. -/
theorem deliver_spec (c : Catalog) (s : Settings) (dir : String) (t : Tree) :
    (∀ why, generate c s = .error why → deliverTo c s dir t = (.error why, t)) ∧
    ∀ o, generate c s = .ok o →
      (∃ path why, (deliverTo c s dir t).1 = .error (.write path why)) ∨
      ∃ p t', deliverTo c s dir t = (.ok o, t') ∧ Delivered o dir p t t' ∧
        (∃ t'', deliverTo c s dir t' = (.ok o, t'') ∧ Same t' t'') ∧
        ∃ shelf, (shelve c s []).1 = .ok (o, shelf) ∧
          ∀ name text, shelf.get? name = some text ↔
            name ∈ o.names ∧ t'.get? (name :: p) = some (.file (some text)) := by
  refine ⟨fun why h => deliverTo_of_error h, fun o h => ?_⟩
  obtain ⟨hw, -⟩ := wellNamed_of_generate h
  by_cases hok : ∃ t', deliverTo c s dir t = (.ok o, t')
  · obtain ⟨t', hrun⟩ := hok
    obtain ⟨t1, p, hmake, hp, hfits, rfl⟩ := (deliverTo_eq_ok_iff h).1 hrun
    have hdelivered := delivered_of_fits hw hmake hp hfits
    exact .inr ⟨p, _, hrun, hdelivered, deliverTo_again h hp hfits, _, shelve_of_ok h [],
      get?_shelf_iff hw hdelivered⟩
  · exact .inl (exists_write_of_ne_ok h fun t' hrun => hok ⟨t', hrun⟩)

/-- A directory of that name is made where nothing is, and the output is put there. -/
theorem stray_delivered : ∃ o p t', generate .stray .stray = .ok o ∧
    deliverTo .stray .stray "out" .empty = (.ok o, t') ∧ Delivered o "out" p .empty t' := by
  obtain ⟨o, ho⟩ := exists_generate_stray
  have hnames : o.names = ["services.rs", "a.rs", "mod.rs"] := names_of_plan ho (by decide +kernel)
  have hfree : ∀ name ∈ ["services.rs", "a.rs", "mod.rs"],
      FreeIn "out" ["out", "work"] (Tree.empty.makeDirectories "out").1 name := by decide +kernel
  have hmake : (Tree.empty.makeDirectories "out").2 = .ok () :=
    eq_ok_of_toOption (by decide +kernel)
  have hwalk : (Tree.empty.makeDirectories "out").1.walk "out" = .ok ["out", "work"] :=
    eq_ok_of_toOption (by decide +kernel)
  obtain ⟨t', hrun⟩ := deliverTo_of_free ho hmake hwalk (hnames ▸ hfree)
  rcases (deliver_spec .stray .stray "out" .empty).2 o ho with
    ⟨path, why, hfail⟩ | ⟨p, t', hok, hdelivered, -⟩
  · rw [hrun] at hfail
    cases hfail
  · exact ⟨o, p, t', ho, hok, hdelivered⟩

end Bindery
