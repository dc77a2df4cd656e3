import Bindery.Command.Run
import Bindery.Proofs.CatalogText
import Bindery.Proofs.Command.Switches
import Bindery.Proofs.Delivering

/-!
# Dry runs

A dry run changes nothing and prints the files that the run itself would leave. If it fails, the run
itself fails the same way before it changes anything.
-/
namespace Bindery.Command

open Files Tree

/-! What runs print -/

/-- A printed thing as it is shown, with the time in front of an event. -/
def Printed.shown (time : String) : Printed → String
  | .text s => s
  | .event e => time ++ " " ++ e.line ++ "\n"

/-- All that is printed. -/
def Outcome.stdout (o : Outcome) (time : String) : String :=
  String.join (o.printed.map (Printed.shown time))

theorem printedEvents_eq_nil {events : List Event} (h : ∀ e ∈ events, e.level ≠ .warn) :
    printedEvents 0 events = [] := by
  have hnone : events.filter (fun e => shows 0 e.level) = [] := by
    refine List.filter_eq_nil_iff.2 fun e he => ?_
    have hlevel := h e he
    cases hl : e.level with
    | warn => exact absurd hl hlevel
    | info => decide
    | debug => decide
  rw [printedEvents, hnone]
  rfl

theorem level_calls {t : Emission.Target} {ms : List Method} :
    ∀ e ∈ Journal.calls t ms, e.level = .debug := by
  induction ms with
  | nil => exact fun e he => absurd he List.not_mem_nil
  | cons m ms ih =>
    refine List.forall_mem_cons.2 ⟨rfl, fun e he => ?_⟩
    split at he
    · exact ih e he
    · cases he

theorem level_units {t : Emission.Target} {s : Settings} {us : List (String × List Method)} :
    ∀ e ∈ Journal.units t s us, e.level = .debug := by
  induction us with
  | nil => exact fun e he => absurd he List.not_mem_nil
  | cons u us ih =>
    refine List.forall_mem_append.2 ⟨level_calls, fun e he => ?_⟩
    split at he
    · exact ih e he
    · cases he

/-- Emitting code is reported for debugging alone. -/
theorem level_ofRun {c : Catalog} {s : Settings} :
    ∀ e ∈ Journal.ofRun c s, e.level = .debug := by
  unfold Journal.ofRun
  split
  · rename_i t ms ht hs hms
    dsimp only
    refine List.forall_mem_cons.2 ⟨rfl, List.forall_mem_append.2 ⟨?_, ?_⟩⟩
    · intro e he
      obtain ⟨m, -, rfl⟩ := List.mem_map.1 he
      rfl
    · refine List.forall_mem_cons.2 ⟨rfl, fun e he => ?_⟩
      split at he
      · exact level_units e he
      · cases he
  · exact fun e he => absurd he List.not_mem_nil

/-! What runs do -/

/-- The catalog in a file of a tree. -/
def loadFrom (t : Tree) (path : String) : Except Failure Catalog :=
  match t.read path with
  | .error why => .error (.catalog (.unreadable path why))
  | .ok text => (Catalog.parse text).mapError fun why => .catalog (.malformed path why)

/-- The files that are emitted for the catalog of the options. -/
def Options.emit (o : Options) (t : Tree) : Except Failure Output := do
  generate (← loadFrom t o.catalog) o.settings

/-- What running a command line in a tree leads to, and the tree that it leaves. -/
def runIn (t : Tree) (args : List String) : Outcome × Tree := (run args : StateM Tree Outcome) t

variable {o : Options} {t : Tree} {args : List String}

theorem load_apply (path : String) : (load path : StateM Tree _) t = (loadFrom t path, t) := by
  rw [load, bind_apply]
  unfold loadFrom
  change (match t.read path with | .error why => _ | .ok text => _ : StateM Tree _) t = _
  cases t.read path <;> rfl

theorem runIn_eq (h : Request.ofArgs args = .run o) :
    runIn t args = (execute o : StateM Tree _) t := by
  rw [runIn, run, h]

/-- What is reported of loading a catalog. -/
def loaded (o : Options) (c : Catalog) : Event :=
  ⟨.info, "loaded catalog",
    [("catalog", o.catalog), ("endpoints", toString c.endpoints.length)]⟩

/-- Up to the end of emission nothing is printed unless it is asked for. -/
theorem printedEvents_ofRun (c : Catalog) :
    printedEvents 0 (loaded o c :: Journal.ofRun c o.settings) = [] := by
  refine printedEvents_eq_nil (List.forall_mem_cons.2 ⟨by simp [loaded], fun e he => ?_⟩)
  rw [level_ofRun e he]
  decide

/-- A dry run prints the files, if there are any, and leaves the tree alone. -/
theorem execute_dryRun (hdry : o.dryRun = true) (hquiet : o.verbosity = 0) :
    (execute o : StateM Tree _) t = (match o.emit t with
      | .ok out => ⟨0, out.files.map fun f => .text (dryRunText f), none⟩
      | .error why => ⟨exitCode why, [], some why⟩, t) := by
  rw [execute, bind_apply, load_apply]
  unfold Options.emit
  cases loadFrom t o.catalog with
  | error why => rfl
  | ok c =>
    dsimp only
    rw [hdry, hquiet]
    have hprinted := printedEvents_ofRun (o := o) c
    unfold loaded at hprinted
    rw [hprinted]
    cases hgen : generate c o.settings with
    | error why => simp [bind, Except.bind, hgen, pure_apply]
    | ok out => simp [bind, Except.bind, hgen, pure_apply]

/-- A run that emits nothing fails as the dry run does. -/
theorem execute_of_error (hdry : o.dryRun = false) (hquiet : o.verbosity = 0) {why : Failure}
    (h : o.emit t = .error why) :
    (execute o : StateM Tree _) t = (⟨exitCode why, [], some why⟩, t) := by
  unfold Options.emit at h
  rw [execute, bind_apply, load_apply]
  cases hload : loadFrom t o.catalog with
  | error why' =>
    rw [hload] at h
    cases h
    rfl
  | ok c =>
    rw [hload] at h
    have hgen : generate c o.settings = .error why := h
    dsimp only
    rw [hdry, hquiet]
    have hprinted := printedEvents_ofRun (o := o) c
    unfold loaded at hprinted
    have hdeliver : (deliver c o.settings o.output : StateM Tree _) t =
        ((.error why, Journal.ofRun c o.settings), t) := by
      unfold deliver
      rw [hgen]
      rfl
    simp only [Bool.false_eq_true, if_false]
    rw [bind_apply, hdeliver]
    dsimp only
    rw [hprinted]
    rfl

/-- Any other run ends as its delivery does. -/
theorem execute_of_ok (hdry : o.dryRun = false) {out : Output} (h : o.emit t = .ok out) :
    ∃ c, generate c o.settings = .ok out ∧
      ((execute o : StateM Tree _) t).2 = (deliverTo c o.settings o.output t).2 ∧
      (∀ out', (deliverTo c o.settings o.output t).1 = .ok out' →
        ((execute o : StateM Tree _) t).1.exit = 0) ∧
      ∀ why, (deliverTo c o.settings o.output t).1 = .error why →
        ((execute o : StateM Tree _) t).1.exit = exitCode why ∧
        ((execute o : StateM Tree _) t).1.failure = some why := by
  unfold Options.emit at h
  obtain ⟨c, hload, hgen⟩ := bind_eq_ok_iff.1 h
  refine ⟨c, hgen, ?_⟩
  unfold deliverTo
  rw [execute, bind_apply, load_apply, hload]
  dsimp only
  rw [hdry]
  simp only [Bool.false_eq_true, if_false]
  rw [bind_apply]
  generalize (deliver c o.settings o.output : StateM Tree _) t = r
  obtain ⟨⟨result, events⟩, t'⟩ := r
  cases result with
  | ok out' =>
    refine ⟨rfl, fun _ _ => rfl, fun why h => ?_⟩
    cases h
  | error why =>
    refine ⟨rfl, fun out' h => ?_, fun why' h => ?_⟩
    · cases h
    · cases h
      exact ⟨rfl, rfl⟩

/-! Results -/

theorem exitCode_ne_zero (why : Failure) : exitCode why ≠ 0 := by
  unfold exitCode
  split <;> decide

theorem shown_dryRunText (f : OutputFile) (time : String) :
    (Printed.text (dryRunText f)).shown time =
      "=== " ++ f.name ++ " ===\n" ++ f.content ++ "\n\n" := by
  simp [Printed.shown, dryRunText, toString]

theorem stdout_dryRun (files : List OutputFile) (time : String) :
    Outcome.stdout ⟨0, files.map fun f => .text (dryRunText f), none⟩ time =
      String.join (files.map fun f => "=== " ++ f.name ++ " ===\n" ++ f.content ++ "\n\n") := by
  rw [Outcome.stdout, List.map_map]
  exact congrArg String.join (List.map_congr_left fun f _ => shown_dryRunText f time)

theorem deliverTo_cases {c : Catalog} {s : Settings} {dir : String} {out : Output}
    (h : generate c s = .ok out) :
    (∃ path why, (deliverTo c s dir t).1 = .error (.write path why)) ∨
      ∃ p t', deliverTo c s dir t = (.ok out, t') ∧ Delivered out dir p t t' := by
  by_cases hok : ∃ t', deliverTo c s dir t = (.ok out, t')
  · obtain ⟨t', hrun⟩ := hok
    obtain ⟨t1, p, hmake, hp, hfits, rfl⟩ := (deliverTo_eq_ok_iff h).1 hrun
    exact .inr ⟨p, _, hrun, delivered_of_fits (wellNamed_of_generate h).1 hmake hp hfits⟩
  · exact .inl (exists_write_of_ne_ok h fun t' hrun => hok ⟨t', hrun⟩)

theorem exit_dryRun (hargs : Request.ofArgs args = .run o) (hdry : o.dryRun = true)
    (hquiet : o.verbosity = 0) {out : Output} (h : o.emit t = .ok out) :
    (runIn t args).1.exit = 0 := by
  rw [runIn_eq hargs, execute_dryRun hdry hquiet, h]

/-- A run ends well where the names of its output are free. -/
theorem exit_of_free (hargs : Request.ofArgs args = .run o) (hdry : o.dryRun = false) {out : Output}
    (h : o.emit t = .ok out) {p : Files.Place} (hmake : (t.makeDirectories o.output).2 = .ok ())
    (hp : (t.makeDirectories o.output).1.walk o.output = .ok p)
    (hfree : ∀ name ∈ out.names, FreeIn o.output p (t.makeDirectories o.output).1 name) :
    (runIn t args).1.exit = 0 := by
  obtain ⟨c, hgen, -, hok, -⟩ := execute_of_ok hdry h
  obtain ⟨t', hdeliver⟩ := deliverTo_of_free hgen hmake hp hfree
  rw [runIn_eq hargs]
  exact hok out (congrArg Prod.fst hdeliver)

/-- The only new files are those of the output. -/
theorem old_of_delivered {dir : String} {out : Output} {p q : Files.Place} {t' : Tree}
    {text : Option String} (h : Delivered out dir p t t') (hq : t'.get? q = some (.file text))
    (hother : ∀ f ∈ out.files, q ≠ f.name :: p) : t.get? q = some (.file text) := by
  have htemp : ∀ f ∈ out.files, q ≠ (f.name ++ ".tmp") :: p := by
    rintro f hf rfl
    rw [h.temps f hf] at hq
    cases hq
  rcases h.others q fun f hf => ⟨hother f hf, htemp f hf⟩ with hsame | ⟨-, hdir, -⟩
  · rw [← hsame, hq]
  · rw [hdir] at hq
    cases hq

/-- A dry run leaves the tree as it is. If it ends well it prints all files of the output, and the
run itself puts them into the directory and makes no other file, or could not write something. If it
fails, the run itself does the same and leaves the tree as it is. Without `-v` no event is printed in
between, as long as no filter for events is set in the environment. -/
theorem dryRun_predicts (t : Tree) {args : List String} {o : Options}
    (hargs : Request.ofArgs args = .run o) (hdry : o.dryRun = true) (hquiet : o.verbosity = 0) :
    (runIn t args).2 = t ∧
    ((runIn t args).1.exit = 0 → ∃ out, o.emit t = .ok out ∧
      (∀ time, (runIn t args).1.stdout time = String.join
        (out.files.map fun f => "=== " ++ f.name ++ " ===\n" ++ f.content ++ "\n\n")) ∧
      ((runIn t (args.erase "--dry-run")).1.exit = 0 ∧
          (∃ p, Delivered out o.output p t (runIn t (args.erase "--dry-run")).2 ∧
            ∀ q text, (runIn t (args.erase "--dry-run")).2.get? q = some (.file text) →
              (∀ f ∈ out.files, q ≠ f.name :: p) → t.get? q = some (.file text)) ∨
        (runIn t (args.erase "--dry-run")).1.exit = 1 ∧
          ∃ path why, (runIn t (args.erase "--dry-run")).1.failure = some (.write path why))) ∧
    ((runIn t args).1.exit ≠ 0 → (∃ why, (runIn t args).1.failure = some why) ∧
      runIn t (args.erase "--dry-run") = runIn t args) := by
  have hreal := runIn_eq (t := t) (ofArgs_erase hargs hdry)
  rw [dryRunArg] at hreal
  rw [hreal, runIn_eq hargs, execute_dryRun hdry hquiet]
  refine ⟨rfl, fun hexit => ?_, fun hexit => ?_⟩
  · cases hemit : o.emit t with
    | error why =>
      rw [hemit] at hexit
      exact absurd hexit (exitCode_ne_zero why)
    | ok out =>
      refine ⟨out, rfl, stdout_dryRun out.files, ?_⟩
      obtain ⟨c, hgen, htree, hok, hfail⟩ :=
        execute_of_ok (o := { o with dryRun := false }) rfl hemit
      rcases deliverTo_cases hgen with ⟨path, why, hrun⟩ | ⟨p, t', hrun, hdelivered⟩
      · obtain ⟨hcode, hfailure⟩ := hfail _ hrun
        exact .inr ⟨hcode, path, why, hfailure⟩
      · rw [htree, hrun]
        refine .inl ⟨hok out (congrArg Prod.fst hrun), p, hdelivered, fun q text hq hother => ?_⟩
        exact old_of_delivered hdelivered hq hother
  · cases hemit : o.emit t with
    | ok out =>
      rw [hemit] at hexit
      exact absurd rfl hexit
    | error why =>
      exact ⟨⟨why, rfl⟩, execute_of_error (o := { o with dryRun := false }) rfl hquiet hemit⟩

/-- A tree with a catalog in the current directory. -/
def archiveTree : Tree :=
  ⟨[(["work"], .directory),
    (["endpoints.json", "work"], .file (some Catalog.archive.write))], ["work"]⟩

theorem loadFrom_archiveTree : loadFrom archiveTree "endpoints.json" = .ok .archive := by
  have hnamed : ∀ e ∈ Catalog.archive.endpoints, ∀ a ∈ e.arguments,
      ArgType.ofText a.type.name = a.type := by decide +kernel
  have hsplit : splitLast (pieces "endpoints.json") = ([], some ("endpoints.json", false)) := by
    decide +kernel
  have hstart : archiveTree.start "endpoints.json" = ["work"] := if_neg (by decide +kernel)
  have hfile : archiveTree.get? ["endpoints.json", "work"] =
      some (.file (some Catalog.archive.write)) := by
    simp [archiveTree, Tree.get?, List.lookup]
  have hread : archiveTree.read "endpoints.json" = .ok Catalog.archive.write := by
    refine read_eq_ok_iff.2 ⟨["work"], "endpoints.json", resolve_eq_ok_iff.2 ⟨by decide +kernel,
      by decide, ["work"], ?_, ?_⟩, hfile⟩
    · rw [hsplit, hstart]
      rfl
    · rw [hsplit]
      exact .name (by decide) (by decide) (by decide +kernel)
  rw [loadFrom, hread]
  dsimp only
  rw [Catalog.parse_write fun e he a ha => ⟨_, (hnamed e he a ha).symm⟩]
  rfl

theorem archive_predicted :
    Request.ofArgs ["-oout", "--dry-run"] = .run { output := "out", dryRun := true } ∧
    ∃ out : Output, out.names = ["services.rs", "files.rs", "users.rs", "mod.rs"] ∧
      (runIn archiveTree ["-oout", "--dry-run"]).1.stdout "" = String.join
        (out.files.map fun f => "=== " ++ f.name ++ " ===\n" ++ f.content ++ "\n\n") ∧
      (runIn archiveTree ["-oout"]).1.exit = 0 ∧
      ∃ p, Delivered out "out" p archiveTree (runIn archiveTree ["-oout"]).2 := by
  have hargs : Request.ofArgs ["-oout", "--dry-run"] =
      .run { output := "out", dryRun := true } := by decide +kernel
  have hreal : Request.ofArgs ["-oout"] = .run { output := "out" } := by decide +kernel
  have hsettings : ∀ dryRun, Options.settings { output := "out", dryRun } = {} := by decide +kernel
  obtain ⟨o, ho⟩ := exists_generate_archive
  have hemit : ∀ dryRun, Options.emit { output := "out", dryRun } archiveTree = .ok o :=
    fun _ => by rw [Options.emit, loadFrom_archiveTree, ok_bind, hsettings, ho]
  have hnames : o.names = ["services.rs", "files.rs", "users.rs", "mod.rs"] :=
    names_of_plan ho (by decide +kernel)
  have hfree : ∀ name ∈ ["services.rs", "files.rs", "users.rs", "mod.rs"],
      FreeIn "out" ["out", "work"] (archiveTree.makeDirectories "out").1 name := by decide +kernel
  have hexit : (runIn archiveTree ["-oout"]).1.exit = 0 :=
    exit_of_free hreal rfl (hemit false) (eq_ok_of_toOption (by decide +kernel))
      (eq_ok_of_toOption (by decide +kernel)) (hnames ▸ hfree)
  obtain ⟨-, hok, -⟩ := dryRun_predicts archiveTree hargs rfl rfl
  obtain ⟨out, hout, hstdout, hrun⟩ := hok (exit_dryRun hargs rfl rfl (hemit true))
  obtain rfl := Except.ok.inj ((hemit true).symm.trans hout)
  refine ⟨hargs, o, hnames, hstdout "", hexit, ?_⟩
  rcases hrun with ⟨-, p, hdelivered, -⟩ | ⟨hfailed, -⟩
  · exact ⟨p, hdelivered⟩
  · exact absurd (hexit.symm.trans hfailed) (by decide)

end Bindery.Command
