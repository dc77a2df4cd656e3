import Bindery.Command.Options
import Mathlib

/-!
# Command lines with and without a switch

Only the argument for a dry run asks for one. A command line without it says the same but for that.
-/
namespace Bindery.Command

/-- What asks for a dry run. -/
def dryRunArg : String := "--dry-run"

variable {given given' more : List Switch} {o o' next : Options} {pending : Option Switch}
  {arg : String} {rest : List String} {cs : List Char}

/-! Arguments one by one -/

/-- The switches of an argument, behind its first dash. -/
def switchesOf (given : List Switch) (o : Options) : List Char → Step × Option Switch
  | '-' :: body => longOption given o body
  | body => cluster given o body

/-- Goes on behind an argument. -/
def resume (step : Step × Option Switch) (rest : List String) : Request :=
  match step with
  | (.more given o, pending) => read given o pending rest
  | (.stop r, _) => r

theorem read_switches (h : arg.toList = '-' :: cs) (hne : cs ≠ []) (hdash : cs ≠ ['-']) :
    read given o none (arg :: rest) = resume (switchesOf given o cs) rest := by
  rw [read, h]
  cases cs with
  | nil => exact absurd rfl hne
  | cons c body =>
    by_cases hc : c = '-'
    · subst hc
      cases body with
      | nil => exact absurd rfl hdash
      | cons d body => rfl
    · have hswitches : switchesOf given o (c :: body) = cluster given o (c :: body) := by
        unfold switchesOf
        split
        · rename_i heq
          exact absurd (List.cons.inj heq).1 hc
        · rfl
      rw [hswitches]
      split
      · rename_i heq
        exact absurd (List.cons.inj (List.cons.inj heq).2).1 hc
      · rename_i heq
        exact absurd (List.cons.inj (List.cons.inj heq).2).1 hc
      · rename_i heq
        cases heq
        rfl
      · rename_i hother
        exact absurd rfl (hother c body)

theorem read_dashes (h : arg.toList = ['-', '-']) :
    read given o none (arg :: rest) = if rest.isEmpty then .run o else .misuse := by
  rw [read, h]
  rfl

/-- An argument that is no switch is not expected. -/
theorem read_stray (h : ∀ cs, arg.toList = '-' :: cs → cs = []) :
    read given o none (arg :: rest) = .misuse := by
  rw [read]
  split
  · rename_i heq
    exact absurd (h _ heq) (by simp)
  · rename_i heq
    exact absurd (h _ heq) (by simp)
  · rename_i heq
    exact absurd (h _ heq) (by simp)
  · rfl

/-! Where reading stops -/

theorem take_stop {s : Switch} {value : String} {r : Request}
    (h : take given o s value = .stop r) : ∀ o, r ≠ .run o := by
  rintro o rfl
  unfold take at h
  split at h
  · cases h
  · cases h
  · cases h
  · split at h <;> cases h

theorem cluster_stop {r : Request} (h : cluster given o cs = (.stop r, pending)) :
    ∀ o, r ≠ .run o := by
  induction cs generalizing given o with
  | nil => cases h
  | cons c cs ih =>
    rw [cluster] at h
    split at h
    · cases h
      simp
    · split at h
      · split at h
        · cases h
        · exact take_stop (congrArg Prod.fst h)
        · exact take_stop (congrArg Prod.fst h)
      · split at h
        · exact ih h
        · exact take_stop (congrArg Prod.fst h)

theorem longOption_stop {r : Request} (h : longOption given o cs = (.stop r, pending)) :
    ∀ o, r ≠ .run o := by
  unfold longOption at h
  dsimp only at h
  split at h
  · cases h
    simp
  · split at h
    · split at h
      · cases h
      · exact take_stop (congrArg Prod.fst h)
    · split at h
      · exact take_stop (congrArg Prod.fst h)
      · cases h
        simp

theorem switchesOf_stop {r : Request} (h : switchesOf given o cs = (.stop r, pending)) :
    ∀ o, r ≠ .run o := by
  unfold switchesOf at h
  split at h
  · exact longOption_stop h
  · exact cluster_stop h

/-- What an argument is if a run is read from it and the rest. -/
theorem read_cons_eq_run {r : Options} (h : read given o none (arg :: rest) = .run r) :
    (arg.toList = ['-', '-'] ∧ rest = [] ∧ o = r) ∨
    ∃ cs more next pending, arg.toList = '-' :: cs ∧ cs ≠ [] ∧ cs ≠ ['-'] ∧
      switchesOf given o cs = (.more more next, pending) ∧ read more next pending rest = .run r := by
  by_cases hdashes : arg.toList = ['-', '-']
  · rw [read_dashes hdashes] at h
    split at h
    · rename_i hrest
      exact .inl ⟨hdashes, List.isEmpty_iff.1 hrest, Request.run.inj h⟩
    · cases h
  · by_cases hstray : ∀ cs, arg.toList = '-' :: cs → cs = []
    · rw [read_stray hstray] at h
      cases h
    · push Not at hstray
      obtain ⟨cs, harg, hne⟩ := hstray
      have hdash : cs ≠ ['-'] := fun hcs => hdashes (by rw [harg, hcs])
      rw [read_switches harg hne hdash] at h
      cases hstep : switchesOf given o cs with
      | mk step pending =>
        rw [hstep] at h
        cases step with
        | more more next => exact .inr ⟨cs, more, next, pending, harg, hne, hdash, hstep, h⟩
        | stop r' => exact absurd h (switchesOf_stop hstep r)

theorem read_pending_eq_run {s : Switch} {r : Options}
    (h : read given o (some s) (arg :: rest) = .run r) : looksLikeSwitch arg = false ∧
      ∃ more next, take given o s arg = .more more next ∧ read more next none rest = .run r := by
  rw [read] at h
  split at h
  · cases h
  · rename_i hlooks
    split at h
    · rename_i htake
      exact ⟨by simpa using hlooks, _, _, htake, h⟩
    · rename_i htake
      exact absurd h (take_stop htake r)

/-! What an argument means -/

/-- Takes switches with their values, one after the other. -/
def takeAll (given : List Switch) (o : Options) : List (Switch × String) → Step
  | [] => .more given o
  | (s, value) :: rest =>
    match take given o s value with
    | .more given o => takeAll given o rest
    | stop => stop

/-- The switches written together behind one dash, and the one that still needs a value. -/
def clusterParts : List Char → Option (List (Switch × String) × Option Switch)
  | [] => some ([], none)
  | c :: rest => (Switch.all.find? (·.short? == some c)).bind fun s =>
    if s.takesValue then
      match rest with
      | [] => some ([], some s)
      | d :: value => some ([(s, String.ofList (if d = '=' then value else d :: value))], none)
    else (clusterParts rest).map fun r => ((s, "") :: r.1, r.2)

/-- The same of a long option. -/
def longParts (body : List Char) : Option (List (Switch × String) × Option Switch) :=
  (Switch.all.find? (·.long == String.ofList (body.takeWhile (· != '=')))).bind fun s =>
    match body.dropWhile (· != '=') with
    | [] => if s.takesValue then some ([], some s) else some ([(s, "")], none)
    | _ :: value => if s.takesValue then some ([(s, String.ofList value)], none) else none

/-- The same of an argument behind its first dash. -/
def parts : List Char → Option (List (Switch × String) × Option Switch)
  | '-' :: body => longParts body
  | body => clusterParts body

theorem takeAll_singleton (s : Switch) (value : String) :
    takeAll given o [(s, value)] = take given o s value := by
  rw [takeAll]
  split
  · rename_i h
    rw [h]
    rfl
  · rfl

/-- An argument that means one switch. -/
theorem take_eq_more_iff {s : Switch} {value : String} :
    (take given o s value, (none : Option Switch)) = (.more more next, pending) ↔
      ∃ ps, some ([(s, value)], none) = some (ps, pending) ∧
        takeAll given o ps = .more more next := by
  simp only [Option.some.injEq, Prod.mk.injEq, and_assoc, exists_eq_left', takeAll_singleton]
  exact and_comm

/-- What switches mean does not depend on what was read before them. -/
theorem cluster_eq_more_iff : cluster given o cs = (.more more next, pending) ↔
    ∃ ps, clusterParts cs = some (ps, pending) ∧ takeAll given o ps = .more more next := by
  induction cs generalizing given o with
  | nil =>
    simp only [cluster, clusterParts, Option.some.injEq, Prod.mk.injEq, and_assoc, exists_eq_left']
    exact and_comm
  | cons c cs ih =>
    rw [cluster, clusterParts]
    cases Switch.all.find? (·.short? == some c) with
    | none => simp
    | some s =>
      simp only [Option.bind_some]
      by_cases hvalue : s.takesValue = true
      · rw [if_pos hvalue, if_pos hvalue]
        cases cs with
        | nil =>
          simp only [Option.some.injEq, Prod.mk.injEq, and_assoc, exists_eq_left', takeAll]
          exact and_comm
        | cons d cs =>
          by_cases hd : d = '='
          · subst hd
            exact take_eq_more_iff
          · dsimp only
            rw [if_neg hd]
            split
            · contradiction
            · rename_i heq
              exact absurd (List.cons.inj heq).1 hd
            · exact take_eq_more_iff
      · rw [if_neg hvalue, if_neg hvalue]
        have hcons : (∃ ps, (clusterParts cs).map (fun r => ((s, "") :: r.1, r.2)) =
              some (ps, pending) ∧ takeAll given o ps = .more more next) ↔
            ∃ ps, clusterParts cs = some (ps, pending) ∧
              takeAll given o ((s, "") :: ps) = .more more next := by
          constructor
          · rintro ⟨_, hmap, htake⟩
            obtain ⟨⟨ps, _⟩, hparts, heq⟩ := Option.map_eq_some_iff.1 hmap
            cases heq
            exact ⟨ps, hparts, htake⟩
          · rintro ⟨ps, hparts, htake⟩
            exact ⟨_, by rw [hparts]; rfl, htake⟩
        rw [hcons]
        simp only [takeAll]
        cases take given o s "" with
        | more given o => exact ih
        | stop r => simp

theorem longOption_eq_more_iff : longOption given o cs = (.more more next, pending) ↔
    ∃ ps, longParts cs = some (ps, pending) ∧ takeAll given o ps = .more more next := by
  unfold longOption longParts
  dsimp only
  cases Switch.all.find? (·.long == String.ofList (cs.takeWhile (· != '='))) with
  | none => simp
  | some s =>
    simp only [Option.bind_some]
    cases cs.dropWhile (· != '=') with
    | nil =>
      dsimp only
      split
      · simp only [Option.some.injEq, Prod.mk.injEq, and_assoc, exists_eq_left', takeAll]
        exact and_comm
      · exact take_eq_more_iff
    | cons d value =>
      dsimp only
      split
      · exact take_eq_more_iff
      · simp

theorem switchesOf_eq_more_iff : switchesOf given o cs = (.more more next, pending) ↔
    ∃ ps, parts cs = some (ps, pending) ∧ takeAll given o ps = .more more next := by
  unfold switchesOf parts
  split
  · exact longOption_eq_more_iff
  · exact cluster_eq_more_iff

/-! Behind the argument for a dry run -/

/-- What was read with the argument for a dry run, and without it. -/
structure Counterpart (given given' : List Switch) (o o' : Options) : Prop where
  flagged : .dryRun ∈ given
  given : ∀ s, s ∈ given' ↔ s ∈ given ∧ s ≠ .dryRun
  options : o' = { o with dryRun := false }

theorem Options.set_dryRun (o : Options) {s : Switch} (hs : s ≠ .dryRun) (value : String) :
    { o.set s value with dryRun := false } = Options.set { o with dryRun := false } s value := by
  cases s with
  | dryRun => exact absurd rfl hs
  | _ => rfl

theorem take_counterpart (h : Counterpart given given' o o') {s : Switch} {value : String}
    (htake : take given o s value = .more more next) :
    ∃ more' next', take given' o' s value = .more more' next' ∧
      Counterpart more more' next next' := by
  obtain ⟨hflagged, hgiven, rfl⟩ := h
  unfold take at htake ⊢
  split at htake
  · cases htake
  · cases htake
  · cases htake
    exact ⟨_, _, rfl, hflagged, hgiven, rfl⟩
  · split at htake
    · cases htake
    · rename_i hrefused
      cases htake
      simp only [Bool.or_eq_true, not_or, List.contains_iff_mem] at hrefused
      have hs : s ≠ .dryRun := fun e => hrefused.1 (e ▸ hflagged)
      have hnot : ¬ (given'.contains s || (s.refusesEmpty && value == "")) = true := by
        simp only [Bool.or_eq_true, not_or, List.contains_iff_mem, hgiven]
        exact ⟨fun hmem => hrefused.1 hmem.1, hrefused.2⟩
      rw [if_neg hnot]
      refine ⟨_, _, rfl, List.mem_cons_of_mem _ hflagged, fun x => ?_,
        (Options.set_dryRun o hs value).symm⟩
      simp only [List.mem_cons, hgiven, or_and_right]
      exact or_congr_left ⟨fun e => ⟨e, e ▸ hs⟩, And.left⟩

theorem takeAll_counterpart (h : Counterpart given given' o o') {ps : List (Switch × String)}
    (htake : takeAll given o ps = .more more next) :
    ∃ more' next', takeAll given' o' ps = .more more' next' ∧
      Counterpart more more' next next' := by
  induction ps generalizing given given' o o' with
  | nil =>
    cases htake
    exact ⟨_, _, rfl, h⟩
  | cons p ps ih =>
    rw [takeAll] at htake ⊢
    split at htake
    · rename_i hfirst
      obtain ⟨more', next', hfirst', hmore⟩ := take_counterpart h hfirst
      rw [hfirst']
      exact ih hmore htake
    · rename_i hstop
      exact absurd htake (hstop _ _)

theorem read_counterpart {args : List String} {r : Options} (h : Counterpart given given' o o')
    (hread : read given o pending args = .run r) :
    read given' o' pending args = .run { r with dryRun := false } := by
  induction args generalizing given given' o o' pending with
  | nil =>
    cases pending with
    | none =>
      obtain rfl := Request.run.inj hread
      rw [h.options]
      rfl
    | some s => cases hread
  | cons arg rest ih =>
    cases pending with
    | some s =>
      obtain ⟨hlooks, more, next, htake, hrest⟩ := read_pending_eq_run hread
      obtain ⟨more', next', htake', hmore⟩ := take_counterpart h htake
      rw [read, hlooks, htake']
      exact ih hmore hrest
    | none =>
      rcases read_cons_eq_run hread with ⟨harg, rfl, rfl⟩ |
        ⟨cs, more, next, pending, harg, hne, hdash, hstep, hrest⟩
      · rw [read_dashes harg, h.options]
        rfl
      · obtain ⟨ps, hparts, htake⟩ := switchesOf_eq_more_iff.1 hstep
        obtain ⟨more', next', htake', hmore⟩ := takeAll_counterpart h htake
        rw [read_switches harg hne hdash, switchesOf_eq_more_iff.2 ⟨ps, hparts, htake'⟩]
        exact ih hmore hrest

/-! Before the argument for a dry run -/

/-- No dry run was asked for so far. -/
structure Unflagged (given : List Switch) (o : Options) : Prop where
  given : .dryRun ∉ given
  options : o.dryRun = false

theorem take_unflagged (h : Unflagged given o) {s : Switch} (hs : s ≠ .dryRun) {value : String}
    (htake : take given o s value = .more more next) : Unflagged more next := by
  have hset : (o.set s value).dryRun = false := by
    cases s with
    | dryRun => exact absurd rfl hs
    | _ => exact h.options
  unfold take at htake
  split at htake
  · cases htake
  · cases htake
  · cases htake
    exact ⟨h.given, hset⟩
  · split at htake
    · cases htake
    · cases htake
      exact ⟨List.not_mem_cons_of_ne_of_not_mem hs.symm h.given, hset⟩

theorem takeAll_unflagged (h : Unflagged given o) {ps : List (Switch × String)}
    (hps : ∀ p ∈ ps, p.1 ≠ .dryRun) (htake : takeAll given o ps = .more more next) :
    Unflagged more next := by
  induction ps generalizing given o with
  | nil =>
    cases htake
    exact h
  | cons p ps ih =>
    rw [takeAll] at htake
    obtain ⟨hp, hps⟩ := List.forall_mem_cons.1 hps
    split at htake
    · rename_i hfirst
      exact ih (take_unflagged h hp hfirst) hps htake
    · rename_i hstop
      exact absurd htake (hstop _ _)

/-- No argument but one asks for a dry run. -/
def AsksNot (r : List (Switch × String) × Option Switch) : Prop :=
  (∀ p ∈ r.1, p.1 ≠ .dryRun) ∧ r.2 ≠ some .dryRun

theorem asksNot_clusterParts {r : List (Switch × String) × Option Switch}
    (h : clusterParts cs = some r) : AsksNot r := by
  induction cs generalizing r with
  | nil =>
    cases h
    exact ⟨by simp, by simp⟩
  | cons c cs ih =>
    rw [clusterParts] at h
    obtain ⟨s, hfind, h⟩ := Option.bind_eq_some_iff.1 h
    have hs : s ≠ .dryRun := by
      rintro rfl
      simpa [Switch.short?] using List.find?_some hfind
    split at h
    · split at h <;> cases h <;> simp [AsksNot, hs]
    · obtain ⟨r, hr, rfl⟩ := Option.map_eq_some_iff.1 h
      obtain ⟨hps, hpending⟩ := ih hr
      exact ⟨List.forall_mem_cons.2 ⟨hs, hps⟩, hpending⟩

theorem asksNot_longParts {r : List (Switch × String) × Option Switch}
    (hcs : cs ≠ "dry-run".toList) (h : longParts cs = some r) : AsksNot r := by
  obtain ⟨s, hfind, h⟩ := Option.bind_eq_some_iff.1 h
  split at h
  · rename_i hvalue
    have hs : s ≠ .dryRun := by
      rintro rfl
      have hname : Switch.dryRun.long = String.ofList (cs.takeWhile (· != '=')) := by
        simpa using List.find?_some hfind
      refine hcs ?_
      rw [← List.takeWhile_append_dropWhile (p := (· != '=')) (l := cs), hvalue, List.append_nil,
        ← String.toList_ofList (l := cs.takeWhile (· != '=')), ← hname]
      rfl
    split at h <;> cases h <;> simp [AsksNot, hs]
  · split at h
    · rename_i hvalue
      have hs : s ≠ .dryRun := by
        rintro rfl
        cases hvalue
      cases h
      simp [AsksNot, hs]
    · cases h

theorem asksNot_parts {r : List (Switch × String) × Option Switch}
    (hcs : '-' :: cs ≠ dryRunArg.toList) (h : parts cs = some r) : AsksNot r := by
  unfold parts at h
  split at h
  · refine asksNot_longParts ?_ h
    rintro rfl
    exact hcs rfl
  · exact asksNot_clusterParts h

theorem read_dryRunArg (h : Unflagged given o) : read given o none (dryRunArg :: rest) =
    read (.dryRun :: given) { o with dryRun := true } none rest := by
  have hparts : parts ('-' :: "dry-run".toList) = some ([(.dryRun, "")], none) := by decide +kernel
  have htake : takeAll given o [(.dryRun, "")] =
      .more (.dryRun :: given) { o with dryRun := true } := by
    rw [takeAll_singleton]
    unfold take
    rw [if_neg]
    · rfl
    · simpa [Switch.refusesEmpty] using h.given
  have harg : dryRunArg.toList = '-' :: '-' :: "dry-run".toList := rfl
  rw [read_switches harg (by simp) (by decide),
    switchesOf_eq_more_iff.2 ⟨_, hparts, htake⟩]
  rfl

theorem read_erase {args : List String} {r : Options} (h : Unflagged given o)
    (hpending : pending ≠ some .dryRun) (hread : read given o pending args = .run r)
    (hdry : r.dryRun = true) :
    read given o pending (args.erase dryRunArg) = .run { r with dryRun := false } := by
  induction args generalizing given o pending with
  | nil =>
    cases pending with
    | none =>
      obtain rfl := Request.run.inj hread
      rw [h.options] at hdry
      cases hdry
    | some s => cases hread
  | cons arg rest ih =>
    cases pending with
    | some s =>
      obtain ⟨hlooks, more, next, htake, hrest⟩ := read_pending_eq_run hread
      have harg : arg ≠ dryRunArg := by
        rintro rfl
        rw [show looksLikeSwitch dryRunArg = true by decide +kernel] at hlooks
        cases hlooks
      rw [List.erase_cons_tail (by simpa using harg), read, hlooks, htake]
      exact ih (take_unflagged h (by simpa using hpending) htake) (by simp) hrest
    | none =>
      by_cases harg : arg = dryRunArg
      · subst harg
        rw [read_dryRunArg h] at hread
        rw [List.erase_cons_head]
        refine read_counterpart ⟨List.mem_cons_self, fun s => ?_, ?_⟩ hread
        · rw [List.mem_cons]
          constructor
          · exact fun hs => ⟨.inr hs, fun e => h.given (e ▸ hs)⟩
          · exact fun ⟨hs, hne⟩ => hs.resolve_left hne
        · rw [← h.options]
      · rw [List.erase_cons_tail (by simpa using harg)]
        rcases read_cons_eq_run hread with ⟨-, -, rfl⟩ |
          ⟨cs, more, next, pending, hlist, hne, hdash, hstep, hrest⟩
        · rw [h.options] at hdry
          cases hdry
        · have hcs : '-' :: cs ≠ dryRunArg.toList := fun e =>
            harg (String.toList_injective (hlist.trans e))
          obtain ⟨ps, hparts, htake⟩ := switchesOf_eq_more_iff.1 hstep
          obtain ⟨hps, hnext⟩ := asksNot_parts hcs hparts
          rw [read_switches hlist hne hdash, hstep]
          exact ih (takeAll_unflagged h hps htake) hnext hrest

/-- A command line for a dry run, without the argument for it, asks for the run itself. -/
theorem ofArgs_erase {args : List String} {r : Options} (h : Request.ofArgs args = .run r)
    (hdry : r.dryRun = true) :
    Request.ofArgs (args.erase dryRunArg) = .run { r with dryRun := false } :=
  read_erase ⟨List.not_mem_nil, rfl⟩ (by simp) h hdry

end Bindery.Command
