import Bindery.Call.Basic
import Mathlib

/-!
# Calls after changes

What the arguments of a call hold after it was made and changed any number of times: the last value
each was set to, and a list the elements appended later. Changes to other arguments do not matter.
-/
namespace Bindery

namespace Held

/-- The values that an argument may be given or set to. -/
def HasType : ArgType → Held → Prop
  | .text, .text _ => True
  | .boolean, .boolean _ => True
  | .integer, .integer _ => True
  | .list _, .list _ => True
  | .object _, .object (some _) => True
  | _, _ => False

/-- A list with more elements. -/
def extend (items : List Encodable) : Held → Held
  | .list xs => .list (xs ++ items)
  | other => other

@[simp] theorem extend_nil (h : Held) : h.extend [] = h := by
  cases h <;> simp [extend]

theorem extend_concat (items : List Encodable) (item : Encodable) (h : Held) :
    h.extend (items ++ [item]) = (h.extend items).append item := by
  cases h <;> simp [extend, append]

end Held

namespace Change

/-- The value that a change sets. -/
def value? : Change → Option Held
  | .set _ value => some value
  | .append _ _ => none

/-- The element that a change appends. -/
def item? : Change → Option Encodable
  | .set _ _ => none
  | .append _ item => some item

/-- The changes that the functions of a method's calls make. -/
def Fits (m : Method) : Change → Prop
  | .set name value => ∃ a ∈ m.optional, a.name = name ∧ value.HasType a.type
  | .append name _ => ∃ a ∈ m.optional, a.name = name ∧ a.type.isList = true

theorem Fits.exists_optional {m : Method} {ch : Change} (h : ch.Fits m) :
    ∃ a ∈ m.optional, a.name = ch.name := by
  cases ch with
  | set name value =>
    obtain ⟨a, ha, hname, -⟩ := h
    exact ⟨a, ha, hname⟩
  | append name item =>
    obtain ⟨a, ha, hname, -⟩ := h
    exact ⟨a, ha, hname⟩

end Change

/-- What an argument holds after changes to it: the last value that was set, with all elements
that were appended later. -/
def Held.latest (h : Held) (changes : List Change) : Held :=
  let last := (changes.reverse.findSome? Change.value?).getD h
  let later := (changes.reverse.takeWhile (·.item?.isSome)).reverse
  last.extend (later.filterMap Change.item?)

theorem foldl_held (h : Held) (changes : List Change) :
    changes.foldl (fun h ch => ch.held h) h = h.latest changes := by
  induction changes using List.reverseRecOn with
  | nil => simp [Held.latest]
  | append_singleton changes ch ih =>
    rw [List.foldl_append, ih]
    cases ch with
    | set name value =>
      simp [Held.latest, List.findSome?_cons, Change.held, Change.value?, Change.item?]
    | append name item =>
      simp [Held.latest, List.findSome?_cons, Change.held, Change.value?, Change.item?,
        Held.extend_concat]

namespace Call

/-! One change -/

/-- A call of which every argument holds what a function gives it. -/
def holding (e : Endpoint) (args : List Argument) (f : Argument → Held) : Call :=
  ⟨e, args.map fun a => (a, f a)⟩

theorem change_holding (e : Endpoint) (args : List Argument) (f : Argument → Held) (ch : Change) :
    (holding e args f).change ch =
      holding e args fun a => if a.name = ch.name then ch.held (f a) else f a := by
  simp only [holding, change, List.map_map, Function.comp_def]
  congr 1
  refine List.map_congr_left fun a _ => ?_
  split <;> rfl

/-- Changes to different arguments commute. -/
theorem change_comm (c : Call) {ch ch' : Change} (h : ch.name ≠ ch'.name) :
    (c.change ch).change ch' = (c.change ch').change ch := by
  simp only [change, List.map_map, Function.comp_def]
  congr 1
  refine List.map_congr_left fun p _ => ?_
  by_cases h₁ : p.1.name = ch.name
  · have h₂ : p.1.name ≠ ch'.name := fun e => h (h₁.symm.trans e)
    simp [h₁, h₁ ▸ h₂]
  · by_cases h₂ : p.1.name = ch'.name
    · simp [h₂, Ne.symm h]
    · simp [h₁, h₂]

/-! Runs -/

theorem fill_filter (args : List Argument) (given : Argument → Held) :
    fill args ((args.filter (·.required)).map given) =
      args.map fun a => (a, if a.required then given a else .zero a.type) := by
  induction args with
  | nil => rfl
  | cons a rest ih =>
    unfold fill
    by_cases h : a.required = true
    · simp [h, ih]
    · simp [h, ih]

/-- A call that was made with the given values for the required arguments, and then changed. -/
def run (m : Method) (given : Argument → Held) (changes : List Change) : Call :=
  changes.foldl change (start m (m.required.map given))

theorem foldl_change (e : Endpoint) (args : List Argument) (f : Argument → Held)
    (changes : List Change) :
    changes.foldl change (holding e args f) =
      holding e args fun a => (f a).latest (changes.filter (·.name = a.name)) := by
  induction changes generalizing f with
  | nil => simp [Held.latest]
  | cons ch rest ih =>
    rw [List.foldl_cons, change_holding, ih]
    congr 1
    funext a
    simp only [← foldl_held, List.filter_cons, decide_eq_true_eq, eq_comm (a := a.name)]
    split <;> rfl

/-- What an argument holds at the end of a run. -/
def after (given : Argument → Held) (changes : List Change) (a : Argument) : Held :=
  if a.required then given a else (Held.zero a.type).latest (changes.filter (·.name = a.name))

/-- Required arguments keep what they were given, all others hold what was set last. -/
theorem run_eq {m : Method} (hn : (m.arguments.map (·.name)).Nodup) (given : Argument → Held)
    {changes : List Change} (hfit : ∀ ch ∈ changes, ch.Fits m) :
    run m given changes = holding m.endpoint m.arguments (after given changes) := by
  have hstart : start m (m.required.map given) = holding m.endpoint m.arguments fun a =>
      if a.required then given a else .zero a.type := by
    rw [start, Method.required, fill_filter]
    rfl
  rw [run, hstart, foldl_change]
  unfold holding
  congr 1
  refine List.map_congr_left fun a ha => ?_
  congr 1
  by_cases hreq : a.required = true
  · -- only optional arguments are changed
    have hnone : changes.filter (·.name = a.name) = [] := by
      rw [List.filter_eq_nil_iff]
      intro ch hch hname
      obtain ⟨b, hb, hbname⟩ := (hfit ch hch).exists_optional
      obtain ⟨hbmem, hbopt⟩ := List.mem_filter.1 hb
      have hba : b = a :=
        List.inj_on_of_nodup_map hn hbmem ha (hbname.trans (of_decide_eq_true hname))
      rw [hba, hreq] at hbopt
      cases hbopt
    simp [after, hreq, hnone, Held.latest]
  · simp [after, hreq]

end Call

/-- The calls that the functions of a method lead to. -/
inductive Reached (m : Method) : Call → Prop
  | start (given : Argument → Held) (h : ∀ a ∈ m.required, (given a).HasType a.type) :
      Reached m (Call.start m (m.required.map given))
  | change {c : Call} {ch : Change} (prior : Reached m c) (fits : ch.Fits m) :
      Reached m (c.change ch)

theorem reached_run {m : Method} {given : Argument → Held}
    (hgiven : ∀ a ∈ m.required, (given a).HasType a.type) {changes : List Change}
    (hfit : ∀ ch ∈ changes, ch.Fits m) : Reached m (Call.run m given changes) := by
  induction changes using List.reverseRecOn with
  | nil => exact Reached.start given hgiven
  | append_singleton changes ch ih =>
    have hprior := ih fun ch' h => hfit ch' (List.mem_append_left _ h)
    have hrun : Call.run m given (changes ++ [ch]) = (Call.run m given changes).change ch := by
      simp [Call.run]
    rw [hrun]
    exact Reached.change hprior (hfit ch (by simp))

namespace Reached

variable {m : Method} {c : Call}

theorem endpoint_eq (h : Reached m c) : c.endpoint = m.endpoint := by
  induction h with
  | start given => rfl
  | change prior fits ih => exact ih

theorem map_fst (h : Reached m c) : c.held.map Prod.fst = m.arguments := by
  induction h with
  | start given =>
    rw [Call.start, Method.required, Call.fill_filter]
    simp [Function.comp_def]
  | @change c ch prior fits ih =>
    rw [← ih]
    simp only [Call.change, List.map_map, Function.comp_def]
    refine List.map_congr_left fun p _ => ?_
    split <;> rfl

end Reached

end Bindery
