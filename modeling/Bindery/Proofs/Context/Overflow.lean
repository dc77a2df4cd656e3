import Bindery.Proofs.Context.Deadlines

/-!
# Timeouts beyond time

The end of a timeout is computed before it is compared with the deadline that is there. So a context
is made with a timeout exactly if the clock can tell when the timeout ends, whatever deadline the
context has that it is made from, and a run of steps fails exactly if one of its timeouts ends beyond
time. The longest timeout always does.
-/
namespace Bindery.Contexts

/-- The longest span of time: as many seconds as 64 bits can count, and the whole milliseconds of a
last one that is one nanosecond short. -/
def longestSpan : Nat := 0xffffffffffffffff * 1000 + 999

theorem endOfTime_le_longest (now : Nat) : endOfTime ≤ now + longestSpan := by
  have hlongest : endOfTime ≤ longestSpan := by decide
  omega

namespace Operation

/-- The context that something is done to. -/
def index : Operation → Nat
  | .derive _ index _ => index
  | .cancel index => index

/-- How many contexts are made. -/
def adds : Operation → Nat
  | .derive _ _ _ => 1
  | .cancel _ => 0

/-- A context is made with a timeout that ends beyond time. -/
def Overflows : Operation → Prop
  | .derive now _ (.withTimeout span) => endOfTime ≤ now + span
  | _ => False

theorem overflows_derive_iff {now index : Nat} {d : Derivation} :
    (derive now index d).Overflows ↔ ¬ Context.IsRepresentable now d := by
  cases d with
  | withTimeout span => exact Nat.not_lt.symm
  | _ => simp [Overflows, Context.IsRepresentable]

theorem overflows_iff {op : Operation} : op.Overflows ↔
    ∃ now index span, op = .derive now index (.withTimeout span) ∧ endOfTime ≤ now + span := by
  constructor
  · intro h
    cases op with
    | derive now index d =>
      cases d with
      | withTimeout span => exact ⟨now, index, span, rfl, h⟩
      | _ => cases h
    | cancel index => cases h
  · rintro ⟨now, index, span, rfl, h⟩
    exact h

end Operation

/-- Whether each step is on a context that is there by then, after so many at the start. -/
def refers (made : Nat) : List Operation → Bool
  | [] => true
  | op :: ops => decide (op.index < made) && refers (made + op.adds) ops

/-! One step -/

section

variable {cs cs' : Contexts} {op : Operation}

theorem length_made_of_perform? (h : cs.perform? op = some cs') :
    cs'.made.length = cs.made.length + op.adds := by
  rcases perform?_cases h with ⟨now, index, d, c, made, rfl, -, -, rfl⟩ | ⟨index, c, rfl, -, rfl⟩
  · simp [Operation.adds]
  · simp [Operation.adds, cancelMark]

/-- A step on a context that is there fails exactly if it overflows. -/
theorem perform?_eq_none_iff (h : op.index < cs.made.length) :
    cs.perform? op = none ↔ op.Overflows := by
  cases op with
  | derive now index d =>
    have hexists : (∃ cs', cs.perform? (.derive now index d) = some cs') ↔
        index < cs.made.length ∧ Context.IsRepresentable now d := exists_perform?_derive_iff
    rw [Operation.overflows_derive_iff, Option.eq_none_iff_forall_ne_some, ← not_exists, hexists]
    exact not_congr (and_iff_right h)
  | cancel index =>
    have hindex : index < cs.made.length := h
    simp [perform?, hindex, Operation.Overflows]

/-- A context that is made with a timeout ends when the timeout does, or with its parent if that is
earlier. -/
theorem perform?_withTimeout {c : Context} {index now span : Nat} (hc : cs.made[index]? = some c)
    (hspan : now + span < endOfTime) :
    ∃ made time, cs.perform? (.derive now index (.withTimeout span)) =
        some ⟨cs.made ++ [made], cs.set⟩ ∧
      made.deadline = some time ∧ time ≤ now + span ∧ ∀ limit ∈ c.deadline, time ≤ limit := by
  have hexists : ∃ made, c.derive? now cs.made.length (.withTimeout span) = some made :=
    Context.exists_derive?_iff.2 hspan
  obtain ⟨made, hmade⟩ := hexists
  have hdeadline := Context.deadline_tightened hmade rfl
  have hearliest : ∀ limit ∈ c.deadline, Context.tighter c.deadline (now + span) ≤ limit := by
    intro limit hlimit
    rw [Option.mem_def] at hlimit
    simp only [hlimit, Context.tighter]
    split <;> omega
  have hleast : Context.tighter c.deadline (now + span) ≤ now + span := by
    unfold Context.tighter
    split
    · split <;> omega
    · exact Nat.le_refl _
  exact ⟨made, _, derive?_eq_some_iff.2 ⟨c, made, hc, hmade, rfl⟩, hdeadline, hleast, hearliest⟩

end

/-! All steps -/

theorem run?_eq_none_iff {cs : Contexts} {ops : List Operation}
    (h : refers cs.made.length ops = true) :
    cs.run? ops = none ↔ ∃ op ∈ ops, op.Overflows := by
  induction ops generalizing cs with
  | nil => simp [run?]
  | cons op ops ih =>
    simp only [refers, Bool.and_eq_true, decide_eq_true_eq] at h
    obtain ⟨hindex, hrest⟩ := h
    have hstep := perform?_eq_none_iff hindex
    have hrun : cs.run? (op :: ops) = (cs.perform? op).bind (·.run? ops) := List.foldlM_cons
    rw [hrun, List.exists_mem_cons_iff]
    cases hop : cs.perform? op with
    | none => simp [hstep.1 hop]
    | some cs' =>
      have hfits : ¬ op.Overflows := by simp [← hstep, hop]
      rw [← length_made_of_perform? hop] at hrest
      simp [hfits, ih hrest]

/-- Steps on contexts that are there by then fail exactly if one of them makes a context with a
timeout that ends beyond time; all steps with the longest timeout do. With any timeout that ends in
time there is a context that ends no later than its parent. -/
theorem timeouts_fail_exactly {cs : Contexts} {ops : List Operation}
    (h : refers cs.made.length ops = true) :
    (cs.run? ops = none ↔ ∃ now index span,
      .derive now index (.withTimeout span) ∈ ops ∧ endOfTime ≤ now + span) ∧
    ∀ index c, cs.made[index]? = some c → ∀ now,
      cs.perform? (.derive now index (.withTimeout longestSpan)) = none ∧
      ∀ span,
        (cs.perform? (.derive now index (.withTimeout span)) = none ↔ endOfTime ≤ now + span) ∧
        (now + span < endOfTime → ∃ made time,
          cs.perform? (.derive now index (.withTimeout span)) =
            some ⟨cs.made ++ [made], cs.set⟩ ∧
          made.deadline = some time ∧ time ≤ now + span ∧ ∀ limit ∈ c.deadline, time ≤ limit) := by
  refine ⟨?_, fun index c hc now => ?_⟩
  · rw [run?_eq_none_iff h]
    constructor
    · rintro ⟨op, hop, hoverflows⟩
      obtain ⟨now, index, span, rfl, hspan⟩ := Operation.overflows_iff.1 hoverflows
      exact ⟨now, index, span, hop, hspan⟩
    · rintro ⟨now, index, span, hop, hspan⟩
      exact ⟨_, hop, hspan⟩
  · have hindex : index < cs.made.length := (List.getElem?_eq_some_iff.1 hc).1
    have hfails : ∀ span, cs.perform? (.derive now index (.withTimeout span)) = none ↔
        endOfTime ≤ now + span := fun span => perform?_eq_none_iff hindex
    exact ⟨(hfails _).2 (endOfTime_le_longest now), fun span =>
      ⟨hfails span, perform?_withTimeout hc⟩⟩

/-- The second context would end with the first one. -/
def strained : List Operation :=
  [.derive 0 0 (.withDeadline 50), .derive 0 1 (.withTimeout longestSpan)]

theorem strained_fails : refers start.made.length strained = true ∧ start.run? strained = none ∧
    ∃ made time, start.perform? (.derive 5 0 (.withTimeout 60)) = some ⟨start.made ++ [made], []⟩ ∧
      made.deadline = some time ∧ time ≤ 65 := by
  have hrefers : refers start.made.length strained = true := rfl
  obtain ⟨hrun, hsteps⟩ := timeouts_fail_exactly hrefers
  obtain ⟨-, hspan⟩ := hsteps 0 _ rfl 5
  have hmem : Operation.derive 0 1 (.withTimeout longestSpan) ∈ strained := by simp [strained]
  obtain ⟨made, time, hmade, hdeadline, htime, -⟩ := (hspan 60).2 (by decide)
  exact ⟨hrefers, hrun.2 ⟨0, 1, longestSpan, hmem, endOfTime_le_longest 0⟩,
    made, time, hmade, hdeadline, htime⟩

end Bindery.Contexts
