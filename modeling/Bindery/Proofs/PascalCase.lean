import Bindery.Proofs.Planning
import Bindery.Proofs.Text.Capitals

/-!
# Pascal case

Pascal case takes a name apart at its marks, leaves none of them and keeps what it has made. So the
type of a call can be named by the whole name of its endpoint, and the function that starts the call
by the raw name of its method.
-/
namespace Bindery

namespace Naming

open Bindery.Text

section

variable {capital : Bool} {s t : List Char} {c : Char}

theorem pascalFrom_mark (hc : IsMark c) : pascalFrom capital (c :: s) = pascalFrom true s := by
  have hmark : (c == '.' || c == '_') = true := by simpa [IsMark] using hc
  rw [pascalFrom, if_pos hmark]

theorem pascalFrom_unmarked_cons (hc : ¬ IsMark c) :
    pascalFrom capital (c :: s) = (if capital then upper c else [c]) ++ pascalFrom false s := by
  have hmark : ¬ (c == '.' || c == '_') = true := by simpa [IsMark] using hc
  rw [pascalFrom, if_neg hmark]
  split <;> rfl

/-- A mark cuts the name in two, whatever stands before and behind it. -/
theorem pascalFrom_append (hc : IsMark c) :
    pascalFrom capital (s ++ c :: t) = pascalFrom capital s ++ pascalFrom true t := by
  induction s generalizing capital with
  | nil => simp [pascalFrom_mark hc, pascalFrom]
  | cons d rest ih =>
    by_cases hd : IsMark d
    · simp [pascalFrom_mark hd, ih]
    · simp [pascalFrom_unmarked_cons hd, ih]

theorem pascalFrom_unmarked (capital : Bool) (s : List Char) :
    ∀ d ∈ pascalFrom capital s, ¬ IsMark d := by
  induction s generalizing capital with
  | nil => simp [pascalFrom]
  | cons c rest ih =>
    by_cases hc : IsMark c
    · rw [pascalFrom_mark hc]
      exact ih true
    · rw [pascalFrom_unmarked_cons hc]
      intro d hd
      rcases List.mem_append.1 hd with hd | hd
      · cases capital with
        | true => exact (capital_of_mem_upper hc hd).unmarked
        | false =>
          obtain rfl := List.mem_singleton.1 hd
          exact hc
      · exact ih false d hd

/-- Where nothing is capitalised, a text without marks is kept. -/
theorem pascalFrom_false_eq_self (h : ∀ d ∈ s, ¬ IsMark d) : pascalFrom false s = s := by
  induction s with
  | nil => rfl
  | cons c rest ih =>
    have hrest := ih fun d hd => h d (List.mem_cons_of_mem c hd)
    simp [pascalFrom_unmarked_cons (h c List.mem_cons_self), hrest]

theorem pascalFrom_pascalFrom (s : List Char) :
    pascalFrom true (pascalFrom true s) = pascalFrom true s := by
  induction s with
  | nil => rfl
  | cons c rest ih =>
    by_cases hc : IsMark c
    · rw [pascalFrom_mark hc]
      exact ih
    · have hall := pascalFrom_unmarked true (c :: rest)
      obtain ⟨d, ds, hupper⟩ := List.exists_cons_of_ne_nil (upper_ne_nil c)
      have hkept : upper d = [d] := (capital_of_mem_upper hc (by simp [hupper])).kept
      have hshape : pascalFrom true (c :: rest) = d :: (ds ++ pascalFrom false rest) := by
        simp [pascalFrom_unmarked_cons hc, hupper]
      rw [hshape] at hall ⊢
      -- Only the first character is capitalised again, and it is its own capital.
      have htail := pascalFrom_false_eq_self fun x hx => hall x (List.mem_cons_of_mem d hx)
      rw [pascalFrom_unmarked_cons (hall d List.mem_cons_self), if_pos rfl, hkept, htail]
      rfl

end

/-! Names as texts -/

theorem pascalCase_append {m : String} {c : Char} (hm : m.toList = [c]) (hc : IsMark c)
    (a b : String) : pascalCase (a ++ m ++ b) = pascalCase a ++ pascalCase b := by
  have hlist : (a ++ m ++ b).toList = a.toList ++ c :: b.toList := by simp [hm]
  simp only [pascalCase, hlist, pascalFrom_append hc, String.ofList_append]

theorem pascalCase_dot (a b : String) :
    pascalCase (a ++ "." ++ b) = pascalCase a ++ pascalCase b :=
  pascalCase_append (by simp) (.inl rfl) a b

theorem pascalCase_underscore (a b : String) :
    pascalCase (a ++ "_" ++ b) = pascalCase a ++ pascalCase b :=
  pascalCase_append (by simp) (.inr rfl) a b

theorem pascalCase_unmarked (a : String) :
    '.' ∉ (pascalCase a).toList ∧ '_' ∉ (pascalCase a).toList := by
  have hall := pascalFrom_unmarked true a.toList
  rw [pascalCase, String.toList_ofList]
  exact ⟨fun hdot => hall _ hdot (.inl rfl), fun hunderscore => hall _ hunderscore (.inr rfl)⟩

theorem pascalCase_pascalCase (a : String) : pascalCase (pascalCase a) = pascalCase a := by
  simp only [pascalCase, String.toList_ofList, pascalFrom_pascalFrom]

theorem snakeCase_pascalCase (a : String) : snakeCase (pascalCase a) = snakeCase a := by
  simp only [snakeCase, pascalCase, String.toList_ofList, pascalFrom_pascalFrom]

end Naming

open Naming

/-! Names of calls -/

theorem Endpoint.method?_of_dot {e : Endpoint} (h : '.' ∈ e.name.toList) :
    e.method? = some e.procedure := by
  have hsome : ∃ procedure, e.method? = some procedure := by
    simp [Endpoint.method?, splitLast?, h]
  obtain ⟨procedure, hprocedure⟩ := hsome
  rw [Endpoint.procedure, hprocedure]
  rfl

/-- A call of a service that follows from the namespace is named by the whole name. -/
theorem Endpoint.callName_eq {e : Endpoint} (h : '.' ∈ e.name.toList) (hgroup : e.group = "") :
    e.callName = pascalCase e.name ++ "Call" := by
  obtain ⟨ns, hns⟩ := exists_namespace (ofEndpoint_of_dot h)
  have hname : e.name = e.space ++ "." ++ e.procedure := (name_eq_of_namespace hns).1
  rw [Endpoint.callName, Endpoint.groupName, if_pos hgroup, hname, pascalCase_dot]

/-- The name of a method is converted twice, with the same result as once. -/
theorem constructor_eq {e : Endpoint} {m : Method} (h : Method.ofEndpoint e = .ok m) :
    m.constructor = snakeCase e.procedure := by
  obtain ⟨-, hstarter, -⟩ := names_of_ofEndpoint h
  rw [Endpoint.starter, Prod.mk.injEq, snakeCase_pascalCase] at hstarter
  exact hstarter.2

/-- Pascal case makes one word of the two on both sides of a mark, has no marks and is kept by
itself. So an endpoint with a dot in its name, and no other, has a method; the call is named by the
whole name unless a group is given, and is started by the snake case of the method's raw name. -/
theorem pascalCase_composes :
    (∀ a b, pascalCase (a ++ "." ++ b) = pascalCase a ++ pascalCase b) ∧
    (∀ a b, pascalCase (a ++ "_" ++ b) = pascalCase a ++ pascalCase b) ∧
    (∀ a, '.' ∉ (pascalCase a).toList ∧ '_' ∉ (pascalCase a).toList) ∧
    (∀ a, pascalCase (pascalCase a) = pascalCase a) ∧
    ∀ e : Endpoint, ((∃ m, Method.ofEndpoint e = .ok m) ↔ '.' ∈ e.name.toList) ∧
      ∀ m, Method.ofEndpoint e = .ok m →
        (e.group = "" → m.callType = pascalCase e.name ++ "Call") ∧
        ∃ procedure, e.method? = some procedure ∧ m.constructor = snakeCase procedure := by
  have hdotted : ∀ e m, Method.ofEndpoint e = .ok m → '.' ∈ e.name.toList := by
    intro e m hm
    by_contra hdot
    rw [ofEndpoint_of_no_dot hdot] at hm
    cases hm
  refine ⟨pascalCase_dot, pascalCase_underscore, pascalCase_unmarked, pascalCase_pascalCase,
    fun e => ⟨⟨?_, ?_⟩, fun m hm => ?_⟩⟩
  · rintro ⟨m, hm⟩
    exact hdotted e m hm
  · exact fun hdot => ⟨e.method, ofEndpoint_of_dot hdot⟩
  have hdot := hdotted e m hm
  refine ⟨fun hgroup => ?_, e.procedure, e.method?_of_dot hdot, constructor_eq hm⟩
  rw [(names_of_ofEndpoint hm).1]
  exact e.callName_eq hdot hgroup

/-- Capitals of ligatures and of the sharp s are several characters. -/
def Endpoint.ligatures : Endpoint := { name := "ﬂights_to.ßearch" }

theorem ligatures_composed : ∃ m, Method.ofEndpoint .ligatures = .ok m ∧
    m.callType = "FLightsToSSearchCall" ∧ m.constructor = "s_search" ∧
    pascalCase "ﬂights_to.ßearch" = "FLightsToSSearch" ∧ snakeCase "ßearch" = "s_search" := by
  obtain ⟨-, -, -, -, hall⟩ := pascalCase_composes
  obtain ⟨hdotted, hnames⟩ := hall .ligatures
  obtain ⟨m, hm⟩ := hdotted.2 (by decide +kernel)
  obtain ⟨hcall, procedure, hprocedure, hconstructor⟩ := hnames m hm
  have hraw : Endpoint.ligatures.method? = some "ßearch" := by decide +kernel
  have hpascal : pascalCase "ﬂights_to.ßearch" = "FLightsToSSearch" := by decide +kernel
  have hsnake : snakeCase "ßearch" = "s_search" := by decide +kernel
  obtain rfl := Option.some.inj (hprocedure.symm.trans hraw)
  refine ⟨m, hm, ?_, hconstructor.trans hsnake, hpascal, hsnake⟩
  rw [hcall rfl]
  change pascalCase "ﬂights_to.ßearch" ++ "Call" = _
  rw [hpascal]
  rfl

end Bindery
