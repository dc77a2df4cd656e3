import Bindery.Proofs.Ordering

/-!
# Catalogs without documentation

Comments and defaults of arguments are documentation, and so is the label of the settings. What is
checked and planned does not depend on them: of two catalogs that differ in nothing else, both are
refused for the same reason, or both lead to plans that differ in nothing else.
-/
namespace Bindery

/-! Runs with one outcome -/

section Outcomes

variable {ε α α' β β' : Type}

/-- Two computations fail for the same reason, or come to related results. -/
def SameOutcome (R : α → α' → Prop) (x : Except ε α) (y : Except ε α') : Prop :=
  (∃ why, x = .error why ∧ y = .error why) ∨ ∃ a b, R a b ∧ x = .ok a ∧ y = .ok b

namespace SameOutcome

variable {R : α → α' → Prop} {S : β → β' → Prop} {x : Except ε α} {y : Except ε α'}

theorem ok {a : α} {b : α'} (h : R a b) : SameOutcome R (.ok a : Except ε α) (.ok b) :=
  .inr ⟨a, b, h, rfl, rfl⟩

theorem refl (x : Except ε α) : SameOutcome Eq x x := by
  cases x with
  | error why => exact .inl ⟨why, rfl, rfl⟩
  | ok a => exact ok rfl

/-- What holds of the results besides may depend on what they are results of. -/
theorem imp {R' : α → α' → Prop} (h : SameOutcome R x y)
    (himp : ∀ a b, x = .ok a → y = .ok b → R a b → R' a b) : SameOutcome R' x y := by
  rcases h with hwhy | ⟨a, b, hab, hx, hy⟩
  · exact .inl hwhy
  · exact .inr ⟨a, b, himp a b hx hy hab, hx, hy⟩

theorem of_ok {a : α} {b : α'} (h : SameOutcome R (.ok a : Except ε α) (.ok b)) : R a b := by
  rcases h with ⟨why, hleft, -⟩ | ⟨a', b', hab, hleft, hright⟩
  · cases hleft
  · cases hleft
    cases hright
    exact hab

theorem bind {f : α → Except ε β} {g : α' → Except ε β'} (h : SameOutcome R x y)
    (hfg : ∀ a b, R a b → SameOutcome S (f a) (g b)) : SameOutcome S (x >>= f) (y >>= g) := by
  rcases h with ⟨why, rfl, rfl⟩ | ⟨a, b, hab, rfl, rfl⟩
  · exact .inl ⟨why, rfl, rfl⟩
  · exact hfg a b hab

/-- A step that both computations take. -/
theorem step (x : Except ε α) {f : α → Except ε β} {g : α → Except ε β'}
    (hfg : ∀ a, x = .ok a → SameOutcome S (f a) (g a)) : SameOutcome S (x >>= f) (x >>= g) := by
  cases x with
  | error why => exact .inl ⟨why, rfl, rfl⟩
  | ok a => exact hfg a rfl

theorem mapM {f : α → Except ε β} {g : α' → Except ε β'} {xs : List α} {ys : List α'}
    (h : List.Forall₂ (fun a b => SameOutcome S (f a) (g b)) xs ys) :
    SameOutcome (List.Forall₂ S) (xs.mapM f) (ys.mapM g) := by
  induction h with
  | nil => exact ok .nil
  | cons hfirst _ ih =>
    rw [List.mapM_cons, List.mapM_cons]
    exact hfirst.bind fun _ _ hab => ih.bind fun _ _ hall => ok (.cons hab hall)

/-- Results that one function takes to the same value. -/
theorem of_map_eq {f : α → β} {g : α' → β} (h : x.map f = y.map g) :
    SameOutcome (fun a b => f a = g b) x y := by
  cases x with
  | error why =>
    cases y with
    | error why' => exact .inl ⟨why, rfl, congrArg Except.error (Except.error.inj h).symm⟩
    | ok b => cases h
  | ok a =>
    cases y with
    | error why => cases h
    | ok b => exact ok (Except.ok.inj h)

end SameOutcome

theorem forall₂_eq_iff {f : α → β} {g : α' → β} {xs : List α} {ys : List α'} :
    List.Forall₂ (fun x y => f x = g y) xs ys ↔ xs.map f = ys.map g := by
  rw [← List.forall₂_eq_eq_eq, List.forall₂_map_left_iff, List.forall₂_map_right_iff]

end Outcomes

/-! Leaving out documentation -/

/-- An argument without its documentation. -/
def Argument.undocumented (a : Argument) : Argument := { a with comment := "", default := "" }

def Endpoint.undocumented (e : Endpoint) : Endpoint :=
  { e with arguments := e.arguments.map Argument.undocumented }

def Catalog.undocumented (c : Catalog) : Catalog := ⟨c.endpoints.map Endpoint.undocumented⟩

def Method.undocumented (m : Method) : Method :=
  { m with endpoint := m.endpoint.undocumented, arguments := m.arguments.map Argument.undocumented }

def Plan.undocumented (p : Plan) : Plan :=
  ⟨p.groups, p.units.map fun u => (u.1, u.2.map Method.undocumented)⟩

/-! Checks -/

namespace Validation

theorem ofEndpoint_undocumented (e : Endpoint) :
    Method.ofEndpoint e.undocumented = (Method.ofEndpoint e).map Method.undocumented := by
  have hsort : sortArguments e.undocumented.arguments =
      (sortArguments e.arguments).map Argument.undocumented := by
    have hname : ∀ a : Argument, a.undocumented.name = a.name := fun _ => rfl
    rw [sortArguments_eq, sortArguments_eq, map_sortBy hname]
    rfl
  have hnamespace : e.undocumented.namespace? = e.namespace? := rfl
  have hmethod : e.undocumented.method? = e.method? := rfl
  have hunit : e.undocumented.unit? = e.unit? := rfl
  unfold Method.ofEndpoint
  rw [hnamespace, hmethod, hunit, hsort]
  split <;> rfl

theorem methodOf_undocumented (e : Endpoint) :
    methodOf e.undocumented = (methodOf e).map Method.undocumented := by
  unfold methodOf
  rw [ofEndpoint_undocumented]
  cases Method.ofEndpoint e with
  | error why => rfl
  | ok m =>
    change (if _ then _ else _) = Except.map _ (if _ then pure m else throw _)
    rw [apply_ite (Except.map Method.undocumented)]
    rfl

theorem checkArguments_undocumented (s : Settings) (e : Endpoint) :
    checkArguments s e.undocumented = checkArguments s e := by
  have hstep : ∀ seen a, checkArgument s e.undocumented seen (Argument.undocumented a) =
      checkArgument s e seen a := fun _ _ => rfl
  have harguments : e.undocumented.arguments = e.arguments.map Argument.undocumented := rfl
  unfold checkArguments
  rw [harguments, List.foldlM_map]
  simp only [hstep]

theorem typeTexts_undocumented (e : Endpoint) : typeTexts e.undocumented = typeTexts e := by
  have harguments : e.undocumented.arguments = e.arguments.map Argument.undocumented := rfl
  unfold typeTexts
  rw [harguments, List.filterMap_map]
  rfl

theorem checkTypes_undocumented (e : Endpoint) : checkTypes e.undocumented = checkTypes e := by
  unfold checkTypes
  rw [typeTexts_undocumented]
  rfl

theorem checkEndpoint_undocumented (s : Settings) (seen : EndpointNames) (e : Endpoint) :
    checkEndpoint s seen e.undocumented = checkEndpoint s seen e := by
  unfold checkEndpoint
  rw [methodOf_undocumented, checkArguments_undocumented, checkTypes_undocumented]
  cases methodOf e <;> rfl

end Validation

theorem validate_undocumented (c : Catalog) (s : Settings) :
    validate c.undocumented s = validate c s := by
  unfold validate
  rw [Catalog.undocumented, List.foldlM_map]
  simp only [Validation.checkEndpoint_undocumented]

/-- The label is not looked at. -/
theorem validate_label (c : Catalog) (s : Settings) (label : String) :
    validate c { s with label } = validate c s := rfl

/-! Plans -/

namespace Plan

theorem undocumented_ofMethods (ms : List Method) :
    (ofMethods ms).undocumented = ofMethods (ms.map Method.undocumented) :=
  (ofMethods_map (f := Method.undocumented) (fun _ => rfl) (fun _ => rfl) (fun _ => rfl) ms).symm

/-- Catalogs that differ in documentation lead to plans that differ in documentation. -/
theorem sameOutcome_ofCatalog {c c' : Catalog} (h : c.undocumented = c'.undocumented) :
    SameOutcome (fun p p' => p.undocumented = p'.undocumented) (ofCatalog c) (ofCatalog c') := by
  have hendpoints := forall₂_eq_iff.2 (congrArg Catalog.endpoints h)
  refine (SameOutcome.mapM (S := fun m m' => Method.undocumented m = Method.undocumented m')
    (hendpoints.imp fun e e' he => .of_map_eq ?_)).bind fun ms ms' hms => .ok ?_
  · rw [undocumented_ofMethods, undocumented_ofMethods, forall₂_eq_iff.1 hms]
  · rw [← Validation.ofEndpoint_undocumented, ← Validation.ofEndpoint_undocumented, he]

end Plan

end Bindery
