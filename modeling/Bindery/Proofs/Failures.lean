import Bindery.Proofs.Acceptability
import Bindery.Proofs.Declarations
import Bindery.Proofs.Ordering

/-!
# How generation fails

Once settings are usable and a catalog is accepted, code is emitted for it unless a name is no word,
and files are written unless the code that was emitted cannot be read again or has no layout.
-/
namespace Bindery

/-! Computations that fail for certain reasons only -/

section

variable {ε α β : Type} {P Q : ε → Prop}

/-- Whenever the computation fails, the reason is one of these. -/
def FailsOnly (P : ε → Prop) (x : Except ε α) : Prop := ∀ why, x = .error why → P why

theorem ok_bind {a : α} {f : α → Except ε β} : (Except.ok a >>= f) = f a := rfl

namespace FailsOnly

theorem ok (a : α) : FailsOnly P (.ok a : Except ε α) := fun _ h => by cases h

theorem mono {x : Except ε α} (h : FailsOnly P x) (himp : ∀ why, P why → Q why) :
    FailsOnly Q x := fun why hwhy => himp why (h why hwhy)

theorem of_exists {x : Except ε α} (h : ∃ a, x = .ok a) : FailsOnly P x := by
  obtain ⟨a, rfl⟩ := h
  exact ok a

theorem bind {x : Except ε α} {f : α → Except ε β} (hx : FailsOnly P x)
    (hf : ∀ a, x = .ok a → FailsOnly P (f a)) : FailsOnly P (x >>= f) := by
  cases x with
  | error e => exact fun why h => hx why (by simpa [Bind.bind, Except.bind] using h)
  | ok a => exact hf a rfl

theorem mapM {f : α → Except ε β} {xs : List α} (h : ∀ x ∈ xs, FailsOnly P (f x)) :
    FailsOnly P (xs.mapM f) := by
  induction xs with
  | nil => exact ok []
  | cons x rest ih =>
    rw [List.mapM_cons]
    refine (h x List.mem_cons_self).bind fun y _ => ?_
    exact (ih fun z hz => h z (List.mem_cons_of_mem x hz)).bind fun ys _ => ok (y :: ys)

end FailsOnly

end

/-! Names -/

/-- A name in a form that is no reserved word for a place in a path. -/
def Naming.usable (n : String) : String := if isPathKeyword n then n ++ "_" else n

/-- A name of these that is no word. -/
def Misnamed (names : List String) (why : Failure) : Prop :=
  ∃ n ∈ names, Text.isWord n.toList = false ∧ why = .notWord n

theorem Misnamed.mono {names names' : List String} (h : names ⊆ names') {why : Failure}
    (hwhy : Misnamed names why) : Misnamed names' why := by
  obtain ⟨n, hn, hword, rfl⟩ := hwhy
  exact ⟨n, h hn, hword, rfl⟩

namespace Emission

open Source Naming

theorem isWord_usable {n : String} (h : isPathKeyword n = true ∨ rawKeywords.contains n = true) :
    Text.isWord (usable n).toList = true := by
  have hpath : ∀ k ∈ pathKeywords, Text.isWord (usable k).toList = true := by decide +kernel
  have hraw : ∀ k ∈ rawKeywords, Text.isWord (usable k).toList = true := by decide +kernel
  rcases h with h | h
  · exact hpath n (List.contains_iff_mem.1 h)
  · exact hraw n (List.contains_iff_mem.1 h)

theorem ofWord?_isSome (w : String) : (Ident.ofWord? w).isSome = Text.isWord w.toList := by
  unfold Ident.ofWord?
  split
  · rename_i h
    rw [h]
    rfl
  · rename_i h
    rw [Bool.eq_false_iff.2 h]
    rfl

theorem ofName?_isSome (n : String) :
    (Ident.ofName? n).isSome = Text.isWord (usable n).toList := by
  unfold Ident.ofName?
  split
  · rename_i hp
    rw [ofWord?_isSome, usable, if_pos hp]
  · rename_i hp
    split
    · rename_i hraw
      exact (isWord_usable (.inr hraw)).symm
    · rw [ofWord?_isSome, usable, if_neg hp]

/-- A name becomes an identifier exactly if it is a word in its usable form. -/
theorem exists_nameIdent_iff {n : String} :
    (∃ i, nameIdent n = .ok i) ↔ Text.isWord (usable n).toList = true := by
  rw [← ofName?_isSome]
  unfold nameIdent
  cases Ident.ofName? n with
  | none => simp
  | some i => simp

theorem nameIdent_fails {n : String} {names : List String} (hn : usable n ∈ names) :
    FailsOnly (Misnamed names) (nameIdent n) := by
  intro why h
  have hword : Text.isWord (usable n).toList = false := by
    rw [← Bool.not_eq_true, ← exists_nameIdent_iff, h]
    rintro ⟨i, hi⟩
    cases hi
  have hplain : usable n = n := by
    rw [usable, if_neg]
    intro hp
    rw [isWord_usable (.inl hp)] at hword
    cases hword
  refine ⟨usable n, hn, hword, ?_⟩
  rw [hplain]
  unfold nameIdent at h
  split at h
  · cases h
  · exact (Except.error.inj h).symm

/-- A name without the raw mark is spelled as it is. -/
theorem spelledIdent_eq {n : String} (h : '#' ∉ n.toList) :
    spelledIdent n = match Ident.ofWord? n with
      | some i => .ok i
      | none => .error (.notWord n) := by
  unfold spelledIdent
  split
  · rename_i rest hrest
    rw [hrest] at h
    exact absurd (by simp) h
  · rfl

theorem exists_spelledIdent_iff {n : String} (h : '#' ∉ n.toList) :
    (∃ i, spelledIdent n = .ok i) ↔ Text.isWord n.toList = true := by
  rw [spelledIdent_eq h, ← ofWord?_isSome]
  cases Ident.ofWord? n with
  | none => simp
  | some i => simp

theorem spelledIdent_fails {n : String} {names : List String} (hn : n ∈ names)
    (hhash : '#' ∉ n.toList) : FailsOnly (Misnamed names) (spelledIdent n) := by
  intro why h
  have hword : Text.isWord n.toList = false := by
    rw [← Bool.not_eq_true, ← exists_spelledIdent_iff hhash, h]
    rintro ⟨i, hi⟩
    cases hi
  refine ⟨n, hn, hword, ?_⟩
  rw [spelledIdent_eq hhash] at h
  split at h
  · cases h
  · exact (Except.error.inj h).symm

end Emission

/-! Names of a catalog -/

/-- The names that identifiers of the code for an endpoint are made of. -/
def Endpoint.identifiers (s : Settings) (e : Endpoint) : List String :=
  [serviceType e.groupName, e.callName] ++
    ([e.starter.2] ++ e.arguments.map Argument.field ++
      e.arguments.flatMap Argument.setterNames ++
      if s.hasIndex then [unitOf e.space] else []).map Naming.usable

/-- The names that identifiers of the code for a catalog are made of. -/
def Catalog.identifiers (s : Settings) (c : Catalog) : List String :=
  c.endpoints.flatMap (Endpoint.identifiers s)

/-! Emission -/

namespace Emission

open Source Naming

variable {names : List String}

theorem Slot.of_fails {endpoint : String} {a : Argument} (htypes : ∀ type,
    a.type = .list type ∨ a.type = .object type → ∃ t, Ty.read type = .ok t)
    (hfield : usable a.field ∈ names) : FailsOnly (Misnamed names) (Slot.of endpoint a) := by
  have hread : ∀ type, a.type = .list type ∨ a.type = .object type →
      ∃ t, readType endpoint type = .ok t := fun type htype =>
    exists_readType_iff.2 (htypes type htype)
  have hident : ∀ storage : Storage, FailsOnly (Misnamed names)
      (do return ⟨a, ← catalogIdent a.name, storage⟩ : Except Failure Slot) := fun storage =>
    (nameIdent_fails hfield).bind fun field _ => .ok _
  unfold Slot.of
  dsimp only
  cases htype : a.type with
  | list element =>
    obtain ⟨t, ht⟩ := hread element (.inl htype)
    simp only [ht, ok_bind, pure_bind]
    exact hident _
  | object type =>
    obtain ⟨t, ht⟩ := hread type (.inr htype)
    simp only [ht, ok_bind, pure_bind]
    exact hident _
  | _ =>
    simp only [pure_bind]
    exact hident _

theorem usable_set (n : String) : usable ("set_" ++ n) = "set_" ++ n := by
  rw [usable, if_neg]
  intro h
  rw [isPathKeyword, List.contains_iff_mem] at h
  exact (set_ne_keyword n).1 h

theorem Slot.setters_fails {s : Slot}
    (hlist : ∀ element, s.storage = .list element → s.argument.type.isList = true)
    (hoptional : s.argument.required = false)
    (hnames : ∀ n ∈ s.argument.setterNames, usable n ∈ names ∧ '#' ∉ n.toList) :
    FailsOnly (Misnamed names) s.setters := by
  unfold Slot.setters
  dsimp only
  split
  · rename_i element hstorage
    have hboth : s.argument.setterNames =
        ["set_" ++ snakeCase s.argument.name, snakeCase s.argument.appendName] := by
      rw [Argument.setterNames, if_neg (by simp [hoptional]), if_pos (hlist _ hstorage)]
    obtain ⟨hset, hhash⟩ := hnames ("set_" ++ snakeCase s.argument.name) (by simp [hboth])
    obtain ⟨happend, -⟩ := hnames (snakeCase s.argument.appendName) (by simp [hboth])
    rw [usable_set] at hset
    refine (spelledIdent_fails hset hhash).bind fun replace _ => ?_
    exact (nameIdent_fails happend).bind fun append _ => .ok _
  · exact .ok _

/-- The function that sends a call is emitted if the payload has a type. -/
theorem exists_postFn (t : Target) {e : Endpoint}
    (hpayload : e.returnType ≠ "" → ∃ t, Ty.read e.returnType = .ok t) :
    ∃ item, postFn t e = .ok item := by
  unfold postFn
  dsimp only
  split
  · exact ⟨_, rfl⟩
  · rename_i hreturn
    have hne : e.returnType ≠ "" := by simpa [Endpoint.hasReturn] using hreturn
    obtain ⟨payload, hread⟩ : ∃ t, readType e.name e.returnType = .ok t :=
      exists_readType_iff.2 (hpayload hne)
    rw [hread]
    exact ⟨_, rfl⟩

section Calls

variable {s : Settings} {e : Endpoint} {m : Method} (hm : Method.ofEndpoint e = .ok m)
  (he : e.Acceptable s)
include hm he

theorem call_fails (t : Target) : FailsOnly (Misnamed (e.identifiers s)) (call t m) := by
  obtain ⟨hcallType, hstarter, hunit⟩ := names_of_ofEndpoint hm
  have hgroup : m.group = e.groupName := congrArg Prod.fst hstarter
  have hconstructor : m.constructor = e.starter.2 := congrArg Prod.snd hstarter
  have hend : m.endpoint = e := ofEndpoint_endpoint hm
  have hargs : ∀ a ∈ m.arguments, a ∈ e.arguments := fun a ha => (arguments_perm hm).mem_iff.1 ha
  have hsetters : ∀ a ∈ e.arguments, ∀ n ∈ a.setterNames,
      usable n ∈ e.identifiers s ∧ '#' ∉ n.toList := by
    intro a ha n hn
    have hmem : n ∈ e.arguments.flatMap Argument.setterNames := List.mem_flatMap.2 ⟨a, ha, hn⟩
    refine ⟨?_, hash_not_mem_of_isIdentifier (he.setter n hmem).1⟩
    exact List.mem_append_right _ (List.mem_map_of_mem (by simp [hmem]))
  have hhash : '#' ∉ e.groupName.toList := hash_not_mem_of_isIdentifier he.group
  unfold call
  refine FailsOnly.bind (FailsOnly.mapM fun a ha => ?_) fun slots hslots => ?_
  · refine Slot.of_fails (fun type htype => he.types a (hargs a ha) type htype) ?_
    exact List.mem_append_right _ (List.mem_map_of_mem (by simp [List.mem_map_of_mem (hargs a ha)]))
  refine FailsOnly.bind (spelledIdent_fails ?_ ?_) fun name _ => ?_
  · simp [Endpoint.identifiers, hcallType]
  · have hname := hash_not_mem_of_isIdentifier he.procedure
    simp [hcallType, Endpoint.callName, hhash, hname]
  refine FailsOnly.bind (spelledIdent_fails ?_ ?_) fun serviceName _ => ?_
  · simp [Endpoint.identifiers, Method.serviceType, hgroup]
  · simp [Method.serviceType, serviceType, hgroup, hhash]
  refine FailsOnly.bind (nameIdent_fails ?_) fun constructor _ => ?_
  · exact List.mem_append_right _ (List.mem_map_of_mem (by simp [hconstructor]))
  refine FailsOnly.bind (.of_exists (exists_postFn t (hend ▸ he.payload))) fun post _ => ?_
  refine FailsOnly.bind (FailsOnly.mapM fun slot hslot => ?_) fun setters _ => .ok _
  obtain ⟨hmem, hoptional⟩ := List.mem_filter.1 hslot
  obtain ⟨a, ha, hof⟩ := exists_of_forall₂_right (mapM_eq_ok_iff.1 hslots) hmem
  obtain ⟨rfl, -, -, hlist⟩ := Slot.holds hof
  exact Slot.setters_fails (fun element h => hlist.2 ⟨element, h⟩) (by simpa using hoptional)
    (hsetters _ (hargs _ ha))

end Calls

/-- The files that are emitted for a plan, under the names of their units. -/
inductive Emits (p : Plan) (t : Target) (s : Settings) : String → File → Prop where
  | services {f : File} : services t p.groups = .ok f → Emits p t s servicesUnit f
  | unit {name : String} {ms : List Method} {f : File} :
    (name, ms) ∈ p.units → unit t ms = .ok f → Emits p t s name f
  | index {f : File} : s.hasIndex = true → index p s = .ok f → Emits p t s "mod" f

end Emission

open Emission

/-- What keeps files from being written. -/
inductive Breaks (p : Plan) (t : Target) (s : Settings) (names : List String) : Failure → Prop where
  | misnamed {why : Failure} : Misnamed names why → Breaks p t s names why
  | unreadable {unit : String} {f : Source.File} {why : Source.Fault} : Emits p t s unit f →
    Source.File.ofTokens f.tokens = .error why → Breaks p t s names (.code unit why)
  | noLayout {unit : String} {f f' : Source.File} : Emits p t s unit f →
    Source.File.ofTokens f.tokens = .ok f' → f'.text? = none → Breaks p t s names .noLayout

theorem render_fails {p : Plan} {t : Target} {s : Settings} {names : List String} {unit : String}
    {f : Source.File} (h : Emits p t s unit f) :
    FailsOnly (Breaks p t s names) (render unit f s) := by
  unfold render checkCode
  split
  · rename_i f' hread
    rw [ok_bind]
    refine FailsOnly.bind (fun why hwhy => ?_) fun _ _ => .ok _
    unfold layOut at hwhy
    split at hwhy
    · cases hwhy
    · rename_i hnone
      cases hwhy
      exact .noLayout h hread hnone
  · rename_i why hread
    intro why' h'
    cases h'
    exact .unreadable h hread

section Plans

variable {c : Catalog} {s : Settings} {t : Target} {ms : List Method}

/-- The methods of a plan are those of acceptable endpoints. -/
theorem exists_endpoint_of_mem (hacc : Accepted c s ms) {m : Method} (hm : m ∈ ms) :
    ∃ e ∈ c.endpoints, Method.ofEndpoint e = .ok m ∧ e.Acceptable s := by
  obtain ⟨e, he, hof⟩ := exists_of_forall₂_right (mapM_eq_ok_iff.1 hacc.methods) hm
  exact ⟨e, he, hof, endpointFits_iff.1 (hacc.fits e he)⟩

theorem identifiers_subset {e : Endpoint} (he : e ∈ c.endpoints) :
    e.identifiers s ⊆ c.identifiers s := fun _ hn => List.mem_flatMap.2 ⟨e, he, hn⟩

theorem services_fails (hacc : Accepted c s ms) :
    FailsOnly (Misnamed (c.identifiers s)) (services t (Plan.ofMethods ms).groups) := by
  refine FailsOnly.bind (FailsOnly.mapM fun group hgroup => ?_) fun _ _ => .ok _
  obtain ⟨m, hm, rfl⟩ := List.mem_map.1 (mem_distinctNames.1 hgroup)
  obtain ⟨e, he, hof, hok⟩ := exists_endpoint_of_mem hacc hm
  have hname : m.group = e.groupName := congrArg Prod.fst (names_of_ofEndpoint hof).2.1
  have hhash : '#' ∉ e.groupName.toList := Naming.hash_not_mem_of_isIdentifier hok.group
  refine FailsOnly.bind (spelledIdent_fails (identifiers_subset he ?_) ?_) fun _ _ => .ok _
  · simp [Endpoint.identifiers, hname]
  · simp [serviceType, hname, hhash]

theorem mem_of_mem_units {unit : String} {planned : List Method}
    (h : (unit, planned) ∈ (Plan.ofMethods ms).units) {m : Method} (hm : m ∈ planned) :
    m ∈ ms ∧ m.unit = unit := by
  obtain ⟨name, -, hpair⟩ := List.mem_map.1 h
  obtain ⟨rfl, rfl⟩ := Prod.mk.inj hpair
  rw [sortMethods_eq, (sortBy_perm _ _).mem_iff, List.mem_filter, beq_iff_eq] at hm
  exact hm

theorem unit_fails (hacc : Accepted c s ms) {name : String} {planned : List Method}
    (h : (name, planned) ∈ (Plan.ofMethods ms).units) :
    FailsOnly (Misnamed (c.identifiers s)) (unit t planned) := by
  refine FailsOnly.bind (FailsOnly.mapM fun m hm => ?_) fun _ _ => .ok _
  obtain ⟨e, he, hof, hok⟩ := exists_endpoint_of_mem hacc (mem_of_mem_units h hm).1
  exact (call_fails hof hok t).mono fun why => Misnamed.mono (identifiers_subset he)

theorem index_fails (hacc : Accepted c s ms) (hindex : s.hasIndex = true) :
    FailsOnly (Misnamed (c.identifiers s)) (index (Plan.ofMethods ms) s) := by
  refine FailsOnly.bind (FailsOnly.mapM fun u hu => ?_) fun _ _ => .ok _
  obtain ⟨name, hname, rfl⟩ := List.mem_map.1 hu
  obtain ⟨m, hm, rfl⟩ := List.mem_map.1 (mem_distinctNames.1 hname)
  obtain ⟨e, he, hof, -⟩ := exists_endpoint_of_mem hacc hm
  have hunit : m.unit = unitOf e.space := (names_of_ofEndpoint hof).2.2
  refine FailsOnly.bind (nameIdent_fails (identifiers_subset he ?_)) fun _ _ => .ok _
  exact List.mem_append_right _ (List.mem_map_of_mem (by simp [hindex, hunit]))

/-- After its checks generation fails only if a name is no word, or code that was emitted cannot be
read again or has no layout. -/
theorem generate_fails (ht : Target.of s = .ok t) (hacc : Accepted c s ms) :
    FailsOnly (Breaks (Plan.ofMethods ms) t s (c.identifiers s)) (generate c s) := by
  have hmisnamed : ∀ {α : Type} {x : Except Failure α},
      FailsOnly (Misnamed (c.identifiers s)) x →
      FailsOnly (Breaks (Plan.ofMethods ms) t s (c.identifiers s)) x := fun h =>
    h.mono fun _ => .misnamed
  have hplan : Plan.ofCatalog c = .ok (Plan.ofMethods ms) := by
    unfold Plan.ofCatalog
    rw [hacc.methods]
    rfl
  unfold generate
  rw [ht, validate_eq_ok_iff.2 ⟨ms, hacc⟩, hplan]
  simp only [ok_bind]
  unfold Plan.render
  refine (hmisnamed (services_fails hacc)).bind fun f hf => ?_
  refine (render_fails (.services hf)).bind fun services _ => ?_
  refine FailsOnly.bind (FailsOnly.mapM fun u hu => ?_) fun units _ => ?_
  · exact (hmisnamed (unit_fails hacc hu)).bind fun f hf => render_fails (.unit hu hf)
  split
  · rename_i hindex
    refine (hmisnamed (index_fails hacc hindex)).bind fun f hf => ?_
    exact (render_fails (.index hindex hf)).bind fun _ _ => .ok _
  · exact .ok _

end Plans

end Bindery
