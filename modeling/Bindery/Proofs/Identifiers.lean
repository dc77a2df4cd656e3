import Bindery.Proofs.AsciiNames
import Bindery.Proofs.Assembly
import Bindery.Proofs.Failures

/-!
# Identifiers of accepted catalogs

Validation asks names to be letters followed by letters and numbers, and the emitted language has
its own idea of both. So an accepted catalog may have a name that is no word, and then nothing is
generated for it; names of ASCII characters always are words.
-/
namespace Bindery

open Naming Emission

/-! What was generated -/

namespace Emission

variable {c : Catalog} {s : Settings} {t : Target}

/-- The index is the last file. -/
theorem exists_index {p : Plan} {o : Output} (h : p.render t s = .ok o)
    (hindex : s.hasIndex = true) : ∃ others f file, index p s = .ok f ∧
      render "mod" f s = .ok file ∧ o.files = others ++ [file] := by
  simp only [Plan.render, bind_eq_ok_iff, if_pos hindex, pure_eq_ok_iff] at h
  obtain ⟨_, -, services, -, units, -, f, hf, file, hfile, _, rfl, rfl⟩ := h
  exact ⟨services :: units, f, file, hf, hfile, rfl⟩

theorem isWord_field {slot : Slot} {endpoint : String} {a : Argument}
    (h : slot.Holds endpoint a) : Text.isWord (usable a.field).toList = true :=
  exists_nameIdent_iff.1 ⟨slot.field, h.field⟩

/-- The setters of a list have names of their own, the others those of the fields. -/
theorem isWord_setters {slot : Slot} {endpoint : String} {a : Argument} {items : List Source.Item}
    (h : slot.Holds endpoint a) (hset : slot.setters = .ok items)
    (hnames : ∀ n ∈ a.setterNames, isIdentifier n = true) :
    ∀ n ∈ a.setterNames, Text.isWord (usable n).toList = true := by
  intro n hn
  have hid := hnames n hn
  by_cases hlist : a.type.isList = true
  · obtain ⟨element, hstorage⟩ := h.isList.1 hlist
    rcases Slot.setters_cases hset with ⟨_, replace, append, _, _, hboth⟩ | ⟨hnone, -⟩
    · have hargument := h.argument
      subst hargument
      have hreplace := hboth.replaceName
      have hcases : n = "set_" ++ snakeCase slot.argument.name ∨
          n = snakeCase slot.argument.appendName := by
        unfold Argument.setterNames at hn
        split at hn
        · cases hn
        · simpa [hlist] using hn
      rcases hcases with rfl | rfl
      · rw [usable_set]
        exact (exists_spelledIdent_iff (hash_not_mem_of_isIdentifier hid)).1 ⟨replace, hreplace⟩
      · exact exists_nameIdent_iff.1 ⟨append, hboth.appendName⟩
    · exact absurd hstorage (hnone element)
  · have hn' : n = a.field := by
      unfold Argument.setterNames at hn
      split at hn
      · cases hn
      · simpa [hlist, Argument.field] using hn
    rw [hn']
    exact isWord_field h

theorem isWord_unit {p : Plan} {f : Source.File} (h : index p s = .ok f) {unit : String}
    {ms : List Method} (hu : (unit, ms) ∈ p.units) :
    Text.isWord (usable unit).toList = true := by
  obtain ⟨items, hitems, -⟩ := bind_eq_ok_iff.1 h
  obtain ⟨item, -, hitem⟩ := exists_of_forall₂_right (mapM_eq_ok_iff.1 hitems).flip hu
  obtain ⟨name, hname, -⟩ := bind_eq_ok_iff.1 hitem
  exact exists_nameIdent_iff.1 ⟨name, hname⟩

/-- All names that identifiers were made of are words. -/
theorem isWord_of_generate {o : Output} (h : generate c s = .ok o) :
    ∀ n ∈ c.identifiers s, Text.isWord n.toList = true := by
  obtain ⟨_, ms, -, hacc, hrender⟩ := generate_eq_ok_iff.1 h
  obtain ⟨t, code, ps, -, -, -, hassembled⟩ := Code.exists_assembled h
  obtain ⟨ms', hacc', hperm⟩ := hassembled.accepted
  obtain rfl : ms' = ms := Except.ok.inj (hacc'.methods.symm.trans hacc.methods)
  intro n hn
  obtain ⟨e, he, hn⟩ := List.mem_flatMap.1 hn
  have hends : e.Acceptable s := endpointFits_iff.1 (hacc.fits e he)
  obtain ⟨m, hm, hof⟩ := exists_of_forall₂_right (mapM_eq_ok_iff.1 hacc.methods).flip he
  obtain ⟨q, hq, rfl⟩ := List.mem_map.1 (hperm.mem_iff.2 hm)
  have hof : Method.ofEndpoint e = .ok q.method := hof
  obtain ⟨hcallType, hstarter, hunit⟩ := names_of_ofEndpoint hof
  have hfit := hassembled.fit q hq
  have hhash : '#' ∉ e.groupName.toList := hash_not_mem_of_isIdentifier hends.group
  have hslots : ∀ a ∈ e.arguments, ∃ slot ∈ q.slots,
      Slot.of q.method.endpoint.name a = .ok slot := fun a ha =>
    exists_of_forall₂_right hfit.slots.flip ((arguments_perm hof).mem_iff.2 ha)
  rw [Endpoint.identifiers, List.mem_append] at hn
  rcases hn with hn | hn
  · simp only [List.mem_cons, List.not_mem_nil, or_false] at hn
    have hgroup : q.method.group = e.groupName := congrArg Prod.fst hstarter
    rcases hn with rfl | rfl
    · refine (exists_spelledIdent_iff ?_).1 ⟨q.serviceName, ?_⟩
      · simp [serviceType, hhash]
      · exact hgroup ▸ hfit.serviceName
    · refine (exists_spelledIdent_iff ?_).1 ⟨q.name, ?_⟩
      · have hname := hash_not_mem_of_isIdentifier hends.procedure
        simp [Endpoint.callName, hhash, hname]
      · exact hcallType ▸ hfit.name
  · obtain ⟨k, hk, rfl⟩ := List.mem_map.1 hn
    simp only [List.mem_append, List.mem_singleton] at hk
    rcases hk with ((rfl | hk) | hk) | hk
    · have hconstructor : q.method.constructor = e.starter.2 := congrArg Prod.snd hstarter
      exact exists_nameIdent_iff.1 ⟨q.constructor, hconstructor ▸ hfit.constructor⟩
    · obtain ⟨a, ha, rfl⟩ := List.mem_map.1 hk
      obtain ⟨slot, -, hslot⟩ := hslots a ha
      exact isWord_field (Slot.holds hslot)
    · obtain ⟨a, ha, hk⟩ := List.mem_flatMap.1 hk
      obtain ⟨slot, hmem, hslot⟩ := hslots a ha
      have hholds := Slot.holds hslot
      have hoptional : slot.argument.required = false := by
        rw [hholds.argument]
        by_contra hreq
        rw [setterNames_of_required (by simpa using hreq)] at hk
        cases hk
      obtain ⟨items, -, hset⟩ := exists_of_forall₂_right hfit.setters.flip
        (List.mem_filter.2 ⟨hmem, by simp [hoptional]⟩)
      refine isWord_setters hholds hset (fun n hn => ?_) k hk
      exact (hends.setter n (List.mem_flatMap.2 ⟨a, ha, hn⟩)).1
    · split at hk
      · rename_i hindex
        rw [List.mem_singleton] at hk
        obtain ⟨_, f, _, hf, -, -⟩ := exists_index hrender hindex
        have hmem : q.method.unit ∈ distinctNames (ms'.map (·.unit)) :=
          mem_distinctNames.2 (List.mem_map_of_mem hm)
        rw [hk, ← hunit]
        exact isWord_unit hf (List.mem_map.2 ⟨_, hmem, rfl⟩)
      · cases hk

end Emission

/-! Names of ASCII characters -/

/-- All names of the endpoint consist of ASCII characters. -/
structure Endpoint.IsAscii (e : Endpoint) : Prop where
  name : Text.Ascii e.name.toList
  group : Text.Ascii e.group.toList
  arguments : ∀ a ∈ e.arguments, Text.Ascii a.name.toList
  singular : ∀ a ∈ e.arguments, ∀ n, a.singular = some n → Text.Ascii n.toList

instance (e : Endpoint) : Decidable e.IsAscii :=
  decidable_of_iff (Text.Ascii e.name.toList ∧ Text.Ascii e.group.toList ∧
    (∀ a ∈ e.arguments, Text.Ascii a.name.toList) ∧
    ∀ a ∈ e.arguments, ∀ n ∈ a.singular, Text.Ascii n.toList)
    ⟨fun ⟨hname, hgroup, ha, hs⟩ => ⟨hname, hgroup, ha, hs⟩,
      fun h => ⟨h.name, h.group, h.arguments, h.singular⟩⟩

namespace Endpoint.IsAscii

variable {s : Settings} {e : Endpoint} (h : e.IsAscii) (he : e.Acceptable s)
include h

theorem setterNames {a : Argument} (ha : a ∈ e.arguments) :
    ∀ n ∈ a.setterNames, Text.Ascii n.toList := by
  have hfield : Text.Ascii a.field.toList := snakeCase_ascii (h.arguments a ha)
  have hitem : Text.Ascii a.appendName.toList := by
    rw [Argument.appendName]
    cases hs : a.singular with
    | none => exact singularize_ascii (h.arguments a ha)
    | some n => exact h.singular a ha n hs
  have hset : ∀ c ∈ "set_".toList, c.toNat < 128 := by simp
  intro n hn
  unfold Argument.setterNames at hn
  split at hn
  · cases hn
  · split at hn
    · simp only [List.mem_cons, List.not_mem_nil, or_false] at hn
      rcases hn with rfl | rfl
      · rw [String.toList_append]
        exact Text.Ascii.append hset hfield
      · exact snakeCase_ascii hitem
    · rw [List.mem_singleton] at hn
      exact hn ▸ hfield

include he

theorem parts : Text.Ascii e.space.toList ∧ Text.Ascii e.procedure.toList := by
  obtain ⟨_, -, -, -, -, hname⟩ := he.dotted
  have hascii := h.name
  rw [hname] at hascii
  exact ⟨hascii.of_subset (by simp), hascii.of_subset (by simp)⟩

theorem groupName : Text.Ascii e.groupName.toList := by
  unfold Endpoint.groupName
  split
  · exact pascalCase_ascii (h.parts he).1
  · exact h.group

/-- A type is named by its group with more behind it. -/
theorem isWord_typeName {n : String}
    (hall : ∀ c ∈ n.toList, Text.continuesIdentifier c = true) :
    Text.isWord (e.groupName ++ n).toList = true := by
  have hgroup := isWord_of_isIdentifier (h.groupName he) he.group
  rw [String.toList_append]
  cases hlist : e.groupName.toList with
  | nil =>
    rw [hlist] at hgroup
    cases hgroup
  | cons c rest =>
    rw [hlist, Text.isWord, Bool.and_eq_true, List.all_eq_true] at hgroup
    rw [List.cons_append, Text.isWord, Bool.and_eq_true, List.all_eq_true]
    exact ⟨hgroup.1, fun d hd => (List.mem_append.1 hd).elim (hgroup.2 d) (hall d)⟩

omit h he in
theorem isWord_usable_of_isIdentifier {n : String} (hn : Text.Ascii n.toList)
    (hid : isIdentifier n = true) : Text.isWord (usable n).toList = true := by
  by_cases hp : isPathKeyword n = true
  · exact isWord_usable (.inl hp)
  · rw [usable, if_neg hp]
    exact isWord_of_isIdentifier hn hid

theorem isWord_identifiers : ∀ n ∈ e.identifiers s, Text.isWord n.toList = true := by
  have hservice : ∀ c ∈ "Service".toList, Text.continuesIdentifier c = true :=
    List.all_eq_true.1 (by decide +kernel)
  have hcall : ∀ c ∈ "Call".toList, Text.continuesIdentifier c = true :=
    List.all_eq_true.1 (by decide +kernel)
  have hspace : Text.Ascii (unitOf e.space).toList := by
    rw [unitOf, String.toList_ofList]
    intro c hc
    obtain ⟨d, hd, rfl⟩ := List.mem_map.1 hc
    split
    · decide
    · exact (h.parts he).1 d hd
  intro n hn
  rw [Endpoint.identifiers, List.mem_append] at hn
  rcases hn with hn | hn
  · simp only [List.mem_cons, List.not_mem_nil, or_false] at hn
    rcases hn with rfl | rfl
    · exact h.isWord_typeName he hservice
    · rw [Endpoint.callName, String.append_assoc]
      refine h.isWord_typeName he fun c hc => ?_
      rw [String.toList_append] at hc
      rcases List.mem_append.1 hc with hc | hc
      · exact continuesIdentifier_of_isIdentifier (pascalCase_ascii (h.parts he).2) he.procedure c hc
      · exact hcall c hc
  · obtain ⟨k, hk, rfl⟩ := List.mem_map.1 hn
    simp only [List.mem_append, List.mem_singleton] at hk
    rcases hk with ((rfl | hk) | hk) | hk
    · have hword := isWord_snakeCase (h.parts he).2 he.procedure
      by_cases hp : isPathKeyword e.starter.2 = true
      · exact isWord_usable (.inl hp)
      · rw [usable, if_neg hp]
        exact hword
    · obtain ⟨a, ha, rfl⟩ := List.mem_map.1 hk
      exact isWord_usable_of_isIdentifier (snakeCase_ascii (h.arguments a ha)) (he.field a ha).1
    · obtain ⟨a, ha, hmem⟩ := List.mem_flatMap.1 hk
      exact isWord_usable_of_isIdentifier (h.setterNames ha k hmem) (he.setter k hk).1
    · split at hk
      · rw [List.mem_singleton] at hk
        exact hk ▸ isWord_usable_of_isIdentifier hspace he.unit
      · cases hk

end Endpoint.IsAscii

/-- A catalog that passes validation makes generation panic over an identifier only by a name that
is no word, and nothing is generated if it has one; a catalog of ASCII names has none. -/
theorem generate_identifiers {c : Catalog} {s : Settings} (hv : validate c s = .ok ()) :
    (∀ n, generate c s = .error (.notWord n) →
      n ∈ c.identifiers s ∧ Text.isWord n.toList = false) ∧
    ((∃ n ∈ c.identifiers s, Text.isWord n.toList = false) → ∀ o, generate c s ≠ .ok o) ∧
    ((∀ e ∈ c.endpoints, e.IsAscii) → ∀ n ∈ c.identifiers s, Text.isWord n.toList = true) := by
  obtain ⟨ms, hacc⟩ := validate_eq_ok_iff.1 hv
  refine ⟨fun n h => ?_, fun ⟨n, hn, hword⟩ o h => ?_, fun hascii n hn => ?_⟩
  · cases ht : Target.of s with
    | error why =>
      have hwhy : ∃ fault, why = .settings fault := by
        unfold Target.of at ht
        split at ht
        · cases ht
        · exact ⟨_, (Except.error.inj ht).symm⟩
      obtain ⟨fault, rfl⟩ := hwhy
      unfold generate at h
      rw [ht] at h
      cases h
    | ok t =>
      cases generate_fails ht hacc _ h with
      | misnamed hmis =>
        obtain ⟨k, hk, hword, heq⟩ := hmis
        cases heq
        exact ⟨hk, hword⟩
  · rw [isWord_of_generate h n hn] at hword
    cases hword
  · obtain ⟨e, he, hn⟩ := List.mem_flatMap.1 hn
    exact (hascii e he).isWord_identifiers (endpointFits_iff.1 (hacc.fits e he)) n hn

/-- The circled letter is alphabetic and starts no identifier. -/
def Catalog.circled : Catalog := ⟨[{ name := "ⓐ.b" }]⟩

theorem circled_not_generated : validate .circled {} = .ok () ∧
    (∃ n ∈ Catalog.circled.identifiers {}, Text.isWord n.toList = false) ∧
    ∀ o, generate .circled {} ≠ .ok o := by
  have hv : validate .circled {} = .ok () := eq_ok_of_toOption (by decide +kernel)
  have hn : ∃ n ∈ Catalog.circled.identifiers {}, Text.isWord n.toList = false :=
    ⟨"ⓐ", by decide +kernel, by decide +kernel⟩
  exact ⟨hv, hn, (generate_identifiers hv).2.1 hn⟩

end Bindery
