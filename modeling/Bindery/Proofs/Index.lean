import Bindery.Proofs.FileNames
import Bindery.Proofs.Identifiers
import Bindery.Proofs.Source.Items

/-!
# The index of an output

The index declares the files that stand beside it: each of its modules is found in a file of its
own, and no file is left out. Two modules have one name only if a unit is named after a word that
names a place in a path and another one after that word with an underscore.
-/
namespace Bindery

open Naming Emission

/-! Declarations -/

namespace Source

/-- The file that an attribute gives a module. -/
def fileOf? : Attribute → Option String
  | .valueAttr false p (.literalExpr text) =>
    if p.isWord "path" then (Lexer.text text.toList).map fun content => String.ofList content.1
    else none
  | _ => none

/-- A module that another file holds. -/
structure Declared where
  name : Ident
  file : String
  deriving DecidableEq, Repr

/-- The module that an item declares, in the file of its attribute or else of its name. -/
def declared? : Item → Option Declared
  | .moduleItem attrs _ _ name .absent =>
    some ⟨name, (attrs.toList.findSome? fileOf?).getD (name.word ++ ".rs")⟩
  | _ => none

def File.declared (f : File) : List Declared := f.items.filterMap declared?

theorem declared?_moduleItem (attrs : List Attribute) (name : Ident) :
    declared? (moduleItem attrs name) =
      some ⟨name, (attrs.findSome? fileOf?).getD (name.word ++ ".rs")⟩ := by
  rw [moduleItem, declared?, Tree.toList_ofList]

theorem fileOf?_keyword {unit : String} (h : isPathKeyword unit = true) :
    fileOf? (textAttribute "path" (unit ++ ".rs")) = some (unit ++ ".rs") := by
  have hall : ∀ k ∈ pathKeywords, fileOf? (textAttribute "path" (k ++ ".rs")) =
      some (k ++ ".rs") := by decide +kernel
  exact hall unit (List.contains_iff_mem.1 h)

end Source

open Source

theorem eq_of_ofWord?_eq_some {w : String} {i : Ident} (h : Ident.ofWord? w = some i) :
    i = ⟨w, false⟩ := by
  unfold Ident.ofWord? at h
  split at h
  · exact (Option.some.inj h).symm
  · cases h

/-- An identifier of its own is the usable form of its name, and can be read as an identifier. -/
theorem nameIdent_ok {n : String} {i : Ident} (h : nameIdent n = .ok i) :
    i.word = usable n ∧ (n ≠ "_" → Ident.isKeyword i = false) := by
  have hname : Ident.ofName? n = some i := by
    unfold nameIdent at h
    split at h
    · rename_i i' hi
      rw [hi, Except.ok.inj h]
    · cases h
  unfold Ident.ofName? at hname
  split at hname
  · rename_i hp
    obtain rfl := eq_of_ofWord?_eq_some hname
    have hall : ∀ k ∈ pathKeywords, Ident.isKeyword ⟨k ++ "_", false⟩ = false := by decide
    exact ⟨by rw [usable, if_pos hp], fun _ => hall n (List.contains_iff_mem.1 hp)⟩
  · rename_i hp
    rw [usable, if_neg hp]
    split at hname
    · cases hname
      exact ⟨rfl, fun _ => rfl⟩
    · rename_i hraw
      obtain rfl := eq_of_ofWord?_eq_some hname
      refine ⟨rfl, fun hne => ?_⟩
      have hall : ∀ k ∈ keywords, k = "_" ∨ isPathKeyword k = true ∨ rawKeywords.contains k = true := by
        decide
      refine Bool.eq_false_iff.2 fun hkey => ?_
      rcases hall n (List.contains_iff_mem.1 (by simpa [Ident.isKeyword] using hkey)) with h | h | h
      · exact hne h
      · exact hp h
      · exact hraw h

/-- An identifier that is spelled by no reserved word is none. -/
theorem isKeyword_of_text {i : Ident} (h : i.text ∉ keywords) : Ident.isKeyword i = false := by
  refine Bool.eq_false_iff.2 fun hkey => ?_
  obtain ⟨hraw, hword⟩ : i.raw = false ∧ i.word ∈ keywords := by
    simpa [Ident.isKeyword] using hkey
  have htext : i.text = i.word := by simp [Ident.text, hraw]
  exact h (htext ▸ hword)

theorem isKeyword_catalogIdent {name : String} {i : Ident} (h : catalogIdent name = .ok i) :
    Ident.isKeyword i = false := by
  refine (nameIdent_ok h).2 fun hname => getLast?_snakeCase_ne name ?_
  rw [hname]
  rfl

/-- No reserved word ends like the name of a type. -/
theorem isKeyword_spelledIdent {front ending : String}
    (hending : ∀ k ∈ keywords, ending.toList.isSuffixOf k.toList = false) {i : Ident}
    (h : spelledIdent (front ++ ending) = .ok i) : Ident.isKeyword i = false := by
  refine isKeyword_of_text fun hmem => ?_
  have hsuffix := hending i.text hmem
  rw [spelledIdent_eq_ok h, String.toList_append] at hsuffix
  rw [List.isSuffixOf_iff_suffix.2 (List.suffix_append _ _)] at hsuffix
  cases hsuffix

/-- No reserved word begins like the name of a function that replaces a list. -/
theorem isKeyword_replaceIdent {word : String} {i : Ident} (h : spelledIdent ("set_" ++ word) = .ok i) :
    Ident.isKeyword i = false := by
  have hall : ∀ k ∈ keywords, "set_".toList.isPrefixOf k.toList = false := by decide
  refine isKeyword_of_text fun hmem => ?_
  have hprefix := hall i.text hmem
  rw [spelledIdent_eq_ok h, String.toList_append] at hprefix
  rw [List.isPrefixOf_iff_prefix.2 (List.prefix_append _ _)] at hprefix
  cases hprefix

/-- The declaration of a unit leads to the file of the unit. -/
theorem declared?_declareUnit {unit : String} {i : Item} (h : declareUnit unit = .ok i) :
    ∃ name, declared? i = some ⟨name, unit ++ ".rs"⟩ ∧ name.word = usable unit := by
  obtain ⟨name, hname, hi⟩ := bind_eq_ok_iff.1 h
  obtain ⟨hword, -⟩ := nameIdent_ok hname
  obtain rfl := pure_eq_ok_iff.1 hi
  refine ⟨name, ?_, hword⟩
  rw [declared?_moduleItem]
  split
  · rename_i hp
    simp [fileOf?_keyword hp]
  · rename_i hp
    rw [hword, usable, if_neg hp]
    rfl

theorem usable_eq_usable {m n : String} (h : usable m = usable n) :
    m = n ∨ isPathKeyword m = true ∧ n = m ++ "_" ∨ isPathKeyword n = true ∧ m = n ++ "_" := by
  unfold usable at h
  split at h
  · rename_i hm
    split at h
    · exact .inl ((String.append_left_inj "_").1 h)
    · exact .inr (.inl ⟨hm, h.symm⟩)
  · split at h
    · rename_i hn
      exact .inr (.inr ⟨hn, h⟩)
    · exact .inl h

/-- Different names have different usable forms, unless one is the usable form of the other. -/
theorem nodup_map_usable_iff {units : List String} (h : units.Nodup) :
    (units.map usable).Nodup ↔ ∀ k ∈ pathKeywords, ¬(k ∈ units ∧ k ++ "_" ∈ units) := by
  constructor
  · rintro hnodup k hk ⟨hunit, hother⟩
    have hall : ∀ k ∈ pathKeywords, usable k = usable (k ++ "_") ∧ k ≠ k ++ "_" := by decide
    exact (hall k hk).2 (List.inj_on_of_nodup_map hnodup hunit hother (hall k hk).1)
  · intro hnone
    have hmem : ∀ {k : String}, isPathKeyword k = true → k ∈ pathKeywords := List.contains_iff_mem.1
    refine h.map_on fun m hm n hn heq => ?_
    rcases usable_eq_usable heq with rfl | ⟨hp, rfl⟩ | ⟨hp, rfl⟩
    · rfl
    · exact absurd ⟨hm, hn⟩ (hnone m (hmem hp))
    · exact absurd ⟨hn, hm⟩ (hnone n (hmem hp))

/-! The file -/

section Index

theorem render_eq_ok {unit : String} {f : File} {s : Settings} {file : OutputFile}
    (h : render unit f s = .ok file) : ∃ f', File.ofTokens f.tokens = .ok f' ∧
      ∃ content, layOut f' s = .ok content ∧ file = ⟨unit ++ ".rs", content⟩ := by
  obtain ⟨f', hread, h⟩ := bind_eq_ok_iff.1 h
  obtain ⟨content, hcontent, hfile⟩ := bind_eq_ok_iff.1 h
  refine ⟨f', ?_, content, hcontent, (pure_eq_ok_iff.1 hfile).symm⟩
  unfold checkCode at hread
  split at hread
  · rename_i f'' hread'
    rw [hread', Except.ok.inj hread]
  · cases hread

variable {p : Plan} {s : Settings} {f : File}

/-- The index declares the services and then each unit, in the order of the plan. -/
theorem declared_index (h : index p s = .ok f) :
    f.declared.map (·.file) = (servicesUnit :: p.units.map (·.1)).map (· ++ ".rs") ∧
      f.declared.map (·.name.word) = (servicesUnit :: p.units.map (·.1)).map usable := by
  obtain ⟨items, hitems, hf⟩ := bind_eq_ok_iff.1 h
  obtain rfl := pure_eq_ok_iff.1 hf
  have hunits : ∀ {us : List (String × List Method)} {items : List Item},
      List.Forall₂ (fun u i => declareUnit u.1 = .ok i) us items →
      (items.filterMap declared?).map (·.file) = us.map (·.1 ++ ".rs") ∧
      (items.filterMap declared?).map (·.name.word) = us.map (usable ·.1) := by
    intro us items hall
    induction hall with
    | nil => exact ⟨rfl, rfl⟩
    | cons hi _ ih =>
      obtain ⟨name, hdeclared, hword⟩ := declared?_declareUnit hi
      simp [hdeclared, hword, ih]
  obtain ⟨hfiles, hnames⟩ := hunits (mapM_eq_ok_iff.1 hitems)
  have hservices : declared? (moduleItem [] (plain servicesUnit)) =
      some ⟨plain servicesUnit, servicesUnit ++ ".rs"⟩ := declared?_moduleItem [] _
  have hplain : usable servicesUnit = servicesUnit := by decide
  rw [File.declared, List.filterMap_cons_some hservices]
  simp [hfiles, hnames, hplain, plain, Function.comp_def]

theorem index_rereads (h : index p s = .ok f) (hunits : ∀ u ∈ p.units, u.1 ≠ "_") :
    File.ofTokens f.tokens = .ok f := by
  obtain ⟨items, hitems, hf⟩ := bind_eq_ok_iff.1 h
  obtain rfl := pure_eq_ok_iff.1 hf
  refine File.ofTokens_tokens (fun a ha => ?_) fun i hi => ?_
  · obtain rfl := List.mem_singleton.1 ha
    exact valueAttr_rereads _ (by decide) true _
  · rcases List.mem_cons.1 hi with rfl | hi
    · exact moduleItem_rereads (fun _ h => by cases h) (by decide)
    · obtain ⟨u, hu, hi⟩ := exists_of_forall₂_right (mapM_eq_ok_iff.1 hitems) hi
      obtain ⟨name, hname, hi⟩ := bind_eq_ok_iff.1 hi
      obtain rfl := pure_eq_ok_iff.1 hi
      refine moduleItem_rereads (fun a ha => ?_) ((nameIdent_ok hname).2 (hunits u hu))
      split at ha
      · obtain rfl := List.mem_singleton.1 ha
        exact valueAttr_rereads _ (by decide) false _
      · cases ha

end Index

/-- No unit of an accepted catalog is named by an underscore alone. -/
theorem Accepted.unit_ne_underscore {c : Catalog} {s : Settings} {ms : List Method}
    (h : Accepted c s ms) : ∀ u ∈ (Plan.ofMethods ms).units, u.1 ≠ "_" := by
  intro u hu hunit
  have hid : isIdentifier u.1 = true := h.units_isIdentifier (s := s) u.1
    (by simpa [Plan.unitNames] using .inr (.inl ⟨_, hu⟩))
  rw [hunit] at hid
  revert hid
  decide

/-- The index of an output is its last file, and is read again as it was emitted. In order its
modules are found in the other files, each in one of its own. Their names differ unless a unit is
named after a word that names a place in a path and another one after that word with an
underscore. -/
theorem generate_index {c : Catalog} {s : Settings} {o : Output} (h : generate c s = .ok o)
    (hindex : s.hasIndex = true) : ∃ others content f, o.files = others ++ [⟨"mod.rs", content⟩] ∧
      File.ofTokens f.tokens = .ok f ∧ layOut f s = .ok content ∧
      f.declared.map (·.file) = others.map (·.name) ∧ (others.map (·.name)).Nodup ∧
      "mod.rs" ∉ others.map (·.name) ∧
      ((f.declared.map (·.name.word)).Nodup ↔ ∀ k ∈ pathKeywords,
        ¬(k ++ ".rs" ∈ others.map (·.name) ∧ k ++ "_.rs" ∈ others.map (·.name))) := by
  obtain ⟨t, ms, -, hacc, hrender⟩ := generate_eq_ok_iff.1 h
  obtain ⟨others, f, file, hf, hfile, hfiles⟩ := exists_index hrender hindex
  obtain ⟨f', hread, content, hcontent, hfile⟩ := render_eq_ok hfile
  have hnames : others.map (·.name) ++ ["mod.rs"] =
      (servicesUnit :: (Plan.ofMethods ms).units.map (·.1)).map (· ++ ".rs") ++ ["mod.rs"] := by
    have hall := names_of_render hrender
    simpa [Output.names, hfiles, hfile, Plan.unitNames, hindex] using hall
  replace hnames := List.append_cancel_right hnames
  have hunits := hacc.units_nodup
  rw [Plan.unitNames, if_pos hindex] at hunits
  obtain ⟨hother, -, hmod⟩ := List.nodup_append'.1 hunits
  obtain rfl : f = f' := Except.ok.inj ((index_rereads hf hacc.unit_ne_underscore).symm.trans hread)
  obtain ⟨hfilenames, hwords⟩ := declared_index hf
  have hmem : ∀ {name : String}, name ++ ".rs" ∈ others.map (·.name) ↔
      name ∈ servicesUnit :: (Plan.ofMethods ms).units.map (·.1) := by
    intro name
    rw [hnames]
    exact List.mem_map_of_injective fun _ _ h => (String.append_left_inj ".rs").1 h
  refine ⟨others, content, f, hfile ▸ hfiles, hread, hcontent, hfilenames.trans hnames.symm, ?_, ?_, ?_⟩
  · rw [hnames]
    exact hother.map fun _ _ h => (String.append_left_inj ".rs").1 h
  · rw [show "mod.rs" = "mod" ++ ".rs" from rfl, hmem]
    exact fun h => hmod h (List.mem_singleton_self _)
  · have hsecond : ∀ k : String, k ++ "_.rs" ∈ others.map (·.name) ↔
        k ++ "_" ∈ servicesUnit :: (Plan.ofMethods ms).units.map (·.1) := by
      intro k
      rw [← hmem, String.append_assoc]
      rfl
    rw [hwords, nodup_map_usable_iff hother]
    simp only [hmem, hsecond]

/-- The second unit has the name that the first one is declared under. -/
def Catalog.selves : Catalog := ⟨[{ name := "self.get" }, { name := "self_.list" }]⟩

theorem selves_index : ∃ o others content f, generate .selves {} = .ok o ∧
    o.files = others ++ [⟨"mod.rs", content⟩] ∧ layOut f {} = .ok content ∧
    f.declared.map (·.file) = others.map (·.name) ∧ ¬(f.declared.map (·.name.word)).Nodup := by
  have hnames : (generate .selves {}).toOption.map (·.names) =
      some ["services.rs", "self.rs", "self_.rs", "mod.rs"] := by decide +kernel
  obtain ⟨o, ho, hnames⟩ := Option.map_eq_some_iff.1 hnames
  replace ho := eq_ok_of_toOption ho
  obtain ⟨others, content, f, hfiles, -, hcontent, hdeclared, -, -, hnodup⟩ :=
    generate_index ho rfl
  rw [Output.names, hfiles, List.map_append] at hnames
  have hothers : others.map (·.name) = ["services.rs", "self.rs", "self_.rs"] :=
    List.append_cancel_right hnames
  refine ⟨o, others, content, f, ho, hfiles, hcontent, hdeclared, fun h => ?_⟩
  exact hnodup.1 h "self" (by decide) (by rw [hothers]; decide)

end Bindery
