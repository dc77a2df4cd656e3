import Bindery.Proofs.Documentation.Calls
import Bindery.Proofs.Source.Gaps
import Bindery.Proofs.Totality

/-!
# Output with other documentation

Documentation has no effect on code. Whatever the comments and defaults of a catalog and the label of
the settings, generation fails for the same reason, or leads to files of the same names whose code is
the same without documentation.
-/
namespace Bindery

open Source Source.Grammar Emission

/-! Files -/

/-- Files that differ in documentation: both are refused for the same reason, or both are read and
laid out or not, and without documentation they are the same. -/
structure SameFile (f f' : File) : Prop where
  reads : SameOutcome SameLayout (File.ofTokens f.tokens) (File.ofTokens f'.tokens)
  bare : Token.bareAll f.tokens = Token.bareAll f'.tokens

theorem SameFile.refl (f : File) : SameFile f f where
  reads := (SameOutcome.refl _).imp fun _ _ _ _ h => h ▸ rfl
  bare := rfl

/-- Documentation takes no levels. -/
theorem exists_levels {ts us : List Token} (h : Token.bareAll ts = Token.bareAll us) :
    ∃ n, 15 ≤ n ∧ levels ts = n + 1 ∧ levels us = n + 1 := by
  unfold levels
  rw [h]
  exact ⟨2 * Token.sizeAll (Token.bareAll us) + 15, by omega, rfl, rfl⟩

/-- Items that are read in step make files that are. -/
theorem sameFile_of_items {items items' : List Item}
    (h : List.Forall₂ (SameCode Grammar.item SameItem) items items') :
    SameFile ⟨[], items⟩ ⟨[], items'⟩ := by
  have hbare : Token.bareAll (File.tokens ⟨[], items⟩) = Token.bareAll (File.tokens ⟨[], items'⟩) :=
    (SameCode.bare_flatMap h).bareAll_eq
  obtain ⟨n, hn, hlevels, hlevels'⟩ := exists_levels hbare
  refine ⟨?_, hbare⟩
  unfold File.ofTokens readTokens
  rw [hlevels, hlevels']
  refine Parser.Alike.runAll (.after ?_ (reads_noInner (SameCode.noInner_left h))
    (reads_noInner (SameCode.noInner_right h)))
  exact (Parser.alike_manyToEnd (SameCode.inStep_map h hn)).bind fun xs xs' hall =>
    Parser.alike_pure (sameLayout_of_items _ hall)

theorem SameFile.render {f f' : File} (h : SameFile f f') (unit : String) (s s' : Settings) :
    SameOutcome (fun _ _ => True) (render unit f s) (render unit f' s') := by
  have hcheck : SameOutcome SameLayout (checkCode unit f.tokens) (checkCode unit f'.tokens) := by
    unfold checkCode
    rcases h.reads with ⟨why, hleft, hright⟩ | ⟨g, g', hlayout, hleft, hright⟩
    · rw [hleft, hright]
      exact .inl ⟨_, rfl, rfl⟩
    · rw [hleft, hright]
      exact .ok hlayout
  have hlayOut : ∀ g g' : File, SameLayout g g' →
      SameOutcome (fun _ _ => True) (layOut g s) (layOut g' s') := by
    intro g g' hlayout
    unfold SameLayout at hlayout
    unfold layOut
    cases hg : g.text? with
    | none =>
      rw [hg] at hlayout
      rw [Option.isSome_eq_false_iff.1 hlayout.symm |> Option.isNone_iff_eq_none.1]
      exact .inl ⟨_, rfl, rfl⟩
    | some text =>
      rw [hg] at hlayout
      obtain ⟨text', hg'⟩ := Option.isSome_iff_exists.1 hlayout.symm
      rw [hg']
      exact .ok trivial
  exact hcheck.bind fun g g' hlayout => (hlayOut g g' hlayout).bind fun _ _ _ => .ok trivial

/-- Documentation of a file is no code. -/
theorem bareAll_inner (line : String) (items : List Item) : Token.bareAll (File.tokens
    ⟨[.valueAttr true (SimplePath.ofWord "doc") (textExpr line)], items⟩) =
      Token.bareAll (items.flatMap Tree.tokens) := by
  rw [File.tokens, List.flatMap_cons, List.flatMap_nil, List.append_nil, tokens_textAttribute,
    bareAll_doc]

namespace Emission

theorem sameOutcome_unit {t : Target} (ht : HasPairedSegments t.runtime) {ms ms' : List Method}
    (h : ms.map Method.undocumented = ms'.map Method.undocumented) :
    SameOutcome SameFile (unit t ms) (unit t ms') :=
  (SameOutcome.mapM ((forall₂_eq_iff.2 h).imp fun _ _ hm => sameOutcome_call ht hm)).bind
    fun _ _ hitems => .ok (sameFile_of_items (List.rel_flatten hitems))

/-- The index differs in the label. -/
theorem sameOutcome_index {p p' : Plan} (h : p'.units.map (·.1) = p.units.map (·.1))
    (hnames : ∀ u ∈ p.units, u.1 ≠ "_") (s s' : Settings) :
    SameOutcome SameFile (index p s) (index p' s') := by
  have hindex : ∀ (p : Plan) (s : Settings), index p s =
      (p.units.map (·.1)).mapM declareUnit >>= fun units => pure
        ⟨[.valueAttr true (SimplePath.ofWord "doc")
          (textExpr s!" Generated bindings for the `{s.label}` catalog.")],
          moduleItem [] (plain servicesUnit) :: units⟩ := fun p s => by
    rw [List.mapM_map]
    rfl
  have hnames' : ∀ u ∈ p'.units, u.1 ≠ "_" := by
    intro u hu
    have hmem : u.1 ∈ p.units.map (·.1) := h ▸ List.mem_map_of_mem hu
    obtain ⟨v, hv, hname⟩ := List.mem_map.1 hmem
    exact hname ▸ hnames v hv
  have hsame : SameOutcome (fun f f' => ∃ line line' items,
      f = ⟨[.valueAttr true (SimplePath.ofWord "doc") (textExpr line)], items⟩ ∧
      f' = ⟨[.valueAttr true (SimplePath.ofWord "doc") (textExpr line')], items⟩)
      (index p s) (index p' s') := by
    rw [hindex, hindex, h]
    exact .step _ fun units _ => .ok ⟨_, _, _, rfl, rfl⟩
  rcases hsame with hwhy | ⟨_, _, ⟨line, line', items, rfl, rfl⟩, hf, hf'⟩
  · exact .inl hwhy
  · refine .inr ⟨_, _, ⟨?_, ?_⟩, hf, hf'⟩
    · rw [index_rereads hf hnames, index_rereads hf' hnames']
      exact .ok (sameLayout_of_doc line line' items)
    · rw [bareAll_inner, bareAll_inner]

end Emission

/-! Plans -/

/-- The index of a plan as it is emitted, if there is one. -/
def Plan.emittedIndex (p : Plan) (s : Settings) : Except Failure (List (String × File)) :=
  if s.hasIndex then (fun f => [("mod", f)]) <$> Emission.index p s else pure []

/-- The files of a plan as they are emitted, each under the name of its unit. -/
def Plan.emitted (p : Plan) (t : Target) (s : Settings) : Except Failure (List (String × File)) := do
  let services ← Emission.services t p.groups
  let units ← p.units.mapM fun u => do return (u.1, ← Emission.unit t u.2)
  return (Emission.servicesUnit, services) :: units ++ (← p.emittedIndex s)

/-- The files for a catalog as they are emitted, in the order of the output. -/
def Catalog.emitted (c : Catalog) (s : Settings) : Except Failure (List (String × File)) := do
  (← Plan.ofCatalog c).emitted (← Emission.Target.of s) s

/-- An output that consists of the given files, laid out one by one. -/
def Output.LaysOut (o : Output) (s : Settings) (fs : List (String × File)) : Prop :=
  List.Forall₂ (fun f file => render f.1 f.2 s = .ok file) fs o.files

namespace Plan

variable {p p' : Plan} {t : Target} {s : Settings}

theorem emitted_of_render {o : Output} (h : p.render t s = .ok o) :
    ∃ fs, p.emitted t s = .ok fs ∧ o.LaysOut s fs := by
  simp only [render, bind_eq_ok_iff, mapM_eq_ok_iff] at h
  obtain ⟨services, hservices, first, hfirst, files, hfiles, h⟩ := h
  have hsteps : List.Forall₂ (fun u file => ∃ f : String × File,
      (∃ x, Emission.unit t u.2 = .ok x ∧ (u.1, x) = f) ∧ Bindery.render f.1 f.2 s = .ok file)
      p.units files := by
    refine hfiles.imp fun u file h => ?_
    obtain ⟨x, hx, hf⟩ := h
    exact ⟨(u.1, x), ⟨x, hx, rfl⟩, hf⟩
  obtain ⟨units, hunits, hrendered⟩ := exists_of_forall₂_comp hsteps
  have hindex : ∃ index fs, o = ⟨first :: files ++ index⟩ ∧ p.emittedIndex s = .ok fs ∧
      List.Forall₂ (fun f file => Bindery.render f.1 f.2 s = .ok file) fs index := by
    unfold emittedIndex
    split at h
    · rename_i hs
      simp only [bind_eq_ok_iff, pure_eq_ok_iff] at h
      obtain ⟨f, hf, file, hfile, _, rfl, rfl⟩ := h
      exact ⟨[file], [("mod", f)], rfl, by rw [if_pos hs, hf]; rfl, .cons hfile .nil⟩
    · rename_i hs
      simp only [bind_eq_ok_iff, pure_eq_ok_iff] at h
      obtain ⟨_, rfl, rfl⟩ := h
      exact ⟨[], [], rfl, if_neg hs, .nil⟩
  obtain ⟨index, last, rfl, hlast, hindexed⟩ := hindex
  refine ⟨(Emission.servicesUnit, services) :: units ++ last, ?_,
    .cons hfirst (List.rel_append hrendered hindexed)⟩
  simp only [emitted, bind_eq_ok_iff, pure_eq_ok_iff, mapM_eq_ok_iff]
  exact ⟨services, hservices, units, hunits, last, hlast, rfl⟩

variable {s' : Settings} (ht : HasPairedSegments t.runtime) (h : p.undocumented = p'.undocumented)

include h in
theorem forall₂_units : List.Forall₂ (fun u u' => u.1 = u'.1 ∧
    u.2.map Method.undocumented = u'.2.map Method.undocumented) p.units p'.units :=
  (forall₂_eq_iff.2 (congrArg Plan.units h)).imp fun _ _ hu => Prod.mk.inj hu

include h in
theorem unitNames_eq : p'.units.map (·.1) = p.units.map (·.1) :=
  map_eq_of_forall₂ (forall₂_units h) fun _ _ _ hu => hu.1.symm

variable (hnames : ∀ u ∈ p.units, u.1 ≠ "_") (hindex : s'.hasIndex = s.hasIndex)
include ht h hnames hindex

theorem sameOutcome_emitted :
    SameOutcome (List.Forall₂ fun f f' => SameFile f.2 f'.2) (p.emitted t s) (p'.emitted t s') := by
  have hgroups : p'.groups = p.groups := (congrArg Plan.groups h.symm :)
  have hlast : SameOutcome (List.Forall₂ fun f f' : String × File => SameFile f.2 f'.2)
      (p.emittedIndex s) (p'.emittedIndex s') := by
    unfold emittedIndex
    rw [hindex]
    split
    · exact (sameOutcome_index (unitNames_eq h) hnames s s').bind fun f f' hf => .ok (.cons hf .nil)
    · exact .ok .nil
  have hunit : ∀ u u' : String × List Method,
      u.2.map Method.undocumented = u'.2.map Method.undocumented →
      SameOutcome (fun f f' : String × File => SameFile f.2 f'.2)
        (Emission.unit t u.2 >>= fun f => pure (u.1, f))
        (Emission.unit t u'.2 >>= fun f => pure (u'.1, f)) := fun u u' hu =>
    (sameOutcome_unit ht hu).bind fun f f' hf => .ok hf
  unfold emitted
  rw [hgroups]
  refine .step _ fun services _ => (SameOutcome.mapM ((forall₂_units h).imp fun u u' hu =>
    hunit u u' hu.2)).bind fun units units' hunits => hlast.bind fun index index' hindexed => .ok ?_
  exact .cons (.refl services) (List.rel_append hunits hindexed)

theorem sameOutcome_render :
    SameOutcome (fun _ _ => True) (p.render t s) (p'.render t s') := by
  have hgroups : p'.groups = p.groups := (congrArg Plan.groups h.symm :)
  have hunit : ∀ u u' : String × List Method, u.1 = u'.1 →
      u.2.map Method.undocumented = u'.2.map Method.undocumented →
      SameOutcome (fun _ _ => True)
        (Emission.unit t u.2 >>= fun f => Bindery.render u.1 f s)
        (Emission.unit t u'.2 >>= fun f => Bindery.render u'.1 f s') := fun u u' hname hu =>
    (sameOutcome_unit ht hu).bind fun f f' hf => hname ▸ hf.render u.1 s s'
  have hlast := sameOutcome_index (unitNames_eq h) hnames s s'
  unfold render
  rw [hgroups, hindex]
  refine .step _ fun services _ => ((SameFile.refl services).render _ s s').bind fun _ _ _ =>
    (SameOutcome.mapM ((forall₂_units h).imp fun u u' hu => hunit u u' hu.1 hu.2)).bind
      fun _ _ _ => ?_
  dsimp only
  split
  · exact hlast.bind fun f f' hf => (hf.render "mod" s s').bind fun _ _ _ => .ok trivial
  · exact .ok trivial

/-- Plans that differ in documentation are rendered as files of the same names, whose code is the
same without documentation, or fail for the same reason. -/
theorem sameOutcome_output : SameOutcome (fun o o' => o.names = o'.names ∧ ∃ fs fs',
      p.emitted t s = .ok fs ∧ o.LaysOut s fs ∧ p'.emitted t s' = .ok fs' ∧ o'.LaysOut s' fs' ∧
        List.Forall₂ (fun f f' => Token.bareAll f.2.tokens = Token.bareAll f'.2.tokens) fs fs')
    (p.render t s) (p'.render t s') := by
  refine (sameOutcome_render ht h hnames hindex).imp fun o o' ho ho' _ => ⟨?_, ?_⟩
  · rw [names_of_render ho, names_of_render ho', unitNames, unitNames, unitNames_eq h, hindex]
  · obtain ⟨fs, hfs, hlays⟩ := emitted_of_render ho
    obtain ⟨fs', hfs', hlays'⟩ := emitted_of_render ho'
    have hsame := sameOutcome_emitted ht h hnames hindex
    rw [hfs, hfs'] at hsame
    exact ⟨fs, fs', hfs, hlays, hfs', hlays', hsame.of_ok.imp fun _ _ hf => hf.bare⟩

end Plan

/-- Comments, defaults and the label of the settings are documentation alone. For catalogs that
differ in comments and defaults, and settings that differ in the label, generation fails for the
same reason, or leads to files of the same names in the same order; the code of each is the same as
that of the other without documentation. -/
theorem generate_documentation {c c' : Catalog} (h : c.undocumented = c'.undocumented)
    (s : Settings) (label : String) :
    (∃ why, generate c s = .error why ∧ generate c' { s with label } = .error why) ∨
    ∃ o o' fs fs', generate c s = .ok o ∧ generate c' { s with label } = .ok o' ∧
      o.names = o'.names ∧ c.emitted s = .ok fs ∧ o.LaysOut s fs ∧
      c'.emitted { s with label } = .ok fs' ∧ o'.LaysOut { s with label } fs' ∧
      List.Forall₂ (fun f f' => Token.bareAll f.2.tokens = Token.bareAll f'.2.tokens) fs fs' := by
  have htarget : Target.of { s with label } = Target.of s := rfl
  have hvalidate : validate c' { s with label } = validate c s := by
    rw [validate_label, ← validate_undocumented c', ← h, validate_undocumented]
  have hplans : SameOutcome (fun p p' => p.undocumented = p'.undocumented ∧
      Plan.ofCatalog c = .ok p ∧ Plan.ofCatalog c' = .ok p') (Plan.ofCatalog c) (Plan.ofCatalog c') :=
    (Plan.sameOutcome_ofCatalog h).imp fun p p' hp hp' hdoc => ⟨hdoc, hp, hp'⟩
  have hsame : SameOutcome (fun o o' => o.names = o'.names ∧ ∃ fs fs', c.emitted s = .ok fs ∧
        o.LaysOut s fs ∧ c'.emitted { s with label } = .ok fs' ∧
        o'.LaysOut { s with label } fs' ∧
        List.Forall₂ (fun f f' => Token.bareAll f.2.tokens = Token.bareAll f'.2.tokens) fs fs')
      (generate c s) (generate c' { s with label }) := by
    unfold generate
    rw [htarget, hvalidate]
    refine .step _ fun t ht => .step _ fun _ hv => hplans.bind fun p p' ⟨hdoc, hp, hp'⟩ => ?_
    obtain ⟨ms, hacc⟩ := validate_eq_ok_iff.1 hv
    have hms : p = Plan.ofMethods ms := by
      simp only [Plan.ofCatalog, hacc.methods] at hp
      exact (Except.ok.inj hp).symm
    have hemitted : c.emitted s = p.emitted t s := by
      rw [Catalog.emitted, hp, ht]
      rfl
    have hemitted' : c'.emitted { s with label } = p'.emitted t { s with label } := by
      rw [Catalog.emitted, hp', htarget, ht]
      rfl
    rw [hemitted, hemitted']
    exact Plan.sameOutcome_output (hasPairedSegments_runtime ht) hdoc
      (hms ▸ hacc.unit_ne_underscore) rfl
  rcases hsame with hwhy | ⟨o, o', ⟨hnames, fs, fs', hlaid⟩, ho, ho'⟩
  · exact .inl hwhy
  · exact .inr ⟨o, o', fs, fs', ho, ho', hnames, hlaid⟩

theorem archive_alike :
    Catalog.archive.undocumented = Catalog.archive.undocumented.undocumented ∧
    ∃ o o' fs fs', generate .archive {} = .ok o ∧
      generate Catalog.archive.undocumented { ({} : Settings) with label := "other" } = .ok o' ∧
      o.names = o'.names ∧ Catalog.archive.emitted {} = .ok fs ∧ o.LaysOut {} fs ∧
      Catalog.archive.undocumented.emitted { ({} : Settings) with label := "other" } = .ok fs' ∧
      o'.LaysOut { ({} : Settings) with label := "other" } fs' ∧
      List.Forall₂ (fun f f' => Token.bareAll f.2.tokens = Token.bareAll f'.2.tokens) fs fs' := by
  have hdoc : Catalog.archive.undocumented = Catalog.archive.undocumented.undocumented := rfl
  obtain ⟨o, ho⟩ := exists_generate_archive
  refine ⟨hdoc, (generate_documentation hdoc {} "other").resolve_left ?_⟩
  rintro ⟨why, hwhy, -⟩
  rw [ho] at hwhy
  cases hwhy

end Bindery
