import Bindery.Proofs.Identifiers
import Bindery.Proofs.Index

/-!
# What generation depends on after its checks

Checks of settings and of a catalog come before code is emitted. What can fail after them is that a
name is no word, and that an emitted file cannot be read again or has no layout.
-/
namespace Bindery

open Emission

section Plans

variable {p : Plan} {t : Target} {s : Settings} {o : Output}

/-- Every file of an output was read again and has a layout. -/
theorem rereads_of_render (h : p.render t s = .ok o) {unit : String} {f : Source.File}
    (he : Emits p t s unit f) :
    ∃ f', Source.File.ofTokens f.tokens = .ok f' ∧ f'.text?.isSome = true := by
  have hrender : ∃ unit file, render unit f s = .ok file := by
    simp only [Plan.render, bind_eq_ok_iff] at h
    obtain ⟨g, hg, services, hservices, units, hunits, h⟩ := h
    cases he with
    | services hf =>
      obtain rfl := Except.ok.inj (hg.symm.trans hf)
      exact ⟨_, services, hservices⟩
    | unit hmem hf =>
      obtain ⟨file, -, hfile⟩ := exists_of_forall₂_right (mapM_eq_ok_iff.1 hunits).flip hmem
      obtain ⟨g, hg, hfile⟩ := bind_eq_ok_iff.1 hfile
      obtain rfl := Except.ok.inj (hg.symm.trans hf)
      exact ⟨_, file, hfile⟩
    | index hs hf =>
      rw [if_pos hs] at h
      obtain ⟨g, hg, h⟩ := bind_eq_ok_iff.1 h
      obtain ⟨file, hfile, -⟩ := bind_eq_ok_iff.1 h
      obtain rfl := Except.ok.inj (hg.symm.trans hf)
      exact ⟨_, file, hfile⟩
  obtain ⟨unit, file, hfile⟩ := hrender
  obtain ⟨f', hread, content, hcontent, -⟩ := render_eq_ok hfile
  refine ⟨f', hread, ?_⟩
  unfold layOut at hcontent
  split at hcontent
  · rename_i text htext
    rw [htext]
    rfl
  · cases hcontent

end Plans

/-- For usable settings and an accepted catalog there is an output exactly if all names are words
and every emitted file is read again and has a layout; nothing else makes generation fail. -/
theorem generate_total_iff {c : Catalog} {s : Settings} {t : Target} (ht : Target.of s = .ok t)
    (hv : validate c s = .ok ()) : ∃ p, Plan.ofCatalog c = .ok p ∧
      ((∃ o, generate c s = .ok o) ↔ (∀ n ∈ c.identifiers s, Text.isWord n.toList = true) ∧
        ∀ unit f, Emits p t s unit f →
          ∃ f', Source.File.ofTokens f.tokens = .ok f' ∧ f'.text?.isSome = true) ∧
      ∀ why, generate c s = .error why → Breaks p t s (c.identifiers s) why := by
  obtain ⟨ms, hacc⟩ := validate_eq_ok_iff.1 hv
  have hplan : Plan.ofCatalog c = .ok (Plan.ofMethods ms) := by
    unfold Plan.ofCatalog
    rw [hacc.methods]
    rfl
  refine ⟨Plan.ofMethods ms, hplan, ⟨?_, ?_⟩, generate_fails ht hacc⟩
  · rintro ⟨o, ho⟩
    obtain ⟨t', ms', ht', hacc', hrender⟩ := generate_eq_ok_iff.1 ho
    obtain rfl := Except.ok.inj (ht'.symm.trans ht)
    obtain rfl := Except.ok.inj (hacc'.methods.symm.trans hacc.methods)
    exact ⟨isWord_of_generate ho, fun unit f => rereads_of_render hrender⟩
  · rintro ⟨hwords, hfiles⟩
    cases hgen : generate c s with
    | ok o => exact ⟨o, rfl⟩
    | error why =>
      cases generate_fails ht hacc why hgen with
      | misnamed hmis =>
        obtain ⟨n, hn, hword, -⟩ := hmis
        rw [hwords n hn] at hword
        cases hword
      | unreadable he hwhy =>
        obtain ⟨f', hread, -⟩ := hfiles _ _ he
        rw [hread] at hwhy
        cases hwhy
      | noLayout he hread hnone =>
        obtain ⟨f'', hread', hsome⟩ := hfiles _ _ he
        obtain rfl := Except.ok.inj (hread'.symm.trans hread)
        rw [hnone] at hsome
        cases hsome

/-- One endpoint without arguments and payload. -/
def Catalog.dotted : Catalog := ⟨[{ name := "a.b" }]⟩

/-- A type may be written with arguments right after its name, an expression may not. -/
def Settings.generic : Settings := { runtime := "a<b>" }

theorem generic_not_total : ∃ t p f why, Target.of .generic = .ok t ∧
    validate .dotted .generic = .ok () ∧ Emits p t .generic "a" f ∧
    Source.File.ofTokens f.tokens = .error why ∧ ∀ o, generate .dotted .generic ≠ .ok o := by
  have hpath : (Settings.generic.check).toOption.isSome = true := by decide +kernel
  obtain ⟨path, hpath⟩ := Option.isSome_iff_exists.1 hpath
  have ht : Target.of .generic = .ok ⟨path, "token"⟩ := by
    unfold Target.of
    rw [eq_ok_of_toOption hpath]
    rfl
  have hv : validate .dotted .generic = .ok () := eq_ok_of_toOption (by decide +kernel)
  have hfailed : (match generate .dotted .generic with
      | .error (.code unit why) => some (unit, why)
      | _ => none) = some ("a", .rule .chainedComparison false) := by decide +kernel
  obtain ⟨p, -, -, hbreaks⟩ := generate_total_iff ht hv
  split at hfailed
  · rename_i unit why hgen
    obtain ⟨rfl, rfl⟩ := Prod.mk.inj (Option.some.inj hfailed)
    cases hbreaks _ hgen with
    | misnamed h =>
      obtain ⟨_, -, -, h⟩ := h
      cases h
    | unreadable he hwhy =>
      exact ⟨_, p, _, _, ht, hv, he, hwhy, fun o ho => by rw [hgen] at ho; cases ho⟩
  · cases hfailed

end Bindery
