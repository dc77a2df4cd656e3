import Bindery.Proofs.Generation
import Bindery.Proofs.Rereading.Files

/-!
# Code is generated for accepted catalogs

Emitted code is read again as it is, and has a layout, if the runtime is a path of names and the types
of the catalog are plain. So it is generated if the names of the catalog are words.
-/
namespace Bindery

open Source Emission

/-- The runtime is a path of names without arguments. -/
def Settings.namesRuntime (s : Settings) : Bool :=
  s.check.toOption.any fun p => p.isPlain && (Grammar.simple? p).isSome

/-- The types of the catalog are plain. -/
def Catalog.hasPlainTypes (c : Catalog) : Bool :=
  c.endpoints.all fun e => (Validation.typeTexts e).all fun text =>
    (readType e.name text).toOption.all (·.isPlain)

theorem Settings.exists_target {s : Settings} (h : s.namesRuntime = true) :
    ∃ t, Target.of s = .ok t ∧ t.Named := by
  unfold namesRuntime at h
  cases hcheck : s.check with
  | error why =>
    rw [hcheck] at h
    cases h
  | ok path =>
    rw [hcheck] at h
    obtain ⟨hplain, hnames⟩ : path.isPlain = true ∧ (Grammar.simple? path).isSome = true := by
      simpa [Except.toOption] using h
    obtain ⟨names, hnames⟩ := Option.isSome_iff_exists.1 hnames
    refine ⟨⟨path, s.tokenKey⟩, ?_, isNames_of_simple? hplain hnames⟩
    simp [Target.of, hcheck]

theorem Catalog.isPlain_of_readType {c : Catalog} (h : c.hasPlainTypes = true) {e : Endpoint}
    (he : e ∈ c.endpoints) {text : String} (htext : text ∈ Validation.typeTexts e) {type : Ty}
    (hread : readType e.name text = .ok type) : type.isPlain = true := by
  have hall := List.all_eq_true.1 (List.all_eq_true.1 h e he) text htext
  rw [hread] at hall
  exact hall

section Plans

variable {c : Catalog} {s : Settings} {t : Target} {ms : List Method}

/-- Emitted files are read again as they are, and have a layout. -/
theorem Accepted.rereads (hacc : Accepted c s ms) (ht : t.Named) (hplain : c.hasPlainTypes = true)
    {unit : String} {f : Source.File} (he : Emits (Plan.ofMethods ms) t s unit f) :
    Source.File.ofTokens f.tokens = .ok f ∧ f.text?.isSome = true := by
  cases he with
  | services h => exact ⟨services_rereads ht h, services_text?_isSome ht h⟩
  | index _ h => exact ⟨index_rereads h hacc.unit_ne_underscore, index_text?_isSome h⟩
  | @unit _ planned _ hunit h =>
    have hmethod : ∀ m ∈ planned, m.endpoint ∈ c.endpoints ∧
        ∀ a ∈ m.arguments, a ∈ m.endpoint.arguments := fun m hm => by
      obtain ⟨e, he, hof, -⟩ := exists_endpoint_of_mem hacc (mem_of_mem_units hunit hm).1
      obtain rfl := ofEndpoint_endpoint hof
      exact ⟨he, fun a ha => (arguments_perm hof).mem_iff.1 ha⟩
    have htypes : ∀ m ∈ planned, ∀ text ∈ Validation.typeTexts m.endpoint, ∀ type,
        readType m.endpoint.name text = .ok type → type.isPlain = true :=
      fun m hm text htext type => Catalog.isPlain_of_readType hplain (hmethod m hm).1 htext
    exact ⟨unit_rereads ht h (fun m hm => (hmethod m hm).2) htypes,
      unit_text?_isSome ht h (fun m hm => (hmethod m hm).2) htypes⟩

/-- Nothing makes generation fail after its checks if the names are words. -/
theorem generate_succeeds (hv : validate c s = .ok ()) (hruntime : s.namesRuntime = true)
    (hplain : c.hasPlainTypes = true)
    (hwords : ∀ n ∈ c.identifiers s, Text.isWord n.toList = true) :
    ∃ o, generate c s = .ok o := by
  obtain ⟨ms, hacc⟩ := validate_eq_ok_iff.1 hv
  obtain ⟨t, ht, hnamed⟩ := Settings.exists_target hruntime
  cases hgen : generate c s with
  | ok o => exact ⟨o, rfl⟩
  | error why =>
    cases generate_fails ht hacc why hgen with
    | misnamed h =>
      obtain ⟨n, hn, hword, -⟩ := h
      rw [hwords n hn] at hword
      cases hword
    | unreadable he hwhy =>
      rw [(hacc.rereads hnamed hplain he).1] at hwhy
      cases hwhy
    | noLayout he hread hnone =>
      obtain ⟨hread', hsome⟩ := hacc.rereads hnamed hplain he
      obtain rfl := Except.ok.inj (hread'.symm.trans hread)
      rw [hnone] at hsome
      cases hsome

/-- An accepted catalog of ASCII names and plain types. -/
theorem generate_succeeds_of_ascii (hv : validate c s = .ok ()) (hruntime : s.namesRuntime = true)
    (hplain : c.hasPlainTypes = true) (hascii : ∀ e ∈ c.endpoints, e.IsAscii) :
    ∃ o, generate c s = .ok o := by
  obtain ⟨ms, hacc⟩ := validate_eq_ok_iff.1 hv
  refine generate_succeeds hv hruntime hplain fun n hn => ?_
  obtain ⟨e, he, hn⟩ := List.mem_flatMap.1 hn
  exact (hascii e he).isWord_identifiers (endpointFits_iff.1 (hacc.fits e he)) n hn

end Plans

/-- Endpoints of two groups, with arguments that must be given and others that need not. -/
def Catalog.archive : Catalog := ⟨[
  { name := "files.add", responseField := "file", returnType := "File", arguments := [
    { name := "title", type := .text, required := true, comment := "Shown to all." },
    { name := "tags", type := .list "String" }] },
  { name := "files.list", arguments := [{ name := "count", type := .integer, default := "100" }] },
  { name := "users.find", arguments := [
    { name := "scope", type := .object "Scope", required := true },
    { name := "deleted", type := .boolean }] }]⟩

theorem exists_generate_archive : ∃ o, generate .archive {} = .ok o :=
  generate_succeeds_of_ascii (eq_ok_of_toOption (by decide +kernel)) (by decide +kernel)
    (by decide +kernel) (by decide +kernel)

end Bindery
