import Bindery.Proofs.CatalogText
import Bindery.Proofs.Json.Respelling
import Bindery.Proofs.Json.Spelled

/-!
# Spellings of one catalog

A catalog can be spelled with any blanks, with the members of its endpoints and arguments in any
order and under any of their names, with members that mean nothing, with or without its defaults,
and as a list or as an object that holds the list. All its spellings are loaded as one catalog, or
none of them is.
-/
namespace Bindery

open Json (Schema Written StringPart nameOf? maxDepth)

namespace Catalog

/-- Steps from one spelling of a catalog to another, but for the blanks. -/
inductive Respelled : Written → Written → Prop where
  | symm {w w'} : Respelled w w' → Respelled w' w
  | trans {w w' w''} : Respelled w w' → Respelled w' w'' → Respelled w w''
  | items {ws ws'} : Schema.Respelled (.list Endpoint.schema) (.array ws) (.array ws') →
      Respelled (.array ws) (.array ws')
  | members {ms ms'} : Schema.Respelled schema (.object ms) (.object ms') →
      Respelled (.object ms) (.object ms')
  /-- A list of endpoints stands in an object. -/
  | wrapped {parts} (ws) : nameOf? parts = some "endpoints" →
      Respelled (.array ws) (.object [(parts, .array ws)])

/-- A spelling stands for a catalog. -/
def Holds (w : Written) (c : Catalog) : Prop :=
  ∃ doc, w.document? = some doc ∧ ofJson? doc = some c

theorem toOption_map_eq_some_iff {α β ε : Type} {x : Except ε α} {f : α → β} {b : β} :
    x.toOption.map f = some b ↔ ∃ a, x = .ok a ∧ f a = b := by
  cases x with
  | error why => simp [Except.toOption]
  | ok a => simp [Except.toOption]

theorem ofJson?_array {js : List Json} {c : Catalog} : ofJson? (.array js) = some c ↔
    ∃ rows, (Schema.list Endpoint.schema).ofJson (.array js) = .ok rows ∧ ofRows rows = c :=
  toOption_map_eq_some_iff

theorem ofJson?_object {js : List (String × Json)} {c : Catalog} :
    ofJson? (.object js) = some c ↔
      ∃ row, schema.ofJson (.object js) = .ok row ∧ ofRows row.1 = c :=
  toOption_map_eq_some_iff

theorem ofJson?_wrapped {js : List Json} {c : Catalog} :
    ofJson? (.object [("endpoints", .array js)]) = some c ↔ ofJson? (.array js) = some c := by
  have hrow : ∀ v : Schema.Value (.list Endpoint.schema),
      schema.ofJson (.object [("endpoints", .array js)]) = .ok (v, ()) ↔
        (Schema.list Endpoint.schema).ofJson (.array js) = .ok v := by
    intro v
    exact (@Schema.ofMembers_cons_eq_ok_iff ⟨"endpoints", [], true, false⟩ (.list Endpoint.schema)
      [] [("endpoints", .array js)] v ()).trans (and_iff_left (Schema.ofMembers_nil _))
  rw [ofJson?_object, ofJson?_array]
  constructor
  · rintro ⟨⟨v, ⟨⟩⟩, hv, rfl⟩
    exact ⟨v, (hrow v).1 hv, rfl⟩
  · rintro ⟨v, hv, rfl⟩
    exact ⟨(v, ()), (hrow v).2 hv, rfl⟩

theorem holds_array {ws : List Written} {c : Catalog} : Holds (.array ws) c ↔
    ∃ js, Written.documents? ws = some js ∧ ofJson? (.array js) = some c := by
  simp only [Holds, Written.document?, Option.map_eq_some_iff]
  constructor
  · rintro ⟨_, ⟨js, hjs, rfl⟩, hc⟩
    exact ⟨js, hjs, hc⟩
  · rintro ⟨js, hjs, hc⟩
    exact ⟨_, ⟨js, hjs, rfl⟩, hc⟩

theorem holds_of_items {ws ws' : List Written}
    (h : Schema.CarriesOver (.list Endpoint.schema) (.array ws) (.array ws')) {c : Catalog}
    (hc : Holds (.array ws) c) : Holds (.array ws') c := by
  obtain ⟨js, hjs, hc⟩ := holds_array.1 hc
  obtain ⟨doc, hdoc, hsame⟩ := h (.array js) (by rw [Written.document?, hjs]; rfl)
  obtain ⟨js', hjs', rfl⟩ := Option.map_eq_some_iff.1 (by rwa [Written.document?] at hdoc)
  obtain ⟨rows, hrows, rfl⟩ := ofJson?_array.1 hc
  exact holds_array.2 ⟨js', hjs', ofJson?_array.2 ⟨rows, (hsame.ofJson_iff rows).1 hrows, rfl⟩⟩

theorem holds_of_members {ms ms' : List (List StringPart × Written)}
    (h : Schema.CarriesOver schema (.object ms) (.object ms')) {c : Catalog}
    (hc : Holds (.object ms) c) : Holds (.object ms') c := by
  obtain ⟨_, hdoc, hc⟩ := hc
  obtain ⟨_, hdoc', hsame⟩ := h _ hdoc
  obtain ⟨js, hjs, rfl⟩ := Schema.document?_object.1 hdoc
  obtain ⟨js', hjs', rfl⟩ := Schema.document?_object.1 hdoc'
  obtain ⟨row, hrow, rfl⟩ := ofJson?_object.1 hc
  exact ⟨_, hdoc', ofJson?_object.2 ⟨row, (hsame.ofJson_iff row).1 hrow, rfl⟩⟩

theorem holds_wrapped {ws : List Written} {parts : List StringPart}
    (hkey : nameOf? parts = some "endpoints") (c : Catalog) :
    Holds (.array ws) c ↔ Holds (.object [(parts, .array ws)]) c := by
  rw [holds_array]
  constructor
  · rintro ⟨js, hjs, hc⟩
    refine ⟨_, Schema.document?_object.2 ⟨_, Schema.members?_cons.2
      ⟨"endpoints", .array js, [], hkey, ?_, rfl, rfl⟩, rfl⟩, ofJson?_wrapped.2 hc⟩
    rw [Written.document?, hjs]
    rfl
  · rintro ⟨_, hdoc, hc⟩
    obtain ⟨_, hms, rfl⟩ := Schema.document?_object.1 hdoc
    obtain ⟨key, j, _, hkey', hj, hnil, rfl⟩ := Schema.members?_cons.1 hms
    obtain rfl := Option.some.inj (hkey.symm.trans hkey')
    obtain rfl := Option.some.inj hnil
    rw [Written.document?] at hj
    obtain ⟨js, hjs, rfl⟩ := Option.map_eq_some_iff.1 hj
    exact ⟨js, hjs, ofJson?_wrapped.1 hc⟩

/-- Spellings that differ in steps that do not count stand for the same catalog. -/
theorem Respelled.holds_iff {w w' : Written} (h : Respelled w w') (c : Catalog) :
    Holds w c ↔ Holds w' c := by
  induction h with
  | symm _ ih => exact ih.symm
  | trans _ _ ih ih' => exact ih.trans ih'
  | items h =>
    have halike := h.readsAlike (by decide)
    exact ⟨holds_of_items halike.1, holds_of_items halike.2⟩
  | members h =>
    have halike := h.readsAlike (by decide)
    exact ⟨holds_of_members halike.1, holds_of_members halike.2⟩
  | wrapped ws hkey => exact holds_wrapped hkey c

theorem parse_eq_ok_iff_holds {w : Written} {text : String} (h : w.Spells text.toList)
    (hnests : w.Nests maxDepth) (c : Catalog) : parse text = .ok c ↔ Holds w c := by
  rw [parse_eq_ok_iff, Holds, ← Json.parse_of_spells h hnests]
  refine exists_congr fun doc => and_congr_left fun _ => ?_
  cases Json.parse (Text.pieces text) <;> simp [Except.toOption]

/-- All spellings of a catalog are loaded as what they stand for, and they stand for the same. -/
theorem parse_respelled {w w' : Written} (h : Respelled w w') {text text' : String}
    (hw : w.Spells text.toList) (hw' : w'.Spells text'.toList) (hnests : w.Nests maxDepth)
    (hnests' : w'.Nests maxDepth) :
    (∀ c, parse text = .ok c ↔ parse text' = .ok c) ∧ ∀ c, parse text = .ok c ↔ Holds w c := by
  have hparse := parse_eq_ok_iff_holds hw hnests
  have hparse' := parse_eq_ok_iff_holds hw' hnests'
  exact ⟨fun c => ((hparse c).trans (h.holds_iff c)).trans (hparse' c).symm, hparse⟩

/-! Two spellings of a catalog with one endpoint -/

/-- A text whose characters stand for themselves, as parts of a string. -/
def plain (s : String) (h : ∀ c ∈ s.toList, ' ' ≤ c ∧ c ≠ '"' ∧ c ≠ '\\') : List StringPart :=
  s.toList.pmap StringPart.plain h

theorem nameOf?_plain (s : String) (h : ∀ c ∈ s.toList, ' ' ≤ c ∧ c ≠ '"' ∧ c ≠ '\\') :
    nameOf? (plain s h) = some s := by
  have hcontent : ∀ (cs : List Char) (h : ∀ c ∈ cs, ' ' ≤ c ∧ c ≠ '"' ∧ c ≠ '\\'),
      Json.content? (cs.pmap StringPart.plain h) = some cs := by
    intro cs h
    induction cs with
    | nil => rfl
    | cons c cs ih => rw [List.pmap, Json.content?, ih]; rfl
  rw [nameOf?, plain, hcontent, Option.map_some, String.ofList_toList]

/-- The same blanks stand before each lexeme. -/
theorem spaced_flatMap {blanks : List Char} (h : Json.Blank blanks) (ls : List (List Char)) :
    Json.Spaced ls (ls.flatMap (blanks ++ ·)) := by
  induction ls with
  | nil => exact fun c hc => absurd hc List.not_mem_nil
  | cons l ls ih => exact ⟨blanks, _, by simp, h, ih⟩

def plainString (s : String) (h : ∀ c ∈ s.toList, ' ' ≤ c ∧ c ≠ '"' ∧ c ≠ '\\') : Written :=
  .token (.string (plain s h))

def briefArgument : Written :=
  .object [(plain "name" (by simp), plainString "x" (by simp)),
    (plain "type" (by simp), plainString "int" (by simp))]

def brief : Written :=
  .array [.object [(plain "args" (by simp), .array [briefArgument]),
    (plain "name" (by simp), plainString "a.b" (by simp))]]

def briefText : String :=
  "[\x7b\"args\":[\x7b\"name\":\"x\",\"type\":\"int\"\x7d],\"name\":\"a.b\"\x7d]"

def fullArgument : Written :=
  .object [(plain "note" (by simp), .array []),
    (plain "required" (by simp), .token (.bool false)),
    (plain "type" (by simp), plainString "int" (by simp)),
    (plain "name" (by simp), plainString "x" (by simp))]

def full : Written :=
  .object [(plain "v" (by simp), .token .null),
    (plain "endpoints" (by simp), .array [.object [
      (plain "name" (by simp), plainString "a.b" (by simp)),
      (plain "arguments" (by simp), .array [fullArgument])]])]

def fullText : String :=
  " \x7b \"v\" : null , \"endpoints\" : [ \x7b \"name\" : \"a.b\" , \"arguments\" : [ \x7b" ++
    " \"note\" : [ ] , \"required\" : false , \"type\" : \"int\" , \"name\" : \"x\"" ++
    " \x7d ] \x7d ] \x7d"

theorem argument_respelled : Schema.Respelled Argument.schema briefArgument fullArgument := by
  refine .trans (.order (.swap _ _ _)) (.trans (.default (nameOf?_plain "required" (by simp)) rfl
    rfl ?_ rfl) (.unknown _ (nameOf?_plain "note" (by simp)) rfl rfl))
  intro m hm k hk
  simp only [List.mem_cons, List.not_mem_nil, or_false] at hm
  rcases hm with rfl | rfl
  · rw [nameOf?_plain] at hk
    obtain rfl := Option.some.inj hk
    decide
  · rw [nameOf?_plain] at hk
    obtain rfl := Option.some.inj hk
    decide

theorem brief_respelled : Respelled brief full := by
  refine .trans (.items (.item [] [] ?_)) (.trans (.wrapped _ (nameOf?_plain "endpoints" (by simp)))
    (.members (.unknown _ (nameOf?_plain "v" (by simp)) rfl rfl)))
  exact .trans (.value _ (nameOf?_plain "args" (by simp)) rfl (.item [] [] argument_respelled))
    (.trans (.renamed _ _ (nameOf?_plain "args" (by simp)) (nameOf?_plain "arguments" (by simp))
      rfl rfl) (.order (.swap _ _ _)))

theorem brief_spells : brief.Spells briefText.toList := by
  have htext : briefText.toList = brief.lexemes.flatMap ([] ++ ·) := by decide +kernel
  rw [htext]
  exact spaced_flatMap (by simp [Json.Blank]) _

theorem full_spells : full.Spells fullText.toList := by
  have htext : fullText.toList = full.lexemes.flatMap ([' '] ++ ·) := by decide +kernel
  rw [htext]
  exact spaced_flatMap (by simp [Json.Blank]) _

def spelledTwice : Catalog :=
  ⟨[{ name := "a.b", arguments := [{ name := "x", type := .integer }] }]⟩

theorem parse_full_of_brief : Respelled brief full ∧ brief.Spells briefText.toList ∧
    full.Spells fullText.toList ∧ brief.Nests maxDepth ∧ full.Nests maxDepth ∧
    parse briefText = .ok spelledTwice ∧ parse fullText = .ok spelledTwice := by
  have hbrief : brief.Nests maxDepth := by
    simp [brief, briefArgument, plainString, maxDepth, Written.Nests]
  have hfull : full.Nests maxDepth := by
    simp [full, fullArgument, plainString, maxDepth, Written.Nests]
  have hparse : parse briefText = .ok spelledTwice := eq_ok_of_toOption (by decide +kernel)
  exact ⟨brief_respelled, brief_spells, full_spells, hbrief, hfull, hparse,
    ((parse_respelled brief_respelled brief_spells full_spells hbrief hfull).1 _).1 hparse⟩

end Catalog

end Bindery
