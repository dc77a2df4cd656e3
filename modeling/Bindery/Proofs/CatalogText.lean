import Bindery.Catalog.Format
import Bindery.Proofs.Json.Records

/-!
# Catalogs that survive being written

A catalog is read back from its text if the types of its arguments are named as a catalog names
them, and they are in each catalog that was read from a text.
-/
namespace Bindery

open Json (Schema)

/-! Trimmed texts -/

namespace Text

variable {s : List Char}

/-- No blanks stand at the ends. -/
def Trimmed (s : List Char) : Prop :=
  (∀ c ∈ s.head?, isBlank c = false) ∧ ∀ c ∈ s.getLast?, isBlank c = false

theorem dropWhile_eq_self {p : Char → Bool} (h : ∀ c ∈ s.head?, p c = false) :
    s.dropWhile p = s := by
  cases s with
  | nil => rfl
  | cons c s =>
    have hc : p c = false := h c rfl
    exact List.dropWhile_cons_of_neg (by simp [hc])

theorem trim_eq_self (h : Trimmed s) : trim s = s := by
  have hend : ∀ c ∈ s.reverse.head?, isBlank c = false := by
    rw [List.head?_reverse]
    exact h.2
  rw [trim, trimStart, dropWhile_eq_self h.1, trimEnd, dropWhile_eq_self hend, List.reverse_reverse]

theorem trimmed_trim (s : List Char) : Trimmed (trim s) := by
  have hstart : ∀ c ∈ (trimStart s).head?, isBlank c = false := by
    intro c hc
    have hnot := List.head?_dropWhile_not isBlank s
    rw [← trimStart, hc] at hnot
    exact hnot
  have hprefix : trim s <+: trimStart s := List.rdropWhile_prefix isBlank _
  constructor
  · intro c hc
    cases htrim : trim s with
    | nil => simp [htrim] at hc
    | cons d rest =>
      rw [htrim] at hc hprefix
      obtain ⟨more, hmore⟩ := hprefix
      refine hstart c ?_
      rw [← hmore]
      exact hc
  · intro c hc
    have hne : trim s ≠ [] := by
      rintro hnil
      rw [hnil] at hc
      cases hc
    have hlast := List.rdropWhile_last_not isBlank (trimStart s) hne
    rw [Option.mem_def, List.getLast?_eq_some_getLast hne, Option.some.injEq] at hc
    rw [← hc]
    exact Bool.eq_false_iff.2 hlast

@[simp] theorem trim_trim (s : List Char) : trim (trim s) = trim s := trim_eq_self (trimmed_trim s)

end Text

namespace ArgType

theorem ofText_trim (s : String) : ofText (String.ofList (Text.trim s.toList)) = ofText s := by
  unfold ofText
  rw [String.toList_ofList, Text.trim_trim]

theorem ofText_cases (s : String) : ofText s = .text ∨ ofText s = .boolean ∨ ofText s = .integer ∨
    (∃ element, ofText s = .list (String.ofList (Text.trim element))) ∨
      ofText s = .object (String.ofList (Text.trim s.toList)) := by
  unfold ofText
  dsimp only
  split
  · exact .inl rfl
  · split
    · exact .inr (.inl rfl)
    · split
      · exact .inr (.inr (.inl rfl))
      · split
        · exact .inr (.inr (.inr (.inl ⟨_, rfl⟩)))
        · exact .inr (.inr (.inr (.inr rfl)))

theorem between?_append (pre element suf : List Char) :
    between? pre suf (pre ++ element ++ suf) = some element := by
  have hdrop : (pre ++ element ++ suf).drop pre.length = element ++ suf := by
    rw [List.append_assoc, List.drop_left]
  have hpre : pre.isPrefixOf (pre ++ element ++ suf) = true := by
    rw [List.isPrefixOf_iff_prefix, List.append_assoc]
    exact List.prefix_append _ _
  have hsuf : suf.isSuffixOf (element ++ suf) = true := by
    rw [List.isSuffixOf_iff_suffix]
    exact List.suffix_append _ _
  have hlen : (pre ++ element ++ suf).length - pre.length - suf.length = element.length := by
    simp only [List.length_append]
    omega
  rw [between?, hdrop, hpre, hsuf, hlen, List.take_left]
  rfl

/-- The name of a list type is read as the type if nothing surrounds the name of its elements. -/
theorem ofText_list {element : List Char} (h : Text.Trimmed element) :
    ofText (name (.list (String.ofList element))) = .list (String.ofList element) := by
  have hname : (name (.list (String.ofList element))).toList =
      "Vec<".toList ++ element ++ ['>'] := by
    change ("Vec<" ++ String.ofList element ++ ">").toList = _
    simp only [String.toList_append, String.toList_ofList]
    rfl
  have htrim : Text.trim ("Vec<".toList ++ element ++ ['>']) = "Vec<".toList ++ element ++ ['>'] :=
    Text.trim_eq_self ⟨by
      intro c hc
      obtain rfl : 'V' = c := Option.some.inj hc
      decide, by
      intro c hc
      rw [List.getLast?_concat] at hc
      obtain rfl : '>' = c := Option.some.inj hc
      decide⟩
  have hne : ∀ t : List Char, t.head? ≠ some 'V' → "Vec<".toList ++ element ++ ['>'] ≠ t := by
    rintro t ht rfl
    exact ht rfl
  unfold ofText
  rw [hname, htrim]
  dsimp only
  rw [if_neg (hne _ (by decide)), if_neg (hne _ (by decide)), if_neg (hne _ (by decide)),
    between?_append]
  dsimp only
  rw [Text.trim_eq_self h]

/-- The name of a type that a catalog names is read as the type. -/
theorem ofText_name (s : String) : ofText (ofText s).name = ofText s := by
  rcases ofText_cases s with h | h | h | ⟨element, h⟩ | h
  · rw [h]
    decide
  · rw [h]
    decide
  · rw [h]
    decide
  · rw [h]
    exact ofText_list (Text.trimmed_trim element)
  · rw [h, name, ofText_trim, h]

end ArgType

/-! Rows -/

/-- The type of an argument is one that a catalog names. -/
def Argument.IsNamed (a : Argument) : Prop := ∃ text, a.type = .ofText text

def Catalog.IsNamed (c : Catalog) : Prop := ∀ e ∈ c.endpoints, ∀ a ∈ e.arguments, a.IsNamed

theorem Argument.ofRow_toRow {a : Argument} (h : a.IsNamed) : ofRow a.toRow = a := by
  obtain ⟨text, htype⟩ := h
  have hname : ArgType.ofText a.type.name = a.type := by
    rw [htype, ArgType.ofText_name]
  obtain ⟨name, type, required, default, queryName, comment, singular⟩ := a
  change Argument.mk name (.ofText type.name) required default queryName comment singular = _
  rw [hname]

theorem Endpoint.ofRow_toRow {e : Endpoint} (h : ∀ a ∈ e.arguments, a.IsNamed) :
    ofRow e.toRow = e := by
  have harguments : (e.arguments.map Argument.toRow).map Argument.ofRow = e.arguments := by
    rw [List.map_map]
    exact (List.map_congr_left fun a ha => Argument.ofRow_toRow (h a ha)).trans (List.map_id _)
  obtain ⟨name, group, responseField, arguments, returnType, skipToken⟩ := e
  change Endpoint.mk name group responseField ((arguments.map Argument.toRow).map Argument.ofRow)
    returnType skipToken = _
  rw [harguments]

theorem Catalog.ofRows_toRow {c : Catalog} (h : c.IsNamed) : ofRows c.toRow.1 = c := by
  obtain ⟨endpoints⟩ := c
  change Catalog.mk ((endpoints.map Endpoint.toRow).map Endpoint.ofRow) = _
  rw [List.map_map]
  exact congrArg Catalog.mk
    ((List.map_congr_left fun e he => Endpoint.ofRow_toRow (h e he)).trans (List.map_id _))

theorem Catalog.isNamed_ofRows (rows : Schema.Value (.list Endpoint.schema)) :
    (ofRows rows).IsNamed := by
  intro e he a ha
  obtain ⟨row, -, rfl⟩ := List.mem_map.1 he
  obtain ⟨argument, -, rfl⟩ := List.mem_map.1 ha
  exact ⟨_, rfl⟩

/-! Texts -/

namespace Catalog

theorem parse_eq_ok_iff {text : String} {c : Catalog} : parse text = .ok c ↔
    ∃ doc, Json.parse (Text.pieces text) = .ok doc ∧ ofJson? doc = some c := by
  unfold parse
  rw [bind_eq_ok_iff]
  refine exists_congr fun doc => and_congr_right fun _ => ?_
  cases ofJson? doc with
  | none => simp [throw, throwThe, MonadExceptOf.throw]
  | some c' => simp [pure, Except.pure]

/-- A catalog that was read from a document names all its types. -/
theorem isNamed_of_ofJson? {doc : Json} {c : Catalog} (h : ofJson? doc = some c) :
    c.IsNamed := by
  unfold ofJson? at h
  split at h
  · obtain ⟨rows, -, rfl⟩ := Option.map_eq_some_iff.1 h
    exact isNamed_ofRows rows
  · obtain ⟨row, -, rfl⟩ := Option.map_eq_some_iff.1 h
    exact isNamed_ofRows row.1
  · cases h

theorem ofJson?_toJson {c : Catalog} (h : c.IsNamed) :
    ofJson? (schema.toJson c.toRow) = some c := by
  have hrow : Schema.ofMembers fields (Schema.toMembers fields c.toRow) = .ok c.toRow :=
    schema.ofJson_toJson (by decide) c.toRow
  change ((Schema.ofMembers fields (Schema.toMembers fields c.toRow)).toOption.map
    fun row => ofRows row.1) = some c
  rw [hrow]
  exact congrArg some (ofRows_toRow h)

/-- A catalog is read back from its text. -/
theorem parse_write {c : Catalog} (h : c.IsNamed) : parse c.write = .ok c :=
  parse_eq_ok_iff.2 ⟨_, Json.parse_text (schema.toJson_fits _ (by decide) c.toRow),
    ofJson?_toJson h⟩

/-- Catalogs that were read, or whose types have been named, survive being written, and so do the
types themselves. -/
theorem parse_write_of_read_or_named :
    (∀ text c, parse text = .ok c → parse c.write = .ok c) ∧
    (∀ c : Catalog, c.IsNamed → parse c.write = .ok c) ∧
    ∀ s, ArgType.ofText (ArgType.ofText s).name = ArgType.ofText s := by
  refine ⟨fun text c h => ?_, fun c h => parse_write h, ArgType.ofText_name⟩
  obtain ⟨doc, -, hdoc⟩ := parse_eq_ok_iff.1 h
  exact parse_write (isNamed_of_ofJson? hdoc)

/-- A catalog whose text leaves out most fields and surrounds a type with blanks. -/
def sparse : Catalog :=
  ⟨[{ name := "a.b", arguments := [{ name := "x", type := .list "T" }], skipToken := true }]⟩

def sparseText : String :=
  "[\x7b\"name\":\"a.b\",\"skip_token\":true," ++
    "\"arguments\":[\x7b\"name\":\"x\",\"type\":\" Vec< T> \"\x7d]\x7d]"

theorem parse_write_sparse : parse sparseText = .ok sparse ∧ parse sparse.write = .ok sparse := by
  have hparse : parse sparseText = .ok sparse := eq_ok_of_toOption (by decide +kernel)
  exact ⟨hparse, parse_write_of_read_or_named.1 _ _ hparse⟩

end Catalog

end Bindery
