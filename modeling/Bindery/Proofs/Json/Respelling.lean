import Bindery.Proofs.Json.Records
import Bindery.Proofs.Json.Written

/-!
# Spellings of one record

A record can be spelled in many ways: its members may come in any order and under any of their
names, others may stand among them, and defaults may be spelled out. What is read does not depend on
the spelling, nor does whether anything is read.
-/
namespace Bindery.Json.Schema

variable {s : Schema} {rule : FieldRule} {fields : List (FieldRule × Schema)}
  {ms ms' : List (String × Json)}

/-- The field that a key belongs to. -/
def fieldOf? (fields : List (FieldRule × Schema)) (key : String) : Option (FieldRule × Schema) :=
  fields.find? fun f => f.1.names.contains key

theorem fieldOf?_cons_of_pos {f : FieldRule × Schema} {key : String}
    (h : f.1.names.contains key = true) : fieldOf? (f :: fields) key = some f :=
  List.find?_cons_of_pos (p := fun f : FieldRule × Schema => f.1.names.contains key) h

theorem fieldOf?_cons_of_neg {f : FieldRule × Schema} {key : String}
    (h : ¬ f.1.names.contains key = true) : fieldOf? (f :: fields) key = fieldOf? fields key :=
  List.find?_cons_of_neg (p := fun f : FieldRule × Schema => f.1.names.contains key) h

theorem contains_of_fieldOf? {f : FieldRule × Schema} {key : String}
    (h : fieldOf? fields key = some f) : f.1.names.contains key = true :=
  List.find?_some (p := fun f : FieldRule × Schema => f.1.names.contains key) h

theorem mem_of_fieldOf? {f : FieldRule × Schema} {key : String}
    (h : fieldOf? fields key = some f) : f ∈ fields :=
  List.mem_of_find?_eq_some h

/-- Steps from one spelling of a document to another. -/
inductive Respelled : Schema → Written → Written → Prop where
  | refl (s w) : Respelled s w w
  | symm {s w w'} : Respelled s w w' → Respelled s w' w
  | trans {s w w' w''} : Respelled s w w' → Respelled s w' w'' → Respelled s w w''
  /-- An item of a list is spelled in another way. -/
  | item {s w w'} (ws ws') : Respelled s w w' →
      Respelled (.list s) (.array (ws ++ w :: ws')) (.array (ws ++ w' :: ws'))
  | content {s w w'} : Respelled s w w' → Respelled (.option s) w w'
  /-- So is a field of a record that is written as a list. -/
  | position {name fields rule s w w'} (ws ws') : fields[ws.length]? = some (rule, s) →
      Respelled s w w' →
      Respelled (.record name fields) (.array (ws ++ w :: ws')) (.array (ws ++ w' :: ws'))
  /-- So is the value of a member. -/
  | value {name fields parts key rule s w w'} (ms) : nameOf? parts = some key →
      fieldOf? fields key = some (rule, s) → Respelled s w w' →
      Respelled (.record name fields) (.object ((parts, w) :: ms)) (.object ((parts, w') :: ms))
  /-- A member has another name of its field. -/
  | renamed {name fields parts parts' key key' f} (w ms) : nameOf? parts = some key →
      nameOf? parts' = some key' → fieldOf? fields key = some f → fieldOf? fields key' = some f →
      Respelled (.record name fields) (.object ((parts, w) :: ms)) (.object ((parts', w) :: ms))
  /-- The members stand in another order. -/
  | order {name fields ms ms'} : ms.Perm ms' →
      Respelled (.record name fields) (.object ms) (.object ms')
  /-- A member that belongs to no field is added. -/
  | unknown {name fields parts key w} (ms) : nameOf? parts = some key →
      fieldOf? fields key = none → w.document?.isSome →
      Respelled (.record name fields) (.object ms) (.object ((parts, w) :: ms))
  /-- The value of a missing field is spelled out. -/
  | default {name fields parts key rule s w ms} : nameOf? parts = some key →
      fieldOf? fields key = some (rule, s) → rule.needed = false →
      (∀ m ∈ ms, ∀ k ∈ nameOf? m.1, k ∉ rule.names) → w.document? = some (s.toJson s.empty) →
      Respelled (.record name fields) (.object ms) (.object ((parts, w) :: ms))

/-! Documents of which a schema reads the same -/

structure Interchanges (s : Schema) (j j' : Json) : Prop where
  ofJson_iff : ∀ v, s.ofJson j = .ok v ↔ s.ofJson j' = .ok v
  null_iff : j = .null ↔ j' = .null

namespace Interchanges

theorem refl (s : Schema) (j : Json) : Interchanges s j j := ⟨fun _ => Iff.rfl, Iff.rfl⟩

theorem symm {j j' : Json} (h : Interchanges s j j') : Interchanges s j' j :=
  ⟨fun v => (h.ofJson_iff v).symm, h.null_iff.symm⟩

theorem trans {j j' j'' : Json} (h : Interchanges s j j') (h' : Interchanges s j' j'') :
    Interchanges s j j'' :=
  ⟨fun v => (h.ofJson_iff v).trans (h'.ofJson_iff v), h.null_iff.trans h'.null_iff⟩

theorem content {j j' : Json} (h : Interchanges s j j') : Interchanges (.option s) j j' := by
  refine ⟨fun v => ?_, h.null_iff⟩
  by_cases hnull : j = .null
  · rw [hnull, h.null_iff.1 hnull]
  · have hnull' : j' ≠ .null := fun h' => hnull (h.null_iff.2 h')
    have hmap : ∀ {x : Except Mismatch (Value s)} {v : Option (Value s)},
        x.map some = .ok v ↔ ∃ y, x = .ok y ∧ some y = v := by
      intro x v
      cases x <;> simp [Except.map]
    have hoption : ∀ {j : Json}, j ≠ .null →
        ((Schema.option s).ofJson j = .ok v ↔ ∃ y, s.ofJson j = .ok y ∧ some y = v) :=
      fun hj => by rw [ofJson_option hj]; exact hmap
    rw [hoption hnull, hoption hnull']
    exact exists_congr fun y => and_congr_left fun _ => h.ofJson_iff y

end Interchanges

/-- Fields are read one by one. -/
theorem ofMembers_cons_congr
    (hown : ∀ v, ofOwn rule s (rule.own ms) = .ok v ↔ ofOwn rule s (rule.own ms') = .ok v)
    (hothers : ∀ vs, ofMembers fields (rule.others ms) = .ok vs ↔
      ofMembers fields (rule.others ms') = .ok vs) (row : Row ((rule, s) :: fields)) :
    ofMembers ((rule, s) :: fields) ms = .ok row ↔
      ofMembers ((rule, s) :: fields) ms' = .ok row := by
  obtain ⟨v, vs, rfl⟩ := row.eq_cons
  rw [ofMembers_cons_eq_ok_iff, ofMembers_cons_eq_ok_iff, hown, hothers]

theorem ofOwn_perm (h : ms.Perm ms') (v : Value s) :
    ofOwn rule s ms = .ok v ↔ ofOwn rule s ms' = .ok v := by
  match ms, ms', h with
  | [], ms', h => rw [h.nil_eq]
  | [m], ms', h => rw [h.singleton_eq]
  | _ :: _ :: _, [], h => exact absurd h.length_eq (by simp)
  | _ :: _ :: _, [m], h => exact absurd h.length_eq (by simp)
  | _ :: _ :: _, _ :: _ :: _, h => simp [ofOwn]

/-- The order of the members does not matter. -/
theorem ofMembers_perm (h : ms.Perm ms') (row : Row fields) :
    ofMembers fields ms = .ok row ↔ ofMembers fields ms' = .ok row := by
  induction fields generalizing ms ms' with
  | nil => simp only [ofMembers_nil]
  | cons f fields ih =>
    exact ofMembers_cons_congr (ofOwn_perm (h.filter _)) (ih (h.filter _)) row

/-- A member that belongs to no field does not matter. -/
theorem ofMembers_unknown {key : String} (h : fieldOf? fields key = none) (j : Json)
    (ms : List (String × Json)) (row : Row fields) :
    ofMembers fields ms = .ok row ↔ ofMembers fields ((key, j) :: ms) = .ok row := by
  induction fields generalizing ms with
  | nil => simp only [ofMembers_nil]
  | cons f fields ih =>
    obtain ⟨rule, s⟩ := f
    have hkey : ¬ rule.names.contains key = true := by
      simpa using List.find?_eq_none.1 h (rule, s) List.mem_cons_self
    have hrest := (fieldOf?_cons_of_neg hkey).symm.trans h
    refine ofMembers_cons_congr (fun v => ?_) ?_ row
    · rw [FieldRule.own_cons_of_neg hkey]
    · rw [FieldRule.others_cons_of_neg hkey]
      exact ih hrest _

/-- A member may have another name of its field, and another value of which the same is read. -/
theorem ofMembers_head {key key' : String} {f : FieldRule × Schema}
    (h : fieldOf? fields key = some f) (h' : fieldOf? fields key' = some f) {j j' : Json}
    (hj : ∀ v, f.2.ofJson j = .ok v ↔ f.2.ofJson j' = .ok v) (ms : List (String × Json))
    (row : Row fields) :
    ofMembers fields ((key, j) :: ms) = .ok row ↔
      ofMembers fields ((key', j') :: ms) = .ok row := by
  have hname := contains_of_fieldOf? h
  have hname' := contains_of_fieldOf? h'
  induction fields generalizing ms with
  | nil => cases h
  | cons g fields ih =>
    by_cases hkey : g.1.names.contains key = true
    · obtain rfl : g = f := Option.some.inj ((fieldOf?_cons_of_pos hkey).symm.trans h)
      obtain ⟨rule, s⟩ := g
      refine ofMembers_cons_congr (fun v => ?_) (fun vs => ?_) row
      · rw [FieldRule.own_cons_of_pos hkey, FieldRule.own_cons_of_pos hname']
        cases rule.own ms with
        | nil => exact hj v
        | cons m ms => simp [ofOwn]
      · rw [FieldRule.others_cons_of_pos hkey, FieldRule.others_cons_of_pos hname']
    · have hkey' : ¬ g.1.names.contains key' = true := by
        intro hmem
        obtain rfl : g = f := Option.some.inj ((fieldOf?_cons_of_pos hmem).symm.trans h')
        exact hkey hname
      obtain ⟨rule, s⟩ := g
      refine ofMembers_cons_congr (fun v => ?_) ?_ row
      · rw [FieldRule.own_cons_of_neg hkey, FieldRule.own_cons_of_neg hkey']
      · rw [FieldRule.others_cons_of_neg hkey, FieldRule.others_cons_of_neg hkey']
        exact ih ((fieldOf?_cons_of_neg hkey).symm.trans h)
          ((fieldOf?_cons_of_neg hkey').symm.trans h') _

/-- A field that is missing holds its empty value, as if that were spelled out. -/
theorem ofMembers_default {key : String} {f : FieldRule × Schema}
    (h : fieldOf? fields key = some f) (hneeded : f.1.needed = false)
    (hfree : ∀ m ∈ ms, m.1 ∉ f.1.names) {j : Json} (hj : f.2.ofJson j = .ok f.2.empty)
    (row : Row fields) :
    ofMembers fields ms = .ok row ↔ ofMembers fields ((key, j) :: ms) = .ok row := by
  induction fields generalizing ms with
  | nil => cases h
  | cons g fields ih =>
    by_cases hkey : g.1.names.contains key = true
    · obtain rfl : g = f := Option.some.inj ((fieldOf?_cons_of_pos hkey).symm.trans h)
      obtain ⟨rule, s⟩ := g
      have hown : rule.own ms = [] := List.filter_eq_nil_iff.2 fun m hm => by simpa using hfree m hm
      refine ofMembers_cons_congr (fun v => ?_) (fun vs => ?_) row
      · rw [FieldRule.own_cons_of_pos hkey, hown, ofOwn, ofOwn, hj, if_neg (by simpa using hneeded)]
      · rw [FieldRule.others_cons_of_pos hkey]
    · obtain ⟨rule, s⟩ := g
      refine ofMembers_cons_congr (fun v => ?_) ?_ row
      · rw [FieldRule.own_cons_of_neg hkey]
      · rw [FieldRule.others_cons_of_neg hkey]
        exact ih ((fieldOf?_cons_of_neg hkey).symm.trans h)
          fun m hm => hfree m (List.mem_of_mem_filter hm)

/-! Lists -/

theorem mapM_congr_at {j j' : Json} (hj : ∀ v, s.ofJson j = .ok v ↔ s.ofJson j' = .ok v)
    (js js' : List Json) (vs : List (Value s)) :
    (js ++ j :: js').mapM s.ofJson = .ok vs ↔ (js ++ j' :: js').mapM s.ofJson = .ok vs := by
  induction js generalizing vs with
  | nil =>
    simp only [List.nil_append, List.mapM_cons, bind_eq_ok_iff, hj]
  | cons k js ih =>
    simp only [List.cons_append, List.mapM_cons, bind_eq_ok_iff, ih]

theorem ofItems_congr_at {name : String} {size index : Nat} {f : FieldRule × Schema} {j j' : Json}
    (hj : ∀ v, f.2.ofJson j = .ok v ↔ f.2.ofJson j' = .ok v) {js : List Json}
    (h : fields[js.length]? = some f) (js' : List Json) (row : Row fields) :
    ofItems name size index fields (js ++ j :: js') = .ok row ↔
      ofItems name size index fields (js ++ j' :: js') = .ok row := by
  induction js generalizing fields index with
  | nil =>
    cases fields with
    | nil => cases h
    | cons g fields =>
      obtain rfl : g = f := Option.some.inj h
      obtain ⟨rule, s⟩ := g
      simp only [List.nil_append, ofItems_cons_cons, bind_eq_ok_iff, hj]
  | cons k js ih =>
    cases fields with
    | nil => cases h
    | cons g fields =>
      obtain ⟨rule, s⟩ := g
      simp only [List.cons_append, ofItems_cons_cons, bind_eq_ok_iff]
      simp only [ih h]

/-! Documents that spellings stand for -/

theorem document?_array_append {ws ws' : List Written} {w : Written} {j : Json} :
    (Written.array (ws ++ w :: ws')).document? = some j ↔
      ∃ js i js', js.length = ws.length ∧ Written.documents? ws = some js ∧
        w.document? = some i ∧ Written.documents? ws' = some js' ∧
        .array (js ++ i :: js') = j := by
  have hitems : ∀ {ks}, Written.documents? (ws ++ w :: ws') = some ks ↔
      ∃ js i js', js.length = ws.length ∧ Written.documents? ws = some js ∧
        w.document? = some i ∧ Written.documents? ws' = some js' ∧ js ++ i :: js' = ks := by
    induction ws with
    | nil => simp [Written.documents?, Option.bind_eq_some_iff]
    | cons v ws ih =>
      intro ks
      simp only [List.cons_append, Written.documents?, Option.bind_eq_some_iff,
        Option.map_eq_some_iff, ih]
      constructor
      · rintro ⟨k, hk, _, ⟨js, i, js', hlen, hjs, hi, hjs', rfl⟩, rfl⟩
        exact ⟨k :: js, i, js', by simp [hlen], ⟨k, hk, js, hjs, rfl⟩, hi, hjs', rfl⟩
      · rintro ⟨_, i, js', hlen, ⟨k, hk, js, hjs, rfl⟩, hi, hjs', rfl⟩
        exact ⟨k, hk, _, ⟨js, i, js', by simpa using hlen, hjs, hi, hjs', rfl⟩, rfl⟩
  simp only [Written.document?, Option.map_eq_some_iff, hitems]
  constructor
  · rintro ⟨_, ⟨js, i, js', hlen, hjs, hi, hjs', rfl⟩, rfl⟩
    exact ⟨js, i, js', hlen, hjs, hi, hjs', rfl⟩
  · rintro ⟨js, i, js', hlen, hjs, hi, hjs', rfl⟩
    exact ⟨_, ⟨js, i, js', hlen, hjs, hi, hjs', rfl⟩, rfl⟩

theorem document?_object {ms : List (List StringPart × Written)} {j : Json} :
    (Written.object ms).document? = some j ↔
      ∃ js, Written.members? ms = some js ∧ .object js = j := by
  rw [Written.document?, Option.map_eq_some_iff]

theorem members?_cons {parts : List StringPart} {w : Written}
    {ms : List (List StringPart × Written)} {js : List (String × Json)} :
    Written.members? ((parts, w) :: ms) = some js ↔
      ∃ key j js', nameOf? parts = some key ∧ w.document? = some j ∧
        Written.members? ms = some js' ∧ (key, j) :: js' = js := by
  simp only [Written.members?, Option.bind_eq_some_iff, Option.map_eq_some_iff]
  constructor
  · rintro ⟨key, hkey, j, hj, js', hjs', rfl⟩
    exact ⟨key, j, js', hkey, hj, hjs', rfl⟩
  · rintro ⟨key, j, js', hkey, hj, hjs', rfl⟩
    exact ⟨key, hkey, j, hj, js', hjs', rfl⟩

theorem members?_eq_some_iff {ms : List (List StringPart × Written)} {js : List (String × Json)} :
    Written.members? ms = some js ↔
      List.Forall₂ (fun m j => nameOf? m.1 = some j.1 ∧ m.2.document? = some j.2) ms js := by
  induction ms generalizing js with
  | nil => simp [Written.members?, eq_comm]
  | cons m ms ih =>
    rw [members?_cons, List.forall₂_cons_left_iff]
    constructor
    · rintro ⟨key, j, js', hkey, hj, hjs', rfl⟩
      exact ⟨(key, j), js', ⟨hkey, hj⟩, ih.1 hjs', rfl⟩
    · rintro ⟨⟨key, j⟩, js', ⟨hkey, hj⟩, hjs', rfl⟩
      exact ⟨key, j, js', hkey, hj, ih.2 hjs', rfl⟩

theorem exists_of_mem_members {ms : List (List StringPart × Written)} {js : List (String × Json)}
    (h : Written.members? ms = some js) {m : String × Json} (hm : m ∈ js) :
    ∃ v ∈ ms, nameOf? v.1 = some m.1 := by
  induction ms generalizing js with
  | nil =>
    obtain rfl := Option.some.inj h
    cases hm
  | cons v ms ih =>
    obtain ⟨key, j, js', hkey, -, hms, rfl⟩ := members?_cons.1 h
    rcases List.mem_cons.1 hm with rfl | hm
    · exact ⟨v, List.mem_cons_self, hkey⟩
    · obtain ⟨u, hu, hname⟩ := ih hms hm
      exact ⟨u, List.mem_cons_of_mem _ hu, hname⟩

/-- Members in another order stand for the same ones in another order. -/
theorem members?_perm {ms ms' : List (List StringPart × Written)} (h : ms.Perm ms')
    {js : List (String × Json)} (hjs : Written.members? ms = some js) :
    ∃ js', Written.members? ms' = some js' ∧ js.Perm js' := by
  obtain ⟨js', hjs', hperm⟩ := List.perm_comp_forall₂ h.symm (members?_eq_some_iff.1 hjs)
  exact ⟨js', members?_eq_some_iff.2 hjs', hperm.symm⟩

/-! Spellings of which a schema reads the same -/

/-- What one spelling stands for, the other stands for as far as the schema is concerned. -/
def CarriesOver (s : Schema) (w w' : Written) : Prop :=
  ∀ j, w.document? = some j → ∃ j', w'.document? = some j' ∧ Interchanges s j j'

/-- Two spellings stand for documents of which the same is read, or for none. -/
def ReadsAlike (s : Schema) (w w' : Written) : Prop := CarriesOver s w w' ∧ CarriesOver s w' w

theorem CarriesOver.trans {w w' w'' : Written} (h : CarriesOver s w w')
    (h' : CarriesOver s w' w'') : CarriesOver s w w'' := by
  intro j hj
  obtain ⟨j', hj', hsame⟩ := h j hj
  obtain ⟨j'', hj'', hsame'⟩ := h' j' hj'
  exact ⟨j'', hj'', hsame.trans hsame'⟩

theorem CarriesOver.array {S : Schema} {w w' : Written} (h : CarriesOver s w w')
    (ws ws' : List Written) (hS : ∀ js js' j j', js.length = ws.length → Interchanges s j j' →
      Interchanges S (.array (js ++ j :: js')) (.array (js ++ j' :: js'))) :
    CarriesOver S (.array (ws ++ w :: ws')) (.array (ws ++ w' :: ws')) := by
  intro j hj
  obtain ⟨js, i, js', hlen, hjs, hi, hjs', rfl⟩ := document?_array_append.1 hj
  obtain ⟨i', hi', hsame⟩ := h i hi
  exact ⟨_, document?_array_append.2 ⟨js, i', js', hlen, hjs, hi', hjs', rfl⟩,
    hS js js' i i' hlen hsame⟩

theorem CarriesOver.object {S : Schema} {w w' : Written} {parts parts' : List StringPart}
    {key key' : String} (hkey : nameOf? parts = some key) (hkey' : nameOf? parts' = some key')
    (h : CarriesOver s w w') (ms : List (List StringPart × Written))
    (hS : ∀ j j' js, Interchanges s j j' →
      Interchanges S (.object ((key, j) :: js)) (.object ((key', j') :: js))) :
    CarriesOver S (.object ((parts, w) :: ms)) (.object ((parts', w') :: ms)) := by
  intro j hj
  obtain ⟨_, hjs, rfl⟩ := document?_object.1 hj
  obtain ⟨_, i, js, hkey₁, hi, hms, rfl⟩ := members?_cons.1 hjs
  obtain rfl := Option.some.inj (hkey.symm.trans hkey₁)
  obtain ⟨i', hi', hsame⟩ := h i hi
  exact ⟨_, document?_object.2 ⟨_, members?_cons.2 ⟨key', i', js, hkey', hi', hms, rfl⟩, rfl⟩,
    hS i i' js hsame⟩

theorem CarriesOver.refl (s : Schema) (w : Written) : CarriesOver s w w :=
  fun j hj => ⟨j, hj, .refl s j⟩

theorem CarriesOver.content {w w' : Written} (h : CarriesOver s w w') :
    CarriesOver (.option s) w w' := by
  intro j hj
  obtain ⟨j', hj', hsame⟩ := h j hj
  exact ⟨j', hj', hsame.content⟩

/-! Steps -/

variable {name : String} {w w' : Written} {parts parts' : List StringPart} {key key' : String}

theorem CarriesOver.item (h : CarriesOver s w w') (ws ws' : List Written) :
    CarriesOver (.list s) (.array (ws ++ w :: ws')) (.array (ws ++ w' :: ws')) :=
  h.array ws ws' fun js js' _ _ _ hsame => ⟨mapM_congr_at hsame.ofJson_iff js js', by simp⟩

theorem CarriesOver.position (h : CarriesOver s w w') (ws ws' : List Written)
    (hfield : fields[ws.length]? = some (rule, s)) :
    CarriesOver (.record name fields) (.array (ws ++ w :: ws')) (.array (ws ++ w' :: ws')) :=
  h.array ws ws' fun js js' j j' hlen hsame =>
    ⟨ofItems_congr_at hsame.ofJson_iff (hlen ▸ hfield) js', by simp⟩

theorem CarriesOver.member (h : CarriesOver s w w') (hkey : nameOf? parts = some key)
    (hkey' : nameOf? parts' = some key') (hfield : fieldOf? fields key = some (rule, s))
    (hfield' : fieldOf? fields key' = some (rule, s)) (ms : List (List StringPart × Written)) :
    CarriesOver (.record name fields) (.object ((parts, w) :: ms))
      (.object ((parts', w') :: ms)) :=
  h.object hkey hkey' ms fun _ _ js hsame =>
    ⟨ofMembers_head hfield hfield' hsame.ofJson_iff js, by simp⟩

theorem carriesOver_order {ms ms' : List (List StringPart × Written)} (h : ms.Perm ms') :
    CarriesOver (.record name fields) (.object ms) (.object ms') := by
  intro j hj
  obtain ⟨js, hjs, rfl⟩ := document?_object.1 hj
  obtain ⟨js', hjs', hperm⟩ := members?_perm h hjs
  exact ⟨.object js', document?_object.2 ⟨js', hjs', rfl⟩, ofMembers_perm hperm, by simp⟩

/-- A member that changes nothing can be added and left out. -/
theorem readsAlike_cons {ms : List (List StringPart × Written)} {j : Json}
    (hkey : nameOf? parts = some key) (hj : w.document? = some j)
    (h : ∀ js, Written.members? ms = some js → ∀ row, ofMembers fields js = .ok row ↔
      ofMembers fields ((key, j) :: js) = .ok row) :
    ReadsAlike (.record name fields) (.object ms) (.object ((parts, w) :: ms)) := by
  constructor
  · intro i hi
    obtain ⟨js, hjs, rfl⟩ := document?_object.1 hi
    exact ⟨_, document?_object.2 ⟨_, members?_cons.2 ⟨key, j, js, hkey, hj, hjs, rfl⟩, rfl⟩,
      h js hjs, by simp⟩
  · intro i hi
    obtain ⟨_, hjs, rfl⟩ := document?_object.1 hi
    obtain ⟨key₁, j₁, js, hkey₁, hj₁, hms, rfl⟩ := members?_cons.1 hjs
    obtain rfl := Option.some.inj (hkey.symm.trans hkey₁)
    obtain rfl := Option.some.inj (hj.symm.trans hj₁)
    exact ⟨_, document?_object.2 ⟨js, hms, rfl⟩, fun row => (h js hms row).symm, by simp⟩

/-- Spellings of a document that differ in steps that do not count read alike. -/
theorem Respelled.readsAlike (h : Respelled s w w') (hs : s.isSound = true) :
    ReadsAlike s w w' := by
  induction h with
  | refl s w => exact ⟨.refl s w, .refl s w⟩
  | symm _ ih => exact (ih hs).symm
  | trans _ _ ih ih' =>
    exact ⟨(ih hs).1.trans (ih' hs).1, (ih' hs).2.trans (ih hs).2⟩
  | item ws ws' _ ih => exact ⟨(ih hs).1.item ws ws', (ih hs).2.item ws ws'⟩
  | content _ ih =>
    have hcontent := (Bool.and_eq_true_iff.1 hs).1
    exact ⟨(ih hcontent).1.content, (ih hcontent).2.content⟩
  | position ws ws' hfield _ ih =>
    have hfields := isSound_of_mem hs (List.mem_of_getElem? hfield)
    exact ⟨(ih hfields).1.position ws ws' hfield, (ih hfields).2.position ws ws' hfield⟩
  | value ms hkey hfield _ ih =>
    have hfields := isSound_of_mem hs (mem_of_fieldOf? hfield)
    exact ⟨(ih hfields).1.member hkey hkey hfield hfield ms,
      (ih hfields).2.member hkey hkey hfield hfield ms⟩
  | renamed w ms hkey hkey' hfield hfield' =>
    exact ⟨(CarriesOver.refl _ w).member hkey hkey' hfield hfield' ms,
      (CarriesOver.refl _ w).member hkey' hkey hfield' hfield ms⟩
  | order hperm => exact ⟨carriesOver_order hperm, carriesOver_order hperm.symm⟩
  | unknown ms hkey hfield hw =>
    obtain ⟨j, hj⟩ := Option.isSome_iff_exists.1 hw
    exact readsAlike_cons hkey hj fun js _ => ofMembers_unknown hfield j js
  | default hkey hfield hneeded hfree hw =>
    refine readsAlike_cons hkey hw fun js hjs => ofMembers_default hfield hneeded ?_ ?_
    · intro m hm
      obtain ⟨v, hv, hname⟩ := exists_of_mem_members hjs hm
      exact hfree v hv m.1 hname
    · exact ofJson_toJson _ (isSound_of_mem hs (mem_of_fieldOf? hfield)) _

end Bindery.Json.Schema
