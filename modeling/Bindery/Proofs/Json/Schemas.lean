import Bindery.Json.Schema
import Bindery.Proofs.Steps

/-!
# Schemas and their values

Induction over schemas, and records as they are put together and read field by field.
-/
namespace Bindery.Json

variable {σ : Type}

/-- Puts members into slots one after the other. -/
def putAll (put : String → Json → σ → Except Mismatch σ) (slots : σ) (ms : List (String × Json)) :
    Except Mismatch σ :=
  ms.foldlM (fun slots m => put m.1 m.2 slots) slots

theorem putAll_cons {put : String → Json → σ → Except Mismatch σ} {slots : σ} {m : String × Json}
    {ms : List (String × Json)} :
    putAll put slots (m :: ms) = (put m.1 m.2 slots >>= fun slots => putAll put slots ms) :=
  List.foldlM_cons ..

/-- The members that belong to a field. -/
def FieldRule.own (rule : FieldRule) (ms : List (String × Json)) : List (String × Json) :=
  ms.filter fun m => rule.names.contains m.1

def FieldRule.others (rule : FieldRule) (ms : List (String × Json)) : List (String × Json) :=
  ms.filter fun m => !rule.names.contains m.1

namespace FieldRule

variable {rule : FieldRule} {m : String × Json} {ms : List (String × Json)}

theorem own_cons_of_pos (h : rule.names.contains m.1 = true) :
    rule.own (m :: ms) = m :: rule.own ms :=
  List.filter_cons_of_pos h

theorem own_cons_of_neg (h : ¬ rule.names.contains m.1 = true) :
    rule.own (m :: ms) = rule.own ms :=
  List.filter_cons_of_neg h

theorem others_cons_of_pos (h : rule.names.contains m.1 = true) :
    rule.others (m :: ms) = rule.others ms :=
  List.filter_cons_of_neg (by simpa using h)

theorem others_cons_of_neg (h : ¬ rule.names.contains m.1 = true) :
    rule.others (m :: ms) = m :: rule.others ms :=
  List.filter_cons_of_pos (by simpa using h)

theorem own_eq {key : String} {needed omitEmpty : Bool} :
    FieldRule.own ⟨key, [], needed, omitEmpty⟩ ms = ms.filter (·.1 = key) := by
  refine List.filter_congr fun m _ => ?_
  simp [FieldRule.names]

/-- Members that belong to a field do not belong to one with other names. -/
theorem own_others {rule rule' : FieldRule} (h : ∀ n ∈ rule'.names, n ∉ rule.names)
    (ms : List (String × Json)) : rule'.own (rule.others ms) = rule'.own ms := by
  unfold own others
  rw [List.filter_filter]
  refine List.filter_congr fun m _ => ?_
  cases hkey : rule'.names.contains m.1 with
  | false => rfl
  | true =>
    have hne := h m.1 (by simpa using hkey)
    simp [hne]

end FieldRule

namespace Schema

/-- A property of all schemas holds of a record if it holds of its fields. -/
theorem induct {P : Schema → Prop} (text : P .text) (flag : P .flag) (integer : P .integer)
    (list : ∀ item, P item → P (.list item)) (option : ∀ content, P content → P (.option content))
    (record : ∀ name fields, (∀ f ∈ fields, P f.2) → P (.record name fields)) : ∀ s, P s
  | .text => text
  | .flag => flag
  | .integer => integer
  | .list item => list item (induct text flag integer list option record item)
  | .option content => option content (induct text flag integer list option record content)
  | .record name fields => record name fields fun f hf =>
      have : sizeOf f.2 < sizeOf fields := by
        obtain ⟨rule, s⟩ := f
        have hsize := List.sizeOf_lt_of_mem hf
        simp only [Prod.mk.sizeOf_spec] at hsize ⊢
        omega
      induct text flag integer list option record f.2

variable {rule : FieldRule} {s : Schema} {fields : List (FieldRule × Schema)}
  {ms : List (String × Json)}

def Row.cons (rule : FieldRule) (v : Value s) (vs : Row fields) : Row ((rule, s) :: fields) :=
  (v, vs)

theorem Row.eq_cons (row : Row ((rule, s) :: fields)) : ∃ v vs, row = .cons rule v vs :=
  ⟨row.1, row.2, rfl⟩

theorem Row.cons_inj {v v' : Value s} {vs vs' : Row fields} :
    Row.cons rule v vs = Row.cons rule v' vs' ↔ v = v' ∧ vs = vs' :=
  Prod.mk_inj

/-- A record of which the first field is known. -/
theorem Row.map_cons_eq_ok_iff {r : Except Mismatch (Row fields)} {x v : Value s}
    {vs : Row fields} : r.map (Row.cons rule x) = .ok (Row.cons rule v vs) ↔
      x = v ∧ r = .ok vs := by
  cases r with
  | error m => simp [Except.map]
  | ok w => simp [Except.map, Row.cons_inj]

def Slots.cons (rule : FieldRule) (slot : Option (Value s)) (slots : Slots fields) :
    Slots ((rule, s) :: fields) :=
  (slot, slots)

theorem Slots.eq_cons (slots : Slots ((rule, s) :: fields)) :
    ∃ slot more, slots = .cons rule slot more :=
  ⟨slots.1, slots.2, rfl⟩

theorem Slots.cons_inj {slot slot' : Option (Value s)} {slots slots' : Slots fields} :
    Slots.cons rule slot slots = Slots.cons rule slot' slots' ↔ slot = slot' ∧ slots = slots' :=
  Prod.mk_inj

/-! Storing members -/

theorem store_cons (rule : FieldRule) (s : Schema) (key : String) (j : Json)
    (slot : Option (Value s)) (slots : Slots fields) :
    store ((rule, s) :: fields) key j (.cons rule slot slots) =
      if rule.names.contains key then
        some (match slot with
          | some _ => .error (.duplicateField rule.key)
          | none => (ofJson s j).map fun v => .cons rule (some v) slots)
      else (store fields key j slots).map fun r => r.map (.cons rule slot) := rfl

/-- What a record read from an object does with a member. -/
def put (fields : List (FieldRule × Schema)) (key : String) (j : Json) (slots : Slots fields) :
    Except Mismatch (Slots fields) :=
  (store fields key j slots).getD (.ok slots)

theorem put_cons (rule : FieldRule) (s : Schema) (key : String) (j : Json)
    (slot : Option (Value s)) (slots : Slots fields) :
    put ((rule, s) :: fields) key j (.cons rule slot slots) =
      if rule.names.contains key then
        match slot with
        | some _ => .error (.duplicateField rule.key)
        | none => (ofJson s j).map fun v => .cons rule (some v) slots
      else (put fields key j slots).map (.cons rule slot) := by
  unfold put
  rw [store_cons]
  split
  · rfl
  · cases store fields key j slots with
    | none => rfl
    | some r => rfl

/-- What a field holds, given the members that belong to it. -/
def ofOwn (rule : FieldRule) (s : Schema) : List (String × Json) → Except Mismatch (Value s)
  | [] => if rule.needed then .error (.missingField rule.key) else .ok (empty s)
  | [m] => ofJson s m.2
  | _ => .error (.duplicateField rule.key)

/-- What is in the slot of a field after the members that belong to it. -/
def fillSlot (rule : FieldRule) (s : Schema) :
    Option (Value s) → List (String × Json) → Except Mismatch (Option (Value s))
  | slot, [] => .ok slot
  | some _, _ :: _ => .error (.duplicateField rule.key)
  | none, [m] => (ofJson s m.2).map some
  | none, _ :: _ :: _ => .error (.duplicateField rule.key)

theorem fillSlot_none_cons {slot' : Option (Value s)} {m : String × Json} :
    fillSlot rule s none (m :: ms) = .ok slot' ↔
      ∃ v, ofJson s m.2 = .ok v ∧ fillSlot rule s (some v) ms = .ok slot' := by
  cases ms with
  | nil =>
    change (ofJson s m.2).map some = .ok slot' ↔ ∃ v, _ ∧ Except.ok (some v) = .ok slot'
    cases ofJson s m.2 with
    | error why => simp [Except.map]
    | ok v => simp [Except.map]
  | cons m' ms =>
    change Except.error _ = .ok slot' ↔ ∃ v, _ ∧ Except.error _ = .ok slot'
    simp

/-- A field is filled by the members that belong to it, the other fields by the others. -/
theorem putAll_cons_eq_ok_iff {slot slot' : Option (Value s)} {slots slots' : Slots fields} :
    putAll (put ((rule, s) :: fields)) (.cons rule slot slots) ms = .ok (.cons rule slot' slots') ↔
      fillSlot rule s slot (rule.own ms) = .ok slot' ∧
        putAll (put fields) slots (rule.others ms) = .ok slots' := by
  induction ms generalizing slot slots with
  | nil =>
    change Except.ok (Slots.cons rule slot slots) = .ok (Slots.cons rule slot' slots') ↔
      Except.ok slot = .ok slot' ∧ Except.ok slots = .ok slots'
    simp only [Except.ok.injEq, Slots.cons_inj]
  | cons m ms ih =>
    rw [putAll_cons, put_cons]
    by_cases hkey : rule.names.contains m.1 = true
    · rw [if_pos hkey, FieldRule.own_cons_of_pos hkey, FieldRule.others_cons_of_pos hkey,
        bind_eq_ok_iff]
      cases slot with
      | some v => simp [fillSlot]
      | none =>
        rw [fillSlot_none_cons]
        constructor
        · rintro ⟨more, hmore, hrest⟩
          cases hv : ofJson s m.2 with
          | error why =>
            rw [hv] at hmore
            cases hmore
          | ok v =>
            rw [hv] at hmore
            obtain rfl := Except.ok.inj hmore
            obtain ⟨hslot, hslots⟩ := ih.1 hrest
            exact ⟨⟨v, rfl, hslot⟩, hslots⟩
        · rintro ⟨⟨v, hv, hslot⟩, hslots⟩
          exact ⟨.cons rule (some v) slots, by rw [hv]; rfl, ih.2 ⟨hslot, hslots⟩⟩
    · rw [if_neg hkey, FieldRule.own_cons_of_neg hkey, FieldRule.others_cons_of_neg hkey,
        putAll_cons]
      cases hput : put fields m.1 m.2 slots with
      | error why => simp [bind, Except.bind, Except.map]
      | ok more => exact ih

theorem exists_fillSlot_iff : (∃ slot, fillSlot rule s none ms = .ok slot) ↔
    ms = [] ∨ ∃ m, ms = [m] ∧ ∃ v, ofJson s m.2 = .ok v := by
  match ms with
  | [] => simp [fillSlot]
  | [m] =>
    rw [fillSlot]
    cases hv : ofJson s m.2 with
    | error why => simp [Except.map, hv]
    | ok v => simp [Except.map, hv]
  | _ :: _ :: _ => simp [fillSlot]

theorem ofMembers_eq (fields : List (FieldRule × Schema)) (ms : List (String × Json)) :
    ofMembers fields ms = putAll (put fields) (noSlots fields) ms >>= fill fields := rfl

/-- A record without fields has no use for members. -/
theorem ofMembers_nil (ms : List (String × Json)) : ofMembers [] ms = .ok () := by
  have hall : ∀ slots, putAll (put []) slots ms = .ok slots := by
    induction ms with
    | nil => exact fun _ => rfl
    | cons m ms ih => exact fun slots => putAll_cons.trans (ih slots)
  rw [ofMembers_eq, hall]
  rfl

/-- What a field holds in the end, given its slot. -/
def ofSlot (rule : FieldRule) (s : Schema) : Option (Value s) → Except Mismatch (Value s)
  | some v => .ok v
  | none => if rule.needed then .error (.missingField rule.key) else .ok (empty s)

theorem ofJson_option {content : Schema} {j : Json} (h : j ≠ .null) :
    (Schema.option content).ofJson j =
      (ofJson content j).map (some : Value content → Option (Value content)) := by
  cases j with
  | null => exact absurd rfl h
  | _ => rfl

theorem fill_cons {slot : Option (Value s)} {slots : Slots fields} :
    fill ((rule, s) :: fields) (.cons rule slot slots) = (do
      let v ← ofSlot rule s slot
      let vs ← fill fields slots
      return .cons rule v vs) := by
  obtain ⟨key, aliases, needed, omitEmpty⟩ := rule
  cases slot with
  | some v => rfl
  | none => cases needed <;> rfl

theorem ofOwn_eq_ok_iff {v : Value s} :
    ofOwn rule s ms = .ok v ↔
      ∃ slot, fillSlot rule s none ms = .ok slot ∧ ofSlot rule s slot = .ok v := by
  match ms with
  | [] => simp [ofOwn, fillSlot, ofSlot]
  | [m] =>
    rw [ofOwn, fillSlot]
    cases ofJson s m.2 with
    | error why => simp [Except.map]
    | ok w => simp [Except.map, ofSlot]
  | _ :: _ :: _ => simp [ofOwn, fillSlot]

/-- A record is read field by field, each from the members that belong to it. -/
theorem ofMembers_cons_eq_ok_iff {v : Value s} {vs : Row fields} :
    ofMembers ((rule, s) :: fields) ms = .ok (.cons rule v vs) ↔
      ofOwn rule s (rule.own ms) = .ok v ∧ ofMembers fields (rule.others ms) = .ok vs := by
  rw [ofMembers_eq, ofMembers_eq, ofOwn_eq_ok_iff]
  simp only [bind_eq_ok_iff]
  constructor
  · rintro ⟨slots, hslots, hfill⟩
    obtain ⟨slot, slots, rfl⟩ := slots.eq_cons
    obtain ⟨hslot, hslots⟩ := putAll_cons_eq_ok_iff.1 hslots
    simp only [fill_cons, bind_eq_ok_iff, pure_eq_ok_iff, Row.cons_inj] at hfill
    obtain ⟨w, hw, ws, hws, rfl, rfl⟩ := hfill
    exact ⟨⟨slot, hslot, hw⟩, slots, hslots, hws⟩
  · rintro ⟨⟨slot, hslot, hv⟩, slots, hslots, hvs⟩
    refine ⟨.cons rule slot slots, putAll_cons_eq_ok_iff.2 ⟨hslot, hslots⟩, ?_⟩
    simp only [fill_cons, bind_eq_ok_iff, pure_eq_ok_iff, Row.cons_inj]
    exact ⟨v, hv, vs, hvs, rfl, rfl⟩

/-! Lists of fields -/

theorem ofItems_nil (name : String) (size index : Nat) (js : List Json) :
    ofItems name size index [] js =
      if js.isEmpty then .ok () else .error (.tooLong (index + js.length) index) := rfl

theorem ofItems_cons_nil (name : String) (size index : Nat) (rule : FieldRule) (s : Schema) :
    ofItems name size index ((rule, s) :: fields) [] =
      if rule.needed then .error (.tooShort index name size)
      else (ofItems name size (index + 1) fields []).map (.cons rule (empty s)) := rfl

theorem ofItems_cons_cons (name : String) (size index : Nat) (rule : FieldRule) (s : Schema)
    (j : Json) (js : List Json) :
    ofItems name size index ((rule, s) :: fields) (j :: js) = (do
      let v ← ofJson s j
      let vs ← ofItems name size (index + 1) fields js
      return .cons rule v vs) := rfl

end Schema

end Bindery.Json
