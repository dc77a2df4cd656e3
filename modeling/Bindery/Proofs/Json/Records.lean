import Bindery.Proofs.Json.Printing

/-!
# Records that survive being written

A schema is sound if no field takes what another one wrote and nothing that must be read is left
out. A value of a sound schema is read back from the text it is written as.
-/
namespace Bindery.Json.Schema

mutual

/-- The levels that documents of a schema nest. -/
def height : Schema → Nat
  | .text => 0
  | .flag => 0
  | .integer => 0
  | .list item => height item + 1
  | .option content => height content
  | .record _ fields => heights fields + 1

def heights : List (FieldRule × Schema) → Nat
  | [] => 0
  | (_, s) :: rest => max (height s) (heights rest)

end

def isOption : Schema → Bool
  | .option _ => true
  | _ => false

mutual

/-- Whether each value of a schema is read back. -/
def isSound : Schema → Bool
  | .text => true
  | .flag => true
  | .integer => true
  | .list item => isSound item
  | .option content => isSound content && !content.isOption
  | .record _ fields => areSound fields

/-- A field that may be left out must not be needed, and no later one is written under its names. -/
def areSound : List (FieldRule × Schema) → Bool
  | [] => true
  | (rule, s) :: rest =>
    isSound s && !(rule.needed && rule.omitEmpty) &&
      rest.all (fun f => !rule.names.contains f.1.key) && areSound rest

end

variable {rule : FieldRule} {s : Schema} {fields : List (FieldRule × Schema)}

/-! Documents of values -/

theorem height_le_of_mem {f : FieldRule × Schema} (hf : f ∈ fields) :
    height f.2 ≤ heights fields := by
  induction fields with
  | nil => cases hf
  | cons g fields ih =>
    rw [heights]
    rcases List.mem_cons.1 hf with rfl | hf
    · exact le_max_left _ _
    · exact (ih hf).trans (le_max_right _ _)

theorem toMembers_cons (rule : FieldRule) (s : Schema) (v : Value s) (vs : Row fields) :
    toMembers ((rule, s) :: fields) (.cons rule v vs) =
      if rule.omitEmpty && isEmpty s v then toMembers fields vs
      else (rule.key, toJson s v) :: toMembers fields vs := rfl

/-- The members of a record are documents of its fields, under their keys. -/
theorem mem_toMembers {vs : Row fields} {m : String × Json} (hm : m ∈ toMembers fields vs) :
    ∃ f ∈ fields, m.1 = f.1.key ∧ ∃ v, m.2 = f.2.toJson v := by
  induction fields with
  | nil => cases hm
  | cons f fields ih =>
    obtain ⟨rule, s⟩ := f
    obtain ⟨v, vs, rfl⟩ := vs.eq_cons
    rw [toMembers_cons] at hm
    have hlater : m ∈ toMembers fields vs →
        ∃ f ∈ (rule, s) :: fields, m.1 = f.1.key ∧ ∃ v, m.2 = f.2.toJson v := by
      intro hm
      obtain ⟨f, hf, h⟩ := ih hm
      exact ⟨f, List.mem_cons_of_mem _ hf, h⟩
    split at hm
    · exact hlater hm
    · rcases List.mem_cons.1 hm with rfl | hm
      · exact ⟨(rule, s), List.mem_cons_self, rfl, v, rfl⟩
      · exact hlater hm

/-- The document of a value can be written and read back. -/
theorem toJson_fits (s : Schema) : ∀ d, height s ≤ d → ∀ v, Fits d (s.toJson v) := by
  induction s using induct with
  | text =>
    intro d _ v
    cases d <;> trivial
  | flag =>
    intro d _ v
    cases d <;> trivial
  | integer =>
    intro d _ v
    have hn : IsReadable (Int64.toInt v) := by
      have hlow := Int64.le_toInt v
      have hhigh := Int64.toInt_lt v
      unfold IsReadable significandLimit UInt64.size
      omega
    cases d <;> exact hn
  | list item ih =>
    intro d hd v
    obtain ⟨d, rfl⟩ := Nat.exists_eq_add_one_of_ne_zero (Nat.ne_zero_of_lt hd)
    intro j hj
    obtain ⟨x, -, rfl⟩ := List.mem_map.1 hj
    exact ih d (Nat.le_of_succ_le_succ hd) x
  | option content ih =>
    intro d hd v
    cases v with
    | none => cases d <;> trivial
    | some x => exact ih d hd x
  | record name fields ih =>
    intro d hd v
    obtain ⟨d, rfl⟩ := Nat.exists_eq_add_one_of_ne_zero (Nat.ne_zero_of_lt hd)
    intro m hm
    obtain ⟨f, hf, -, x, hx⟩ := mem_toMembers hm
    rw [hx]
    exact ih f hf d ((height_le_of_mem hf).trans (Nat.le_of_succ_le_succ hd)) x

/-! Values of documents -/

/-- Only empty values are left out. -/
theorem isEmpty_eq {v : Value s} (h : isEmpty s v = true) : v = empty s := by
  cases s with
  | text =>
    have hv : ∀ v : String, (v == "") = true → v = "" := fun v h => beq_iff_eq.1 h
    exact hv v h
  | flag =>
    have hv : ∀ v : Bool, (!v) = true → v = false := by decide
    exact hv v h
  | integer =>
    have hv : ∀ v : Int64, (v == 0) = true → v = 0 := fun v h => beq_iff_eq.1 h
    exact hv v h
  | list item => exact List.isEmpty_iff.1 h
  | option content => exact Option.isNone_iff_eq_none.1 h
  | record name fields => cases h

theorem toJson_ne_null (h : s.isOption = false) (v : Value s) : s.toJson v ≠ .null := by
  cases s with
  | option content => cases h
  | _ => exact fun h => nomatch h

theorem ofMembers_toMembers (hfields : areSound fields = true)
    (hs : ∀ f ∈ fields, ∀ v, f.2.ofJson (f.2.toJson v) = .ok v) (vs : Row fields) :
    ofMembers fields (toMembers fields vs) = .ok vs := by
  induction fields with
  | nil => exact ofMembers_nil _
  | cons f fields ih =>
    obtain ⟨rule, s⟩ := f
    obtain ⟨v, vs, rfl⟩ := vs.eq_cons
    simp only [areSound, Bool.and_eq_true, List.all_eq_true, Bool.not_eq_true'] at hfields
    obtain ⟨⟨⟨-, hrule⟩, hlater⟩, hfields⟩ := hfields
    have hkeys : ∀ m ∈ toMembers fields vs, rule.names.contains m.1 = false := by
      intro m hm
      obtain ⟨f, hf, hkey, -⟩ := mem_toMembers hm
      rw [hkey]
      exact hlater f hf
    have hown : rule.own (toMembers fields vs) = [] :=
      List.filter_eq_nil_iff.2 fun m hm => by
        rw [hkeys m hm]
        decide
    have hothers : rule.others (toMembers fields vs) = toMembers fields vs :=
      List.filter_eq_self.2 fun m hm => by
        rw [hkeys m hm]
        decide
    have hrest := ih hfields (fun f hf => hs f (List.mem_cons_of_mem _ hf)) vs
    have hself : rule.names.contains rule.key = true := by simp [FieldRule.names]
    rw [toMembers_cons, ofMembers_cons_eq_ok_iff]
    split
    · rename_i homit
      rw [hown, hothers]
      obtain ⟨homit, hempty⟩ := Bool.and_eq_true_iff.1 homit
      have hneeded : rule.needed = false := by simpa [homit] using hrule
      refine ⟨?_, hrest⟩
      rw [ofOwn, hneeded, isEmpty_eq hempty]
      rfl
    · rw [FieldRule.own_cons_of_pos hself, FieldRule.others_cons_of_pos hself, hown, hothers]
      exact ⟨hs _ List.mem_cons_self v, hrest⟩

theorem isSound_of_mem (h : areSound fields = true) {f : FieldRule × Schema} (hf : f ∈ fields) :
    isSound f.2 = true := by
  induction fields with
  | nil => cases hf
  | cons g fields ih =>
    obtain ⟨rule, s⟩ := g
    simp only [areSound, Bool.and_eq_true] at h
    rcases List.mem_cons.1 hf with rfl | hf
    · exact h.1.1.1
    · exact ih h.2 hf

/-- A value of a sound schema is what its document holds. -/
theorem ofJson_toJson (s : Schema) : isSound s = true → ∀ v, s.ofJson (s.toJson v) = .ok v := by
  induction s using induct with
  | text => exact fun _ _ => rfl
  | flag => exact fun _ _ => rfl
  | integer =>
    intro _ v
    have hv : ∀ v : Int64, integerOf (.integer v.toInt) = .ok v := by
      intro v
      have hlow := Int64.le_toInt v
      have hhigh := Int64.toInt_lt v
      have hmin : Int64.minValue.toInt = -2 ^ 63 := by decide
      have hmax : Int64.maxValue.toInt = 2 ^ 63 - 1 := by decide
      have hrange : Int64.minValue.toInt ≤ v.toInt ∧ v.toInt ≤ Int64.maxValue.toInt := by
        omega
      rw [integerOf, if_pos (by simpa using hrange), Int64.ofInt_toInt]
    exact hv v
  | list item ih =>
    intro h v
    have hv : ∀ v : List (Value item), (v.map item.toJson).mapM item.ofJson = .ok v := by
      intro v
      rw [mapM_eq_ok_iff, List.forall₂_map_left_iff]
      exact List.forall₂_same.2 fun x _ => ih h x
    exact hv v
  | option content ih =>
    intro h v
    obtain ⟨hcontent, hoption⟩ := Bool.and_eq_true_iff.1 h
    cases v with
    | none => rfl
    | some x =>
      have hnull := toJson_ne_null (by simpa using hoption) x
      have hsome : (Schema.option content).ofJson (toJson content x) =
          (ofJson content (toJson content x)).map
            (some : Value content → Option (Value content)) := ofJson_option hnull
      exact hsome.trans (by rw [ih hcontent x]; rfl)
  | record name fields ih =>
    intro h v
    exact ofMembers_toMembers h (fun f hf => ih f hf (isSound_of_mem h hf)) v

/-- A value of a sound schema survives being written. -/
theorem parse_write {s : Schema} (hsound : s.isSound = true) (hheight : s.height ≤ maxDepth)
    (v : Value s) : s.parse (Text.pieces (s.write v)) = .ok v :=
  ((s.read_agrees maxDepth).run?_eq_ok_iff (parse_text (toJson_fits s maxDepth hheight v))).2
    (ofJson_toJson s hsound v)

end Bindery.Json.Schema
