import Bindery.Proofs.Source.Running
import Bindery.Proofs.Source.Spelled

/-!
# Lists are read again

Elements that are joined by commas are read again one by one if each is read in front of a comma
and in front of what ends the list.
-/
namespace Bindery.Source

/-- Joined parts, one after the other behind the first. -/
theorem separated_cons (sep x : List Token) (xs : List (List Token)) :
    separated sep false (x :: xs) = x ++ xs.flatMap (sep ++ ·) := by
  induction xs generalizing x with
  | nil => simp [separated]
  | cons y rest ih => simp [separated, ih]

/-- A comma stands behind every element but the last one, and behind that if `trailing` says so. -/
theorem commas_cons {trailing : Bool} {others : List (List Token)}
    (h : others ≠ [] ∨ trailing = true) (x : List Token) :
    commas trailing (x :: others) = x ++ .punct ',' false :: commas trailing others := by
  cases others with
  | nil =>
    obtain rfl : trailing = true := by simpa using h
    simp [commas, separated, punct]
  | cons y ys => simp [commas, separated, punct]

/-! Sizes -/

theorem sizeAll_append (xs ys : List Token) :
    Token.sizeAll (xs ++ ys) = Token.sizeAll xs + Token.sizeAll ys := by
  induction xs with
  | nil => simp [Token.sizeAll]
  | cons x rest ih =>
    rw [List.cons_append, Token.sizeAll, Token.sizeAll, ih]
    omega

theorem sizeAll_le_of_infix {ts us : List Token} (h : ts <:+: us) :
    Token.sizeAll ts ≤ Token.sizeAll us := by
  obtain ⟨before, rest, rfl⟩ := h
  rw [sizeAll_append, sizeAll_append]
  omega

/-- An element stands in its list. -/
theorem infix_commas {xs : List (List Token)} {x : List Token} (hx : x ∈ xs) (trailing : Bool) :
    x <:+: commas trailing xs := by
  induction xs with
  | nil => cases hx
  | cons y others ih =>
    by_cases hmore : others ≠ [] ∨ trailing = true
    · rw [commas_cons hmore]
      rcases List.mem_cons.1 hx with rfl | hx
      · exact ⟨[], _, rfl⟩
      · exact (ih hx).trans ⟨y ++ [.punct ',' false], [], by simp⟩
    · obtain ⟨rfl, rfl⟩ : others = [] ∧ trailing = false := by simpa using hmore
      obtain rfl := List.mem_singleton.1 hx
      simp [commas, separated]

theorem infix_flatMap {α : Type} (tok : α → List Token) {xs : List α} {x : α} (hx : x ∈ xs) :
    tok x <:+: xs.flatMap tok := by
  rw [List.flatMap_def]
  exact List.infix_of_mem_flatten (List.mem_map_of_mem hx)

theorem sizeAll_le_commas {xs : List (List Token)} {x : List Token} (hx : x ∈ xs)
    (trailing : Bool) : Token.sizeAll x ≤ Token.sizeAll (commas trailing xs) :=
  sizeAll_le_of_infix (infix_commas hx trailing)

theorem sizeAll_le_flatMap {α : Type} (tok : α → List Token) {xs : List α} {x : α} (hx : x ∈ xs) :
    Token.sizeAll (tok x) ≤ Token.sizeAll (xs.flatMap tok) :=
  sizeAll_le_of_infix (infix_flatMap tok hx)

/-! Reading -/

namespace Parser

variable {α : Type} {p : Parser α} {tok : α → List Token} {stop : List Token → Bool}
  {rest : List Token}

/-- Elements with commas up to a place where the list stops. -/
theorem reads_separatedFrom (follow : List Token → Prop) {xs : List α} {trailing : Bool}
    (hread : ∀ x ∈ xs, ∀ more, follow more → Reads p (tok x ++ more) x more)
    (hgo : ∀ x ∈ xs, ∀ more, stop (tok x ++ more) = false)
    (hcomma : ∀ more, follow (.punct ',' false :: more) ∧ stop (.punct ',' false :: more) = false)
    (hrest : follow rest ∧ stop rest = true) {n : Nat} (hn : xs.length < n) (before : Bool) :
    Reads (separatedFrom n stop "," p before) (commas trailing (xs.map tok) ++ rest)
      (xs, if xs.isEmpty then before else trailing) rest := by
  induction xs generalizing n before with
  | nil =>
    obtain ⟨n, rfl⟩ := Nat.exists_eq_add_of_lt hn
    have hnil : commas trailing [] ++ rest = rest := rfl
    simp [Reads, separatedFrom, hnil, hrest.2]
  | cons x others ih =>
    obtain ⟨n, rfl⟩ : ∃ k, n = k + 1 := ⟨n - 1, by simp at hn; omega⟩
    have hx := hread x (by simp)
    have hgox := hgo x (by simp)
    by_cases hmore : others ≠ [] ∨ trailing = true
    · have hothers := ih (fun y hy => hread y (List.mem_cons_of_mem x hy))
        (fun y hy => hgo y (List.mem_cons_of_mem x hy)) (n := n) (by simpa using hn) true
      have hlast : (if others.isEmpty then true else trailing) = trailing := by
        rcases hmore with h | h
        · simp [h]
        · simp [h]
      have hop : ∀ more, opAhead "," (.punct ',' false :: more) = true := fun _ => by
        simp [opAhead, opAhead.go]
      rw [hlast] at hothers
      rw [List.map_cons, commas_cons (by simpa using hmore), List.append_assoc]
      simp [Reads, separatedFrom, hgox, (hx _ (hcomma _).1).run, (hcomma _).2, hop, dropOp,
        hothers.run]
    · obtain ⟨rfl, rfl⟩ : others = [] ∧ trailing = false := by simpa using hmore
      have hone : commas false [tok x] = tok x := by simp [commas, Source.separated]
      simp [Reads, separatedFrom, hone, hgox, (hx rest hrest.1).run, hrest.2]

theorem length_le_length_commas {xs : List α} (hne : ∀ x ∈ xs, tok x ≠ []) (trailing : Bool) :
    xs.length ≤ (commas trailing (xs.map tok)).length := by
  induction xs with
  | nil => simp
  | cons x others ih =>
    have hx := List.length_pos_iff.2 (hne x (by simp))
    have hothers := ih fun y hy => hne y (List.mem_cons_of_mem x hy)
    by_cases hmore : others ≠ [] ∨ trailing = true
    · rw [List.map_cons, commas_cons (by simpa using hmore)]
      simp only [List.length_append, List.length_cons]
      omega
    · obtain ⟨rfl, rfl⟩ : others = [] ∧ trailing = false := by simpa using hmore
      simp only [List.map_cons, List.map_nil, commas, Source.separated, List.length_append]
      simp at hx ⊢
      omega

theorem reads_separated (follow : List Token → Prop) {xs : List α} {trailing : Bool}
    (hread : ∀ x ∈ xs, ∀ more, follow more → Reads p (tok x ++ more) x more)
    (hgo : ∀ x ∈ xs, tok x ≠ [] ∧ ∀ more, stop (tok x ++ more) = false)
    (hcomma : ∀ more, follow (.punct ',' false :: more) ∧ stop (.punct ',' false :: more) = false)
    (hrest : follow rest ∧ stop rest = true) (htrailing : trailing = true → xs ≠ []) :
    Reads (Parser.separated stop "," p) (commas trailing (xs.map tok) ++ rest) (xs, trailing)
      rest := by
  have hlength := length_le_length_commas (fun x hx => (hgo x hx).1) trailing
  have hn : xs.length < (commas trailing (xs.map tok) ++ rest).length + 1 := by
    rw [List.length_append]
    omega
  have hfrom : Reads (separatedFrom _ stop "," p false) (commas trailing (xs.map tok) ++ rest)
      (xs, if xs.isEmpty then false else trailing) rest :=
    reads_separatedFrom follow hread (fun x hx => (hgo x hx).2) hcomma hrest hn false
  have hlast : (if xs.isEmpty then false else trailing) = trailing := by
    cases xs with
    | nil => simpa using htrailing
    | cons x others => simp
  rw [hlast] at hfrom
  exact (reads_remaining _).bind hfrom
end Parser

end Bindery.Source
