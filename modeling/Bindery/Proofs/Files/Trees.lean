import Bindery.Files.Tree
import Bindery.Proofs.Files.Paths
import Bindery.Proofs.Steps

/-!
# Trees and their operations

A path leads to a directory step by step, so only the directories of a tree decide where it leads.
An operation succeeds depending on what is at the end of its paths, and changes what is there.
-/
namespace Bindery.Files

namespace Tree

variable {t t' : Tree}

/-! Nodes -/

theorem get?_cons (t : Tree) (name : String) (p : Place) :
    t.get? (name :: p) = t.nodes.lookup (name :: p) := rfl

@[simp] theorem get?_put_self (t : Tree) (name : String) (p : Place) (n : Node) :
    (t.put (name :: p) n).get? (name :: p) = some n := by
  simp [get?_cons, put]

theorem lookup_filter_ne {p q : Place} (h : q ≠ p) (nodes : List (Place × Node)) :
    (nodes.filter (·.1 != p)).lookup q = nodes.lookup q := by
  induction nodes with
  | nil => rfl
  | cons x rest ih =>
    obtain ⟨r, n⟩ := x
    by_cases hr : r = p
    · subst hr
      rw [List.filter_cons_of_neg (by simp), ih, List.lookup_cons, beq_eq_false_iff_ne.2 h]
    · rw [List.filter_cons_of_pos (by simpa using hr), List.lookup_cons, List.lookup_cons, ih]

theorem get?_erase_ne {p q : Place} (h : q ≠ p) (t : Tree) : (t.erase p).get? q = t.get? q := by
  cases q with
  | nil => rfl
  | cons name q => exact lookup_filter_ne h t.nodes

@[simp] theorem get?_erase_self (t : Tree) (name : String) (p : Place) :
    (t.erase (name :: p)).get? (name :: p) = none := by
  rw [get?_cons, List.lookup_eq_none_iff]
  rintro ⟨q, n⟩ hq
  have hne := (List.mem_filter.1 hq).2
  rw [bne_iff_ne] at hne ⊢
  exact hne.symm

theorem get?_put_ne {p q : Place} (h : q ≠ p) (t : Tree) (n : Node) :
    (t.put p n).get? q = t.get? q := by
  rw [← get?_erase_ne h t]
  cases q with
  | nil => rfl
  | cons name q =>
    rw [get?_cons, get?_cons, put, List.lookup_cons, beq_eq_false_iff_ne.2 h]

/-- Two trees hold the same. -/
structure Same (t t' : Tree) : Prop where
  here : t'.here = t.here
  nodes : ∀ q, t'.get? q = t.get? q

/-! Growing trees -/

/-- One tree has at least the directories of another, and its working directory. -/
structure Grown (t t' : Tree) : Prop where
  here : t'.here = t.here
  directories : ∀ p, t.get? p = some .directory → t'.get? p = some .directory

namespace Grown

theorem refl (t : Tree) : Grown t t := ⟨rfl, fun _ h => h⟩

theorem trans {t'' : Tree} (h : Grown t t') (h' : Grown t' t'') : Grown t t'' :=
  ⟨h'.here.trans h.here, fun p hp => h'.directories p (h.directories p hp)⟩

/-- A node can be put where no directory is. -/
theorem put {p : Place} (h : t.get? p ≠ some .directory) (n : Node) : Grown t (t.put p n) :=
  by
  refine ⟨rfl, fun q hq => ?_⟩
  have hne : q ≠ p := fun e => h (e ▸ hq)
  rwa [get?_put_ne hne]

end Grown

/-! Walks -/

/-- Where a path starts. -/
def start (t : Tree) (path : String) : Place := if path.startsWith "/" then [] else t.here

/-- The directory that steps lead to. -/
def follow (t : Tree) (p : Place) (names : List String) : Except Fault Place :=
  names.foldlM t.descend p

/-- The directory that a path leads to. -/
def walk (t : Tree) (path : String) : Except Fault Place := t.follow (t.start path) (steps path)

theorem follow_append {p : Place} {front back : List String} :
    t.follow p (front ++ back) = t.follow p front >>= fun q => t.follow q back :=
  List.foldlM_append

@[simp] theorem follow_singleton (p : Place) (name : String) :
    t.follow p [name] = t.descend p name := by
  rw [follow, List.foldlM_cons]
  exact bind_pure _

theorem descend_of_not_isStep {name : String} (h : isStep name = false) (p : Place) :
    t.descend p name = .ok p := by
  rw [descend, h]
  rfl

/-- What is no step leads nowhere else. -/
theorem follow_filter (p : Place) (names : List String) :
    t.follow p (names.filter isStep) = t.follow p names := by
  induction names generalizing p with
  | nil => rfl
  | cons name rest ih =>
    cases hname : isStep name with
    | false =>
      rw [List.filter_cons_of_neg (by simp [hname]), ih, follow, follow, List.foldlM_cons,
        descend_of_not_isStep hname]
      rfl
    | true =>
      rw [List.filter_cons_of_pos hname, follow, follow, List.foldlM_cons, List.foldlM_cons]
      exact bind_congr fun q => ih q

/-- A step stays, or leads up, or leads down to a directory. -/
theorem descend_eq_ok_iff {p q : Place} {name : String} :
    t.descend p name = .ok q ↔ (isStep name = false ∧ q = p) ∨ (name = ".." ∧ q = p.tail) ∨
      (isStep name = true ∧ name ≠ ".." ∧ name.utf8ByteSize ≤ nameLimit ∧
        t.get? (name :: p) = some .directory ∧ q = name :: p) := by
  unfold descend
  cases hstep : isStep name with
  | false =>
    have hup : name ≠ ".." := by
      rintro rfl
      exact absurd hstep (by decide)
    simp [hup, eq_comm]
  | true =>
    by_cases hup : name = ".."
    · simp [hup, eq_comm]
    · by_cases hsize : name.utf8ByteSize ≤ nameLimit
      · rw [if_neg (by simp), if_neg (by simpa using hup), if_neg (Nat.not_lt.2 hsize)]
        cases hnode : t.get? (name :: p) with
        | none => simp [hup]
        | some n => cases n <;> simp [hup, hsize, eq_comm]
      · rw [if_neg (by simp), if_neg (by simpa using hup), if_pos (Nat.not_le.1 hsize)]
        simp [hup, hsize]

theorem descend_grown (h : Grown t t') {p q : Place} {name : String}
    (hd : t.descend p name = .ok q) : t'.descend p name = .ok q := by
  rw [descend_eq_ok_iff] at hd ⊢
  rcases hd with hstay | hup | ⟨hstep, hdown, hsize, hnode, rfl⟩
  · exact .inl hstay
  · exact .inr (.inl hup)
  · exact .inr (.inr ⟨hstep, hdown, hsize, h.directories _ hnode, rfl⟩)

theorem follow_grown (h : Grown t t') {p q : Place} {names : List String}
    (hf : t.follow p names = .ok q) : t'.follow p names = .ok q := by
  induction names generalizing p with
  | nil => exact hf
  | cons name rest ih =>
    obtain ⟨r, hr, hrest⟩ := bind_eq_ok_iff.1 hf
    exact bind_eq_ok_iff.2 ⟨r, descend_grown h hr, ih hrest⟩

theorem start_grown (h : Grown t t') (path : String) : t'.start path = t.start path := by
  rw [start, start, h.here]

theorem walk_grown (h : Grown t t') {path : String} {p : Place} (hw : t.walk path = .ok p) :
    t'.walk path = .ok p := by
  rw [walk, start_grown h]
  exact follow_grown h hw

theorem walk_eq_of_sameWay {a b : String} (h : SameWay a b) : t.walk a = t.walk b := by
  rw [walk, walk, start, start, h.steps, h.start]

/-! Ends of paths -/

/-- Either a path has no end, or the end is behind the rest, and nothing but slashes follows it. -/
theorem splitLast_cases (ps : List String) :
    splitLast ps = ([], none) ∧ (∀ p ∈ ps, p = "") ∨
      ∃ front name idle, ps = front ++ name :: idle ∧ name ≠ "" ∧ (∀ p ∈ idle, p = "") ∧
        splitLast ps = (front, some (name, decide (0 < idle.length))) := by
  have hkept : (ps.reverse.dropWhile (· == "")).reverse = ps.rdropWhile (· == "") := rfl
  have hidle : ∀ p ∈ ps.rtakeWhile (· == ""), p = "" := fun p hp => by
    simpa using List.mem_rtakeWhile_imp hp
  have hps := List.rdropWhile_append_rtakeWhile (p := (· == "")) (l := ps)
  unfold splitLast
  rw [hkept]
  dsimp only
  by_cases hnil : ps.rdropWhile (· == "") = []
  · rw [hnil]
    exact .inl ⟨rfl, by simpa using List.rdropWhile_eq_nil_iff.1 hnil⟩
  · have hlast := List.rdropWhile_last_not (· == "") ps hnil
    have hlength := congrArg List.length hps
    rw [List.length_append] at hlength
    refine .inr ⟨(ps.rdropWhile (· == "")).dropLast, _, _, ?_, by simpa using hlast, hidle, ?_⟩
    · conv_lhs => rw [← hps, ← List.dropLast_concat_getLast hnil]
      rw [List.append_assoc, List.singleton_append]
    · rw [List.getLast?_eq_some_getLast hnil]
      dsimp only
      congr 3
      simp
      omega

/-- What a path may be in any tree. -/
structure Allowed (path : String) : Prop where
  text : '\x00' ∉ path.toList
  size : path.utf8ByteSize ≤ pathLimit

/-- A path is allowed if something can be joined to it. -/
theorem allowed_of_join {dir name : String} (hname : IsPlain name) (h : Allowed (join dir name)) :
    Allowed dir := by
  obtain ⟨back, hback⟩ := exists_join_eq hname dir
  rw [hback] at h
  obtain ⟨htext, hsize⟩ := h
  rw [String.toList_append, List.mem_append, not_or] at htext
  rw [String.utf8ByteSize_append] at hsize
  exact ⟨htext.1, by omega⟩

/-- A path whose name fits into every directory. -/
structure Fits (path name : String) : Prop where
  allowed : Allowed path
  size : name.utf8ByteSize ≤ nameLimit

/-- What the end of a path is in the directory that it stands in. -/
inductive Ends (p : Place) : Option (String × Bool) → Place × Target → Prop
  | none : Ends p none (p, .dots)
  | dots {name : String} {slash : Bool} (h : name = "." ∨ name = "..") :
    Ends p (some (name, slash)) (p, .dots)
  | name {n : String} {slash : Bool} (dot : n ≠ ".") (up : n ≠ "..")
    (size : n.utf8ByteSize ≤ nameLimit) : Ends p (some (n, slash)) (p, .name n slash)

theorem resolve_eq_ok_iff {path : String} {r : Place × Target} : t.resolve path = .ok r ↔
    Allowed path ∧ path ≠ "" ∧ ∃ p, t.follow (t.start path) (splitLast (pieces path)).1 = .ok p ∧
      Ends p (splitLast (pieces path)).2 r := by
  have hallowed : Allowed path ↔ ¬path.toList.contains '\x00' = true ∧
      ¬path.utf8ByteSize > pathLimit :=
    ⟨fun h => ⟨by simpa using h.text, Nat.not_lt.2 h.size⟩,
      fun h => ⟨by simpa using h.1, Nat.not_lt.1 h.2⟩⟩
  unfold resolve
  simp only [check_eq_ok_iff, bind_eq_ok_iff]
  rw [hallowed, and_assoc, and_left_comm (b := path ≠ "")]
  refine and_congr Iff.rfl (and_congr (by simp) (and_congr Iff.rfl (exists_congr fun p => ?_)))
  refine and_congr Iff.rfl ?_
  generalize (splitLast (pieces path)).2 = last
  constructor
  · intro h
    split at h
    · rw [pure_eq_ok_iff] at h
      exact h ▸ .none
    · rename_i name slash
      split at h
      · rename_i hdots
        rw [pure_eq_ok_iff] at h
        exact h ▸ .dots (by simpa using hdots)
      · rename_i hdots
        rw [check_eq_ok_iff, pure_eq_ok_iff, Nat.not_lt] at h
        rw [Bool.or_eq_true, beq_iff_eq, beq_iff_eq, not_or] at hdots
        exact h.2 ▸ .name hdots.1 hdots.2 h.1
  · rintro (_ | hdots | ⟨hdot, hup, hsize⟩)
    · rfl
    · exact if_pos (by simpa using hdots)
    · dsimp only
      rw [if_neg (by simp [hdot, hup]), check_eq_ok_iff]
      exact ⟨Nat.not_lt.2 hsize, rfl⟩

/-- A joined name stands in the directory that the path leads to. -/
theorem resolve_join_eq_ok_iff {name : String} (hname : IsPlain name) {dir : String}
    {r : Place × Target} : t.resolve (join dir name) = .ok r ↔
      Fits (join dir name) name ∧ ∃ p, t.walk dir = .ok p ∧ r = (p, .name name false) := by
  obtain ⟨front, hpieces, hsteps, hstart⟩ := exists_pieces_join hname dir
  have hlast : splitLast (pieces (join dir name)) = (front, some (name, false)) := by
    rw [hpieces]
    simp [splitLast, hname.ne_empty]
  have hne : join dir name ≠ "" := by
    intro h
    rw [h, show splitLast (pieces "") = ([], none) by decide] at hlast
    cases hlast
  have hwalk : t.walk dir = t.follow (t.start (join dir name)) front := by
    rw [walk, ← hsteps, follow_filter, start, start, hstart]
  rw [resolve_eq_ok_iff, hlast, hwalk]
  constructor
  · rintro ⟨hallowed, -, p, hp, hend⟩
    cases hend with
    | dots hdots => exact absurd hdots (not_or.2 ⟨hname.ne_dot, hname.down⟩)
    | name _ _ hsize => exact ⟨⟨hallowed, hsize⟩, p, hp, rfl⟩
  · rintro ⟨⟨hallowed, hsize⟩, p, hp, rfl⟩
    exact ⟨hallowed, hne, p, hp, .name hname.ne_dot hname.down hsize⟩

/-- The end of a path that is a name is its last step. -/
theorem exists_of_resolve_name {path n : String} {p : Place} {slash : Bool}
    (h : t.resolve path = .ok (p, .name n slash)) :
    IsPlain n ∧ n.utf8ByteSize ≤ nameLimit ∧
      ∃ front, steps path = front ++ [n] ∧ t.follow (t.start path) front = .ok p := by
  obtain ⟨-, -, q, hq, hend⟩ := resolve_eq_ok_iff.1 h
  rcases splitLast_cases (pieces path) with
    ⟨hlast, -⟩ | ⟨front, name, idle, hpieces, hne, hidle, hlast⟩
  · rw [hlast] at hend
    cases hend
  · rw [hlast] at hend hq
    cases hend with
    | name hdot hup hsize =>
      have hstep : isStep n = true := isStep_iff.2 ⟨hne, hdot⟩
      have hnone : idle.filter isStep = [] := by
        refine List.filter_eq_nil_iff.2 fun x hx => ?_
        rw [hidle x hx]
        decide
      have hmem : n ∈ pieces path := by simp [hpieces]
      have hplain : IsPlain n := ⟨hstep, hup, slash_not_mem_of_mem_pieces hmem⟩
      refine ⟨hplain, hsize, front.filter isStep, ?_, ?_⟩
      · rw [steps_eq_of_pieces hpieces, List.filter_append, List.filter_cons_of_pos hstep, hnone]
      · rw [follow_filter]
        exact hq

/-- A path that leads to a directory has an end there. -/
theorem exists_resolve_of_walk {path : String} (hallowed : Allowed path) (hne : path ≠ "")
    {p : Place} (h : t.walk path = .ok p) : ∃ q target, t.resolve path = .ok (q, target) ∧
      ∀ n slash, target = .name n slash → t.get? (n :: q) = some .directory := by
  simp only [resolve_eq_ok_iff]
  rcases splitLast_cases (pieces path) with
    ⟨hlast, -⟩ | ⟨front, name, idle, hpieces, hne', -, hlast⟩
  · rw [hlast]
    exact ⟨t.start path, .dots, ⟨hallowed, hne, _, rfl, .none⟩, by simp⟩
  · rw [hlast]
    rw [walk, steps_eq_of_pieces hpieces, follow_filter, follow_append, bind_eq_ok_iff] at h
    obtain ⟨q, hfront, hback⟩ := h
    obtain ⟨r, hdescend, -⟩ := bind_eq_ok_iff.1 hback
    by_cases hdots : name = "." ∨ name = ".."
    · exact ⟨q, .dots, ⟨hallowed, hne, q, hfront, .dots hdots⟩, by simp⟩
    · obtain ⟨hdot, hup⟩ := not_or.1 hdots
      have hstep : isStep name = true := isStep_iff.2 ⟨hne', hdot⟩
      rw [descend_eq_ok_iff, hstep] at hdescend
      have hdown := (hdescend.resolve_left (by simp)).resolve_left (by simp [hup])
      obtain ⟨-, -, hsize, hnode, -⟩ := hdown
      refine ⟨q, .name name _, ⟨hallowed, hne, q, hfront, .name hdot hup hsize⟩, ?_⟩
      rintro n slash heq
      cases heq
      exact hnode

/-! Operations -/

theorem write_eq_ok_iff {path : String} {text : Option String} : t.write path text = .ok t' ↔
    ∃ p n, t.resolve path = .ok (p, .name n false) ∧ t.get? (n :: p) ≠ some .directory ∧
      t' = t.put (n :: p) (.file text) := by
  unfold write
  rw [bind_eq_ok_iff]
  constructor
  · rintro ⟨⟨p, target⟩, hr, h⟩
    split at h
    · exact absurd h throw_ne_ok
    · exact absurd h throw_ne_ok
    · rename_i heq
      cases heq
      split at h
      · exact absurd h throw_ne_ok
      · rename_i hnode
        exact ⟨_, _, hr, hnode, (pure_eq_ok_iff.1 h).symm⟩
  · rintro ⟨p, n, hr, hnode, rfl⟩
    refine ⟨_, hr, ?_⟩
    dsimp only
    split
    · contradiction
    · rfl

theorem rename_eq_ok_iff {path target : String} : t.rename path target = .ok t' ↔
    ∃ p n q m text, t.resolve path = .ok (p, .name n false) ∧
      t.resolve target = .ok (q, .name m false) ∧ t.get? (n :: p) = some (.file text) ∧
      t.get? (m :: q) ≠ some .directory ∧
      t' = (t.erase (n :: p)).put (m :: q) (.file text) := by
  unfold rename
  rw [bind_eq_ok_iff]
  constructor
  · rintro ⟨⟨p, first⟩, hfirst, h⟩
    obtain ⟨⟨q, second⟩, hsecond, hmove⟩ := bind_eq_ok_iff.1 h
    dsimp only at hmove
    split at hmove
    · rename_i n slash m slash'
      split at hmove
      · exact absurd hmove throw_ne_ok
      · exact absurd hmove throw_ne_ok
      · rename_i text hnode
        rw [check_eq_ok_iff, Bool.or_eq_true, not_or] at hmove
        obtain ⟨⟨hslash, hslash'⟩, hput⟩ := hmove
        obtain rfl := Bool.eq_false_iff.2 hslash
        obtain rfl := Bool.eq_false_iff.2 hslash'
        split at hput
        · exact absurd hput throw_ne_ok
        · rename_i hfree
          exact ⟨p, n, q, m, text, hfirst, hsecond, hnode, hfree, (pure_eq_ok_iff.1 hput).symm⟩
    · exact absurd hmove throw_ne_ok
  · rintro ⟨p, n, q, m, text, hfirst, hsecond, hnode, hfree, rfl⟩
    refine ⟨_, hfirst, bind_eq_ok_iff.2 ⟨_, hsecond, ?_⟩⟩
    dsimp only
    rw [hnode]
    dsimp only [Bool.or_false]
    rw [if_neg (by simp)]
    split
    · contradiction
    · rfl

theorem read_eq_ok_iff {path text : String} : t.read path = .ok text ↔
    ∃ p n, t.resolve path = .ok (p, .name n false) ∧
      t.get? (n :: p) = some (.file (some text)) := by
  unfold read
  rw [bind_eq_ok_iff]
  constructor
  · rintro ⟨⟨p, target⟩, hr, h⟩
    split at h
    · exact absurd h throw_ne_ok
    · rename_i q n slash heq
      cases heq
      split at h
      · exact absurd h throw_ne_ok
      · rename_i content hnode
        rw [check_eq_ok_iff] at h
        obtain ⟨hslash, h⟩ := h
        obtain rfl := Bool.eq_false_iff.2 hslash
        split at h
        · rename_i found
          obtain rfl := pure_eq_ok_iff.1 h
          exact ⟨p, n, hr, hnode⟩
        · exact absurd h throw_ne_ok
      · exact absurd h throw_ne_ok
  · rintro ⟨p, n, hr, hnode⟩
    refine ⟨_, hr, ?_⟩
    dsimp only
    rw [hnode]
    rfl

end Tree

end Bindery.Files
