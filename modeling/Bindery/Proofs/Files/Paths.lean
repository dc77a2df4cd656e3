import Bindery.Files.Path
import Bindery.Proofs.Splitting

/-!
# Where paths lead

Only the steps of a path and whether it starts at the root decide where it leads. A name that is
joined to a path is the last step of the result, and the path beside it that holds a file on its way
leads to the same directory.
-/
namespace Bindery

namespace Files

/-! Texts between slashes -/

theorem startsWith_slash_iff {path : String} :
    path.startsWith "/" = true ↔ ∃ rest, path.toList = '/' :: rest := by
  rw [String.startsWith_string_iff]
  exact ⟨fun ⟨rest, h⟩ => ⟨rest, h.symm⟩, fun ⟨rest, h⟩ => ⟨rest, h.symm⟩⟩

theorem exists_of_endsWith_slash {path : String} (h : path.endsWith "/" = true) :
    ∃ front, path = front ++ "/" := by
  have hsuffix : "/".toList <:+ path.toSlice.copy.toList := String.Slice.endsWith_string_iff.1 h
  obtain ⟨front, hfront⟩ := hsuffix
  refine ⟨String.ofList front, String.toList_injective ?_⟩
  simpa using hfront.symm

theorem pieces_ne_nil (path : String) : pieces path ≠ [] := by
  simpa [pieces] using Text.splitBy_ne_nil path.toList

theorem slash_not_mem_of_mem_pieces {path piece : String} (h : piece ∈ pieces path) :
    '/' ∉ piece.toList := by
  obtain ⟨w, hw, rfl⟩ := List.mem_map.1 h
  simpa using Text.not_mem_of_mem_splitBy hw

theorem pieces_of_not_mem {name : String} (h : '/' ∉ name.toList) : pieces name = [name] := by
  rw [pieces, Text.splitBy_of_all]
  · simp
  · intro d hd
    exact beq_eq_false_iff_ne.2 fun e => h (e ▸ hd)

theorem pieces_append_slash (a b : String) : pieces (a ++ "/" ++ b) = pieces a ++ pieces b := by
  have hlist : (a ++ "/" ++ b).toList = a.toList ++ '/' :: b.toList := by simp
  rw [pieces, hlist, Text.splitBy_append (by simp), List.map_append]
  rfl

theorem pieces_intercalate {ps : List String} (hne : ps ≠ []) (h : ∀ p ∈ ps, '/' ∉ p.toList) :
    pieces ("/".intercalate ps) = ps := by
  have hlist : ("/".intercalate ps).toList = ['/'].intercalate (ps.map String.toList) := by
    simp [String.toList_intercalate]
  rw [pieces, hlist, Text.splitBy_intercalate (by simpa using hne)]
  · simp [Function.comp_def]
  · simpa using h

theorem intercalate_pieces (path : String) : "/".intercalate (pieces path) = path := by
  apply String.toList_injective
  rw [String.toList_intercalate, pieces, List.map_map]
  simpa [Function.comp_def] using Text.intercalate_splitBy '/' path.toList

/-- A path starts at the root if nothing stands before its first slash. -/
theorem startsWith_iff_pieces {path : String} :
    path.startsWith "/" = true ↔ ∃ rest, rest ≠ [] ∧ pieces path = "" :: rest := by
  rw [startsWith_slash_iff]
  constructor
  · rintro ⟨rest, h⟩
    obtain rfl : path = "" ++ "/" ++ String.ofList rest :=
      String.toList_injective (by simpa using h)
    exact ⟨_, pieces_ne_nil _, pieces_append_slash _ _⟩
  · rintro ⟨rest, hne, h⟩
    have hpath := congrArg String.toList (intercalate_pieces path)
    rw [h, String.toList_intercalate, List.map_cons,
      List.intercalate_cons_of_ne_nil (by simpa using hne)] at hpath
    exact ⟨_, hpath.symm⟩

/-! Steps -/

theorem isStep_iff {piece : String} : isStep piece = true ↔ piece ≠ "" ∧ piece ≠ "." := by
  simp [isStep]

theorem dropIdle_eq (ps : List String) : dropIdle ps = ps.rdropWhile (!isStep ·) := rfl

theorem isPrefix_dropIdle (ps : List String) : dropIdle ps <+: ps := List.rdropWhile_prefix _ ps

theorem filter_dropIdle (ps : List String) : (dropIdle ps).filter isStep = ps.filter isStep := by
  have hnone : (ps.rtakeWhile (!isStep ·)).filter isStep = [] := by
    refine List.filter_eq_nil_iff.2 fun p hp => ?_
    simpa using List.mem_rtakeWhile_imp hp
  conv_rhs => rw [← List.rdropWhile_append_rtakeWhile (p := (!isStep ·)) (l := ps)]
  rw [List.filter_append, hnone, List.append_nil, dropIdle_eq]

theorem dropIdle_concat {name : String} (h : isStep name = true) (ps : List String) :
    dropIdle (ps ++ [name]) = ps ++ [name] :=
  List.rdropWhile_concat_neg _ _ _ (by simp [h])

/-- What is left ends in a step. -/
theorem exists_dropIdle_eq {ps : List String} (h : dropIdle ps ≠ []) :
    ∃ front name, dropIdle ps = front ++ [name] ∧ isStep name = true := by
  rw [dropIdle_eq] at h ⊢
  have hlast := List.rdropWhile_last_not (!isStep ·) ps h
  exact ⟨_, _, (List.dropLast_concat_getLast h).symm, by simpa using hlast⟩

/-- A name that can be joined to a path: one step, which does not lead up. -/
structure IsPlain (name : String) : Prop where
  step : isStep name = true
  down : name ≠ ".."
  whole : '/' ∉ name.toList

namespace IsPlain

variable {name : String} (h : IsPlain name)
include h

theorem ne_empty : name ≠ "" := (isStep_iff.1 h.step).1

theorem ne_dot : name ≠ "." := (isStep_iff.1 h.step).2

theorem pieces_eq : pieces name = [name] := pieces_of_not_mem h.whole

theorem startsWith_eq : name.startsWith "/" = false := by
  rw [Bool.eq_false_iff]
  intro hslash
  obtain ⟨rest, hrest⟩ := startsWith_slash_iff.1 hslash
  exact h.whole (by simp [hrest])

end IsPlain

/-- Two paths lead to the same directory of every tree. -/
structure SameWay (a b : String) : Prop where
  steps : steps a = steps b
  start : a.startsWith "/" = b.startsWith "/"

theorem steps_eq_of_pieces {path : String} {ps : List String} (h : pieces path = ps) :
    steps path = ps.filter isStep := by rw [steps, h]

/-! Names joined to paths -/

section Join

variable {name : String} (hname : IsPlain name) (dir : String)
include hname

/-- A joined name stands behind a path that leads to the same directory. -/
theorem exists_pieces_join : ∃ front, pieces (join dir name) = front ++ [name] ∧
    front.filter isStep = steps dir ∧ (join dir name).startsWith "/" = dir.startsWith "/" := by
  rw [join, hname.startsWith_eq, Bool.false_or]
  by_cases hempty : dir = ""
  · subst hempty
    refine ⟨[], ?_, by decide, ?_⟩
    · simpa using hname.pieces_eq
    · rw [if_pos (by simp), hname.startsWith_eq]
      decide +kernel
  · have hstart : ∀ back : String, (dir ++ back).startsWith "/" = dir.startsWith "/" := by
      intro back
      rw [Bool.eq_iff_iff, startsWith_slash_iff, startsWith_slash_iff, String.toList_append]
      obtain ⟨c, rest, hdir⟩ := List.exists_cons_of_ne_nil (l := dir.toList) (by simpa using hempty)
      simp [hdir]
    rw [if_neg (by simpa using hempty)]
    split
    · rename_i hend
      obtain ⟨front, rfl⟩ := exists_of_endsWith_slash hend
      refine ⟨pieces front, ?_, ?_, hstart name⟩
      · rw [pieces_append_slash, hname.pieces_eq]
      · have hdir := pieces_append_slash front ""
        rw [String.append_empty] at hdir
        rw [steps_eq_of_pieces hdir, List.filter_append]
        simp [pieces_of_not_mem, isStep]
    · refine ⟨pieces dir, ?_, rfl, ?_⟩
      · rw [pieces_append_slash, hname.pieces_eq]
      · rw [String.append_assoc]
        exact hstart _

/-- The text of a path is part of the text of what is joined to it. -/
theorem exists_join_eq : ∃ back, join dir name = dir ++ back := by
  rw [join, hname.startsWith_eq, Bool.false_or]
  split
  · rename_i hempty
    rw [beq_iff_eq] at hempty
    exact ⟨name, by rw [hempty, String.empty_append]⟩
  · split
    · exact ⟨name, rfl⟩
    · exact ⟨"/" ++ name, String.append_assoc⟩

end Join

/-! Parents -/

theorem body_concat {path name : String} {front : List String} (h : pieces path = front ++ [name])
    (hname : IsPlain name) : body path = front.drop (fixedPart path).length ++ [name] := by
  have hlength : (fixedPart path).length ≤ front.length := by
    cases front with
    | nil => simp [fixedPart, h, hname.ne_dot]
    | cons p rest => rw [fixedPart]; split <;> simp
  rw [body, h, List.drop_append_of_le_length hlength, dropIdle_concat hname.step]

theorem fileName?_eq {path name : String} {front : List String} (h : pieces path = front ++ [name])
    (hname : IsPlain name) : fileName? path = some name := by
  rw [fileName?, body_concat h hname, List.getLast?_concat]
  split
  · rename_i heq
    exact absurd (Option.some.inj heq) hname.down
  · rfl

/-- What cannot be dropped is no step. It says whether the path starts at the root. -/
theorem fixedPart_spec (path : String) : fixedPart path <+: pieces path ∧
    (∀ p ∈ fixedPart path, isStep p = false) ∧
    path.startsWith "/" = (fixedPart path == [""]) := by
  have hstart := @startsWith_iff_pieces path
  unfold fixedPart
  split
  · rename_i next rest h
    rw [h] at hstart
    refine ⟨⟨next :: rest, h.symm⟩, by simp [isStep], ?_⟩
    rw [hstart.2 ⟨next :: rest, by simp, rfl⟩]
    rfl
  · rename_i rest h
    rw [h] at hstart
    have hnot : path.startsWith "/" = false := by
      rw [Bool.eq_false_iff]
      exact fun hslash => by simpa using hstart.1 hslash
    exact ⟨⟨rest, h.symm⟩, by simp [isStep], hnot⟩
  · rename_i hroot hdot
    have hnot : path.startsWith "/" = false := by
      rw [Bool.eq_false_iff]
      intro hslash
      obtain ⟨rest, hne, h⟩ := hstart.1 hslash
      obtain ⟨next, more, rfl⟩ := List.exists_cons_of_ne_nil hne
      exact hroot next more h
    exact ⟨List.prefix_iff_eq_take.2 rfl, by simp, hnot⟩

theorem steps_eq_filter_body (path : String) : steps path = (body path).filter isStep := by
  obtain ⟨⟨rest, hpieces⟩, hidle, -⟩ := fixedPart_spec path
  have hnone : (fixedPart path).filter isStep = [] :=
    List.filter_eq_nil_iff.2 fun p hp => by simp [hidle p hp]
  rw [body, filter_dropIdle, steps, ← hpieces, List.drop_left, List.filter_append, hnone,
    List.nil_append]

theorem mem_pieces_of_mem_body {path piece : String} (h : piece ∈ body path) :
    piece ∈ pieces path :=
  List.mem_of_mem_drop ((isPrefix_dropIdle _).mem h)

theorem fixedPart_cases (path : String) :
    fixedPart path = [""] ∨ fixedPart path = ["."] ∨ fixedPart path = [] := by
  unfold fixedPart
  split <;> simp

theorem startsWith_eq_false {path : String} (h : (pieces path).head? ≠ some "") :
    path.startsWith "/" = false := by
  rw [Bool.eq_false_iff]
  intro hslash
  obtain ⟨rest, -, hpieces⟩ := startsWith_iff_pieces.1 hslash
  exact h (by rw [hpieces]; rfl)

/-- A path that is put together again leads along its pieces. -/
theorem ofPieces_spec {path : String} {ps : List String} (hps : ∀ p ∈ ps, '/' ∉ p.toList)
    (hhead : fixedPart path = [] → ps.head? ≠ some "") :
    steps (ofPieces (fixedPart path) ps) = ps.filter isStep ∧
      (ofPieces (fixedPart path) ps).startsWith "/" = path.startsWith "/" := by
  rw [(fixedPart_spec path).2.2]
  by_cases hnil : ps = []
  · subst hnil
    rcases fixedPart_cases path with h | h | h <;> rw [h] <;> decide +kernel
  · rcases fixedPart_cases path with h | h | h <;> rw [h, ofPieces]
    · have hpieces : pieces ("/".intercalate ("" :: ps)) = "" :: ps :=
        pieces_intercalate (by simp) (by simpa using hps)
      rw [if_neg (by simpa using hnil), List.singleton_append, steps_eq_of_pieces hpieces,
        startsWith_iff_pieces.2 ⟨ps, hnil, hpieces⟩]
      exact ⟨rfl, rfl⟩
    · have hpieces : pieces ("/".intercalate ("." :: ps)) = "." :: ps :=
        pieces_intercalate (by simp) (by simpa using hps)
      rw [if_neg (by simp), List.singleton_append, steps_eq_of_pieces hpieces,
        startsWith_eq_false (by simp [hpieces])]
      exact ⟨rfl, rfl⟩
    · have hpieces : pieces ("/".intercalate ps) = ps := pieces_intercalate hnil hps
      rw [if_neg (by simp), List.nil_append, steps_eq_of_pieces hpieces,
        startsWith_eq_false (by rw [hpieces]; exact hhead h)]
      exact ⟨rfl, rfl⟩

/-- The parent of a path is the path without its last step. -/
theorem parent?_eq_some {path above : String} (h : parent? path = some above) :
    steps above = (steps path).dropLast ∧ above.startsWith "/" = path.startsWith "/" := by
  unfold parent? at h
  split at h
  · rename_i hbody
    split at h
    · rename_i hfixed
      obtain rfl := Option.some.inj h
      rw [steps_eq_filter_body path, hbody, (fixedPart_spec path).2.2, hfixed]
      decide +kernel
    · cases h
  · rename_i hbody
    obtain rfl := Option.some.inj h
    obtain ⟨front, name, hfront, hname⟩ := exists_dropIdle_eq hbody
    rw [← body] at hfront
    have hmem : ∀ p ∈ dropIdle front, p ∈ pieces path := fun p hp =>
      mem_pieces_of_mem_body (by simp [hfront, (isPrefix_dropIdle front).mem hp])
    have hhead : fixedPart path = [] → (dropIdle front).head? ≠ some "" := by
      intro hfixed hslash
      obtain ⟨more, hmore⟩ := isPrefix_dropIdle front
      obtain ⟨idle, hidle⟩ := isPrefix_dropIdle (pieces path)
      obtain ⟨rest, hrest⟩ := List.head?_eq_some_iff.1 hslash
      have hbodyEq : body path = dropIdle (pieces path) := by rw [body, hfixed]; rfl
      have hpieces : pieces path = "" :: (rest ++ more ++ [name] ++ idle) := by
        rw [← hidle, ← hbodyEq, hfront, ← hmore, hrest]
        simp
      have hroot := startsWith_iff_pieces.2 ⟨_, by simp, hpieces⟩
      rw [(fixedPart_spec path).2.2, hfixed] at hroot
      exact absurd hroot (by decide)
    rw [hfront, List.dropLast_concat, steps_eq_filter_body path, hfront, List.filter_append,
      List.filter_singleton, hname, cond_true, List.dropLast_concat, ← filter_dropIdle front]
    exact ofPieces_spec (fun p hp => slash_not_mem_of_mem_pieces (hmem p hp)) hhead

theorem exists_parent? {path : String} (h : body path ≠ []) :
    ∃ above, parent? path = some above := by
  unfold parent?
  split
  · contradiction
  · exact ⟨_, rfl⟩

/-- A path that goes up by one step and down by another leads to the directory it did. -/
theorem exists_withFileName_join {name : String} (hname : IsPlain name) (dir other : String) :
    ∃ above, withFileName (join dir name) other = join above other ∧ SameWay above dir := by
  obtain ⟨front, hpieces, hsteps, hstart⟩ := exists_pieces_join hname dir
  have hbody : body (join dir name) ≠ [] := by
    rw [body_concat hpieces hname]
    simp
  obtain ⟨above, habove⟩ := exists_parent? hbody
  obtain ⟨hparent, hroot⟩ := parent?_eq_some habove
  refine ⟨above, ?_, ?_, hroot.trans hstart⟩
  · rw [withFileName, fileName?_eq hpieces hname, habove]
    rfl
  · rw [hparent, steps_eq_of_pieces hpieces, List.filter_append, hsteps, List.filter_singleton,
      hname.step, cond_true, List.dropLast_concat]

end Files

end Bindery
