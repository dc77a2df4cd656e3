import Bindery.Proofs.Source.Gaps
import Bindery.Proofs.Steps

/-!
# Pages of short lines

Where every break of a box ends its line at the margin, what is written does not depend on widths.
-/
namespace Bindery.Layout

/-- A document with the only text it can be written as: words in a row, or the end of a line. -/
inductive Flat : Doc → String → Prop where
  | text (s : String) : Flat (.text s) s
  | brk {b : Break} (hnever : b.never = false) (hoptional : b.optional = false)
    (hoffset : b.offset = 0) (hbefore : b.before = "") (hafter : b.after = "") : Flat (.brk b) "\n"
  | box (consistent : Bool) (indent : Int) (words : List String) :
    Flat (.box consistent indent (words.map .text)) (String.join words)

theorem flat_line : Flat line "\n" := .brk rfl rfl rfl rfl rfl

theorem flat_space : Flat space "\n" := .brk rfl rfl rfl rfl rfl

theorem flat_words (words : List String) : List.Forall₂ Flat (words.map .text) words := by
  induction words with
  | nil => exact .nil
  | cons w rest ih => exact .cons (.text w) ih

section Writing

variable {d : Doc} {ds : List Doc} {t : String} {ts : List String} {p : Page} {beyond : Nat}

/-- At the start of a line, nothing is owed. -/
structure Page.AtMargin (p : Page) : Prop where
  indent : p.indent = 0
  owed : p.owed = 0

theorem Page.text_put (h : p.owed = 0) (s : String) : (p.put s).text = p.text ++ s := by
  have hspaces : spaces 0 = "" := rfl
  simp [put, text, h, hspaces]

theorem writeAll_words (frame : Frame) (beyond : Nat) (words : List String) (h : p.owed = 0) :
    (writeAll frame beyond (words.map .text) p).text = p.text ++ String.join words ∧
      (writeAll frame beyond (words.map .text) p).owed = 0 ∧
      (writeAll frame beyond (words.map .text) p).indent = p.indent := by
  induction words generalizing p with
  | nil => simp [writeAll, h]
  | cons w rest ih =>
    rw [List.map_cons, writeAll, Doc.write]
    obtain ⟨htext, howed, hindent⟩ := ih (p := p.put w) rfl
    refine ⟨?_, howed, hindent⟩
    rw [htext, Page.text_put h, String.append_assoc]
    simp

theorem write_flat (hd : Flat d t) (h : p.AtMargin) (beyond : Nat) :
    (d.write (.broken true) beyond p).text = p.text ++ t ∧
      (d.write (.broken true) beyond p).AtMargin := by
  cases hd with
  | text s => exact ⟨Page.text_put h.owed _, h.indent, rfl⟩
  | @brk b hnever hoptional hoffset hbefore hafter =>
    have hwrite : (Doc.brk b).write (.broken true) beyond p = p.newLine b := by
      simp [Doc.write, hnever]
    rw [hwrite]
    constructor
    · simp [Page.newLine, hbefore, hafter, Page.text]
    · constructor <;> simp [Page.newLine, hbefore, hafter, hoffset, h.indent]
  | box consistent indent words =>
    rw [Doc.write]
    split
    · obtain ⟨htext, howed, -⟩ := writeAll_words
        (p := { p with indent := p.indent + indent }) (.broken consistent) beyond words h.owed
      exact ⟨htext, h.indent, howed⟩
    · obtain ⟨htext, howed, hindent⟩ := writeAll_words .fits beyond words h.owed
      exact ⟨htext, hindent.trans h.indent, howed⟩

theorem writeAll_flat (hds : List.Forall₂ Flat ds ts) (h : p.AtMargin) (beyond : Nat) :
    (writeAll (.broken true) beyond ds p).text = p.text ++ String.join ts := by
  induction hds generalizing p with
  | nil => simp [writeAll]
  | @cons d t ds ts hd _ ih =>
    obtain ⟨htext, hmargin⟩ := write_flat hd h (widthToBreak beyond ds)
    rw [writeAll, ih hmargin, htext, String.append_assoc]
    simp

/-! Settling -/

theorem settleAll_words (words : List String) :
    settleAll (words.map .text) = words.map .text := by
  induction words with
  | nil => rfl
  | cons w rest ih => simp [settleAll, Doc.settle, ih]

theorem dropOptional_of_not_brk (h : ∀ b, .brk b ∈ ds → b.optional = false) :
    dropOptional ds = ds := by
  fun_induction dropOptional ds with
  | case1 => rfl
  | case2 b hb => simp [h b (by simp)] at hb
  | case3 b hb => rfl
  | case4 d rest _ ih => rw [ih fun b hb => h b (List.mem_cons_of_mem _ hb)]

theorem settle_flat (hd : Flat d t) : d.settle = [d] := by
  cases hd with
  | text s => rfl
  | brk => rfl
  | box consistent indent words =>
    rw [Doc.settle, settleAll_words]
    split
    · rename_i heq
      cases words <;> cases heq
    · rw [dropOptional_of_not_brk]
      intro b hb
      simp at hb

theorem settleAll_flat (hds : List.Forall₂ Flat ds ts) : settleAll ds = ds := by
  induction hds with
  | nil => rfl
  | cons hd _ ih => rw [settleAll, settle_flat hd, ih, List.singleton_append]

theorem dropOptional_flat (hds : List.Forall₂ Flat ds ts) : dropOptional ds = ds := by
  refine dropOptional_of_not_brk fun b hb => ?_
  obtain ⟨t, -, hflat⟩ := exists_of_forall₂_right hds.flip hb
  cases hflat
  assumption

theorem gapAmong_flat (hds : List.Forall₂ Flat ds ts) : gapAmong ds = false := by
  have hwords : ∀ words : List String, gapAmong (words.map .text) = false := by
    intro words
    induction words with
    | nil => rfl
    | cons w rest ih => simp [gapAmong, Doc.hasGap, ih]
  induction hds with
  | nil => rfl
  | cons hd _ ih =>
    rw [gapAmong, ih]
    cases hd with
    | text s => rfl
    | brk => rfl
    | box consistent indent words => simp [Doc.hasGap, hwords]

theorem unlimited_le_widthAll (h : line ∈ ds) : unlimited ≤ widthAll ds := by
  induction ds with
  | nil => cases h
  | cons d rest ih =>
    rw [widthAll]
    rcases List.mem_cons.1 h with rfl | h
    · exact Nat.le_add_right _ _
    · exact (ih h).trans (Nat.le_add_left _ _)

/-- Several lines are written one below the other. -/
theorem render?_flat (hds : List.Forall₂ Flat ds ts) (hline : line ∈ ds) (hmore : 1 < ds.length) :
    render? [cbox 0 ds] = some (String.join ts) := by
  have hgap : gapAmong [cbox 0 ds] = false := by
    simp [cbox, gapAmong, Doc.hasGap, gapAmong_flat hds]
  have hsettle : settleAll [cbox 0 ds] = [cbox 0 ds] := by
    rw [settleAll, cbox, Doc.settle, settleAll_flat hds]
    split
    · simp at hmore
    · rw [dropOptional_flat hds]
      rfl
  have hwide := unlimited_le_widthAll hline
  have hbroken : ((widthAll ds + widthToBreak 0 [] : Nat) : Int) > ({} : Page).room := by
    have hroom : ({} : Page).room = 89 := rfl
    rw [hroom, widthToBreak]
    rw [unlimited] at hwide
    omega
  rw [render?, hgap, if_neg Bool.false_ne_true, hsettle, cbox, writeAll, writeAll, Doc.write,
    if_pos hbroken]
  have htext := writeAll_flat (p := { ({} : Page) with indent := ({} : Page).indent + 0 }) hds
    ⟨rfl, rfl⟩ (widthToBreak 0 [])
  exact congrArg some (htext.trans (by simp [Page.text]))

end Writing

end Bindery.Layout
