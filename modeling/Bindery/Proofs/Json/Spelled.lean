import Bindery.Proofs.Json.Lexemes

/-!
# Reading what is spelled

A text that spells a document, with whatever blanks, is read as that document. If some lexeme of it
stands for nothing, the text cannot be read.
-/
namespace Bindery.Json

open Bindery.Text (Piece)

variable {α : Type} {text mid rest : List Piece} {ls : List (List Char)} {s : List Char}

/-! Blanks -/

theorem past_blank {blanks : List Char} (h : Blank blanks) (text : List Piece) :
    past (chars blanks ++ text) = past text := by
  refine List.dropWhile_append_of_pos fun p hp => ?_
  obtain ⟨c, hc, rfl⟩ := List.mem_map.1 hp
  simpa [isSpace, or_assoc] using h c hc

theorem Spaced.past_eq {c : Char} {l : List Char} (hc : isSpace (.char c) = false)
    (h : Spaced ((c :: l) :: ls) s) :
    ∃ more, past (chars s) = .char c :: chars (l ++ more) ∧ Spaced ls more ∧
      more.length < s.length := by
  obtain ⟨blanks, more, rfl, hblanks, hmore⟩ := h
  refine ⟨more, ?_, hmore, ?_⟩
  · rw [chars_append, past_blank hblanks, List.cons_append, chars_cons, past_char hc]
  · simp only [List.length_append, List.length_cons]
    omega

/-- A bracket, a comma or a colon. -/
theorem Spaced.past_mark {c : Char} (hc : isSpace (.char c) = false) (h : Spaced ([c] :: ls) s) :
    ∃ more, past (chars s) = .char c :: chars more ∧ Spaced ls more ∧ more.length < s.length :=
  h.past_eq hc

/-- Lexemes that stand behind a value. -/
def Follows (ls : List (List Char)) : Prop :=
  ls = [] ∨ ∃ c ls', ls = [c] :: ls' ∧ c ∈ [',', ']', '\x7d']

theorem Spaced.endsNumber (hls : Follows ls) (h : Spaced ls s) : EndsNumber (chars s) := by
  have hblank : ∀ {blanks : List Char} {more : List Piece}, Blank blanks → EndsNumber more →
      EndsNumber (chars blanks ++ more) := by
    intro blanks more hblanks hmore
    cases blanks with
    | nil => exact hmore
    | cons c cs =>
      refine endsNumber_cons ?_ _
      have hc := hblanks c List.mem_cons_self
      simp only [List.mem_cons, List.not_mem_nil, or_false] at hc
      rcases hc with rfl | rfl | rfl | rfl <;> decide
  rcases hls with rfl | ⟨c, ls', rfl, hc⟩
  · have hs : Blank s := h
    simpa using hblank hs endsNumber_nil
  · obtain ⟨blanks, more, rfl, hblanks, -⟩ := h
    rw [chars_append]
    refine hblank hblanks (endsNumber_cons ?_ _)
    simp only [List.mem_cons, List.not_mem_nil, or_false] at hc
    rcases hc with rfl | rfl | rfl <;> decide

theorem follows_items (ws : List Written) (ls : List (List Char)) :
    Follows (Written.itemLexemes ws ++ ls) := by
  cases ws with
  | nil => exact .inr ⟨']', ls, rfl, by decide⟩
  | cons w ws => exact .inr ⟨',', _, rfl, by decide⟩

theorem follows_members (ms : List (List StringPart × Written)) (ls : List (List Char)) :
    Follows (Written.memberLexemes ms ++ ls) := by
  cases ms with
  | nil => exact .inr ⟨'\x7d', ls, rfl, by decide⟩
  | cons m ms => exact .inr ⟨',', _, rfl, by decide⟩

/-! Lists and objects -/

theorem gives_past {f : Option Char → Reader α} {out : Option α}
    (h : Gives (f (front (past text))) (past text) out rest) :
    Gives (peekPastSpace >>= f) text out rest :=
  fun x rest' => reads_past_bind.trans (h x rest')

theorem gives_itemsFrom_cons {item : Reader α} {n : Nat} {first : Bool} {start : List Piece}
    {out : Option α} {outs : Option (List α)} (hnext : Next first text start)
    (hnone : front start ≠ none) (hend : front start ≠ some ']') (hitem : Gives item start out mid)
    (hmore : Gives (itemsFrom item n false) mid outs rest) :
    Gives (itemsFrom item (n + 1) first) text (out.bind fun x => outs.map (x :: ·)) rest := by
  rw [itemsFrom]
  have hanother : Reads (anotherItem first) text true start :=
    reads_anotherItem.2 ⟨hnext, hnone, hend⟩
  exact hanother.gives_bind (hitem.bind fun x _ => hmore.map)

theorem gives_nextKey {first : Bool} {start : List Piece} {parts : List StringPart}
    (hnext : Next first text start) (hstart : start = .char '"' :: inside parts rest) :
    Gives (nextKey first) text ((nameOf? parts).map some) rest := by
  subst hstart
  have hbody := gives_stringBody parts rest
  intro key rest'
  rw [reads_nextKey]
  cases key with
  | none =>
    have hopen := hnext.ne_close (show '\x7d' ≠ ',' by decide) (by simp [front, Piece.shown])
    simp [hopen]
  | some key =>
    simp only [Option.map_eq_some_iff, Option.some.injEq, exists_eq_right]
    rw [← hbody key rest']
    constructor
    · rintro ⟨start, hstart, -, hread⟩
      rw [hstart.unique hnext] at hread
      exact hread
    · exact fun hread => ⟨_, hnext, rfl, hread⟩

theorem gives_membersFrom_cons {item : Reader α} {n : Nat} {first : Bool} {start : List Piece}
    {parts : List StringPart} {more mid' : List Piece} {out : Option α}
    {outs : Option (List (String × α))} (hnext : Next first text start)
    (hstart : start = .char '"' :: inside parts more) (hcolon : Reads colon more () mid)
    (hitem : Gives item mid out mid') (hmore : Gives (membersFrom item n false) mid' outs rest) :
    Gives (membersFrom item (n + 1) first) text
      ((nameOf? parts).bind fun key => out.bind fun x => outs.map ((key, x) :: ·)) rest := by
  have hkey := gives_nextKey hnext hstart
  rw [membersFrom]
  have hout : ((nameOf? parts).map some).bind (fun key => key.bind fun key =>
      out.bind fun x => outs.map ((key, x) :: ·)) =
      (nameOf? parts).bind fun key => out.bind fun x => outs.map ((key, x) :: ·) := by
    rw [Option.bind_map]
    rfl
  rw [← hout]
  refine hkey.bind fun key hkey => ?_
  obtain ⟨k, -, rfl⟩ := Option.map_eq_some_iff.1 hkey
  exact hcolon.gives_bind (hitem.bind fun x _ => hmore.map)

/-! Values -/

/-- A text that spells a document is read as the document wherever it stands. -/
def ReadAs (d : Nat) (w : Written) : Prop :=
  ∀ ls s, Follows ls → Spaced (w.lexemes ++ ls) s →
    ∃ rest, Spaced ls rest ∧ Gives (value d) (chars s) w.document? (chars rest)

theorem gives_value {d : Nat} {out : Option Json} :
    Gives (value d) (past text) out rest ↔ Gives (value d) text out rest := by
  simp only [Gives, reads_value_past]

theorem gives_value_scalar {d : Nat} {c : Char} {out : Option Json}
    (hspace : isSpace (.char c) = false) (hc : c ∉ ['[', '\x7b', ']'])
    (h : Gives (scalar c) (.char c :: text) out rest) :
    Gives (value d) (.char c :: text) out rest := by
  simp only [List.mem_cons, List.not_mem_nil, or_false, not_or] at hc
  intro j rest'
  rw [← h j rest', value_eq, reads_valueWith, past_char hspace]
  simp [front, Piece.shown, hc.1, hc.2.1]

/-- How a document begins that is written. -/
theorem lexemes_eq_cons (w : Written) : ∃ c l ls, w.lexemes = (c :: l) :: ls ∧
    isSpace (.char c) = false ∧ c ≠ ']' := by
  cases w with
  | token t =>
    obtain ⟨c, cs, ht, hspace, hc, -⟩ := gives_scalar t endsNumber_nil
    refine ⟨c, cs, [], by rw [Written.lexemes, ht], hspace, ?_⟩
    rintro rfl
    exact hc (by decide)
  | array ws => cases ws <;> exact ⟨'[', [], _, rfl, rfl, by decide⟩
  | object ms => cases ms <;> exact ⟨'\x7b', [], _, rfl, rfl, by decide⟩

theorem readAs_token (d : Nat) (t : Token) : ReadAs d (.token t) := by
  intro ls s hls h
  obtain ⟨blanks, rest, rfl, hblanks, hrest⟩ := h
  obtain ⟨c, cs, ht, hspace, hc, hgives⟩ := gives_scalar t (hrest.endsNumber hls)
  refine ⟨rest, hrest, gives_value.1 ?_⟩
  rw [ht] at hgives
  rw [chars_append, past_blank hblanks, chars_append, ht]
  change Gives _ (past (.char c :: (chars cs ++ chars rest))) _ _
  rw [past_char hspace]
  exact gives_value_scalar hspace hc hgives

theorem itemLexemes_cons (w : Written) (ws : List Written) (ls : List (List Char)) :
    Written.itemLexemes (w :: ws) ++ ls =
      [','] :: (w.lexemes ++ (Written.itemLexemes ws ++ ls)) := by
  rw [Written.itemLexemes, List.cons_append, List.append_assoc]

theorem lexemes_array_cons (w : Written) (ws : List Written) (ls : List (List Char)) :
    (Written.array (w :: ws)).lexemes ++ ls =
      ['['] :: (w.lexemes ++ (Written.itemLexemes ws ++ ls)) := by
  rw [Written.lexemes, List.cons_append, List.append_assoc]

/-- The items of a list are read to its closing bracket, behind which the rest stands. -/
def ItemsRead (d n : Nat) (first : Bool) (text : List Piece) (ws : List Written)
    (ls : List (List Char)) : Prop :=
  ∃ mid rest, Spaced ls rest ∧ past mid = .char ']' :: chars rest ∧
    Gives (itemsFrom (value d) n first) text (Written.documents? ws) mid

theorem itemsRead_cons {d n : Nat} {first : Bool} {w : Written} {ws : List Written}
    (hw : ReadAs d w) (h : Spaced (w.lexemes ++ (Written.itemLexemes ws ++ ls)) s)
    (hnext : Next first text (past (chars s)))
    (hmore : ∀ s, Spaced (Written.itemLexemes ws ++ ls) s →
      ItemsRead d n false (chars s) ws ls) : ItemsRead d (n + 1) first text (w :: ws) ls := by
  obtain ⟨more, hspaced, hitem⟩ := hw _ s (follows_items ws ls) h
  obtain ⟨mid, rest, hrest, hmid, hitems⟩ := hmore more hspaced
  obtain ⟨c, l, ls', hlexemes, hspace, hend⟩ := lexemes_eq_cons w
  rw [hlexemes] at h
  obtain ⟨_, hpast, -⟩ := h.past_eq hspace
  refine ⟨mid, rest, hrest, hmid, ?_⟩
  refine gives_itemsFrom_cons hnext ?_ ?_ (gives_value.2 hitem) hitems
  · simp [hpast, front]
  · simpa [hpast, front, Piece.shown] using hend

theorem itemsRead {d n : Nat} {ws : List Written} (hws : ∀ w ∈ ws, ReadAs d w)
    (hn : ws.length < n) (h : Spaced (Written.itemLexemes ws ++ ls) s) :
    ItemsRead d n false (chars s) ws ls := by
  obtain ⟨n, rfl⟩ := Nat.exists_eq_add_one_of_ne_zero (Nat.ne_zero_of_lt hn)
  induction ws generalizing n s with
  | nil =>
    obtain ⟨rest, hpast, hrest, -⟩ := h.past_mark (by decide)
    refine ⟨past (chars s), rest, hrest, by rw [past_past, hpast], ?_⟩
    exact (reads_itemsFrom_succ.2 (.inl ⟨rfl, by rw [hpast]; rfl, rfl⟩)).gives
  | cons w ws ih =>
    obtain ⟨n, rfl⟩ := Nat.exists_eq_add_one_of_ne_zero (show n ≠ 0 by simp at hn; omega)
    rw [itemLexemes_cons] at h
    obtain ⟨more, hpast, hmore, -⟩ := h.past_mark (by decide)
    refine itemsRead_cons (hws w List.mem_cons_self) hmore ⟨by rw [hpast]; rfl, ?_⟩ ?_
    · rw [hpast]
      rfl
    · exact fun s hs => ih (fun w hw => hws w (List.mem_cons_of_mem _ hw)) hs n (by simpa using hn)

theorem Spaced.exists_rest (ls : List (List Char)) (h : Spaced (ls ++ ls') s) :
    ∃ rest, Spaced ls' rest ∧ rest.length ≤ s.length := by
  induction ls generalizing s with
  | nil => exact ⟨s, h, le_rfl⟩
  | cons l ls ih =>
    obtain ⟨blanks, more, rfl, -, hmore⟩ := h
    obtain ⟨rest, hrest, hlen⟩ := ih hmore
    refine ⟨rest, hrest, ?_⟩
    simp only [List.length_append]
    omega

theorem length_lt_items {ws : List Written} (h : Spaced (Written.itemLexemes ws ++ ls) s) :
    ws.length < s.length := by
  induction ws generalizing s with
  | nil =>
    obtain ⟨more, -, -, hlen⟩ := h.past_mark (by decide)
    exact Nat.zero_lt_of_lt hlen
  | cons w ws ih =>
    rw [itemLexemes_cons] at h
    obtain ⟨more, -, hmore, hlen⟩ := h.past_mark (by decide)
    obtain ⟨rest, hrest, hle⟩ := Spaced.exists_rest w.lexemes hmore
    have hlt := ih hrest
    rw [List.length_cons]
    omega

theorem gives_value_array {d : Nat} {ws : List Written} {more : List Char}
    (hpast : past text = .char '[' :: chars more)
    (h : ItemsRead d (more.length + 1) true (chars more) ws ls) :
    ∃ rest, Spaced ls rest ∧
      Gives (value (d + 1)) text (Written.document? (.array ws)) (chars rest) := by
  obtain ⟨mid, rest, hrest, hmid, hitems⟩ := h
  have hclose : Reads closeList mid () (chars rest) :=
    reads_closeList.2 ⟨by rw [hmid]; rfl, by rw [hmid]; rfl⟩
  refine ⟨rest, hrest, ?_⟩
  rw [value_eq, Written.document?, Option.map_eq_bind]
  unfold valueWith
  refine gives_past ?_
  rw [hpast]
  refine gives_skip (Gives.bind ?_ fun xs _ => hclose.gives_bind gives_pure)
  intro xs rest'
  rw [reads_items, length_chars]
  exact hitems xs rest'

/-- A list is read as its items are. -/
theorem readAs_array {d : Nat} {ws : List Written} (hws : ∀ w ∈ ws, ReadAs d w) :
    ReadAs (d + 1) (.array ws) := by
  intro ls s hls h
  cases ws with
  | nil =>
    obtain ⟨more, hpast, hmore, -⟩ := h.past_mark (by decide)
    obtain ⟨rest, hclose, hrest, -⟩ := hmore.past_mark (by decide)
    refine gives_value_array hpast
      ⟨past (chars more), rest, hrest, by rw [past_past]; exact hclose, ?_⟩
    exact (reads_itemsFrom_succ.2 (.inl ⟨rfl, by rw [hclose]; rfl, rfl⟩)).gives
  | cons w ws =>
    rw [lexemes_array_cons] at h
    obtain ⟨more, hpast, hmore, -⟩ := h.past_mark (by decide)
    obtain ⟨rest, hrest, hle⟩ := Spaced.exists_rest w.lexemes hmore
    have hlen := length_lt_items hrest
    refine gives_value_array hpast (itemsRead_cons (hws w List.mem_cons_self) hmore rfl ?_)
    intro s hs
    exact itemsRead (fun w hw => hws w (List.mem_cons_of_mem _ hw)) (by omega) hs

/-- The members of an object are read to its closing brace, behind which the rest stands. -/
def MembersRead (d n : Nat) (first : Bool) (text : List Piece)
    (ms : List (List StringPart × Written)) (ls : List (List Char)) : Prop :=
  ∃ mid rest, Spaced ls rest ∧ past mid = .char '\x7d' :: chars rest ∧
    Gives (membersFrom (value d) n first) text (Written.members? ms) mid

theorem memberLexemes_cons (parts : List StringPart) (w : Written)
    (ms : List (List StringPart × Written)) (ls : List (List Char)) :
    Written.memberLexemes ((parts, w) :: ms) ++ ls =
      [','] :: quoted parts :: [':'] :: (w.lexemes ++ (Written.memberLexemes ms ++ ls)) := by
  rw [Written.memberLexemes]
  simp only [List.cons_append, List.append_assoc]

theorem lexemes_object_cons (parts : List StringPart) (w : Written)
    (ms : List (List StringPart × Written)) (ls : List (List Char)) :
    (Written.object ((parts, w) :: ms)).lexemes ++ ls =
      ['\x7b'] :: quoted parts :: [':'] :: (w.lexemes ++ (Written.memberLexemes ms ++ ls)) := by
  rw [Written.lexemes]
  simp only [List.cons_append, List.append_assoc]

theorem membersRead_cons {d n : Nat} {first : Bool} {parts : List StringPart} {w : Written}
    {ms : List (List StringPart × Written)} (hw : ReadAs d w)
    (h : Spaced (quoted parts :: [':'] :: (w.lexemes ++ (Written.memberLexemes ms ++ ls))) s)
    (hnext : Next first text (past (chars s)))
    (hmore : ∀ s, Spaced (Written.memberLexemes ms ++ ls) s →
      MembersRead d n false (chars s) ms ls) :
    MembersRead d (n + 1) first text ((parts, w) :: ms) ls := by
  obtain ⟨behindKey, hkey, hcolon, -⟩ := h.past_eq (by decide)
  obtain ⟨start, hpast, hvalue, -⟩ := hcolon.past_mark (by decide)
  obtain ⟨more, hspaced, hitem⟩ := hw _ start (follows_members ms ls) hvalue
  obtain ⟨mid, rest, hrest, hmid, hmembers⟩ := hmore more hspaced
  refine ⟨mid, rest, hrest, hmid, ?_⟩
  have hstart : past (chars s) = .char '"' :: inside parts (chars behindKey) := by
    rw [hkey]
    simp [inside]
  have hcolon : Reads colon (chars behindKey) () (chars start) :=
    reads_colon.2 ⟨by rw [hpast]; rfl, by rw [hpast]; rfl⟩
  exact gives_membersFrom_cons hnext hstart hcolon hitem hmembers

theorem membersRead {d n : Nat} {ms : List (List StringPart × Written)}
    (hms : ∀ m ∈ ms, ReadAs d m.2) (hn : ms.length < n)
    (h : Spaced (Written.memberLexemes ms ++ ls) s) : MembersRead d n false (chars s) ms ls := by
  obtain ⟨n, rfl⟩ := Nat.exists_eq_add_one_of_ne_zero (Nat.ne_zero_of_lt hn)
  induction ms generalizing n s with
  | nil =>
    obtain ⟨rest, hpast, hrest, -⟩ := h.past_mark (by decide)
    refine ⟨past (chars s), rest, hrest, by rw [past_past, hpast], ?_⟩
    exact (reads_membersFrom_succ.2 (.inl ⟨rfl, by rw [hpast]; rfl, rfl⟩)).gives
  | cons m ms ih =>
    obtain ⟨parts, w⟩ := m
    obtain ⟨n, rfl⟩ := Nat.exists_eq_add_one_of_ne_zero (show n ≠ 0 by simp at hn; omega)
    rw [memberLexemes_cons] at h
    obtain ⟨more, hpast, hmore, -⟩ := h.past_mark (by decide)
    refine membersRead_cons (hms (parts, w) List.mem_cons_self) hmore ⟨by rw [hpast]; rfl, ?_⟩ ?_
    · rw [hpast]
      rfl
    · exact fun s hs => ih (fun m hm => hms m (List.mem_cons_of_mem _ hm)) hs n (by simpa using hn)

theorem length_lt_members {ms : List (List StringPart × Written)}
    (h : Spaced (Written.memberLexemes ms ++ ls) s) : ms.length < s.length := by
  induction ms generalizing s with
  | nil =>
    obtain ⟨more, -, -, hlen⟩ := h.past_mark (by decide)
    exact Nat.zero_lt_of_lt hlen
  | cons m ms ih =>
    rw [memberLexemes_cons] at h
    obtain ⟨more, -, hmore, hlen⟩ := h.past_mark (by decide)
    obtain ⟨rest, hrest, hle⟩ := Spaced.exists_rest (_ :: _ :: m.2.lexemes) hmore
    have hlt := ih hrest
    rw [List.length_cons]
    omega

theorem gives_value_object {d : Nat} {ms : List (List StringPart × Written)} {more : List Char}
    (hpast : past text = .char '\x7b' :: chars more)
    (h : MembersRead d (more.length + 1) true (chars more) ms ls) :
    ∃ rest, Spaced ls rest ∧
      Gives (value (d + 1)) text (Written.document? (.object ms)) (chars rest) := by
  obtain ⟨mid, rest, hrest, hmid, hmembers⟩ := h
  have hclose : Reads closeObject mid () (chars rest) :=
    reads_closeObject.2 ⟨by rw [hmid]; rfl, by rw [hmid]; rfl⟩
  refine ⟨rest, hrest, ?_⟩
  rw [value_eq, Written.document?, Option.map_eq_bind]
  unfold valueWith
  refine gives_past ?_
  rw [hpast]
  refine gives_skip (Gives.bind ?_ fun xs _ => hclose.gives_bind gives_pure)
  intro xs rest'
  rw [reads_members, length_chars]
  exact hmembers xs rest'

/-- An object is read as the values of its members are. -/
theorem readAs_object {d : Nat} {ms : List (List StringPart × Written)}
    (hms : ∀ m ∈ ms, ReadAs d m.2) : ReadAs (d + 1) (.object ms) := by
  intro ls s hls h
  cases ms with
  | nil =>
    obtain ⟨more, hpast, hmore, -⟩ := h.past_mark (by decide)
    obtain ⟨rest, hclose, hrest, -⟩ := hmore.past_mark (by decide)
    refine gives_value_object hpast
      ⟨past (chars more), rest, hrest, by rw [past_past]; exact hclose, ?_⟩
    exact (reads_membersFrom_succ.2 (.inl ⟨rfl, by rw [hclose]; rfl, rfl⟩)).gives
  | cons m ms =>
    rw [lexemes_object_cons] at h
    obtain ⟨more, hpast, hmore, -⟩ := h.past_mark (by decide)
    obtain ⟨rest, hrest, hle⟩ := Spaced.exists_rest (_ :: _ :: m.2.lexemes) hmore
    have hlen := length_lt_members hrest
    refine gives_value_object hpast (membersRead_cons (hms m List.mem_cons_self) hmore rfl ?_)
    intro s hs
    exact membersRead (fun m hm => hms m (List.mem_cons_of_mem _ hm)) (by omega) hs

/-- Within the limit of levels each document is read as it is spelled. -/
theorem readAs {d : Nat} {w : Written} (h : w.Nests d) : ReadAs d w := by
  induction d generalizing w with
  | zero =>
    cases w with
    | token t => exact readAs_token 0 t
    | array ws => exact h.elim
    | object ms => exact h.elim
  | succ d ih =>
    cases w with
    | token t => exact readAs_token (d + 1) t
    | array ws => exact readAs_array fun w hw => ih (h w hw)
    | object ms => exact readAs_object fun m hm => ih (h m hm)

/-- A text that spells a document holds it; it cannot be read if a lexeme stands for nothing. -/
theorem parse_of_spells {w : Written} {text : String} (h : w.Spells text.toList)
    (hnests : w.Nests maxDepth) : (parse (Text.pieces text)).toOption = w.document? := by
  have hspaced : Spaced (w.lexemes ++ []) text.toList := by rwa [List.append_nil]
  obtain ⟨rest, hrest, hgives⟩ := readAs hnests [] text.toList (.inl rfl) hspaced
  have hend : front (past (chars rest)) = none := by
    have hpast := past_blank (show Blank rest from hrest) []
    rw [List.append_nil] at hpast
    rw [hpast]
    rfl
  have hparse : ∀ j, parse (Text.pieces text) = .ok j ↔ w.document? = some j := by
    intro j
    rw [parse, run?_eq_ok_iff]
    constructor
    · rintro ⟨rest', hread, -⟩
      exact ((hgives j rest').1 hread).1
    · exact fun hj => ⟨_, (hgives j _).2 ⟨hj, rfl⟩, hend⟩
  cases hdoc : w.document? with
  | some j => rw [(hparse j).2 hdoc]; rfl
  | none =>
    cases htext : parse (Text.pieces text) with
    | error why => rfl
    | ok j => simp [(hparse j).1 htext] at hdoc

end Bindery.Json
