import Bindery.Proofs.Source.Expressions

/-!
# Statements are read again

What a statement begins with tells it from an item and from the invocation of a macro. In front of a
further statement it ends by itself.
-/
namespace Bindery.Source

open Bindery.Source.Parser Bindery.Source.Grammar

variable {g : Rules} {e : Expr} {ts mid rest : List Token}

/-! What statements begin with -/

/-- Nothing comes next, or another statement does: a word, or the attributes of an item. -/
def followsStmt : List Token → Bool
  | [] => true
  | .ident i :: _ => i != ⟨"else", false⟩
  | .punct c _ :: .group .bracket _ :: _ => c == '#'
  | _ => false

/-- Nothing in front of a statement goes on in it. -/
structure StmtFollows (ts : List Token) : Prop where
  word : wordAhead "else" ts = false
  op : ∀ op ∈ [";", ".", "?"], opAhead op ts = false
  inner : NoInner ts

theorem stmtFollows (h : followsStmt ts = true) : StmtFollows ts := by
  match ts, h with
  | [], _ => exact ⟨rfl, by simp, rfl⟩
  | .ident i :: rest, h => exact ⟨by simpa [followsStmt] using h, by simp, rfl⟩
  | .punct c joint :: .group .bracket inner :: rest, h =>
    obtain rfl := eq_of_beq h
    refine ⟨rfl, fun op hop => ?_, by simp [NoInner, pastTree]⟩
    have hall : ∀ op ∈ [";", ".", "?"], op.toList.head? ≠ some '#' := by decide
    exact Bool.eq_false_iff.2 fun h => hall op hop (head?_of_opAhead h)

/-- No macro is invoked at the start of the statement. -/
def NoMacro (ts : List Token) : Prop := Reads macroStart ts .none ts

theorem noMacro_name {i : Ident} (hi : pathWordAhead [.ident i] = true)
    (hcolons : opAhead "::" ts = false) (hbang : opAhead "!" ts = false) :
    NoMacro (.ident i :: ts) := by
  have hahead : pathWordAhead (.ident i :: ts) = true := hi
  intro left
  simp [macroStart, attempt, simplePath, chain, chainFrom, hahead, hcolons, hbang]

theorem noMacro_keyword {i : Ident} (hi : pathWordAhead [.ident i] = false)
    (hkeyword : Ident.isKeyword i = true) : NoMacro (.ident i :: ts) := by
  have hahead : pathWordAhead (.ident i :: ts) = false := hi
  intro left
  simp [macroStart, attempt, simplePath, chain, chainFrom, hahead, ident, hkeyword]
  rfl

/-- Words that begin a block, a loop or the like. -/
def blockWords : List String := ["if", "while", "for", "loop", "match", "try", "unsafe", "const"]

theorem noBlock_ident {i : Ident} (h : ∀ w ∈ blockWords, i ≠ ⟨w, false⟩) (ts : List Token) :
    Reads (blockLike g) (.ident i :: ts) none (.ident i :: ts) := by
  have hne : ∀ w ∈ blockWords, (i == (⟨w, false⟩ : Ident)) = false := fun w hw =>
    beq_eq_false_iff_ne.2 (h w hw)
  simp [blockWords] at hne
  have hlife : lifetimeAhead (.ident i :: ts) = false := rfl
  intro left
  simp [blockLike, hne, hlife]

/-- The tokens begin a statement that is an expression without a block of its own. -/
structure StartsExprStmt (ts : List Token) : Prop where
  hash : opAhead "#" ts = false
  macro_ : NoMacro ts
  let_ : wordAhead "let" ts = false
  item : itemAhead ts = false
  block : ∀ g, Reads (blockLike g) ts none ts

/-- A statement may begin with a name, or with the receiver. -/
theorem startsExprStmt_name {i : Ident} (hi : Ident.isKeyword i = false ∨ i = ⟨"self", false⟩)
    (hword : anyWordAhead ts = false) (hcolons : opAhead "::" ts = false)
    (hbang : opAhead "!" ts = false) : StartsExprStmt (.ident i :: ts) := by
  have hne : ∀ w, Ident.isKeyword ⟨w, false⟩ = true → w ≠ "self" → i ≠ ⟨w, false⟩ := by
    intro w hw hself
    rcases hi with h | rfl
    · exact ne_of_not_keyword h hw
    · simpa using fun h => hself h.symm
  have hnext : identAhead ts = false ∧ ∀ w, wordAhead w ts = false := by
    match ts, hword with
    | [], _ => exact ⟨rfl, fun _ => rfl⟩
    | .punct _ _ :: _, _ => exact ⟨rfl, fun _ => rfl⟩
    | .literal _ :: _, _ => exact ⟨rfl, fun _ => rfl⟩
    | .group _ _ :: _, _ => exact ⟨rfl, fun _ => rfl⟩
  have hpath : pathWordAhead [.ident i] = true := by
    rcases hi with h | rfl
    · simp [pathWordAhead, h]
    · rfl
  refine ⟨opAhead_ident _ _ _, noMacro_name hpath hcolons hbang, ?_, ?_, fun g => ?_⟩
  · simpa using hne "let" (by decide) (by decide)
  · have hwords : ∀ w ∈ ["pub", "extern", "use", "fn", "mod", "type", "struct", "enum", "trait",
        "impl", "macro", "crate", "static", "const", "unsafe"], i ≠ ⟨w, false⟩ :=
      fun w hw => hne w (by revert w; decide) (by revert w; decide)
    simp at hwords
    simp [itemAhead, pastTree, hnext, hwords]
  · exact noBlock_ident (fun w hw => hne w (by revert w; decide) (by revert w; decide)) ts

theorem startsExprStmt_return (ts : List Token) : StartsExprStmt (.word "return" :: ts) where
  hash := opAhead_word _ _ _
  macro_ := noMacro_keyword (by decide) (by decide)
  let_ := rfl
  item := by simp [itemAhead]
  block g := noBlock_ident (by decide) ts

/-! Expressions as statements -/

theorem reads_leading {e' : Expr} (h : StartsExprStmt ts)
    (hunary : Reads (Grammar.unary g true) ts e mid)
    (hclimb : Reads (Grammar.climb g true .weakest e) mid e' rest) :
    Reads (Grammar.leading g) ts e' rest := by
  refine (reads_noOuter h.hash).bind ((h.block g).bind ?_)
  exact hunary.bind (by simpa [withAttributes, Tree.isNil] using hclimb)

theorem attachFirst_nil (e : Expr) : attachFirst .nil e = e := by
  cases e with
  | assignExpr left right => exact congrArg (Tree.assignExpr · right) (attachFirst_nil left)
  | binaryExpr left op right => exact congrArg (Tree.binaryExpr · op right) (attachFirst_nil left)
  | castExpr e t => exact congrArg (Tree.castExpr · t) (attachFirst_nil e)
  | _ => rfl

/-- An expression that is no macro invocation. -/
theorem splitAttributes_of_isCommon (h : isCommon e = true) : splitAttributes e = (.nil, e) := by
  cases e <;> first | rfl | cases h

theorem reads_exprStmt {semi : Bool} (hcommon : isCommon e = true)
    (hlead : Reads g.leading ts e mid) (hsemi : Reads (op? ";") mid semi rest) :
    Reads (exprStmt g .nil) ts (.exprStmt e semi) rest := by
  refine hlead.bind ?_
  rw [attachFirst_nil]
  refine hsemi.bind ?_
  rw [splitAttributes_of_isCommon hcommon]
  cases e <;> first | exact reads_pure _ _ | cases hcommon

theorem reads_stmt {semi : Bool} (h : StartsExprStmt ts) (hcommon : isCommon e = true)
    (hlead : Reads g.leading ts e mid) (hsemi : Reads (op? ";") mid semi rest) :
    Reads (stmt g) ts (.exprStmt e semi) rest := by
  have hnone := reads_noOuter (g := g) h.hash
  have hstmt := reads_exprStmt hcommon hlead hsemi
  intro left
  simp [stmt, hnone.run, h.macro_.run, h.let_, h.item, hstmt.run]

/-- A statement is read again in front of a further one. -/
structure StmtRereads (g : Rules) (s : Stmt) : Prop where
  follows : ∀ rest, followsStmt (s.tokens ++ rest) = true
  nonempty : s.tokens ≠ []
  closed : isOpen s = false
  reads : ∀ rest, followsStmt rest = true → Reads (stmt g) (s.tokens ++ rest) s rest

/-- The value of a block is read again at its end. -/
structure ResultRereads (g : Rules) (e : Expr) : Prop where
  follows : followsStmt e.tokens = true
  nonempty : e.tokens ≠ []
  reads : Reads (stmt g) e.tokens (valueStmt e) []

theorem reads_semicolon (rest : List Token) :
    Reads (op? ";") (.punct ';' false :: rest) true rest := by
  intro left
  simp [opAhead, opAhead.go, dropOp]

theorem followsStmt_append (h : followsStmt ts = true) (hne : ts ≠ []) :
    followsStmt (ts ++ rest) = true := by
  match ts, h with
  | .ident i :: _, h => exact h
  | .punct c joint :: .group .bracket inner :: _, h => exact h

/-- What is begun with says what follows in front of a statement. -/
theorem stmtRereads_of_front {s : Stmt} {front : List Token} {behind : List Token → List Token}
    (htokens : ∀ rest, s.tokens ++ rest = front ++ behind rest) (hne : front ≠ [])
    (hfollows : followsStmt front = true) (hclosed : isOpen s = false)
    (hreads : ∀ rest, followsStmt rest = true → Reads (stmt g) (front ++ behind rest) s rest) :
    StmtRereads g s where
  follows rest := by
    rw [htokens]
    exact followsStmt_append hfollows hne
  nonempty h := by
    have hnil := htokens []
    rw [h, List.append_nil] at hnil
    exact hne (List.append_eq_nil_iff.1 hnil.symm).1
  closed := hclosed
  reads rest hrest := by
    rw [htokens]
    exact hreads rest hrest

/-- A statement that a keyword begins. -/
theorem stmtRereads_of_word {s : Stmt} {w : String} {behind : List Token → List Token}
    (htokens : ∀ rest, s.tokens ++ rest = .word w :: behind rest) (hw : w ≠ "else")
    (hclosed : isOpen s = false)
    (hreads : ∀ rest, followsStmt rest = true → Reads (stmt g) (.word w :: behind rest) s rest) :
    StmtRereads g s := by
  have hfront : ∀ rest, s.tokens ++ rest = [.word w] ++ behind rest := htokens
  have hfollows : followsStmt [.word w] = true := by simpa [followsStmt, Token.word] using hw
  exact stmtRereads_of_front hfront (List.cons_ne_nil _ _) hfollows hclosed hreads

theorem doStmt_rereads (hcommon : isCommon e = true)
    (hunary : UnaryRereads g.above true EndsValue e)
    (hstart : ∀ rest, StartsExprStmt (e.tokens ++ .punct ';' false :: rest))
    (hfollows : followsStmt e.tokens = true) : StmtRereads g.above (doStmt e) := by
  have hne : e.tokens ≠ [] := by simpa using ne_nil_of_reads_unary (hunary [] rfl)
  have htokens : ∀ rest, (doStmt e).tokens ++ rest = e.tokens ++ .punct ';' false :: rest := by
    intro rest
    change e.tokens ++ punct ';' ++ rest = _
    simp [punct]
  refine stmtRereads_of_front htokens hne hfollows rfl fun rest _ => ?_
  have hvalue := hunary (.punct ';' false :: rest) rfl
  exact reads_stmt (hstart rest) hcommon
    (reads_leading (hstart rest) hvalue (reads_climb rfl .weakest e)) (reads_semicolon rest)

theorem assignStmt_rereads {left right : Expr} {ends : List Token → Prop}
    (hleft : OperandRereads g true ends left) (hends : ∀ ts, ends (.punct '=' false :: ts))
    (hright : UnaryRereads g true EndsValue right)
    (hstart : ∀ rest, StartsExprStmt (left.tokens ++ .punct '=' false :: rest))
    (hfollows : followsStmt left.tokens = true) :
    StmtRereads g.above (doStmt (.assignExpr left right)) := by
  have hne : left.tokens ≠ [] := by
    simpa using ne_nil_of_reads_unary (reads_unary (hleft.reads [] (hleft.value [] rfl)) rfl)
  have htokens : ∀ rest, (doStmt (.assignExpr left right)).tokens ++ rest =
      left.tokens ++ .punct '=' false :: (right.tokens ++ .punct ';' false :: rest) := by
    intro rest
    change left.tokens ++ punct '=' ++ right.tokens ++ punct ';' ++ rest = _
    simp [punct]
  refine stmtRereads_of_front htokens hne hfollows rfl fun rest _ => ?_
  have hvalue := hright (.punct ';' false :: rest) rfl
  exact reads_stmt (hstart _) rfl
    (reads_leading (hstart _) (reads_unary (hleft.reads _ (hends _)) rfl)
      (reads_assignment hleft.common hvalue rfl)) (reads_semicolon rest)

/-- A value at the end of a block. -/
theorem resultRereads (hcommon : isCommon e = true) (hunary : UnaryRereads g.above true EndsValue e)
    (hstart : StartsExprStmt e.tokens) (hfollows : followsStmt e.tokens = true) :
    ResultRereads g.above e := by
  have hread := hunary [] rfl
  rw [List.append_nil] at hread
  exact ⟨hfollows, ne_nil_of_reads_unary hread, reads_stmt hstart hcommon
    (reads_leading hstart hread (reads_climb rfl .weakest e)) fun left => by simp⟩

/-! Blocks -/

/-- The statements of a block are read again; a value may come last. -/
inductive StmtsReread (g : Rules) : List Stmt → Prop
  | nil : StmtsReread g []
  | result {e : Expr} (h : ResultRereads g e) : StmtsReread g [valueStmt e]
  | cons {s : Stmt} {ss : List Stmt} (h : StmtRereads g s) (hs : StmtsReread g ss) :
    StmtsReread g (s :: ss)

namespace StmtsReread

variable {ss ss' : List Stmt}

theorem append (h : ∀ s ∈ ss, StmtRereads g s) (h' : StmtsReread g ss') :
    StmtsReread g (ss ++ ss') := by
  induction ss with
  | nil => exact h'
  | cons s rest ih =>
    obtain ⟨hs, hrest⟩ := List.forall_mem_cons.1 h
    exact .cons hs (ih hrest)

theorem follows (h : StmtsReread g ss) : followsStmt (ss.flatMap Tree.tokens) = true := by
  cases h with
  | nil => rfl
  | @result e h =>
    have htokens : [valueStmt e].flatMap Tree.tokens = e.tokens := by
      change e.tokens ++ [] ++ [] = _
      simp
    rw [htokens]
    exact h.follows
  | cons h hs => exact h.follows _

theorem nonempty (h : StmtsReread g ss) {s : Stmt} (hs : s ∈ ss) : s.tokens ≠ [] := by
  induction h with
  | nil => cases hs
  | result h =>
    obtain rfl := List.mem_singleton.1 hs
    change _ ++ [] ≠ []
    simpa using h.nonempty
  | cons h _ ih =>
    rcases List.mem_cons.1 hs with rfl | hs
    · exact h.nonempty
    · exact ih hs

end StmtsReread

/-- One more statement, up to the end of a block. -/
def stmt? (g : Rules) : Parser (Option Stmt) := do
  if ← op? ";" then return some .emptyStmt
  if ← atEnd then return none
  let s ← stmt g
  if isOpen s && !(← atEnd) then breach .statementEnd
  return some s

theorem reads_stmt? {s : Stmt} (hfollows : followsStmt ts = true) (hne : ts ≠ [])
    (h : Reads (stmt g) ts s rest) (hclosed : isOpen s = false ∨ rest = []) :
    Reads (stmt? g) ts (some s) rest := by
  have hsemi := (stmtFollows hfollows).op ";" (by simp)
  intro left
  rcases hclosed with hclosed | rfl
  · simp [stmt?, hsemi, hne, h.run, hclosed]
  · simp [stmt?, hsemi, hne, h.run]

theorem reads_stmts {ss : List Stmt} (h : StmtsReread g ss) :
    Reads (stmts g) (ss.flatMap Tree.tokens) (.ofList ss) [] := by
  have hall : ∀ n, ss.length < n → Reads (upTo n (stmt? g)) (ss.flatMap Tree.tokens) ss [] := by
    induction h with
    | nil =>
      intro n hn
      obtain ⟨n, rfl⟩ : ∃ k, n = k + 1 := ⟨n - 1, by simp at hn; omega⟩
      exact fun left => rfl
    | @result e h =>
      intro n hn
      obtain ⟨n, rfl⟩ : ∃ k, n = k + 2 := ⟨n - 2, by simp at hn; omega⟩
      have htokens : [valueStmt e].flatMap Tree.tokens = e.tokens := by
        change e.tokens ++ [] ++ [] = _
        simp
      have hread := reads_stmt? h.follows h.nonempty h.reads (.inr rfl)
      have hend : Reads (stmt? g) [] none [] := fun left => by simp [stmt?]
      intro left
      rw [htokens]
      simp [upTo, hread.run, hend.run]
    | @cons s ss h hs ih =>
      intro n hn
      obtain ⟨n, rfl⟩ : ∃ k, n = k + 1 := ⟨n - 1, by simp at hn; omega⟩
      have hrest := ih n (by simpa using hn)
      have hread := reads_stmt? (h.follows _) (by simp [h.nonempty]) (h.reads _ hs.follows)
        (.inl h.closed)
      intro left
      rw [List.flatMap_cons, upTo]
      simp [hread.run, hrest.run]
  have hlength : ss.length ≤ (ss.flatMap Tree.tokens).length :=
    length_le_length_flatMap fun s hs => h.nonempty hs
  refine ((reads_remaining _).bind (hall _ (Nat.lt_succ_of_le hlength))).bind (reads_pure _ _)

/-- The rule for blocks makes the block of its tokens. -/
def BlockRereads (g : Rules) (ss : List Stmt) : Prop :=
  ∀ marked rest, Reads (g.block marked) (.group .brace (ss.flatMap Tree.tokens) :: rest)
    (blockOf ss) rest

theorem blockRereads {ss : List Stmt} (h : StmtsReread g ss) : BlockRereads g.above ss := by
  intro marked rest
  have hstmts := reads_stmts h
  have hinner := reads_noInner (g := g) (stmtFollows h.follows).inner
  refine reads_delimited ?_ .brace rest
  intro left
  cases marked with
  | false => simp [hstmts.run, blockOf]
  | true => simp [hinner.run, hstmts.run, blockOf]

/-! Statements with keywords -/

section Let

variable {p : Pat} {ss : List Stmt}

theorem reads_letStmt {s : Stmt} (h : Reads (Grammar.letStmt g .nil) (.word "let" :: ts) s rest) :
    Reads (stmt g) (.word "let" :: ts) s rest := by
  have hnone := reads_noOuter (g := g) (opAhead_word "#" ts "let")
  have hmacro : NoMacro (.word "let" :: ts) := noMacro_keyword (by decide) (by decide)
  intro left
  simp [stmt, hnone.run, hmacro.run, h.run]

theorem letStmt_rereads (hp : PatRereads g p) (he : ExprRereads g e) :
    StmtRereads g (.letStmt .nil p (.present e) .absent) := by
  have htokens : ∀ rest, Tree.tokens (.letStmt .nil p (.present e) .absent) ++ rest =
      .word "let" :: (p.tokens ++ .punct '=' false :: (e.tokens ++ .punct ';' false :: rest)) := by
    intro rest
    change [] ++ .word "let" :: p.tokens ++ (punct '=' ++ e.tokens) ++ [] ++ punct ';' ++ rest = _
    simp [punct]
  refine stmtRereads_of_word htokens (by decide) rfl fun rest _ => reads_letStmt fun left => ?_
  have hpat := hp false (.punct '=' false :: (e.tokens ++ .punct ';' false :: rest))
    ⟨by simp [opAhead, opAhead.go], rfl, rfl⟩ (by simp)
  have hvalue := he.reads (.punct ';' false :: rest) rfl
  cases hbrace : endsInBrace e <;>
    simp [Grammar.letStmt, hpat.run, opAhead, opAhead.go, dropOp, hvalue.run, hbrace]

/-- A pattern that may not match, with a block for this case. -/
theorem letElse_rereads (hp : PatRereads g p)
    (he : ∀ rest, endsExpr rest = true → Reads (g.expr true) (e.tokens ++ rest) e rest)
    (hbrace : endsInBrace e = false) (hss : BlockRereads g ss) :
    StmtRereads g (.letStmt .nil p (.present e) (.present (blockOf ss))) := by
  have htokens : ∀ rest, Tree.tokens (.letStmt .nil p (.present e)
      (.present (blockOf ss))) ++ rest =
      .word "let" :: (p.tokens ++ .punct '=' false :: (e.tokens ++ .word "else" ::
        .group .brace (ss.flatMap Tree.tokens) :: .punct ';' false :: rest)) := by
    intro rest
    change [] ++ .word "let" :: p.tokens ++ (punct '=' ++ e.tokens) ++ ([.word "else"] ++
      braced ([] ++ (Tree.ofList ss).tokens.flatten)) ++ punct ';' ++ rest = _
    simp [punct, braced, List.flatMap_def]
  refine stmtRereads_of_word htokens (by decide) rfl fun rest _ => reads_letStmt fun left => ?_
  have hpat := hp false (.punct '=' false :: (e.tokens ++ .word "else" ::
    .group .brace (ss.flatMap Tree.tokens) :: .punct ';' false :: rest))
    ⟨by simp [opAhead, opAhead.go], rfl, rfl⟩ (by simp)
  have hvalue := he (.word "else" :: .group .brace (ss.flatMap Tree.tokens) ::
    .punct ';' false :: rest) rfl
  have hblock := hss false (.punct ';' false :: rest)
  simp [Grammar.letStmt, hpat.run, opAhead, opAhead.go, dropOp, hvalue.run, hbrace, hblock.run]

theorem ifStmt_rereads (hcond : ConditionRereads g e) (hss : BlockRereads g ss) :
    StmtRereads g.above (ifStmt e ss) := by
  have htokens : ∀ rest, (ifStmt e ss).tokens ++ rest =
      .word "if" :: (e.tokens ++ .group .brace (ss.flatMap Tree.tokens) :: rest) := by
    intro rest
    change .word "if" :: e.tokens ++ braced ([] ++ (Tree.ofList ss).tokens.flatten) ++ [] ++ [] ++
      rest = _
    simp [braced, List.flatMap_def]
  refine stmtRereads_of_word htokens (by decide) rfl fun rest hrest => ?_
  have hfollows := stmtFollows hrest
  have hread := hcond (.group .brace (ss.flatMap Tree.tokens) :: rest) rfl
  have hblock := hss false rest
  generalize e.tokens ++ .group .brace (ss.flatMap Tree.tokens) :: rest = ts at hread ⊢
  have hif : Reads (ifExpr g) (.word "if" :: ts) (.ifExpr e (blockOf ss) .absent) rest := by
    intro left
    simp [ifExpr, ifFrom, condition, hread.run, hblock.run, hfollows.word]
  have hnone : ∀ g, Reads (outerAttributes g) (.word "if" :: ts) .nil (.word "if" :: ts) :=
    fun _ => reads_noOuter (opAhead_word "#" ts "if")
  have hlead : Reads (Grammar.leading g) (.word "if" :: ts) (.ifExpr e (blockOf ss) .absent)
      rest := by
    intro left
    simp [Grammar.leading, (hnone g).run, blockLike, hif.run, dotAhead,
      hfollows.op "." (by simp), hfollows.op "?" (by simp), withAttributes, Tree.isNil]
  have hsemi : Reads (op? ";") rest false rest := fun left => by
    simp [hfollows.op ";" (by simp)]
  have hmacro : NoMacro (.word "if" :: ts) := noMacro_keyword (by decide) (by decide)
  have hexpr : Reads (exprStmt g.above .nil) (.word "if" :: ts) (ifStmt e ss) rest :=
    reads_exprStmt rfl hlead hsemi
  intro left
  simp [stmt, (hnone g.above).run, hmacro.run, itemAhead, hexpr.run]

end Let

/-! Items as statements -/

theorem itemStmt_rereads {i : Item} {attrs : List Attribute}
    (hattrs : ∀ a ∈ attrs, AttributeRereads g false a)
    (htokens : ∃ ts, (∀ rest, i.tokens ++ rest = attrs.flatMap Tree.tokens ++ (ts ++ rest)) ∧
      ∀ rest, opAhead "#" (ts ++ rest) = false ∧ NoMacro (ts ++ rest) ∧
        wordAhead "let" (ts ++ rest) = false ∧ itemAhead (ts ++ rest) = true)
    (hfollows : ∀ rest, followsStmt (i.tokens ++ rest) = true)
    (hread : ∀ rest, Reads g.item (i.tokens ++ rest) i rest) : StmtRereads g (.itemStmt i) := by
  obtain ⟨ts, htokens, hstart⟩ := htokens
  refine ⟨hfollows, fun h => ?_, rfl, fun rest _ => ?_⟩
  · have hitem := (hstart []).2.2.2
    have hnil : ts = [] := by
      have := htokens []
      rw [show i.tokens = [] from h] at this
      simp at this
      exact this.2
    rw [hnil] at hitem
    cases hitem
  · obtain ⟨hhash, hmacro, hlet, hahead⟩ := hstart rest
    have hread := hread rest
    change Reads (stmt g) (i.tokens ++ rest) _ _
    rw [htokens] at hread ⊢
    have houter := reads_outerAttributes hattrs hhash
    intro left
    simp [stmt, houter.run, hmacro.run, hlet, hahead, hread.run]

end Bindery.Source
