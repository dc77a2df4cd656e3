import Bindery.Source.Fault
import Bindery.Source.Literal

/-!
# Reading token trees

A parser consumes tokens from the front. The end of its input is the end of the group it reads. A
group of which something is left over is a fault, but only if no other one comes to light.
-/
namespace Bindery.Source

/-- What is still to be read, and the first group of which something was left over. -/
structure Input where
  tokens : List Token
  leftIn : Option Delimiter := none

abbrev Parser := StateT Input (Except Fault)

/-! What comes next. -/

/-- Whether an operator starts here: its characters follow each other, joined. -/
def opAhead (op : String) (ts : List Token) : Bool := go op.toList ts
where
  go : List Char → List Token → Bool
    | [], _ => false
    | [c], .punct d _ :: _ => c == d
    | c :: more, .punct d true :: rest => c == d && go more rest
    | _, _ => false

def wordAhead (w : String) : List Token → Bool
  | .ident i :: _ => i == ⟨w, false⟩
  | _ => false

/-- Words that are no identifiers unless marked as raw. -/
def keywords : List String := [
  "_", "abstract", "as", "async", "await", "become", "box", "break", "const", "continue", "crate",
  "do", "dyn", "else", "enum", "extern", "false", "final", "fn", "for", "if", "impl", "in", "let",
  "loop", "macro", "match", "mod", "move", "mut", "override", "priv", "pub", "ref", "return",
  "Self", "self", "static", "struct", "super", "trait", "true", "try", "type", "typeof", "unsafe",
  "unsized", "use", "virtual", "where", "while", "yield"]

def Ident.isKeyword (i : Ident) : Bool := !i.raw && keywords.contains i.word

def identAhead : List Token → Bool
  | .ident i :: _ => !Ident.isKeyword i
  | _ => false

def anyWordAhead : List Token → Bool
  | .ident _ :: _ => true
  | _ => false

def lifetimeAhead : List Token → Bool
  | .punct '\'' true :: .ident _ :: _ => true
  | _ => false

def groupAhead (d : Delimiter) : List Token → Bool
  | .group e _ :: _ => d == e
  | _ => false

/-- A literal, a truth value or a negative number. -/
def literalAhead : List Token → Bool
  | .literal _ :: _ => true
  | .ident i :: _ => i == ⟨"true", false⟩ || i == ⟨"false", false⟩
  | .punct '-' _ :: .literal text :: _ => text.toList.head?.any Char.isDigit
  | _ => false

def textLiteralAhead : List Token → Bool
  | .literal text :: _ => Literal.isText text
  | _ => false

/-- What follows the next tree; a lifetime is one. -/
def pastTree : List Token → List Token
  | .punct '\'' true :: .ident _ :: rest => rest
  | _ :: rest => rest
  | [] => []

namespace Parser

variable {α : Type}

def remaining : Parser (List Token) := do return (← get).tokens

/-- Goes on with other tokens of the same group. -/
def continueAt (ts : List Token) : Parser Unit := modify ({ · with tokens := ts })

def ahead (p : List Token → Bool) : Parser Bool := do return p (← remaining)

/-- A test of what follows the next tree. -/
def second (p : List Token → Bool) : Parser Bool := do return p (pastTree (← remaining))

/-- A test of what follows the next two trees. -/
def third (p : List Token → Bool) : Parser Bool := do return p (pastTree (pastTree (← remaining)))

def atEnd : Parser Bool := ahead List.isEmpty

def refuse (wanted : List Wanted) : Parser α := do
  throw (.expected wanted (← atEnd))

def breach (r : Rule) : Parser α := do
  throw (.rule r (← atEnd))

/-- The result of a parser on the content of a group. -/
def inside (d : Delimiter) (p : Parser α) (inner : List Token) : Parser α := do
  let outer ← remaining
  continueAt inner
  let x ← p
  modify fun s => ⟨outer, if s.tokens.isEmpty then s.leftIn else s.leftIn.or (some d)⟩
  return x

/-- The result of a parser, or none if it fails; then nothing is consumed. -/
def attempt (p : Parser α) : Parser (Option α) := fun s =>
  match p s with
  | .ok (x, rest) => .ok (some x, rest)
  | .error _ => .ok (none, s)

variable {β : Type}

@[simp] theorem run_bind (p : Parser α) (f : α → Parser β) (s : Input) :
    (p >>= f) s = match p s with
      | .ok (x, s') => f x s'
      | .error why => .error why := by
  change (p s >>= fun (x, s') => f x s') = _
  cases p s <;> rfl

@[simp] theorem run_map (f : α → β) (p : Parser α) (s : Input) :
    (f <$> p) s = match p s with
      | .ok (x, s') => .ok (f x, s')
      | .error why => .error why := by
  change (p s >>= fun (x, s') => .ok (f x, s')) = _
  cases p s <;> rfl

/-- The tokens between an earlier place in the same group and the next token. -/
def since (before : List Token) : Parser (List Token) := do
  return before.take (before.length - (← remaining).length)

/-- The tokens that a parser consumes, with its result. -/
def consumed (p : Parser α) : Parser (α × List Token) := do
  let before ← remaining
  let x ← p
  return (x, ← since before)

/-! Single tokens -/

def op (text : String) : Parser Unit := do
  let ts ← remaining
  if opAhead text ts then continueAt (ts.drop text.length)
  else throw (.expected [.mark text] false)

/-- An operator, if it comes next. -/
def op? (text : String) : Parser Bool := do
  if ← ahead (opAhead text) then
    op text
    return true
  else return false

def word (w : String) : Parser Unit := do
  if ← ahead (wordAhead w) then continueAt ((← remaining).drop 1) else refuse [.mark w]

def word? (w : String) : Parser Bool := do
  if ← ahead (wordAhead w) then
    word w
    return true
  else return false

/-- Any word, keywords included. -/
def anyWord : Parser Ident := do
  match ← remaining with
  | .ident i :: rest =>
    continueAt rest
    return i
  | _ => refuse [.identifier]

def ident : Parser Ident := do
  match ← remaining with
  | .ident i :: rest =>
    if Ident.isKeyword i then throw (.keyword i.word)
    continueAt rest
    return i
  | _ => refuse [.identifier]

def lifetime : Parser Ident := do
  match ← remaining with
  | .punct '\'' true :: .ident i :: rest =>
    continueAt rest
    return i
  | _ => refuse [.lifetime]

def lifetime? : Parser (Option Ident) := do
  if ← ahead lifetimeAhead then return some (← lifetime) else return none

/-- The text of a literal, its sign included. -/
def literal : Parser String := do
  match ← remaining with
  | .literal text :: rest =>
    continueAt rest
    return text
  | .punct '-' _ :: .literal text :: rest =>
    continueAt rest
    return "-" ++ text
  | .ident i :: rest =>
    continueAt rest
    return i.word
  | _ => refuse [.expression]

def group (d : Delimiter) : Parser (List Token) := do
  match ← remaining with
  | .group e inner :: rest =>
    if d == e then
      continueAt rest
      return inner
    else refuse [.group d]
  | _ => refuse [.group d]

/-- Reads a whole group. -/
def delimited (d : Delimiter) (p : Parser α) : Parser α := do
  inside d p (← group d)

def anyGroup : Parser (Delimiter × List Token) := do
  match ← remaining with
  | .group d inner :: rest =>
    continueAt rest
    return (d, inner)
  | _ => refuse [.anyGroup]

/-! Lists -/

/-- Repeats a parser as long as it yields something, at most `n` times. -/
def upTo (n : Nat) (p : Parser (Option α)) : Parser (List α) :=
  match n with
  | 0 => return []
  | n + 1 => do
    match ← p with
    | none => return []
    | some x => return x :: (← upTo n p)

/-- Repeats a parser that consumes something as long as it yields something. -/
def many (p : Parser (Option α)) : Parser (List α) := do
  upTo ((← remaining).length + 1) p

/-- Elements with separators up to a place that `stop` describes, and whether a separator came
last. -/
def separatedFrom (n : Nat) (stop : List Token → Bool) (sep : String) (p : Parser α)
    (trailing : Bool) : Parser (List α × Bool) :=
  match n with
  | 0 => throw .exhausted
  | n + 1 => do
    if ← ahead stop then return ([], trailing)
    let x ← p
    if ← ahead stop then return ([x], false)
    op sep
    let (xs, trailing) ← separatedFrom n stop sep p true
    return (x :: xs, trailing)

def separated (stop : List Token → Bool) (sep : String) (p : Parser α) :
    Parser (List α × Bool) := do
  separatedFrom ((← remaining).length + 1) stop sep p false

/-- Elements joined by a separator, as long as one starts; and whether a separator came last. -/
def chainFrom (n : Nat) (starts : List Token → Bool) (sep : String) (p : Parser α)
    (trailing : Bool) : Parser (List α × Bool) :=
  match n with
  | 0 => throw .exhausted
  | n + 1 => do
    if !(← ahead starts) then return ([], trailing)
    let x ← p
    if !(← op? sep) then return ([x], false)
    let (xs, trailing) ← chainFrom n starts sep p true
    return (x :: xs, trailing)

def chain (starts : List Token → Bool) (sep : String) (p : Parser α) (trailing : Bool) :
    Parser (List α × Bool) := do
  chainFrom ((← remaining).length + 1) starts sep p trailing

/-- Elements with commas up to the end. -/
def listed (p : Parser α) : Parser (List α × Bool) := separated List.isEmpty "," p

/-- Elements with commas up to a closing angle bracket. -/
def angled (p : Parser α) : Parser (List α × Bool) := separated (opAhead ">") "," p

/-- Runs a parser on all tokens. -/
def runAll (p : Parser α) (ts : List Token) : Except Fault α := do
  let (x, s) ← p.run ⟨ts, none⟩
  if let some d := s.leftIn then throw (.leftover (some d))
  if s.tokens.isEmpty then return x else throw (.leftover none)

end Parser

end Bindery.Source
