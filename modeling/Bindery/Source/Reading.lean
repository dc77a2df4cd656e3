import Bindery.Source.Grammar.Items
import Bindery.Source.Lexer

/-!
# Reading code

The rules of all levels, and what a sequence of tokens or a text stands for.
-/
namespace Bindery.Source

/-- The rules one level above others. -/
def Rules.above (g : Rules) : Rules where
  type := Grammar.type g
  bound := Grammar.bound g
  expr := Grammar.expr g
  unary := Grammar.unary g
  leading := Grammar.leading g
  climb := Grammar.climb g
  pat := Grammar.pat g
  block := Grammar.block g
  field := Grammar.namedField g
  item := Grammar.item g

/-- The rules with the given number of levels. -/
def rules : Nat → Rules
  | 0 => Rules.exhausted
  | n + 1 => (rules n).above

/-- The levels that are allowed for some tokens. A rule reaches the level below at most a few times
for each token, and not at all for documentation. Code that would nest deeper is refused as
`Fault.exhausted`. -/
def levels (ts : List Token) : Nat := 2 * Token.sizeAll (Token.bareAll ts) + 16

/-- What a rule makes of all tokens. -/
def readTokens (rule : Rules → Parser α) (ts : List Token) : Except Fault α :=
  Parser.runAll (rule (rules (levels ts))) ts

/-- What a rule makes of a text. -/
def readText (rule : Rules → Parser α) (text : String) : Except Fault α :=
  match tokens? text with
  | some ts => readTokens rule ts
  | none => throw .notTokens

def Ty.read (text : String) : Except Fault Ty := readText (·.type true) text

def Path.read (text : String) : Except Fault Path := readText (Grammar.path · false) text

/-- The file of a sequence of tokens. -/
def File.ofTokens (ts : List Token) : Except Fault File :=
  readTokens (fun g => do
    let attrs ← Grammar.innerAttributes g
    let items ← Parser.many do
      if ← Parser.atEnd then return none
      return some (← Grammar.item g)
    return ⟨attrs.toList, items⟩) ts

end Bindery.Source
