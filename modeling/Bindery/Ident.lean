import Bindery.Naming

/-!
# Identifiers of emitted code

An identifier is a word of the emitted language, possibly marked as raw. Not every name that passes
`Naming.isIdentifier` is such a word.
-/
namespace Bindery

structure Ident where
  word : String
  raw : Bool := false
  deriving DecidableEq, Repr

namespace Ident

def text (i : Ident) : String := if i.raw then "r#" ++ i.word else i.word

/-- The identifier spelled by a word, if it is one. -/
def ofWord? (word : String) : Option Ident :=
  if Text.isWord word.toList then some ⟨word, false⟩ else none

/-- The identifier for a name. A reserved word is made raw, or gets a final underscore if it cannot
be raw. -/
def ofName? (name : String) : Option Ident :=
  if Naming.isPathKeyword name then ofWord? (name ++ "_")
  else if Naming.rawKeywords.contains name then some ⟨name, true⟩
  else ofWord? name

/-- The identifier for the snake case of a catalog name. -/
def ofCatalog? (name : String) : Option Ident := ofName? (Naming.snakeCase name)

end Ident

end Bindery
