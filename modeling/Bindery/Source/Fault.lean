import Bindery.Source.Token

/-!
# Why code cannot be read

A fault names what the reader expected or refuses at the place where it stopped.
-/
namespace Bindery.Source

/-- Something that may come next. -/
inductive Wanted where
  | mark (text : String)
  | identifier
  | lifetime
  | group (d : Delimiter)
  | anyGroup
  | expression
  | loopOrBlock
  | literal
  | textLiteral
  | integer
  | wholeNumber
  | member
  | newName
  | rangeEnd
  deriving DecidableEq, Repr

def Wanted.text : Wanted → String
  | .mark t => s!"`{t}`"
  | .identifier => "identifier"
  | .lifetime => "lifetime"
  | .group .paren => "parentheses"
  | .group .bracket => "square brackets"
  | .group .brace => "curly braces"
  | .anyGroup => "delimiter"
  | .expression => "an expression"
  | .loopOrBlock => "loop or block expression"
  | .literal => "literal"
  | .textLiteral => "string literal"
  | .integer => "integer literal"
  | .wholeNumber => "unsuffixed integer"
  | .member => "identifier or integer"
  | .newName => "identifier or underscore"
  | .rangeEnd => "range upper bound"

/-- A rule beyond the order of tokens. -/
inductive Rule where
  | chainedComparison
  | objectWithoutTrait
  | boundsWithoutTrait
  | constBound
  | maybeConstBound
  | captureBound
  | binderOfMaybe
  | deniedMembers
  | pathEnd
  | statementEnd
  | labelledBreak
  | castFollowed (by_ : String)
  | attributeInAttribute
  | attributeOnRange
  | openRangeInSlice
  | signedPosition
  | largePosition
  | rulesWithParameters
  | lateReceiver
  | secondReceiver
  deriving DecidableEq, Repr

def Rule.text : Rule → String
  | .chainedComparison => "comparison operators cannot be chained"
  | .objectWithoutTrait => "at least one trait is required for an object type"
  | .boundsWithoutTrait => "at least one trait must be specified"
  | .constBound => "`const` is not allowed here"
  | .maybeConstBound => "`[const]` is not allowed here"
  | .captureBound => "`use<...>` precise capturing syntax is not allowed here"
  | .binderOfMaybe => "`for<...>` binder not allowed with `?` trait polarity modifier"
  | .deniedMembers => "inherent impls cannot be negative"
  | .pathEnd => "expected path segment after `::`"
  | .statementEnd => "unexpected token, expected `;`"
  | .labelledBreak => "parentheses required"
  | .castFollowed by_ => "casts cannot be followed by " ++ by_
  | .attributeInAttribute => "unexpected attribute inside of attribute"
  | .attributeOnRange => "attributes are not allowed on range expressions starting with `..`"
  | .openRangeInSlice =>
    "range pattern is not allowed unparenthesized inside slice pattern"
  | .signedPosition => "invalid digit found in string"
  | .largePosition => "number too large to fit in target type"
  | .rulesWithParameters =>
    "generic parameters on `where` clauses are reserved for future use"
  | .lateReceiver => "unexpected method receiver"
  | .secondReceiver => "unexpected second method receiver"

inductive Fault where
  /-- The text cannot be cut into tokens. -/
  | notTokens
  /-- Tokens are left in a group, or at the end. -/
  | leftover (within : Option Delimiter)
  | expected (wanted : List Wanted) (atEnd : Bool)
  | keyword (word : String)
  | rule (r : Rule) (atEnd : Bool)
  /-- The code nests deeper than the levels that the reader is given for its tokens. -/
  | exhausted
  deriving DecidableEq, Repr

/-- Mentions that the input or group has ended. -/
def noteEnd (atEnd : Bool) (text : String) : String :=
  if atEnd then "unexpected end of input, " ++ text else text

def Fault.message : Fault → String
  | .notTokens => "cannot parse string into token stream"
  | .leftover none => "unexpected token"
  | .leftover (some .paren) => "unexpected token, expected `)`"
  | .leftover (some .bracket) => "unexpected token, expected `]`"
  | .leftover (some .brace) => "unexpected token, expected `\x7d`"
  | .expected [] atEnd => if atEnd then "unexpected end of input" else "unexpected token"
  | .expected [x] atEnd => noteEnd atEnd ("expected " ++ x.text)
  | .expected [x, y] atEnd => noteEnd atEnd ("expected " ++ x.text ++ " or " ++ y.text)
  | .expected xs atEnd =>
    noteEnd atEnd ("expected one of: " ++ ", ".intercalate (xs.map Wanted.text))
  | .keyword w => s!"expected identifier, found keyword `{w}`"
  | .rule r atEnd => noteEnd atEnd r.text
  | .exhausted => "unexpected end of input"

end Bindery.Source
