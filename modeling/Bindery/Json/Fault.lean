import Bindery.Json.Basic
import Bindery.Json.Double
import Bindery.Text.Quoted

/-!
# Faults in JSON texts

A text can break the grammar of JSON, or hold a value of another form than the one asked for.
-/
namespace Bindery.Json

/-- What was found where something else was expected. -/
inductive Found where
  | null
  | bool (b : Bool)
  | integer (n : Int)
  | real (x : Float)
  | string (s : String)
  | sequence
  | map
  deriving Repr

/-- A value that does not have the form asked for. -/
inductive Mismatch where
  | wrongType (found : Found) (expected : String)
  | integerOutOfRange (n : Int)
  | missingField (key : String)
  | duplicateField (key : String)
  | tooShort (length : Nat) (record : String) (fields : Nat)
  | tooLong (length : Nat) (fields : Nat)
  deriving Repr

/-- Why reading stopped. -/
inductive Cause where
  | endInValue
  | endInObject
  | endInList
  | endInString
  | noValue
  | badWord
  | noColon
  | noObjectCommaOrEnd
  | noListCommaOrEnd
  | trailingComma
  | trailingCharacters
  | keyNotString
  | badNumber
  | numberOutOfRange
  | badEscape
  | loneSurrogate
  | unfinishedSurrogatePair
  | controlCharacter
  | notUnicode
  | tooDeep
  | mismatch (m : Mismatch)
  /-- The document is neither a list nor a wrapped list of the expected records. -/
  | noVariant (name : String)
  deriving Repr

/-- A cause and where reading stood: the line from 1 and the bytes read of it. Some faults concern
the document as a whole. -/
structure Fault where
  cause : Cause
  position : Option (Nat × Nat)
  deriving Repr

def Found.text : Found → String
  | .null => "null"
  | .bool b => s!"boolean `{b}`"
  | .integer n => s!"integer `{n}`"
  | .real x => s!"floating point `{String.ofList (doubleText x)}`"
  | .string s => s!"string {String.ofList (Text.quoted s.toList)}"
  | .sequence => "sequence"
  | .map => "map"

def Mismatch.message : Mismatch → String
  | .wrongType found expected => s!"invalid type: {found.text}, expected {expected}"
  | .integerOutOfRange n => s!"invalid value: {(Found.integer n).text}, expected i64"
  | .missingField key => s!"missing field `{key}`"
  | .duplicateField key => s!"duplicate field `{key}`"
  | .tooShort length record fields =>
    let noun := if fields == 1 then "element" else "elements"
    s!"invalid length {length}, expected struct {record} with {fields} {noun}"
  | .tooLong length fields =>
    let noun := if fields == 1 then "element" else "elements"
    s!"invalid length {length}, expected {fields} {noun} in sequence"

def Cause.message : Cause → String
  | .endInValue => "EOF while parsing a value"
  | .endInObject => "EOF while parsing an object"
  | .endInList => "EOF while parsing a list"
  | .endInString => "EOF while parsing a string"
  | .noValue => "expected value"
  | .badWord => "expected ident"
  | .noColon => "expected `:`"
  | .noObjectCommaOrEnd => "expected `,` or `\x7d`"
  | .noListCommaOrEnd => "expected `,` or `]`"
  | .trailingComma => "trailing comma"
  | .trailingCharacters => "trailing characters"
  | .keyNotString => "key must be a string"
  | .badNumber => "invalid number"
  | .numberOutOfRange => "number out of range"
  | .badEscape => "invalid escape"
  | .loneSurrogate => "lone leading surrogate in hex escape"
  | .unfinishedSurrogatePair => "unexpected end of hex escape"
  | .controlCharacter => "control character (\\u0000-\\u001F) found while parsing a string"
  | .notUnicode => "invalid unicode code point"
  | .tooDeep => "recursion limit exceeded"
  | .mismatch m => m.message
  | .noVariant name => s!"data did not match any variant of untagged enum {name}"

def Fault.message (f : Fault) : String :=
  match f.position with
  | some (line, column) => s!"{f.cause.message} at line {line} column {column}"
  | none => f.cause.message

/-- How a value is named in a mismatch. -/
def found : Json → Found
  | .null => .null
  | .bool b => .bool b
  | .integer n => .integer n
  | .real x => .real x
  | .string s => .string s
  | .array _ => .sequence
  | .object _ => .map

end Bindery.Json
