import Bindery.Json.Fault
import Bindery.Text.Digits
import Bindery.Text.Utf8

/-!
# Reading JSON text

Readers consume a list of pieces from the front. A reader that stops says why, with the pieces not
yet consumed and how many bytes of those the fault includes, from which its position follows.
Documents nest at most 127 levels deep, except where a value is skipped.
-/
namespace Bindery.Json

open Bindery.Text (Piece)

/-- Why and where reading stopped. -/
structure Stop where
  cause : Cause
  rest : List Piece
  /-- Bytes of the rest that count as read. -/
  ahead : Nat

abbrev Reader := StateT (List Piece) (Except Stop)

/-- Line and column after some bytes from a position on. -/
def advance : Nat × Nat → Nat → List Piece → Nat × Nat
  | at_, 0, _ => at_
  | at_, _, [] => at_
  | (line, column), bytes + 1, p :: rest =>
    if p == .char '\n' then advance (line + 1, 0) bytes rest
    else if p.size ≤ bytes + 1 then advance (line, column + p.size) (bytes + 1 - p.size) rest
    else (line, column + bytes + 1)

/-- The fault of a reader that stopped in the given text. -/
def Stop.fault (s : Stop) (text : List Piece) : Fault :=
  let read := text.take (text.length - s.rest.length)
  ⟨s.cause, some (advance (1, 0) (Text.size read + s.ahead) text)⟩

/-- Stops at the current place. -/
def stop (cause : Cause) : Reader α := do
  throw ⟨cause, ← get, 0⟩

/-- Stops with the next byte counted as read. -/
def stopAhead (cause : Cause) : Reader α := do
  throw ⟨cause, ← get, 1⟩

def mismatched (m : Mismatch) : Reader α := stop (.mismatch m)

/-- The next character; bytes that form none never have a meaning outside strings. -/
def peek : Reader (Option Char) := do
  return (← get).head?.map Piece.shown

def skip : Reader Unit := modify List.tail

def isSpace (p : Piece) : Bool :=
  p == .char ' ' || p == .char '\n' || p == .char '\t' || p == .char '\r'

/-- Skips blanks and shows the next character. -/
def peekPastSpace : Reader (Option Char) := do
  modify (List.dropWhile isSpace)
  peek

/-- The rest of a literal word. -/
def word : List Char → Reader Unit
  | [] => return
  | c :: rest => do
    match ← peek with
    | none => stop .endInValue
    | some d => if c == d then skip; word rest else stopAhead .badWord

/-- The value of four hexadecimal digits. The next four bytes are consumed whatever they are. -/
def hexQuad (text : List Piece) : Except Stop (Nat × List Piece) :=
  let quad := (text.take 4).mapM fun p => p.char?.bind Text.hexValue?
  match quad with
  | some [a, b, c, d] => .ok (((a * 16 + b) * 16 + c) * 16 + d, text.drop 4)
  | _ =>
    if Text.size text < 4 then .error ⟨.endInString, [], 0⟩
    else .error ⟨.badEscape, text, 4⟩

/-- The character of a one-letter escape. -/
def shortEscape? (c : Char) : Option Char :=
  match c with
  | '"' => some '"'
  | '\\' => some '\\'
  | '/' => some '/'
  | 'b' => some '\x08'
  | 'f' => some '\x0c'
  | 'n' => some '\n'
  | 'r' => some '\r'
  | 't' => some '\t'
  | _ => none

/-- The character of a code point escape after its letter. A high surrogate must be followed by
the escape of a low one. -/
def codePoint (text : List Piece) : Except Stop (Char × List Piece) := do
  let (n, rest) ← hexQuad text
  if 0xdc00 ≤ n && n ≤ 0xdfff then throw ⟨.loneSurrogate, rest, 0⟩
  if n < 0xd800 || 0xdbff < n then return (Char.ofNat n, rest)
  match rest with
  | [] => throw ⟨.endInString, [], 0⟩
  | first :: rest' =>
    if first != .char '\\' then throw ⟨.unfinishedSurrogatePair, rest, 1⟩
    match rest' with
    | [] => throw ⟨.endInString, [], 0⟩
    | second :: rest'' =>
      if second != .char 'u' then throw ⟨.unfinishedSurrogatePair, rest', 1⟩
      let (low, after) ← hexQuad rest''
      if low < 0xdc00 || 0xdfff < low then throw ⟨.loneSurrogate, after, 0⟩
      return (Char.ofNat ((n - 0xd800) * 0x400 + (low - 0xdc00) + 0x10000), after)

/-- The inside of a string and its closing quote. Characters come latest first; bytes that are no
text are only reported at the closing quote. -/
def stringFrom : Nat → List Char → Bool → List Piece → Except Stop (String × List Piece)
  | 0, _, _, text => .error ⟨.endInString, text, 0⟩
  | _ + 1, _, _, [] => .error ⟨.endInString, [], 0⟩
  | steps + 1, read, sound, p :: rest =>
    match p with
    | .broken _ => stringFrom steps read false rest
    | .char '"' =>
      if sound then .ok (String.ofList read.reverse, rest) else .error ⟨.notUnicode, rest, 0⟩
    | .char '\\' =>
      match rest with
      | [] => .error ⟨.endInString, [], 0⟩
      | e :: rest' =>
        if e == .char 'u' then
          match codePoint rest' with
          | .ok (c, after) => stringFrom steps (c :: read) sound after
          | .error s => .error s
        else
          match e.char?.bind shortEscape? with
          | some c => stringFrom steps (c :: read) sound rest'
          | none => .error ⟨.badEscape, rest, 1⟩
    | .char c =>
      if c < ' ' then .error ⟨.controlCharacter, p :: rest, 1⟩
      else stringFrom steps (c :: read) sound rest

/-- A string after its opening quote. -/
def stringBody : Reader String := do
  let text ← get
  match stringFrom (text.length + 1) [] true text with
  | .ok (s, rest) => set rest; return s
  | .error s => throw s

/-- Digits as far as they go. -/
def digits : Reader (List Char) := do
  let text ← get
  let isDigit (p : Piece) : Bool := p.char?.any Char.isDigit
  set (text.dropWhile isDigit)
  return (text.takeWhile isDigit).map Piece.shown

/-- The largest significand that is kept; further digits only scale or are dropped. -/
def significandLimit : Nat := UInt64.size

/-- Reads digits into a significand until the next would exceed the limit. Gives the significand
and the digits left over. -/
def absorb (significand : Nat) : List Char → Nat × List Char
  | [] => (significand, [])
  | c :: rest =>
    let next := significand * 10 + (c.toNat - '0'.toNat)
    if next < significandLimit then absorb next rest else (significand, c :: rest)

def realOf (positive : Bool) (significand : Nat) (exponent : Int) : Reader Json := do
  match doubleOf positive significand exponent with
  | some x => return .real x
  | none => stop .numberOutOfRange

/-- Reads decimal digits of an exponent, whose value must stay below `2 ^ 31`. -/
def absorbExponent (e : Nat) : List Char → Nat × List Char
  | [] => (e, [])
  | c :: rest =>
    let next := e * 10 + (c.toNat - '0'.toNat)
    if next < 0x80000000 then absorbExponent next rest else (e, c :: rest)

/-- The exponent of a number, after its letter. -/
def exponentPart (positive : Bool) (significand : Nat) (scale : Int) : Reader Json := do
  skip
  let up ← match ← peek with
    | some '+' => skip; pure true
    | some '-' => skip; pure false
    | _ => pure true
  match ← peek with
  | none => stop .endInValue
  | some c => if !c.isDigit then stopAhead .badNumber
  let before ← get
  let ds ← digits
  let (e, excess) := absorbExponent 0 ds
  if excess.isEmpty then
    realOf positive significand (if up then scale + e else scale - e)
  else if significand != 0 && up then
    throw ⟨.numberOutOfRange, before.drop (ds.length - excess.length + 1), 0⟩
  else
    return .real (if positive then 0.0 else -0.0)

/-- The digits after the point of a number. -/
def fractionPart (positive : Bool) (significand : Nat) (scale : Int) : Reader Json := do
  skip
  let ds ← digits
  if ds.isEmpty then
    match ← peek with
    | some _ => stopAhead .badNumber
    | none => stop .endInValue
  let (significand, excess) := absorb significand ds
  let scale := scale - ((ds.length - excess.length : Nat) : Int)
  match ← peek with
  | some 'e' | some 'E' => exponentPart positive significand scale
  | _ => realOf positive significand scale

/-- A number after its sign. -/
def number (positive : Bool) : Reader Json := do
  let ds ← digits
  match ds with
  | [] =>
    match ← peek with
    | none => stop .endInValue
    | some _ => stopAhead .badNumber
  | '0' :: _ :: _ =>
    let after ← get
    throw ⟨.badNumber, ds.tail.map .char ++ after, 1⟩
  | _ =>
    let (significand, excess) := absorb 0 ds
    let scale : Int := excess.length
    match ← peek with
    | some '.' => fractionPart positive significand scale
    | some 'e' | some 'E' => exponentPart positive significand scale
    | _ =>
      if !excess.isEmpty then realOf positive significand scale
      else if positive then return .integer significand
      else if significand == 0 || 0x8000000000000000 < significand then realOf false significand 0
      else return .integer (-(significand : Int))

/-- A value that is neither a list nor an object, given its first character. -/
def scalar (first : Char) : Reader Json := do
  match first with
  | 'n' => skip; word ['u', 'l', 'l']; return .null
  | 't' => skip; word ['r', 'u', 'e']; return .bool true
  | 'f' => skip; word ['a', 'l', 's', 'e']; return .bool false
  | '-' => skip; number false
  | '"' => skip; return .string (← stringBody)
  | c => if c.isDigit then number true else stopAhead .noValue

/-- Whether another item of a list follows; a comma before it is consumed. The first item has
none. -/
def anotherItem (first : Bool) : Reader Bool := do
  match ← peekPastSpace with
  | none => stop .endInList
  | some ']' => return false
  | some c =>
    if first then return true
    if c != ',' then stopAhead .noListCommaOrEnd
    skip
    match ← peekPastSpace with
    | none => stop .endInValue
    | some ']' => stopAhead .trailingComma
    | some _ => return true

/-- The items of a list up to its closing bracket, which is left. -/
def itemsFrom (item : Reader α) : Nat → Bool → Reader (List α)
  | 0, _ => stop .endInList
  | steps + 1, first => do
    if ← anotherItem first then
      let x ← item
      return x :: (← itemsFrom item steps false)
    else return []

def items (item : Reader α) : Reader (List α) := do
  itemsFrom item ((← get).length + 1) true

/-- Consumes the bracket that ends a list. -/
def closeList : Reader Unit := do
  match ← peekPastSpace with
  | none => stop .endInList
  | some ']' => skip
  | some ',' =>
    skip
    match ← peekPastSpace with
    | some ']' => stopAhead .trailingComma
    | _ => stopAhead .trailingCharacters
  | some _ => stopAhead .trailingCharacters

/-- The key of the next member of an object, and its colon. None at the closing brace, which is
left. -/
def nextKey (first : Bool) : Reader (Option String) := do
  match ← peekPastSpace with
  | none => stop .endInObject
  | some '\x7d' => return none
  | some c =>
    if first then
      if c != '"' then stopAhead .keyNotString
    else
      if c != ',' then stopAhead .noObjectCommaOrEnd
      skip
      match ← peekPastSpace with
      | none => stop .endInValue
      | some '"' => pure ()
      | some '\x7d' => stopAhead .trailingComma
      | some _ => stopAhead .keyNotString
    skip
    return some (← stringBody)

def colon : Reader Unit := do
  match ← peekPastSpace with
  | none => stop .endInObject
  | some ':' => skip
  | some _ => stopAhead .noColon

/-- The members of an object up to its closing brace, which is left. -/
def membersFrom (value : Reader α) : Nat → Bool → Reader (List (String × α))
  | 0, _ => stop .endInObject
  | steps + 1, first => do
    match ← nextKey first with
    | none => return []
    | some key =>
      colon
      let x ← value
      return (key, x) :: (← membersFrom value steps false)

def members (value : Reader α) : Reader (List (String × α)) := do
  membersFrom value ((← get).length + 1) true

/-- Consumes the brace that ends an object. -/
def closeObject : Reader Unit := do
  match ← peekPastSpace with
  | none => stop .endInObject
  | some '\x7d' => skip
  | some ',' => stopAhead .trailingComma
  | some _ => stopAhead .trailingCharacters

/-- Any value, given how the values inside a list or an object are read; none if those would lie
too deep. -/
def valueWith (inner : Option (Reader Json)) : Reader Json := do
  match ← peekPastSpace with
  | none => stop .endInValue
  | some '[' =>
    match inner with
    | none => stopAhead .tooDeep
    | some inner =>
      skip
      let xs ← items inner
      closeList
      return .array xs
  | some '\x7b' =>
    match inner with
    | none => stopAhead .tooDeep
    | some inner =>
      skip
      let ms ← members inner
      closeObject
      return .object ms
  | some c => scalar c

/-- Any value, with the number of levels it may still nest. -/
def value : Nat → Reader Json
  | 0 => valueWith none
  | depth + 1 => valueWith (some (value depth))

/-- Levels a document may nest. -/
def maxDepth : Nat := 127

/-- Runs a reader over a whole text. -/
def Reader.run? (r : Reader α) (text : List Piece) : Except Fault α :=
  let whole : Reader α := do
    let x ← r
    match ← peekPastSpace with
    | none => return x
    | some _ => stopAhead .trailingCharacters
  match whole text with
  | .ok (x, _) => .ok x
  | .error s => .error (s.fault text)

/-- The document a text holds. -/
def parse (text : List Piece) : Except Fault Json := (value maxDepth).run? text

end Bindery.Json
