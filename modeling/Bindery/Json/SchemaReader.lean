import Bindery.Json.Printer
import Bindery.Json.Schema
import Bindery.Json.Skip

/-!
# Reading records from text

A record is read from the text itself, field by field in the order of the text, so that the first
fault in the text is the one reported. A fault of the record as a whole (a missing or repeated
field) is placed where the record ends or where reading it was given up.
-/
namespace Bindery.Json

/-- Reports a value of a form that was not expected. Lists and objects are not read for it. -/
def refuse (expected : String) (first : Char) : Reader α := do
  if first == '[' then mismatched (.wrongType .sequence expected)
  if first == '\x7b' then mismatched (.wrongType .map expected)
  let v ← scalar first
  mismatched (.wrongType (found v) expected)

/-- A value without parts, as `pick` takes it from its document. -/
def scalarAs (expected : String) (pick : Json → Except Mismatch α) : Reader α := do
  match ← peekPastSpace with
  | none => stop .endInValue
  | some '[' => refuse expected '['
  | some '\x7b' => refuse expected '\x7b'
  | some c =>
    match pick (← scalar c) with
    | .ok x => return x
    | .error m => mismatched m

/-- Null, or what `content` reads. -/
def optional (content : Reader α) : Reader (Option α) := do
  match ← peekPastSpace with
  | some 'n' => skip; word ['u', 'l', 'l']; return none
  | _ => return some (← content)

/-- Ends a record that was given up: its closing bracket is consumed if it comes next. -/
def giveUp (close : Char) (m : Mismatch) : Reader α := do
  if (← peekPastSpace) == some close then skip
  mismatched m

/-- What is to be done with the member of some key. -/
inductive Member (σ : Type) where
  | unknown
  | repeated (m : Mismatch)
  | known (read : Reader σ)

/-- Reads the members of an object up to its closing brace, or up to the key of a repeated one. -/
def recordFrom (member : String → σ → Member σ) : Nat → Bool → σ → Reader (Except Mismatch σ)
  | 0, _, _ => stop .endInObject
  | steps + 1, first, slots => do
    match ← nextKey first with
    | none => return .ok slots
    | some key =>
      match member key slots with
      | .unknown =>
        colon
        skipValue
        recordFrom member steps false slots
      | .repeated m => return .error m
      | .known read =>
        colon
        let slots ← read
        recordFrom member steps false slots

/-- An object read into slots, which `finish` turns into a record. -/
def readObject (member : String → σ → Member σ) (start : σ) (finish : σ → Except Mismatch α) :
    Reader α := do
  skip
  let read ← recordFrom member ((← get).length + 1) true start
  match read.bind finish with
  | .ok x =>
    closeObject
    return x
  | .error m => giveUp '\x7d' m

/-- A list read as a record. -/
def readList (read : Reader (Except Mismatch α)) : Reader α := do
  skip
  match ← read with
  | .ok x =>
    closeList
    return x
  | .error m => giveUp ']' m

namespace Schema

mutual

/-- Reads a value, with the number of levels that may still nest. -/
def read : (s : Schema) → Nat → Reader (Value s)
  | .text, _ => scalarAs "a string" textOf
  | .flag, _ => scalarAs "a boolean" flagOf
  | .integer, _ => scalarAs "i64" integerOf
  | .list item, depth => do
    match ← peekPastSpace with
    | none => stop .endInValue
    | some '[' =>
      match depth with
      | 0 => stopAhead .tooDeep
      | depth + 1 =>
        skip
        let xs ← items (read item depth)
        closeList
        return xs
    | some c => refuse "a sequence" c
  | .option content, depth => optional (read content depth)
  | .record name fields, depth => do
    match ← peekPastSpace with
    | none => stop .endInValue
    | some '[' =>
      match depth with
      | 0 => stopAhead .tooDeep
      | depth + 1 => readList (readItems name fields.length depth 0 true fields)
    | some '\x7b' =>
      match depth with
      | 0 => stopAhead .tooDeep
      | depth + 1 => readObject (member depth fields) (noSlots fields) (fill fields)
    | some c => refuse s!"struct {name}" c

/-- Reads a member into the slot of its key. -/
def member (depth : Nat) : (fields : List (FieldRule × Schema)) → String → Slots fields →
    Member (Slots fields)
  | [], _, _ => .unknown
  | (rule, s) :: rest, key, (slot, slots) =>
    if rule.names.contains key then
      match slot with
      | some _ => .repeated (.duplicateField rule.key)
      | none => .known do
        let v ← read s depth
        return (some v, slots)
    else
      match member depth rest key slots with
      | .unknown => .unknown
      | .repeated m => .repeated m
      | .known more => .known do
        return (slot, ← more)

/-- Reads the fields listed in order from the given index on. -/
def readItems (name : String) (size depth : Nat) : Nat → Bool →
    (fields : List (FieldRule × Schema)) → Reader (Except Mismatch (Row fields))
  | _, _, [] => return .ok ()
  | index, first, (rule, s) :: rest => do
    if ← anotherItem first then
      let v ← read s depth
      return (← readItems name size depth (index + 1) false rest).map fun vs => (v, vs)
    else if rule.needed then
      return .error (.tooShort index name size)
    else
      return (← readItems name size depth (index + 1) first rest).map fun vs => (empty s, vs)

end

/-- The value a whole text holds. -/
def parse (s : Schema) (text : List Text.Piece) : Except Fault (Value s) :=
  (read s maxDepth).run? text

/-- The value a document holds, as text. -/
def write (s : Schema) (v : Value s) : String := Json.text (toJson s v)

end Schema

/-- Null alone. -/
def unit : Reader Unit :=
  scalarAs "unit" fun j => match j with
    | .null => .ok ()
    | other => .error (.wrongType (found other) "unit")

/-- A map of strings. -/
def stringMap : Reader (List (String × String)) := do
  match ← peekPastSpace with
  | none => stop .endInValue
  | some '\x7b' =>
    skip
    let ms ← members (scalarAs "a string" Schema.textOf)
    closeObject
    return ms
  | some c => refuse "a map" c

end Bindery.Json
