import Bindery.Json.Basic
import Bindery.Json.Fault

/-!
# Schemas

A schema describes the records a program exchanges as JSON: which fields they have, what each
holds, and how it is left out. Its values are ordinary nested pairs, one component a field.
-/
namespace Bindery.Json

/-- How a field is written and read. A field that is not needed is empty when it is missing. -/
structure FieldRule where
  key : String
  aliases : List String := []
  needed : Bool := false
  /-- An empty value is not written. -/
  omitEmpty : Bool := false
  deriving DecidableEq, Repr

def FieldRule.names (rule : FieldRule) : List String := rule.key :: rule.aliases

inductive Schema where
  | text
  | flag
  | integer
  | list (item : Schema)
  | option (content : Schema)
  | record (name : String) (fields : List (FieldRule × Schema))
  deriving Inhabited

namespace Schema

mutual

def Value : Schema → Type
  | .text => String
  | .flag => Bool
  | .integer => Int64
  | .list item => List (Value item)
  | .option content => Option (Value content)
  | .record _ fields => Row fields

/-- The values of a record's fields, in order. -/
def Row : List (FieldRule × Schema) → Type
  | [] => Unit
  | (_, s) :: rest => Value s × Row rest

end

mutual

/-- The value of a field that is missing. -/
def empty : (s : Schema) → Value s
  | .text => ("" : String)
  | .flag => false
  | .integer => (0 : Int64)
  | .list item => ([] : List (Value item))
  | .option content => (none : Option (Value content))
  | .record _ fields => emptyRow fields

def emptyRow : (fields : List (FieldRule × Schema)) → Row fields
  | [] => ()
  | (_, s) :: rest => (empty s, emptyRow rest)

end

/-- Whether a value is left out of a record that omits empty values. A record never is. -/
def isEmpty : (s : Schema) → Value s → Bool
  | .text, (v : String) => v == ""
  | .flag, (v : Bool) => !v
  | .integer, (v : Int64) => v == 0
  | .list _, v => List.isEmpty v
  | .option _, v => Option.isNone v
  | .record _ _, _ => false

mutual

/-- The document of a value. -/
def toJson : (s : Schema) → Value s → Json
  | .text, (v : String) => .string v
  | .flag, (v : Bool) => .bool v
  | .integer, (v : Int64) => .integer v.toInt
  | .list item, (v : List (Value item)) => .array (List.map (toJson item) v)
  | .option content, (v : Option (Value content)) =>
    match v with
    | none => .null
    | some x => toJson content x
  | .record _ fields, v => .object (toMembers fields v)

def toMembers : (fields : List (FieldRule × Schema)) → Row fields → List (String × Json)
  | [], _ => []
  | (rule, s) :: rest, (v, vs) =>
    if rule.omitEmpty && isEmpty s v then toMembers rest vs
    else (rule.key, toJson s v) :: toMembers rest vs

end

/-- What has been read of a record so far. -/
def Slots : List (FieldRule × Schema) → Type
  | [] => Unit
  | (_, s) :: rest => Option (Value s) × Slots rest

def noSlots : (fields : List (FieldRule × Schema)) → Slots fields
  | [] => ()
  | _ :: rest => (none, noSlots rest)

/-- The record once all its members have been read. -/
def fill : (fields : List (FieldRule × Schema)) → Slots fields → Except Mismatch (Row fields)
  | [], _ => .ok ()
  | (rule, s) :: rest, (slot, slots) => do
    let v ← match slot with
      | some v => .ok v
      | none => if rule.needed then .error (.missingField rule.key) else .ok (empty s)
    let vs ← fill rest slots
    return (v, vs)

def textOf : Json → Except Mismatch String
  | .string s => .ok s
  | other => .error (.wrongType (found other) "a string")

def flagOf : Json → Except Mismatch Bool
  | .bool b => .ok b
  | other => .error (.wrongType (found other) "a boolean")

def integerOf : Json → Except Mismatch Int64
  | .integer n =>
    if Int64.minValue.toInt ≤ n && n ≤ Int64.maxValue.toInt then .ok (Int64.ofInt n)
    else .error (.integerOutOfRange n)
  | other => .error (.wrongType (found other) "i64")

mutual

/-- The value a document holds. A record may be an object or the list of its fields in order. -/
def ofJson : (s : Schema) → Json → Except Mismatch (Value s)
  | .text, j => textOf j
  | .flag, j => flagOf j
  | .integer, j => integerOf j
  | .list item, j =>
    match j with
    | .array xs => (xs.mapM (ofJson item) : Except Mismatch (List (Value item)))
    | other => .error (.wrongType (found other) "a sequence")
  | .option content, j =>
    match j with
    | .null => .ok (none : Option (Value content))
    | other => (ofJson content other).map (some : Value content → Option (Value content))
  | .record name fields, j =>
    match j with
    | .object ms => do
      let slots ← ms.foldlM (fun slots m => (store fields m.1 m.2 slots).getD (.ok slots))
        (noSlots fields)
      fill fields slots
    | .array xs => ofItems name fields.length 0 fields xs
    | other => .error (.wrongType (found other) s!"struct {name}")

/-- Puts a member into the slot of its key; none if no field has the key. -/
def store : (fields : List (FieldRule × Schema)) → String → Json → Slots fields →
    Option (Except Mismatch (Slots fields))
  | [], _, _, _ => none
  | (rule, s) :: rest, key, j, (slot, slots) =>
    if rule.names.contains key then
      some (match slot with
        | some _ => .error (.duplicateField rule.key)
        | none => (ofJson s j).map fun v => (some v, slots))
    else (store rest key j slots).map fun r => r.map fun slots => (slot, slots)

/-- The fields listed in order from the given index on. -/
def ofItems (name : String) (size : Nat) : Nat → (fields : List (FieldRule × Schema)) →
    List Json → Except Mismatch (Row fields)
  | index, [], xs =>
    if xs.isEmpty then .ok () else .error (.tooLong (index + xs.length) index)
  | index, (rule, s) :: rest, [] =>
    if rule.needed then .error (.tooShort index name size)
    else (ofItems name size (index + 1) rest []).map fun vs => (empty s, vs)
  | index, (_, s) :: rest, x :: xs => do
    let v ← ofJson s x
    let vs ← ofItems name size (index + 1) rest xs
    return (v, vs)

end

/-- The record among the members of a larger object. -/
def ofMembers (fields : List (FieldRule × Schema)) (ms : List (String × Json)) :
    Except Mismatch (Row fields) := do
  let slots ← ms.foldlM (fun slots m => (store fields m.1 m.2 slots).getD (.ok slots))
    (noSlots fields)
  fill fields slots

end Schema

end Bindery.Json
