import Bindery.Json.SchemaReader

/-!
# Envelopes

Each reply says whether the call worked, and if not why.
-/
namespace Bindery

open Json (Schema FieldRule)

structure Envelope where
  ok : Bool
  error : String := ""
  warning : Option String := none
  deriving DecidableEq, Repr

namespace Envelope

def fields : List (FieldRule × Schema) := [
  (⟨"ok", [], true, false⟩, .flag),
  (⟨"error", [], false, false⟩, .text),
  (⟨"warning", [], false, false⟩, .option .text)]

def schema : Schema := .record "ResponseEnvelope" fields

def ofRow (row : Schema.Value schema) : Envelope :=
  let (ok, error, warning, ()) := row
  ⟨ok, error, warning⟩

def reader : Json.Reader Envelope := do
  return ofRow (← schema.read Json.maxDepth)

end Envelope

end Bindery
