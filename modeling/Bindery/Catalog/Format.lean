import Bindery.Catalog.Basic
import Bindery.Json.SchemaReader

/-!
# The text form of catalogs

A catalog is a JSON list of endpoints, or an object with such a list under `endpoints`. Some keys
have a second spelling that is accepted when reading.
-/
namespace Bindery

open Json (Schema FieldRule)

private def optionalField (key : String) (aliases : List String) (s : Schema) :
    FieldRule × Schema :=
  (⟨key, aliases, false, true⟩, s)

def Argument.fields : List (FieldRule × Schema) := [
  (⟨"name", [], true, false⟩, .text),
  (⟨"type", [], true, false⟩, .text),
  optionalField "required" [] .flag,
  optionalField "default" [] .text,
  optionalField "query_name" [] .text,
  optionalField "comment" [] .text,
  optionalField "singular" [] (.option .text)]

def Argument.schema : Schema := .record "Argument" Argument.fields

def Endpoint.fields : List (FieldRule × Schema) := [
  (⟨"name", [], true, false⟩, .text),
  optionalField "group" [] .text,
  optionalField "json" ["response_field"] .text,
  optionalField "args" ["arguments"] (.list Argument.schema),
  optionalField "return" ["return_type"] .text,
  optionalField "skip_token" [] .flag]

def Endpoint.schema : Schema := .record "Endpoint" Endpoint.fields

/-- The endpoints of a catalog that is an object. -/
def Catalog.fields : List (FieldRule × Schema) := [
  (⟨"endpoints", [], true, false⟩, .list Endpoint.schema)]

def Catalog.schema : Schema := .record "Catalog" Catalog.fields

def Argument.ofRow (row : Schema.Value Argument.schema) : Argument :=
  let (name, type, required, default, queryName, comment, singular, ()) := row
  ⟨name, ArgType.ofText type, required, default, queryName, comment, singular⟩

def Argument.toRow (a : Argument) : Schema.Value Argument.schema :=
  (a.name, a.type.name, a.required, a.default, a.queryName, a.comment, a.singular, ())

def Endpoint.ofRow (row : Schema.Value Endpoint.schema) : Endpoint :=
  let (name, group, responseField, arguments, returnType, skipToken, ()) := row
  ⟨name, group, responseField, List.map Argument.ofRow arguments, returnType, skipToken⟩

def Endpoint.toRow (e : Endpoint) : Schema.Value Endpoint.schema :=
  (e.name, e.group, e.responseField, List.map Argument.toRow e.arguments, e.returnType,
    e.skipToken, ())

def Catalog.ofRows (rows : Schema.Value (.list Endpoint.schema)) : Catalog :=
  ⟨List.map Endpoint.ofRow rows⟩

def Catalog.toRow (c : Catalog) : Schema.Value Catalog.schema :=
  (List.map Endpoint.toRow c.endpoints, ())

/-- The endpoint a text holds. -/
def Endpoint.parse (text : String) : Except Json.Fault Endpoint :=
  (Endpoint.schema.parse (Text.pieces text)).map Endpoint.ofRow

def Argument.parse (text : String) : Except Json.Fault Argument :=
  (Argument.schema.parse (Text.pieces text)).map Argument.ofRow

/-- The endpoints a text lists. -/
def Endpoint.parseList (text : String) : Except Json.Fault (List Endpoint) :=
  ((Schema.list Endpoint.schema).parse (Text.pieces text)).map fun c => (Catalog.ofRows c).endpoints

/-- The catalog a document holds. -/
def Catalog.ofJson? (doc : Json) : Option Catalog :=
  match doc with
  | .array _ => ((Schema.list Endpoint.schema).ofJson doc).toOption.map Catalog.ofRows
  | .object ms => (Schema.ofMembers Catalog.fields ms).toOption.map fun row => Catalog.ofRows row.1
  | _ => none

/-- The catalog a text holds. The text is first read as a document; a document of another form is
refused as a whole. -/
def Catalog.parse (text : String) : Except Json.Fault Catalog := do
  let doc ← Json.parse (Text.pieces text)
  match Catalog.ofJson? doc with
  | some c => return c
  | none => throw ⟨.noVariant "CatalogFile", none⟩

def Endpoint.toJson (e : Endpoint) : Json := Endpoint.schema.toJson e.toRow

/-- The text of a catalog, with its endpoints under `endpoints`. -/
def Catalog.write (c : Catalog) : String := Catalog.schema.write c.toRow

end Bindery
