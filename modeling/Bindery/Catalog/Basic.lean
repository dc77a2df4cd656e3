import Bindery.Text.Blank

/-!
# Endpoint catalogs

A catalog lists the remote procedures that bindings are generated for. The name of an endpoint is
dotted; what stands before its last dot is its namespace.
-/
namespace Bindery

/-- How an argument is stored, tested for emptiness and encoded. -/
inductive ArgType where
  | text
  | boolean
  | integer
  | list (element : String)
  | object (type : String)
  deriving DecidableEq, Repr

/-- One parameter of an endpoint. Empty texts are unset. -/
structure Argument where
  name : String
  type : ArgType
  required : Bool := false
  /-- The value the remote side assumes, for documentation only. -/
  default : String := ""
  /-- The form key, if it differs from the name. -/
  queryName : String := ""
  comment : String := ""
  /-- The name of the setter that appends to a list. -/
  singular : Option String := none
  deriving DecidableEq, Repr

/-- One remote procedure. Empty texts are unset. -/
structure Endpoint where
  name : String
  /-- The service the call belongs to, if it does not follow from the namespace. -/
  group : String := ""
  /-- The field of the response that holds the payload; unset if the payload is spread over the
  response itself. -/
  responseField : String := ""
  arguments : List Argument := []
  /-- The type of the payload; unset if only success or failure is reported. -/
  returnType : String := ""
  /-- The call is sent without the token. -/
  skipToken : Bool := false
  deriving DecidableEq, Repr

structure Catalog where
  endpoints : List Endpoint
  deriving DecidableEq, Repr

/-- The part between a prefix and a suffix, if the text has both and they do not overlap. -/
def between? (pre suf s : List Char) : Option (List Char) :=
  if pre.isPrefixOf s && suf.isSuffixOf (s.drop pre.length) then
    some ((s.drop pre.length).take (s.length - pre.length - suf.length))
  else none

/-- The type a catalog names. Anything that is neither a basic type nor a list is the type of an
object. -/
def ArgType.ofText (s : String) : ArgType :=
  let s := Text.trim s.toList
  if s = "string".toList then .text
  else if s = "bool".toList then .boolean
  else if s = "int".toList then .integer
  else match between? "Vec<".toList ['>'] s with
    | some element => .list (String.ofList (Text.trim element))
    | none => .object (String.ofList s)

/-- The name of a type in a catalog. -/
def ArgType.name : ArgType → String
  | .text => "string"
  | .boolean => "bool"
  | .integer => "int"
  | .list element => s!"Vec<{element}>"
  | .object type => type

def ArgType.isList : ArgType → Bool
  | .list _ => true
  | _ => false

/-- The form key an argument is sent under. -/
def Argument.queryKey (a : Argument) : String := if a.queryName = "" then a.name else a.queryName

/-- What stands before and after the last occurrence of a character. -/
def splitLast? (c : Char) (s : List Char) : Option (List Char × List Char) :=
  if s.contains c then
    let after := (s.reverse.takeWhile (· != c)).reverse
    some (s.take (s.length - after.length - 1), after)
  else none

def Endpoint.namespace? (e : Endpoint) : Option String :=
  (splitLast? '.' e.name.toList).map fun p => String.ofList p.1

def Endpoint.method? (e : Endpoint) : Option String :=
  (splitLast? '.' e.name.toList).map fun p => String.ofList p.2

/-- The unit a namespace is emitted in: its dots become underscores. -/
def unitOf (ns : String) : String :=
  String.ofList (ns.toList.map fun c => if c == '.' then '_' else c)

def Endpoint.unit? (e : Endpoint) : Option String := e.namespace?.map unitOf

def Endpoint.hasReturn (e : Endpoint) : Bool := e.returnType != ""

/-- The position of the first endpoint of a name. -/
def Catalog.find? (c : Catalog) (name : String) : Option Nat :=
  c.endpoints.findIdx? (·.name == name)

end Bindery
