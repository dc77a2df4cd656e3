import Bindery.Source.Reading

/-!
# Settings of a run

Where emitted code finds what it needs at run time, under which form key the token is sent, and how
the output is labelled.
-/
namespace Bindery

structure Settings where
  /-- The path emitted code uses to reach the library it runs on. -/
  runtime : String := "methodgen_runtime"
  /-- The form key the token is sent under. -/
  tokenKey : String := "token"
  /-- How the catalog is called in the first line of every file. -/
  label : String := "endpoints.json"
  /-- Whether a file that declares the other files is emitted. -/
  hasIndex : Bool := true
  deriving DecidableEq, Repr

/-- Why settings are refused. -/
inductive Settings.Fault where
  | runtime (text : String) (why : Source.Fault)
  | noTokenKey
  | tokenKey (key : String)
  deriving DecidableEq, Repr

def Settings.Fault.message : Settings.Fault → String
  | .runtime text why => s!"runtime crate '{text}' is not a Rust path: {why.message}"
  | .noTokenKey => "token key must not be empty"
  | .tokenKey key => s!"token key '{key}' must contain only letters, digits, '_' or '-'"

namespace Settings

/-- The characters of a token key. -/
def isKeyChar (c : Char) : Bool := c.isAlphanum || c == '_' || c == '-'

def runtimePath (s : Settings) : Except Fault Source.Path :=
  match Source.Path.read s.runtime with
  | .ok path => .ok path
  | .error why => .error (.runtime s.runtime why)

/-- The path of the runtime, if the settings are usable. -/
def check (s : Settings) : Except Fault Source.Path := do
  let path ← s.runtimePath
  if s.tokenKey = "" then throw .noTokenKey
  if !s.tokenKey.toList.all isKeyChar then throw (.tokenKey s.tokenKey)
  return path

/-- The first line of every file. -/
def header (s : Settings) : String :=
  s!"// Code generated by methodgen from {s.label}. DO NOT EDIT."

end Settings

end Bindery
