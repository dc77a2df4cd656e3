import Bindery.Files.Fault
import Bindery.Json.Fault
import Bindery.Settings

/-!
# Why a run fails
-/
namespace Bindery

/-- Why a catalog cannot be loaded. -/
inductive Catalog.Fault where
  | unreadable (path : String) (why : Files.Fault)
  | malformed (origin : String) (why : Json.Fault)

def Catalog.Fault.message : Catalog.Fault → String
  | .unreadable path why => s!"failed to open {path}: {why.message}"
  | .malformed origin why => s!"failed to decode {origin}: {why.message}"

/-- What is wrong with the type of an argument or a payload, or with the names it leads to. -/
inductive TypeFault where
  | unreadable (why : Source.Fault)
  | argumentName (name : String)
  | setterName (name : String)
  deriving DecidableEq, Repr

def TypeFault.message : TypeFault → String
  | .unreadable why => why.message
  | .argumentName name => s!"argument name '{name}' is not a valid identifier"
  | .setterName name => s!"setter name '{name}' is not a valid identifier"

inductive Failure where
  | catalog (why : Catalog.Fault)
  | endpointName (name : String)
  | repeatedEndpoint (name : String)
  | repeatedArgument (endpoint argument : String)
  | reserved (endpoint argument word : String)
  | badType (endpoint type : String) (why : TypeFault)
  | collision (name first second : String)
  | settings (why : Settings.Fault)
  | code (unit : String) (why : Source.Fault)
  | write (path : String) (why : Files.Fault)
  /-- A name that passed all checks is no word of the emitted language. -/
  | notWord (name : String)
  /-- Emitted code holds syntax that has no layout. -/
  | noLayout

def Failure.message : Failure → String
  | .catalog why => why.message
  | .endpointName name => s!"Invalid endpoint name '{name}': expected '<namespace>.<method>'"
  | .repeatedEndpoint name => s!"Duplicate endpoint '{name}'"
  | .repeatedArgument endpoint argument =>
    s!"Duplicate argument '{argument}' on endpoint '{endpoint}'"
  | .reserved endpoint argument word =>
    s!"Argument '{argument}' on endpoint '{endpoint}' uses reserved name '{word}'"
  | .badType endpoint type why => s!"Invalid type '{type}' on endpoint '{endpoint}': {why.message}"
  | .collision name first second =>
    s!"Naming collision: '{name}' is generated for both '{first}' and '{second}'"
  | .settings why => s!"Invalid configuration: {why.message}"
  | .code unit why =>
    s!"Code generation failed for unit '{unit}': Generated code is invalid: {why.message}"
  | .write path why => s!"Failed to write output file '{path}': {why.message}"
  | .notWord name => s!"'{name}' is not an identifier"
  | .noLayout => "emitted code has no layout"

end Bindery
