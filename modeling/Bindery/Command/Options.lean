import Bindery.Files.Path
import Bindery.Settings

/-!
# The command line

Options have a value or are flags; none may be given twice, except the one that counts. Arguments
are read from left to right, and the first that settles the outcome does so.
-/
namespace Bindery.Command

structure Options where
  catalog : String := "endpoints.json"
  output : String := "src/generated"
  dryRun : Bool := false
  runtime : String := ({} : Settings).runtime
  tokenKey : String := ({} : Settings).tokenKey
  noIndex : Bool := false
  verbosity : Nat := 0
  deriving DecidableEq, Repr

/-- What can be asked for on the command line. -/
inductive Switch where
  | catalog
  | output
  | dryRun
  | runtime
  | tokenKey
  | noIndex
  | verbose
  | help
  | version
  deriving DecidableEq, Repr

namespace Switch

def all : List Switch :=
  [.catalog, .output, .dryRun, .runtime, .tokenKey, .noIndex, .verbose, .help, .version]

def long : Switch → String
  | .catalog => "catalog"
  | .output => "output"
  | .dryRun => "dry-run"
  | .runtime => "runtime-crate"
  | .tokenKey => "token-key"
  | .noIndex => "no-mod-file"
  | .verbose => "verbose"
  | .help => "help"
  | .version => "version"

def short? : Switch → Option Char
  | .catalog => some 'c'
  | .output => some 'o'
  | .verbose => some 'v'
  | .help => some 'h'
  | .version => some 'V'
  | _ => none

def takesValue : Switch → Bool
  | .catalog => true
  | .output => true
  | .runtime => true
  | .tokenKey => true
  | _ => false

/-- Paths must not be empty. -/
def refusesEmpty : Switch → Bool
  | .catalog => true
  | .output => true
  | _ => false

end Switch

/-- What the command line asks for. -/
inductive Request where
  | run (o : Options)
  | help
  | version
  | misuse
  deriving DecidableEq, Repr

/-- One argument taken apart: switches, each with its value, or nothing more to read. -/
inductive Step where
  | more (given : List Switch) (o : Options)
  | stop (r : Request)

def Options.set (o : Options) (s : Switch) (value : String) : Options :=
  match s with
  | .catalog => { o with catalog := value }
  | .output => { o with output := value }
  | .runtime => { o with runtime := value }
  | .tokenKey => { o with tokenKey := value }
  | .dryRun => { o with dryRun := true }
  | .noIndex => { o with noIndex := true }
  | .verbose => { o with verbosity := o.verbosity + 1 }
  | _ => o

/-- Takes a switch. -/
def take (given : List Switch) (o : Options) (s : Switch) (value : String) : Step :=
  match s with
  | .help => .stop .help
  | .version => .stop .version
  | .verbose => .more given (o.set s value)
  | _ =>
    if given.contains s || (s.refusesEmpty && value == "") then .stop .misuse
    else .more (s :: given) (o.set s value)

/-- Whether an argument cannot be the value of the option before it. -/
def looksLikeSwitch (arg : String) : Bool := arg.startsWith "-" && arg != "-"

/-- Switches written together behind one dash; the last may have its value attached. The switch that
still needs a value is given back. -/
def cluster (given : List Switch) (o : Options) : List Char → Step × Option Switch
  | [] => (.more given o, none)
  | c :: rest =>
    match Switch.all.find? (·.short? == some c) with
    | none => (.stop .misuse, none)
    | some s =>
      if s.takesValue then
        match rest with
        | [] => (.more given o, some s)
        | '=' :: value => (take given o s (String.ofList value), none)
        | value => (take given o s (String.ofList value), none)
      else
        match take given o s "" with
        | .more given o => cluster given o rest
        | stop => (stop, none)

/-- A long option; its value may be attached by an equals sign. -/
def longOption (given : List Switch) (o : Options) (body : List Char) : Step × Option Switch :=
  let name := String.ofList (body.takeWhile (· != '='))
  let value := body.dropWhile (· != '=')
  match Switch.all.find? (·.long == name) with
  | none => (.stop .misuse, none)
  | some s =>
    match value with
    | [] => if s.takesValue then (.more given o, some s) else (take given o s "", none)
    | _ :: value =>
      if s.takesValue then (take given o s (String.ofList value), none) else (.stop .misuse, none)

/-- Reads arguments. `pending` is the option that waits for its value. -/
def read (given : List Switch) (o : Options) : Option Switch → List String → Request
  | none, [] => .run o
  | some _, [] => .misuse
  | some s, arg :: rest =>
    if looksLikeSwitch arg then .misuse
    else match take given o s arg with
      | .more given o => read given o none rest
      | .stop r => r
  | none, arg :: rest =>
    match arg.toList with
    | ['-', '-'] => if rest.isEmpty then .run o else .misuse
    | '-' :: '-' :: body =>
      match longOption given o body with
      | (.more given o, pending) => read given o pending rest
      | (.stop r, _) => r
    | '-' :: c :: body =>
      match cluster given o (c :: body) with
      | (.more given o, pending) => read given o pending rest
      | (.stop r, _) => r
    | _ => .misuse

def Request.ofArgs (args : List String) : Request := read [] {} none args

namespace Options

/-- The catalog is called by the name of its file. -/
def settings (o : Options) : Settings where
  runtime := o.runtime
  tokenKey := o.tokenKey
  label := (Files.fileName? o.catalog).getD o.catalog
  hasIndex := !o.noIndex

end Options

def helpText : String := "Code generator for methodgen endpoint catalogs

Usage: methodgen [OPTIONS]

Options:
  -c, --catalog <CATALOG>              Endpoint catalog (JSON) [default: endpoints.json]
  -o, --output <OUTPUT>                Output directory for generated code [default: src/generated]
      --dry-run                        Print generated code without writing files
      --runtime-crate <RUNTIME_CRATE>  Path generated code uses to reach the runtime crate [default: methodgen_runtime]
      --token-key <TOKEN_KEY>          Form key the auth token is sent under [default: token]
      --no-mod-file                    Do not emit mod.rs
  -v, --verbose...                     Increase verbosity (-v, -vv, -vvv)
  -h, --help                           Print help
  -V, --version                        Print version
"

def versionText : String := "methodgen 0.1.0\n"

end Bindery.Command
