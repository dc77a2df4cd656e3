import Bindery.Command.Run
import Std.Time.Format

/-!
# The command

Runs the command line on the real disk. What fails is told on the error stream.
-/
namespace Bindery

open Files

/-- The number of an error of the operating system. It may be given as a negative one. -/
def errorNumber? (e : IO.Error) : Option UInt32 :=
  code?.map fun n => if n < 0x80000000 then n else 0 - n
where
  code? : Option UInt32 :=
    match e with
    | .alreadyExists _ n _ => some n
    | .otherError n _ => some n
    | .resourceBusy n _ => some n
    | .unsatisfiedConstraints n _ => some n
    | .noFileOrDirectory _ n _ => some n
    | .invalidArgument _ n _ => some n
    | .permissionDenied _ n _ => some n
    | .resourceExhausted _ n _ => some n
    | .inappropriateType _ n _ => some n
    | .noSuchThing _ n _ => some n
    | _ => none

def diskFault (e : IO.Error) : Fault :=
  match errorNumber? e with
  | some 2 => .notFound
  | some 16 => .busy
  | some 17 => .alreadyExists
  | some 20 => .notDirectory
  | some 21 => .isDirectory
  | some 22 => .invalid
  | some 36 => .nameTooLong
  | some 39 => .notEmpty
  | _ => .other (toString e)

def attempt (action : IO α) : IO (Except Fault α) := do
  try
    return .ok (← action)
  catch e => return .error (diskFault e)

def isDirectory (path : String) : IO Bool := do
  match ← attempt (IO.FS.realPath path) with
  | .ok real => real.isDir
  | .error _ => return false

partial def makeDirectories (path : String) : IO (Except Fault Unit) := do
  if path.isEmpty then return .ok ()
  match ← attempt (IO.FS.createDir path) with
  | .ok () => return .ok ()
  | .error .notFound =>
    match parent? path with
    | none => return .error .notFound
    | some above =>
      match ← makeDirectories above with
      | .ok () => settled (← attempt (IO.FS.createDir path))
      | .error why => return .error why
  | .error why => settled (.error why)
where
  /-- A directory that is there already need not be made. -/
  settled : Except Fault Unit → IO (Except Fault Unit)
    | .ok () => return .ok ()
    | .error why => return if ← isDirectory path then .ok () else .error why

instance : Disk IO where
  makeDirectories := makeDirectories
  read path := do
    match ← attempt (IO.FS.readBinFile path) with
    | .error why => return .error why
    | .ok bytes =>
      match String.fromUTF8? bytes with
      | some text => return .ok text
      | none => return .error .notText
  write path text := attempt (IO.FS.writeFile path text)
  rename path target := attempt (IO.FS.rename path target)
  remove path := attempt (IO.FS.removeFile path)

/-- The time of day, as events are marked with it. -/
def timeText : IO String := do
  let now := Std.Time.DateTime.ofTimestampWithZone (← Std.Time.Timestamp.now) .UTC
  return now.toPlainDateTime.format "uuuu-MM-dd'T'HH:mm:ss.SSSSSS'Z'"

def print (time : String) : Command.Printed → IO Unit
  | .text s => IO.print s
  | .event e => IO.println s!"{time} {e.line}"

end Bindery

def main (args : List String) : IO UInt32 := do
  let outcome ← (Bindery.Command.run args : IO Bindery.Command.Outcome)
  let time ← Bindery.timeText
  for p in outcome.printed do Bindery.print time p
  match outcome.failure with
  | some why => IO.eprintln s!"Error: {why.message}"
  | none => pure ()
  return outcome.exit
