import Bindery.Emission.Unit
import Bindery.Layout.Code

/-!
# Output

Every file is emitted as tokens, read again, and laid out below a header. Output is complete or
there is none.
-/
namespace Bindery

/-- A file with its name relative to the output directory. -/
structure OutputFile where
  name : String
  content : String
  deriving DecidableEq, Repr

structure Output where
  files : List OutputFile
  deriving DecidableEq, Repr

namespace Output

/-- The content of the first file of a name. -/
def get? (o : Output) (name : String) : Option String :=
  (o.files.find? (·.name == name)).map (·.content)

def names (o : Output) : List String := o.files.map (·.name)

end Output

/-- The text of a file below the header. -/
def layOut (f : Source.File) (s : Settings) : Except Failure String :=
  match f.text? with
  | some text => .ok (s.header ++ "\n\n" ++ text)
  | none => .error .noLayout

/-- Reads emitted code again. -/
def checkCode (unit : String) (ts : List Source.Token) : Except Failure Source.File :=
  match Source.File.ofTokens ts with
  | .ok f => .ok f
  | .error why => .error (.code unit why)

def render (unit : String) (f : Source.File) (s : Settings) : Except Failure OutputFile := do
  let f ← checkCode unit f.tokens
  return ⟨unit ++ ".rs", ← layOut f s⟩

/-- All files of a plan: the services, the units in order, and the index. -/
def Plan.render (p : Plan) (target : Emission.Target) (s : Settings) : Except Failure Output := do
  let services ← Bindery.render Emission.servicesUnit (← Emission.services target p.groups) s
  let units ← p.units.mapM fun u => do Bindery.render u.1 (← Emission.unit target u.2) s
  let index ← if s.hasIndex then pure [← Bindery.render "mod" (← Emission.index p s) s] else pure []
  return ⟨services :: units ++ index⟩

/-- All files for a catalog that passes validation. -/
def generate (c : Catalog) (s : Settings) : Except Failure Output := do
  let target ← Emission.Target.of s
  validate c s
  (← Plan.ofCatalog c).render target s

end Bindery
