import Bindery.Event
import Bindery.Output

/-!
# The journal of a run

The events of emitting code for a catalog, up to the end or to the failure.
-/
namespace Bindery.Journal

def validated (c : Catalog) (p : Plan) : Event :=
  ⟨.debug, "catalog validated",
    [("endpoints", toString c.endpoints.length), ("units", toString p.units.length)]⟩

def planned (m : Method) : Event :=
  ⟨.debug, "planned endpoint",
    [("endpoint", m.endpoint.name), ("group", m.group), ("unit", m.unit)]⟩

def emitting (p : Plan) : Event :=
  ⟨.debug, "generating bindings",
    [("endpoints", toString p.methods.length), ("groups", toString p.groups.length),
      ("units", toString p.units.length)]⟩

def call (m : Method) : Event :=
  ⟨.debug, "generating call", [("endpoint", m.endpoint.name), ("call", m.callType)]⟩

/-- The calls of a unit up to the first that cannot be emitted. -/
def calls (t : Emission.Target) : List Method → List Event
  | [] => []
  | m :: rest =>
    call m :: match Emission.call t m with
      | .ok _ => calls t rest
      | .error _ => []

/-- The calls of all units up to the first unit that cannot be rendered. -/
def units (t : Emission.Target) (s : Settings) : List (String × List Method) → List Event
  | [] => []
  | (unit, ms) :: rest =>
    calls t ms ++ match (do render unit (← Emission.unit t ms) s : Except Failure OutputFile) with
      | .ok _ => units t s rest
      | .error _ => []

/-- The events of `generate`. -/
def ofRun (c : Catalog) (s : Settings) : List Event :=
  match Emission.Target.of s, validate c s, c.endpoints.mapM Method.ofEndpoint with
  | .ok t, .ok (), .ok ms =>
    let p := Plan.ofMethods ms
    validated c p :: ms.map planned ++ emitting p ::
      match (do render Emission.servicesUnit (← Emission.services t p.groups) s :
          Except Failure OutputFile) with
      | .ok _ => units t s p.units
      | .error _ => []
  | _, _, _ => []

/-- All files have been handed over. -/
def complete (o : Output) : Event :=
  ⟨.info, "generation complete", [("files", toString o.files.length)]⟩

end Bindery.Journal
