import Switchboard.Directive.Modules
import Switchboard.Json.Record
import Switchboard.Library

/-! The safe zone decides which methods of a library may run. While it is on, a
method has to be declared by the library, listed in its contract, named by the
request if the request names any, and every name its contract requires must hold a
value at the moment it is reached. While it is off, a method has to be declared
and named. A declared `init` that is no candidate runs before the candidates. -/

namespace Switchboard

/-- What is to be done with one library. -/
structure Plan where
  /-- Run `init` before the candidates. -/
  initFirst : Bool
  /-- The methods to consider, in order of execution. -/
  candidates : List String
  deriving DecidableEq, Repr

inductive Decision where
  | allow
  /-- The names that hold no value. -/
  | deny (missing : List String)
  deriving DecidableEq, Repr

structure SafeZone where
  enabled : Bool := true
  deriving DecidableEq, Repr, Inhabited

namespace SafeZone

def candidates (z : SafeZone) (l : Library) (requested : MethodList) : List String :=
  if z.enabled then
    match l.contract with
    | none => []
    | some c =>
      if requested.isEmpty then c.methods.filter l.declares
      else requested.toList.filter fun m => c.lists m && l.declares m
  else requested.toList.filter l.declares

/-- While the zone is off and no method is named, not even `init` runs. -/
def plan (z : SafeZone) (l : Library) (requested : MethodList) : Plan :=
  let cs := z.candidates l requested
  { candidates := cs
    initFirst := (z.enabled || !requested.isEmpty) && l.declares Library.initMethod &&
      !cs.contains Library.initMethod }

/-- Checks one method against the input as it is now. -/
def authorize (z : SafeZone) (l : Library) (method : String) (input : Input) : Decision :=
  if z.enabled then
    match l.contract.bind (·.required? method) with
    | none => .deny []
    | some required =>
      let missing := input.missing required
      if missing.isEmpty then .allow else .deny missing
  else .allow

end SafeZone

namespace Decision

def isAllow : Decision → Bool
  | allow => true
  | deny _ => false

def toJson : Decision → Json
  | allow => .obj [("decision", .str "allow")]
  | deny missing => .obj [("decision", .str "deny"), ("missing", .arr (missing.map .str))]

/-- Reads the object form, or the list of the same values in order. -/
def ofJson? : Json → Option Decision
  | .obj fields =>
    match Entries.get? "decision" fields with
    | some (.str "allow") => some allow
    | some (.str "deny") => ((Entries.get? "missing" fields).bind Json.strings?).map deny
    | _ => none
  | .arr [.str "allow"] => some allow
  | .arr [.str "deny", missing] => missing.strings?.map deny
  | _ => none

end Decision

end Switchboard
