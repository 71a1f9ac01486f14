import Switchboard.Json.Record

/-! The two switches of a dispatcher. Both are on unless something turns them off. -/

namespace Switchboard

structure Settings where
  /-- Methods run only as far as the contract of their library allows. -/
  safeZone : Bool := true
  /-- Query parameters count as input; body parameters always do. -/
  acceptQuery : Bool := true
  deriving DecidableEq, Repr, Inhabited

namespace Settings

def toJson (s : Settings) : Json :=
  .obj [("safe_zone", .bool s.safeZone), ("accept_query", .bool s.acceptQuery)]

def ofJson? (v : Json) : Option Settings := do
  match ← v.columns? ["safe_zone", "accept_query"] with
  | [safeZone, acceptQuery] =>
    some { safeZone := ← Json.default? Json.bool? true safeZone
           acceptQuery := ← Json.default? Json.bool? true acceptQuery }
  | _ => none

end Settings

end Switchboard
