import Switchboard.Json

/-! The two ways in which a caller may want the results. -/

namespace Switchboard

inductive Format where
  | json
  | raw
  deriving DecidableEq, Repr, Inhabited

namespace Format

def toString : Format → String
  | json => "json"
  | raw => "raw"

def ofString? (s : String) : Option Format :=
  if s = "json" then some json
  else if s = "raw" then some raw
  else none

def toJson (f : Format) : Json := .str f.toString

/-- Reads the name, or an object whose one field has that name and holds null. -/
def ofJson? : Json → Option Format
  | .str s => ofString? s
  | .obj [(s, .null)] => ofString? s
  | _ => none

theorem ofString?_toString (f : Format) : ofString? f.toString = some f := by
  cases f <;> rfl

end Format

end Switchboard
