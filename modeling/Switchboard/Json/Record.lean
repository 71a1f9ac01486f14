import Switchboard.Json
import Switchboard.Table

/-! Reading records. A record is an object, whose other fields are passed over, or
the list of its first few fields in order. -/

namespace Switchboard.Json

/-- What a record holds for each of `names`. -/
def columns? (names : List String) : Json → Option (List (Option Json))
  | obj fields => some (names.map (Entries.get? · fields))
  | arr items =>
    if items.length ≤ names.length then
      some (items.map some ++ List.replicate (names.length - items.length) none)
    else none
  | _ => none

/-- A field that has to be there. -/
def required? {α : Type} (read : Json → Option α) (field : Option Json) : Option α :=
  field.bind read

/-- A field that may be left out or null. -/
def optional? {α : Type} (read : Json → Option α) : Option Json → Option (Option α)
  | none => some none
  | some null => some none
  | some v => (read v).map some

/-- A field that may be left out, and then has a value of its own. -/
def default? {α : Type} (read : Json → Option α) (value : α) : Option Json → Option α
  | none => some value
  | some v => read v

def bool? : Json → Option Bool
  | bool b => some b
  | _ => none

def table? (v : Json) : Option (Table Json) := v.fields?.map .ofList

def strings? (v : Json) : Option (List String) := v.items? >>= (·.mapM string?)

end Switchboard.Json
