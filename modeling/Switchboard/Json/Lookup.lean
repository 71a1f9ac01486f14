import Switchboard.Json
import Switchboard.Table

/-! Looking a value up along a list of keys. Null counts as a hole: no step leads
to it. -/

namespace Switchboard.Json

/-- A key as a place in an array: decimal digits, perhaps behind one plus sign,
for a number that 64 bits hold. -/
def index? (key : String) : Option Nat :=
  let digits := match key.toList with
    | '+' :: cs => cs
    | cs => cs
  if digits ≠ [] ∧ digits.all Char.isDigit then
    let n := digits.foldl (fun n c => 10 * n + (c.toNat - '0'.toNat)) 0
    if n < Nat.pow 2 64 then some n else none
  else none

/-- One step into a container. -/
def member? (v : Json) (key : String) : Option Json :=
  let found := match v with
    | obj fields => Entries.get? key fields
    | arr items => (index? key).bind (items[·]?)
    | _ => none
  found.filter (!·.isNull)

def isContainer : Json → Bool
  | arr _ => true
  | obj _ => true
  | _ => false

def walk? (v : Json) : List String → Option Json
  | [] => some v
  | k :: ks => (v.member? k).bind (·.walk? ks)

/-- What a route takes from a value: the value as it is, if there are no steps to
go or none can be gone, and else what the steps lead to. -/
def extract? (v : Json) (steps : List String) : Option Json :=
  if steps.isEmpty || !v.isContainer then some v else v.walk? steps

end Switchboard.Json
