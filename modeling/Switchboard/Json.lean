/-! JSON values. The entries of an object stand in the order held. -/

namespace Switchboard

/-- A whole number of at most 64 bits, or a finite double. -/
inductive Number where
  | int (n : Int)
  | float (x : Float)

inductive Json where
  | null
  | bool (b : Bool)
  | num (n : Number)
  | str (s : String)
  | arr (items : List Json)
  | obj (fields : List (String × Json))

namespace Json

instance : Inhabited Json := ⟨null⟩

def isNull : Json → Bool
  | null => true
  | _ => false

def string? : Json → Option String
  | str s => some s
  | _ => none

def items? : Json → Option (List Json)
  | arr items => some items
  | _ => none

def fields? : Json → Option (List (String × Json))
  | obj fields => some fields
  | _ => none

def ofInt (n : Int) : Json := num (.int n)

/-- A double as a value; there is none for infinities and NaN, which become null. -/
def ofFloat (x : Float) : Json := if x.isFinite then num (.float x) else null

end Json

/-- The double nearest to a number. -/
def Number.toFloat : Number → Float
  | int n => Float.ofInt n
  | float x => x

def Json.float? : Json → Option Float
  | num n => some n.toFloat
  | _ => none

end Switchboard
