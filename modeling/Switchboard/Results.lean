import Switchboard.Json.Printer
import Switchboard.Table

/-! The results of a pass, one for each method that gave a value or failed, under
the result key of the method. -/

namespace Switchboard

@[ext]
structure Results where
  table : Table Json

namespace Results

def empty : Results := ⟨.empty⟩

instance : Inhabited Results := ⟨empty⟩

def toList (r : Results) : List (String × Json) := r.table.entries

def get? (r : Results) (k : String) : Option Json := r.table.get? k

def contains (r : Results) (k : String) : Bool := r.table.contains k

/-- Keeps the value of a method; a second value takes the place of the first. -/
def record (r : Results) (k : String) (v : Json) : Results := ⟨r.table.insert k v⟩

/-- Keeps the message of a failure where the value would stand. -/
def recordFailure (r : Results) (k message : String) : Results := r.record k (.str message)

def size (r : Results) : Nat := r.table.size

def isEmpty (r : Results) : Bool := r.table.isEmpty

def toJson (r : Results) : Json := .obj r.toList

end Results

end Switchboard
