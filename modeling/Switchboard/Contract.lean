import Switchboard.Json
import Switchboard.KeySet
import Switchboard.Table

/-! What a library demands of the input: for each of its public methods the names
that must hold a value. The methods keep the order in which they were first
declared, which is the order they run in when none is asked for by name. -/

namespace Switchboard

@[ext]
structure Contract where
  table : Table KeySet

namespace Contract

def empty : Contract := ⟨.empty⟩

instance : Inhabited Contract := ⟨empty⟩

/-- Declares what `method` needs. A second declaration replaces the first in its
place. -/
def require (c : Contract) (method : String) (keys : List String) : Contract :=
  ⟨c.table.insert method (.ofList keys)⟩

def required? (c : Contract) (method : String) : Option KeySet := c.table.get? method

def lists (c : Contract) (method : String) : Bool := (c.required? method).isSome

def methods (c : Contract) : List String := c.table.keys

theorem lists_iff (c : Contract) (method : String) :
    c.lists method = true ↔ method ∈ c.methods :=
  (c.table.mem_keys_iff method).symm

def isEmpty (c : Contract) : Bool := c.table.isEmpty

def toList (c : Contract) : List (String × KeySet) := c.table.entries

def ofList (declarations : List (String × List String)) : Contract :=
  declarations.foldl (fun c d => c.require d.1 d.2) empty

/-- The declarations as pairs of a method and its names. -/
def toJson (c : Contract) : Json :=
  .obj [("entries", .arr (c.toList.map fun e =>
    .arr [.str e.1, .arr (e.2.toList.map .str)]))]

end Contract

end Switchboard
