import Switchboard.Table

/-! Where the result of a method goes besides the results: a route leads from a
result key, through keys into the value found there, to a key of the input. -/

namespace Switchboard

structure Route where
  /-- The result key whose value is routed. -/
  source : String
  /-- Keys walked into that value, outermost first; none means the whole value. -/
  steps : List String
  /-- The input key that receives what is found. -/
  target : String
  deriving DecidableEq, Repr

/-- Routes by result key. A later route for a key replaces an earlier one. -/
@[ext]
structure Routes where
  table : Table Route

namespace Routes

def empty : Routes := ⟨.empty⟩

instance : Inhabited Routes := ⟨empty⟩

def insert (r : Routes) (route : Route) : Routes := ⟨r.table.insert route.source route⟩

def get? (r : Routes) (key : String) : Option Route := r.table.get? key

def toList (r : Routes) : List Route := r.table.entries.map Prod.snd

def size (r : Routes) : Nat := r.table.size

def isEmpty (r : Routes) : Bool := r.table.isEmpty

def ofList (routes : List Route) : Routes := routes.foldl insert empty

end Routes

end Switchboard
