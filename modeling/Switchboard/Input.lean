import Switchboard.Json.Printer
import Switchboard.KeySet
import Switchboard.Table

/-! The input of a pass: the parameters that methods read, and into which routed
results are written. Beside the values it holds the set of their names, made anew
after every change; that set is what contracts are compared with, and the type says
that it never differs from the names of the values. -/

namespace Switchboard

@[ext]
structure Input where
  values : Table Json
  names : KeySet
  names_eq : names = .ofList values.keys

namespace Input

def ofTable (values : Table Json) : Input := ⟨values, .ofList values.keys, rfl⟩

def empty : Input := ofTable .empty

instance : Inhabited Input := ⟨empty⟩

def ofList (entries : List (String × Json)) : Input := ofTable (.ofList entries)

/-- Values with their names, in the order held. -/
def toList (p : Input) : List (String × Json) := p.values.entries

def get? (p : Input) (k : String) : Option Json := p.values.get? k

def contains (p : Input) (k : String) : Bool := p.names.contains k

/-- Sets the value of `k`; the value it had comes first. -/
def replace (p : Input) (k : String) (v : Json) : Option Json × Input :=
  (p.values.get? k, ofTable (p.values.insert k v))

def insert (p : Input) (k : String) (v : Json) : Input := (p.replace k v).2

/-- Takes `k` out; the value it had comes first. -/
def take (p : Input) (k : String) : Option Json × Input :=
  match p.values.get? k with
  | some v => (some v, ofTable (p.values.erase k))
  | none => (none, p)

def erase (p : Input) (k : String) : Input := (p.take k).2

/-- Sets every entry of `other`, in its order. -/
def merge (p : Input) (other : Table Json) : Input :=
  ofTable (p.values.insertMany other.entries)

/-- The names of `required` that hold no value, in order. -/
def missing (p : Input) (required : KeySet) : List String :=
  required.toList.filter (!p.contains ·)

theorem contains_iff (p : Input) (k : String) : p.contains k = true ↔ k ∈ p.values.keys := by
  rw [← KeySet.mem_ofList, ← p.names_eq]
  exact List.contains_iff_mem

theorem mem_missing {p : Input} {required : KeySet} {k : String} :
    k ∈ p.missing required ↔ k ∈ required ∧ k ∉ p.values.keys := by
  rw [← contains_iff]
  simp only [missing, List.mem_filter, Bool.not_eq_true', Bool.not_eq_true]
  rfl

theorem missing_sorted (p : Input) (required : KeySet) :
    (p.missing required).Pairwise (· < ·) :=
  required.sorted.sublist List.filter_sublist

def size (p : Input) : Nat := p.values.size

def isEmpty (p : Input) : Bool := p.values.isEmpty

def toJson (p : Input) : Json := .obj p.toList

end Input

end Switchboard
