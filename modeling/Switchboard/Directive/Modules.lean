import Switchboard.Table

/-! What a request asks for: libraries grouped by module, and method names. Both
keep the order in which they were first asked for, which is the order of
execution. -/

namespace Switchboard

/-! ## Libraries by module -/

/-- The libraries asked for under each module. -/
@[ext]
structure Modules where
  table : Table (List String)

namespace Modules

def empty : Modules := ⟨.empty⟩

instance : Inhabited Modules := ⟨empty⟩

def libraries? (m : Modules) (owner : String) : Option (List String) := m.table.get? owner

def containsModule (m : Modules) (owner : String) : Bool := (m.libraries? owner).isSome

def containsLibrary (m : Modules) (owner library : String) : Bool :=
  ((m.libraries? owner).getD []).contains library

/-- A library is new if both names are there and it is not listed yet. -/
def admits (m : Modules) (owner library : String) : Bool :=
  owner ≠ "" && library ≠ "" && !m.containsLibrary owner library

/-- Lists `library` last under `owner`, unless it is not new. -/
def insert (m : Modules) (owner library : String) : Modules :=
  if m.admits owner library then
    ⟨m.table.insert owner ((m.libraries? owner).getD [] ++ [library])⟩
  else m

/-- Modules with their libraries, in order of execution. -/
def toList (m : Modules) : List (String × List String) := m.table.entries

def size (m : Modules) : Nat := m.table.size

def isEmpty (m : Modules) : Bool := m.table.isEmpty

end Modules

/-! ## Method names -/

/-- Method names, each once, in the order first asked for. -/
@[ext]
structure MethodList where
  toList : List String
  nodup : toList.Nodup

namespace MethodList

def empty : MethodList := ⟨[], List.nodup_nil⟩

instance : Inhabited MethodList := ⟨empty⟩

def contains (m : MethodList) (name : String) : Bool := m.toList.contains name

theorem contains_iff (m : MethodList) (name : String) :
    m.contains name = true ↔ name ∈ m.toList := List.contains_iff_mem

theorem nodup_concat {names : List String} {name : String} (h : names.Nodup)
    (hn : ¬ names.contains name = true) : (names ++ [name]).Nodup := by
  rw [List.contains_iff_mem] at hn
  refine List.nodup_append.mpr ⟨h, by simp, fun a ha b hb => ?_⟩
  rw [List.mem_singleton] at hb
  subst hb
  rintro rfl
  exact hn ha

/-- Lists `name` last, unless it is listed already. -/
def insert (m : MethodList) (name : String) : MethodList :=
  if h : m.toList.contains name then m
  else ⟨m.toList ++ [name], nodup_concat m.nodup h⟩

def size (m : MethodList) : Nat := m.toList.length

def isEmpty (m : MethodList) : Bool := m.toList.isEmpty

def ofList (names : List String) : MethodList := names.foldl insert empty

end MethodList

end Switchboard
