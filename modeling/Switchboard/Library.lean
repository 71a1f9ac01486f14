import Switchboard.Contract
import Switchboard.Input

/-! Libraries: named methods that read the input of a pass and answer with a value
or a fault, and that may also break off. Whoever writes a method may let it remember
earlier calls, so what it answers is a function of what ran before and of the input. -/

namespace Switchboard

/-- What runs in a pass: hooks of modules, and methods with the input they saw. -/
inductive Event where
  | hook (owner : String)
  | invoked (path method : String) (input : Input)

/-- What ran so far, in order. No two calls have the same one before them, so an
answer that depends on it may also come from chance or from outside. -/
abbrev History := List Event

/-- Why a method has no value to give. -/
inductive Fault where
  | failed (message : String)
  | panicked (message : String)
  deriving DecidableEq, Repr

def Fault.message : Fault → String
  | failed m => m
  | panicked m => m

/-- What calling a method ends in. -/
inductive Answer where
  | value (v : Json)
  | fault (f : Fault)
  /-- The method broke off, with a text if it left one. -/
  | panic (payload : Option String)

/-- The names under which a library can be called, what it demands of the input,
and what each call answers. Only listed methods are ever called. -/
structure Library where
  methods : List String
  contract : Option Contract
  invoke : History → String → Input → Answer

namespace Library

/-- The method that is run before the others. -/
def initMethod : String := "init"

def declares (l : Library) (method : String) : Bool := l.methods.contains method

theorem declares_iff (l : Library) (method : String) :
    l.declares method = true ↔ method ∈ l.methods := List.contains_iff_mem

end Library

/-! ## Libraries from functions -/

/-- A library put together from one function for each method. -/
structure Handlers where
  table : Table (History → Input → Answer)
  contract : Option Contract

namespace Handlers

def empty : Handlers := ⟨.empty, none⟩

instance : Inhabited Handlers := ⟨empty⟩

/-- Adds a method, or replaces it in its place. -/
def remembering (h : Handlers) (name : String) (f : History → Input → Answer) : Handlers :=
  { h with table := h.table.insert name f }

/-- Adds or replaces a method that looks at nothing but the input. -/
def method (h : Handlers) (name : String) (f : Input → Answer) : Handlers :=
  h.remembering name fun _ => f

def withContract (h : Handlers) (c : Contract) : Handlers := { h with contract := some c }

def methods (h : Handlers) : List String := h.table.keys

def invoke (h : Handlers) (method : String) (input : Input) (past : History := []) : Answer :=
  match h.table.get? method with
  | some f => f past input
  | none => .fault (.failed ("undefined method '" ++ method ++ "'"))

def toLibrary (h : Handlers) : Library :=
  ⟨h.methods, h.contract, fun past method input => h.invoke method input past⟩

end Handlers

end Switchboard
