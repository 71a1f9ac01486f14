import Switchboard.Call
import Switchboard.Json.Record

/-! The record of a pass, step by step: what was checked, and what came of it. -/

namespace Switchboard

/-! ## Findings -/

/-- What a pass finds out at one step. -/
inductive Finding where
  | ready
  | notReady (message : String)
  | found
  | unknown
  | initScheduled
  | allowed
  | denied (missing : List String)
  | called (outcome : Outcome)
  deriving DecidableEq, Repr

/-- What a call came to, in words. -/
def Outcome.text : Outcome → String
  | undeclared => "undeclared"
  | empty => "returned null"
  | stored none => "stored"
  | stored (some target) => "stored, routed to '" ++ target ++ "'"
  | failed message => "failed: " ++ message

namespace Finding

/-- The check that a finding belongs to. -/
def check : Finding → String
  | ready => "bootstrap"
  | notReady _ => "bootstrap"
  | found => "library_lookup"
  | unknown => "library_lookup"
  | initScheduled => "init_first"
  | allowed => "safe_zone"
  | denied _ => "safe_zone"
  | called _ => "invoke"

def text : Finding → String
  | ready => "ok"
  | notReady message => "failed: " ++ message
  | found => "found"
  | unknown => "unknown library"
  | initScheduled => "scheduled"
  | allowed => "allowed"
  | denied missing => "denied: missing [" ++ ", ".intercalate missing ++ "]"
  | called outcome => outcome.text

end Finding

/-! ## Steps -/

structure TraceStep where
  /-- The module the step belongs to. -/
  owner : String
  /-- The path as asked for, if the step concerns a library. -/
  library : Option String
  /-- The name, if the step concerns a method. -/
  method : Option String
  check : String
  outcome : String
  deriving DecidableEq, Repr

namespace TraceStep

def ofModule (owner : String) (f : Finding) : TraceStep :=
  ⟨owner, none, none, f.check, f.text⟩

def ofLibrary (owner library : String) (f : Finding) : TraceStep :=
  ⟨owner, some library, none, f.check, f.text⟩

def ofMethod (owner library method : String) (f : Finding) : TraceStep :=
  ⟨owner, some library, some method, f.check, f.text⟩

/-- The optional field `name`, left out if it has no text. -/
def optionalField (name : String) (text : Option String) : List (String × Json) :=
  match text with
  | some s => [(name, .str s)]
  | none => []

def toJson (s : TraceStep) : Json :=
  .obj ([("module", .str s.owner)] ++ optionalField "library" s.library ++
    optionalField "method" s.method ++ [("check", .str s.check), ("outcome", .str s.outcome)])

def ofJson? (v : Json) : Option TraceStep := do
  match ← v.columns? ["module", "library", "method", "check", "outcome"] with
  | [owner, library, method, check, outcome] =>
    some { owner := ← Json.required? Json.string? owner
           library := ← Json.optional? Json.string? library
           method := ← Json.optional? Json.string? method
           check := ← Json.required? Json.string? check
           outcome := ← Json.required? Json.string? outcome }
  | _ => none

end TraceStep

/-! ## Traces -/

/-- Steps in the order in which they happened. -/
@[ext]
structure Trace where
  steps : List TraceStep
  deriving DecidableEq, Repr

namespace Trace

def empty : Trace := ⟨[]⟩

instance : Inhabited Trace := ⟨empty⟩

def add (t : Trace) (s : TraceStep) : Trace := ⟨t.steps ++ [s]⟩

def size (t : Trace) : Nat := t.steps.length

def isEmpty (t : Trace) : Bool := t.steps.isEmpty

/-- The steps that concern one method of one library. -/
def forMethod (t : Trace) (library method : String) : List TraceStep :=
  t.steps.filter fun s => s.library = some library && s.method = some method

def toJson (t : Trace) : Json := .arr (t.steps.map TraceStep.toJson)

def ofJson? (v : Json) : Option Trace :=
  (v.items? >>= (·.mapM TraceStep.ofJson?)).map Trace.mk

end Trace

end Switchboard
