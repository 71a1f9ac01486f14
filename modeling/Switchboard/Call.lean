import Switchboard.Directive.Route
import Switchboard.Json.Lookup
import Switchboard.Library
import Switchboard.Path
import Switchboard.Results

/-! One call of a method and what it leaves behind. A value is recorded and, where
a route starts at its result key, routed into the input; a fault is recorded as its
message; null leaves nothing. -/

namespace Switchboard

/-- What calls read and change. -/
@[ext]
structure Pools where
  input : Input
  results : Results

inductive Outcome where
  /-- The library does not declare the method, so nothing ran. -/
  | undeclared
  /-- The method gave null. -/
  | empty
  /-- A value was recorded, and possibly routed to a name of the input. -/
  | stored (routedTo : Option String)
  | failed (message : String)
  deriving DecidableEq, Repr

/-- An answer as a value or a fault; a method that breaks off without a text is
named instead. -/
def Answer.settle (method : String) : Answer → Except Fault Json
  | value v => .ok v
  | fault f => .error f
  | panic (some text) => .error (.panicked text)
  | panic none => .error (.panicked ("method '" ++ method ++ "' panicked"))

namespace Pools

/-- The name of the input that a value under `key` goes to, and what goes there. -/
def routed? (routes : Routes) (key : String) (v : Json) : Option (String × Json) :=
  (routes.get? key).bind fun r => (v.extract? r.steps).map (r.target, ·)

/-- Records a value and routes it. -/
def store (p : Pools) (routes : Routes) (key : String) (v : Json) : Outcome × Pools :=
  let results := p.results.record key v
  match routed? routes key v with
  | some (target, w) => (.stored (some target), ⟨p.input.insert target w, results⟩)
  | none => (.stored none, { p with results })

/-- Takes in what a method came to. -/
def settle (p : Pools) (routes : Routes) (key : String) : Except Fault Json → Outcome × Pools
  | .error f => (.failed f.message, { p with results := p.results.recordFailure key f.message })
  | .ok v => if v.isNull then (.empty, p) else p.store routes key v

/-- Calls `method` of the library asked for as `path`, after what ran in `past`. -/
def call (p : Pools) (routes : Routes) (path : String) (l : Library) (method : String)
    (past : History := []) : Outcome × Pools :=
  if l.declares method then
    p.settle routes (Path.resultKey path method) ((l.invoke past method p.input).settle method)
  else (.undeclared, p)

end Pools

end Switchboard
