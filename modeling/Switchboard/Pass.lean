import Switchboard.Catalog
import Switchboard.Directive
import Switchboard.SafeZone
import Switchboard.Trace

/-! One pass over a request: module by module, library by library, method by
method, in the order of the directives. A module whose hook fails is left out with
all its libraries; a path that names no library is passed over; a method that is
denied, gives null, fails or breaks off stops nothing. But a hook that breaks off
is caught by nobody, and the pass breaks off with it. -/

namespace Switchboard

/-- What a pass has come to so far. -/
@[ext]
structure Progress where
  pools : Pools
  trace : Trace
  events : History

/-- What a pass goes by. -/
structure Pass where
  catalog : Catalog
  zone : SafeZone
  directives : Directives

namespace Progress

def start (input : Input) : Progress := ⟨⟨input, .empty⟩, .empty, []⟩

def note (s : Progress) (step : TraceStep) : Progress := { s with trace := s.trace.add step }

def log (s : Progress) (e : Event) : Progress := { s with events := s.events ++ [e] }

@[simp] theorem note_pools (s : Progress) (x : TraceStep) : (s.note x).pools = s.pools := rfl

@[simp] theorem note_events (s : Progress) (x : TraceStep) : (s.note x).events = s.events := rfl

@[simp] theorem note_steps (s : Progress) (x : TraceStep) :
    (s.note x).trace.steps = s.trace.steps ++ [x] := rfl

@[simp] theorem log_pools (s : Progress) (e : Event) : (s.log e).pools = s.pools := rfl

@[simp] theorem log_events (s : Progress) (e : Event) : (s.log e).events = s.events ++ [e] := rfl

@[simp] theorem log_trace (s : Progress) (e : Event) : (s.log e).trace = s.trace := rfl

end Progress

namespace Pass

/-! ## Methods -/

/-- Calls a method and notes what came of it. -/
def call (p : Pass) (owner path : String) (l : Library) (method : String) (s : Progress) :
    Progress :=
  let (outcome, pools) := s.pools.call p.directives.routes path l method s.events
  let s' := if l.declares method then s.log (.invoked path method s.pools.input) else s
  { s' with pools }.note (.ofMethod owner path method (.called outcome))

/-- Runs `init` ahead of the candidates. -/
def callInit (p : Pass) (owner path : String) (l : Library) (s : Progress) : Progress :=
  p.call owner path l Library.initMethod
    (s.note (.ofMethod owner path Library.initMethod .initScheduled))

/-- Checks a candidate and calls it if it is allowed. -/
def consider (p : Pass) (owner path : String) (l : Library) (s : Progress) (method : String) :
    Progress :=
  match p.zone.authorize l method s.pools.input with
  | .allow => p.call owner path l method (s.note (.ofMethod owner path method .allowed))
  | .deny missing => s.note (.ofMethod owner path method (.denied missing))

/-! ## Libraries -/

/-- Carries out the plan for a library. -/
def runPlan (p : Pass) (owner path : String) (l : Library) (s : Progress) : Progress :=
  let plan := p.zone.plan l p.directives.methods
  let s := if plan.initFirst then p.callInit owner path l s else s
  plan.candidates.foldl (p.consider owner path l) s

def runLibrary (p : Pass) (owner : String) (s : Progress) (path : String) : Progress :=
  match p.catalog.library? path with
  | some l => p.runPlan owner path l (s.note (.ofLibrary owner path .found))
  | none => s.note (.ofLibrary owner path .unknown)

end Pass

/-! ## Modules -/

/-- How a module stands when its hook has been run. -/
inductive Readiness where
  /-- Its libraries may run. -/
  | ready
  /-- It is left out. -/
  | leftOut
  /-- The pass broke off in its hook. -/
  | broken
  deriving DecidableEq, Repr

def Readiness.isReady : Readiness → Bool
  | ready => true
  | leftOut => false
  | broken => false

namespace Pass

/-- Runs the hook of a module, if it has one. -/
def bootstrap (p : Pass) (owner : String) (s : Progress) : Readiness × Progress :=
  match p.catalog.runHook? owner s.events with
  | none => (.ready, s)
  | some (.result (.ok ())) => (.ready, (s.log (.hook owner)).note (.ofModule owner .ready))
  | some (.result (.error f)) =>
    (.leftOut, (s.log (.hook owner)).note (.ofModule owner (.notReady f.message)))
  | some .panic => (.broken, s.log (.hook owner))

/-- A hook leaves both pools as they are. -/
theorem bootstrap_pools (p : Pass) (owner : String) (s : Progress) :
    (p.bootstrap owner s).2.pools = s.pools := by
  unfold bootstrap
  rcases p.catalog.runHook? owner s.events with _ | ⟨_ | _⟩ | _ <;> rfl

/-- How far a pass has come, whether it goes on or broke off there. -/
def upshot : Except Progress Progress → Progress
  | .ok s => s
  | .error s => s

/-- Runs a module. An error is a pass that broke off, as far as it had come. -/
def runModule (p : Pass) (s : Progress) (entry : String × List String) :
    Except Progress Progress :=
  match p.bootstrap entry.1 s with
  | (.ready, s) => .ok (entry.2.foldl (p.runLibrary entry.1) s)
  | (.leftOut, s) => .ok s
  | (.broken, s) => .error s

/-! ## The whole pass -/

/-- Whether there is nothing to run: no library asked for, or neither a method
named nor any input. -/
def isIdle (p : Pass) (s : Progress) : Bool :=
  p.directives.modules.isEmpty || (p.directives.methods.isEmpty && s.pools.input.isEmpty)

/-- Runs the modules in order, up to one in whose hook the pass breaks off. -/
def attempt (p : Pass) (s : Progress) : Except Progress Progress :=
  if p.isIdle s then .ok s else p.directives.modules.toList.foldlM p.runModule s

/-- What a pass comes to, at its end or where it breaks off. -/
def run (p : Pass) (s : Progress) : Progress := upshot (p.attempt s)

/-- Whether a pass comes to its end. -/
def ends (p : Pass) (s : Progress) : Bool := (p.attempt s).isOk

end Pass

end Switchboard
