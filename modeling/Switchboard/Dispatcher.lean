import Switchboard.Pass
import Switchboard.Request

/-! The entry points: a request from a transport, or directives and input given
directly. Each starts a pass of its own, so nothing carries over between two. -/

namespace Switchboard

structure Dispatcher where
  settings : Settings
  catalog : Catalog

/-- What a pass hands back. -/
structure Report where
  format : Format
  progress : Progress
  /-- Whether the pass came to its end. One that breaks off hands nothing back, and what
  is held here tells how far it came. -/
  complete : Bool

namespace Report

def results (r : Report) : Results := r.progress.pools.results

def input (r : Report) : Input := r.progress.pools.input

def trace (r : Report) : Trace := r.progress.trace

end Report

def Pass.report (p : Pass) (format : Format) (s : Progress) : Report :=
  ⟨format, p.run s, p.ends s⟩

namespace Dispatcher

def pass (d : Dispatcher) (directives : Directives) : Pass :=
  ⟨d.catalog, ⟨d.settings.safeZone⟩, directives⟩

def handle (d : Dispatcher) (r : Request) : Report :=
  let i := r.intake d.settings
  (d.pass (.parse i.cmd i.map)).report i.format (.start i.input)

def call (d : Dispatcher) (cmd : String) (map : Option String) (input : Table Json) : Report :=
  (d.pass (.parse (some cmd) map)).report .json (.start (.ofTable input))

end Dispatcher

end Switchboard
