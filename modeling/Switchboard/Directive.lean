import Switchboard.Directive.Modules
import Switchboard.Directive.Route
import Switchboard.Directive.Token

/-! The two directive texts of a request. `cmd` lists libraries and methods;
`map` lists routes, each of which starts at a library that `cmd` has listed.
A token that does not read as either is passed over. -/

namespace Switchboard

/-- What the directives of a request come to. -/
@[ext]
structure Directives where
  modules : Modules
  methods : MethodList
  routes : Routes

namespace Directives

def empty : Directives := ⟨.empty, .empty, .empty⟩

instance : Inhabited Directives := ⟨empty⟩

/-! ## Libraries and methods -/

/-- Enters one token of a `cmd` list. -/
def enter (d : Directives) (token : String) : Directives :=
  match Token.ofString? token with
  | some (.library owner path) => { d with modules := d.modules.insert owner path }
  | some (.method name) => { d with methods := d.methods.insert name }
  | none => d

def addCommand (d : Directives) (raw : String) : Directives :=
  (Path.tokens raw).foldl enter d

/-! ## Routes -/

/-- The most segments, up to `n`, that make a path of `libraries`. -/
def longestHeld? (libraries segs : List String) : Nat → Option Nat
  | 0 => none
  | n + 1 =>
    if Path.join (segs.take (n + 1)) ∈ libraries then some (n + 1)
    else longestHeld? libraries segs n

/-- Reads one token of a `map` list. The text before the first colon begins with
a listed library, the longest that fits; the segment after it is the method and
the segments after that are the steps. -/
def route? (d : Directives) (token : String) : Option Route := do
  let (source, target) ← Text.cut? ':' token.toList
  let (name, _) ← Text.cut? Path.separator source
  let path := String.ofList source
  let owner ← Path.moduleAt? path (Text.byteSize name)
  let libraries ← d.modules.libraries? owner
  let segs := Path.segments path
  let held ← longestHeld? libraries segs segs.length
  match segs.drop held with
  | [] => none
  | method :: steps =>
    some ⟨Path.resultKey (Path.join (segs.take held)) method, steps, String.ofList target⟩

/-- Enters one token of a `map` list. -/
def enterRoute (d : Directives) (token : String) : Directives :=
  match d.route? token with
  | some route => { d with routes := d.routes.insert route }
  | none => d

def addMap (d : Directives) (raw : String) : Directives :=
  (Path.tokens raw).foldl enterRoute d

/-! ## Whole requests -/

/-- Enters `cmd` and then `map`, where they are given. -/
def add (d : Directives) (cmd map : Option String) : Directives :=
  let d := match cmd with
    | some raw => d.addCommand raw
    | none => d
  match map with
  | some raw => d.addMap raw
  | none => d

def parse (cmd map : Option String) : Directives := empty.add cmd map

end Directives

end Switchboard
