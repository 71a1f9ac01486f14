import Switchboard.Path

/-! One token of a `cmd` list: a path asks for a library, a bare name for a
method of every library asked for. -/

namespace Switchboard

inductive Token where
  /-- A library to load, under the module its path names. -/
  | library (owner path : String)
  /-- A method to call on every library of the request. -/
  | method (name : String)
  deriving DecidableEq, Repr

/-- Reads one token; `none` for one that asks for nothing, such as a path with no
text after its separator. -/
def Token.ofString? (token : String) : Option Token :=
  match Text.cut? Path.separator token.toList with
  | none => if token = "" then none else some (.method token)
  | some (name, rest) => do
    let owner ← Path.moduleAt? token (Text.byteSize name)
    if rest = [] then none else some (.library owner token)

end Switchboard
