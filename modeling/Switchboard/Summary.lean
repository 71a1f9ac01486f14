import Switchboard.Catalog
import Switchboard.Text.Literal

/-! One-line summaries of libraries and catalogs, for logs. -/

namespace Switchboard

open Text

def listed (texts : List String) : String := ", ".intercalate texts

def Contract.summary (c : Contract) : String :=
  let entry (e : String × KeySet) : String :=
    "(" ++ literal e.1 ++ ", \x7b" ++ listed (e.2.toList.map literal) ++ "\x7d)"
  "ApiContract \x7b entries: [" ++ listed (c.toList.map entry) ++ "] \x7d"

def Handlers.summary (h : Handlers) : String :=
  let api := match h.contract with
    | some c => "Some(" ++ c.summary ++ ")"
    | none => "None"
  "FnLibrary \x7b methods: [" ++ listed (h.methods.map literal) ++ "], api: " ++ api ++ " \x7d"

/-- Paths and modules in order, whatever order they were entered in. -/
def Catalog.summary (c : Catalog) : String :=
  let sorted (names : List String) : String :=
    listed ((KeySet.ofList names).toList.map literal)
  "Catalog \x7b libraries: [" ++ sorted c.libraries.keys ++ "], bootstraps: [" ++
    sorted c.hooks.keys ++ "] \x7d"

end Switchboard
