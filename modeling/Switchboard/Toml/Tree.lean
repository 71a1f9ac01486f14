import Switchboard.Table

/-! The tables of a TOML document and the rules by which they may be added to. A
name is never given twice. A header may open a table that so far only longer
headers have named; a dotted key may go on in a table that dotted keys have made. -/

namespace Switchboard.Toml

/-- How a table came to be. -/
inductive Origin where
  | header
  /-- Named on the way by a longer header. -/
  | implied
  | dottedKey
  deriving DecidableEq, Repr

inductive Node where
  /-- A value; of values only truth values are kept. -/
  | leaf (b : Option Bool)
  | table (origin : Origin) (entries : List (String × Node))
  /-- The last table of an array of tables. -/
  | tables (entries : List (String × Node))

/-- The entries of a table. -/
abbrev Tree := List (String × Node)

namespace Tree

/-- Enters a value under a dotted key, whose last part is `key`. -/
def put? (key : String) (v : Node) : List String → Tree → Option Tree
  | [], t => if (Entries.get? key t).isSome then none else some (Entries.put key v t)
  | p :: ps, t =>
    match Entries.get? p t with
    | none => do
      let sub ← put? key v ps []
      some (Entries.put p (.table .dottedKey sub) t)
    | some (.table origin sub) =>
      if origin = .header ∨ (ps = [] ∧ origin ≠ .dottedKey) then none
      else do
        let sub ← put? key v ps sub
        some (Entries.put p (.table origin sub) t)
    | some (.tables sub) =>
      if ps = [] then none
      else do
        let sub ← put? key v ps sub
        some (Entries.put p (.tables sub) t)
    | some (.leaf _) => none

/-- Follows `path` through the tables it names, making those that are missing, and
changes what it ends in. -/
def update? (f : Tree → Option Tree) : List String → Tree → Option Tree
  | [], t => f t
  | p :: ps, t =>
    match Entries.get? p t with
    | none => do
      let sub ← update? f ps []
      some (Entries.put p (.table .implied sub) t)
    | some (.table origin sub) => do
      let sub ← update? f ps sub
      some (Entries.put p (.table origin sub) t)
    | some (.tables sub) => do
      let sub ← update? f ps sub
      some (Entries.put p (.tables sub) t)
    | some (.leaf _) => none

/-- Opens the table `key`. -/
def openTable? (key : String) (t : Tree) : Option Tree :=
  match Entries.get? key t with
  | none => some (Entries.put key (.table .header []) t)
  | some (.table .implied sub) => some (Entries.put key (.table .header sub) t)
  | some _ => none

/-- Opens a new table at the end of the array `key`. -/
def openElement? (key : String) (t : Tree) : Option Tree :=
  match Entries.get? key t with
  | none => some (Entries.put key (.tables []) t)
  | some (.tables _) => some (Entries.put key (.tables []) t)
  | some _ => none

end Tree

end Switchboard.Toml
