import Switchboard.Toml.Scalar
import Switchboard.Toml.Tree

/-! TOML documents: lines that open tables or enter values in the table that is
open. A text that breaks a rule anywhere is no document. -/

namespace Switchboard.Toml

/-! ## Keys -/

def isBare (c : Char) : Bool := c.isAlphanum || c = '_' || c = '-'

def simpleKey? : List Char → Option (String × List Char)
  | '"' :: cs => (basic? cs).map fun p => (String.ofList p.1, p.2)
  | '\'' :: cs => (literal? cs).map fun p => (String.ofList p.1, p.2)
  | cs =>
    match cs.takeWhile isBare with
    | [] => none
    | name => some (String.ofList name, cs.dropWhile isBare)

/-- The most parts of a key, and the most brackets open at once. -/
def maxDepth : Nat := 79

/-- A key of at most `n` parts with points between them. -/
def dottedKey? : Nat → List Char → Option (List String × List Char)
  | 0, _ => none
  | n + 1, cs => do
    let (name, cs) ← simpleKey? (skipSpace cs)
    match skipSpace cs with
    | '.' :: cs => (dottedKey? n cs).map fun p => (name :: p.1, p.2)
    | cs => some ([name], cs)

/-- The parts of a key before the last, and the last. -/
def key? (cs : List Char) : Option ((List String × String) × List Char) := do
  let (names, cs) ← dottedKey? maxDepth cs
  let last ← names.getLast?
  some ((names.dropLast, last), cs)

/-! ## Values

Every call hands one unit of fuel less on, and two units for each character are
enough. -/

mutual

/-- A value inside of brackets of which `depth` more may be opened. -/
def value? : Nat → Nat → List Char → Option (Option Bool × List Char)
  | 0, _, _ => none
  | fuel + 1, depth, cs =>
    match cs with
    | '"' :: '"' :: '"' :: cs => (multiBasic? false cs).map (none, ·)
    | '"' :: cs => (basic? cs).map fun p => (none, p.2)
    | '\'' :: '\'' :: '\'' :: cs => (multiLiteral? cs).map (none, ·)
    | '\'' :: cs => (literal? cs).map fun p => (none, p.2)
    | '[' :: cs =>
      match depth with
      | 0 => none
      | depth + 1 => (items? fuel depth cs).map (none, ·)
    | '\x7b' :: cs =>
      match depth with
      | 0 => none
      | depth + 1 =>
        match skipSpace cs with
        | '\x7d' :: cs => some (none, cs)
        | cs => (fields? fuel depth [] cs).map (none, ·)
    | 't' :: 'r' :: 'u' :: 'e' :: cs => some (some true, cs)
    | 'f' :: 'a' :: 'l' :: 's' :: 'e' :: cs => some (some false, cs)
    | cs => (scalar? cs).map (none, ·)

/-- The items of an array up to its closing bracket. -/
def items? : Nat → Nat → List Char → Option (List Char)
  | 0, _, _ => none
  | fuel + 1, depth, cs =>
    match skipLines false cs with
    | ']' :: cs => some cs
    | cs =>
      match value? fuel depth cs with
      | none => none
      | some (_, cs) =>
        match skipLines false cs with
        | ',' :: cs => items? fuel depth cs
        | ']' :: cs => some cs
        | _ => none

/-- The fields of a table in braces up to the closing brace. -/
def fields? : Nat → Nat → Tree → List Char → Option (List Char)
  | 0, _, _, _ => none
  | fuel + 1, depth, t, cs =>
    match key? cs with
    | some ((path, key), '=' :: cs) =>
      match value? fuel depth (skipSpace cs) with
      | none => none
      | some (b, cs) =>
        match t.put? key (.leaf b) path, skipSpace cs with
        | some t, ',' :: cs => fields? fuel depth t cs
        | some _, '\x7d' :: cs => some cs
        | _, _ => none
    | _ => none

end

/-! ## Lines -/

/-- What has been read so far, and the path of the table that is open. -/
structure Reading where
  tree : Tree
  path : List String

/-- A line that enters a value. -/
def entry? (r : Reading) (cs : List Char) : Option (Reading × List Char) := do
  match ← key? cs with
  | ((path, key), '=' :: cs) =>
    let (b, cs) ← value? (2 * cs.length + 2) maxDepth (skipSpace cs)
    let rest ← lineEnd? cs
    let tree ← r.tree.update? (·.put? key (.leaf b) path) r.path
    some (⟨tree, r.path⟩, rest)
  | _ => none

/-- A line that opens a table, after its first bracket. -/
def header? (r : Reading) (cs : List Char) : Option (Reading × List Char) := do
  match ← key? cs with
  | ((path, key), ']' :: cs) =>
    let rest ← lineEnd? cs
    let tree ← r.tree.update? (·.openTable? key) path
    some (⟨tree, path ++ [key]⟩, rest)
  | _ => none

/-- A line that opens an element of an array, after its first two brackets. -/
def elementHeader? (r : Reading) (cs : List Char) : Option (Reading × List Char) := do
  match ← key? cs with
  | ((path, key), ']' :: ']' :: cs) =>
    let rest ← lineEnd? cs
    let tree ← r.tree.update? (·.openElement? key) path
    some (⟨tree, path ++ [key]⟩, rest)
  | _ => none

def line? (r : Reading) (cs : List Char) : Option (Reading × List Char) :=
  match cs with
  | '[' :: '[' :: cs => elementHeader? r cs
  | '[' :: cs => header? r cs
  | '#' :: _ => (lineEnd? cs).map (r, ·)
  | '\n' :: _ => (lineEnd? cs).map (r, ·)
  | '\r' :: _ => (lineEnd? cs).map (r, ·)
  | cs => entry? r cs

/-- Reads at most `n` lines. -/
def lines? (r : Reading) : Nat → List Char → Option Tree
  | 0, _ => none
  | n + 1, cs =>
    match skipSpace cs with
    | [] => some r.tree
    | cs =>
      match line? r cs with
      | some (r, rest) => lines? r n rest
      | none => none

/-- Drops the mark that may stand in front of a text. -/
def skipMark : List Char → List Char
  | '\uFEFF' :: cs => cs
  | cs => cs

/-- The top table of a document. -/
def parse? (text : String) : Option Tree :=
  let cs := skipMark text.toList
  lines? ⟨[], []⟩ (cs.length + 1) cs

end Switchboard.Toml
