import Switchboard.Text.Hex

/-! The small parts of TOML text: space, comments, line ends and strings. Each
reader takes a text and gives what follows the part it reads; `none` means that
the part is not there or not well formed. -/

namespace Switchboard.Toml

/-! ## Space and comments -/

def isSpace (c : Char) : Bool := c = ' ' || c = '\t'

/-- Every character but the control characters; of these only the tab. -/
def isPlain (c : Char) : Bool := c = '\t' || (0x20 ≤ c.toNat && c.toNat ≠ 0x7f)

def skipSpace (cs : List Char) : List Char := cs.dropWhile isSpace

def newline? : List Char → Option (List Char)
  | '\n' :: cs => some cs
  | '\r' :: '\n' :: cs => some cs
  | _ => none

def skipComment : List Char → List Char
  | '#' :: cs => cs.dropWhile isPlain
  | cs => cs

/-- What may stand behind the last part of a line, up to the next line. -/
def lineEnd? (cs : List Char) : Option (List Char) :=
  match skipComment (skipSpace cs) with
  | [] => some []
  | cs => newline? cs

/-- Passes over space, newlines and comments; the flag says that a comment has
begun. -/
def skipLines (comment : Bool) : List Char → List Char
  | [] => []
  | c :: cs =>
    if c = '\n' then skipLines false cs
    else if c = '\r' ∧ cs.head? = some '\n' then skipLines false cs
    else if comment then if isPlain c then skipLines true cs else c :: cs
    else if isSpace c then skipLines false cs
    else if c = '#' then skipLines true cs
    else c :: cs

/-! ## Strings of one line -/

def unescape? : Char → Option Char
  | '"' => some '"'
  | '\\' => some '\\'
  | 'b' => some '\x08'
  | 'f' => some '\x0c'
  | 'n' => some '\n'
  | 'r' => some '\r'
  | 't' => some '\t'
  | _ => none

/-- The string whose opening quote has been read, and what follows it. -/
def basic? : List Char → Option (List Char × List Char)
  | [] => none
  | '"' :: cs => some ([], cs)
  | '\\' :: 'u' :: a :: b :: c :: d :: cs => do
    let x ← Text.hexChar? [a, b, c, d]
    (basic? cs).map fun p => (x :: p.1, p.2)
  | '\\' :: 'U' :: a :: b :: c :: d :: e :: f :: g :: h :: cs => do
    let x ← Text.hexChar? [a, b, c, d, e, f, g, h]
    (basic? cs).map fun p => (x :: p.1, p.2)
  | '\\' :: e :: cs => do
    let x ← unescape? e
    (basic? cs).map fun p => (x :: p.1, p.2)
  | c :: cs =>
    if isPlain c ∧ c ≠ '\\' then (basic? cs).map fun p => (c :: p.1, p.2) else none

/-- The same between single quotes, where nothing is escaped. -/
def literal? : List Char → Option (List Char × List Char)
  | [] => none
  | c :: cs =>
    if c = '\'' then some ([], cs)
    else if isPlain c then (literal? cs).map fun p => (c :: p.1, p.2)
    else none

/-! ## Strings of several lines -/

/-- What follows three quotes, of which the first has been read. Up to two quotes
before them belong to the string. -/
def closing? (quote : Char) : List Char → Option (List Char)
  | a :: b :: cs =>
    if a = quote ∧ b = quote then
      match cs with
      | c :: d :: cs =>
        if c = quote then if d = quote then some cs else some (d :: cs) else some (c :: d :: cs)
      | [c] => if c = quote then some [] else some [c]
      | [] => some []
    else none
  | _ => none

/-- What follows a string of several lines. The flag says that a backslash has
begun to hide the end of a line. -/
def multiBasic? (hidden : Bool) : List Char → Option (List Char)
  | [] => none
  | '\\' :: 'u' :: a :: b :: c :: d :: cs =>
    if hidden ∨ (Text.hexChar? [a, b, c, d]).isNone then none else multiBasic? false cs
  | '\\' :: 'U' :: a :: b :: c :: d :: e :: f :: g :: h :: cs =>
    if hidden ∨ (Text.hexChar? [a, b, c, d, e, f, g, h]).isNone then none
    else multiBasic? false cs
  | '\\' :: e :: cs =>
    if hidden then none
    else if (unescape? e).isSome then multiBasic? false cs
    else if e = '\n' then multiBasic? false cs
    else if isSpace e ∨ (e = '\r' ∧ cs.head? = some '\n') then multiBasic? true cs
    else none
  | c :: cs =>
    if c = '\n' then multiBasic? false cs
    else if c = '\r' then if cs.head? = some '\n' then multiBasic? hidden cs else none
    else if hidden then if isSpace c then multiBasic? true cs else none
    else if c = '"' then
      match closing? '"' cs with
      | some rest => some rest
      | none => multiBasic? false cs
    else if isPlain c ∧ c ≠ '\\' then multiBasic? false cs
    else none

/-- The same between single quotes. -/
def multiLiteral? : List Char → Option (List Char)
  | [] => none
  | c :: cs =>
    if c = '\'' then
      match closing? '\'' cs with
      | some rest => some rest
      | none => multiLiteral? cs
    else if c = '\r' then if cs.head? = some '\n' then multiLiteral? cs else none
    else if c = '\n' ∨ isPlain c then multiLiteral? cs
    else none

end Switchboard.Toml
