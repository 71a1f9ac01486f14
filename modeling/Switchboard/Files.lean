import Switchboard.Text.Split

/-! Files as a program meets them: a path leads to the bytes of a file, to a
directory, or to an error of the system. -/

namespace Switchboard

/-- Why a path leads nowhere. -/
inductive FileError where
  | notFound
  | notDirectory
  | isDirectory
  | nameTooLong
  /-- The path holds a character that no path can hold. -/
  | nulByte
  /-- Any other error of the system, with its number and text. -/
  | other (code : Nat) (text : String)
  deriving DecidableEq, Repr

def numbered (text : String) (code : Nat) : String :=
  text ++ " (os error " ++ toString code ++ ")"

def FileError.message : FileError → String
  | notFound => numbered "No such file or directory" 2
  | notDirectory => numbered "Not a directory" 20
  | isDirectory => numbered "Is a directory" 21
  | nameTooLong => numbered "File name too long" 36
  | nulByte => "file name contained an unexpected NUL byte"
  | other code text => numbered text code

inductive Entry where
  | file (bytes : ByteArray)
  | directory

/-- Where paths lead. -/
abbrev Files := String → Except FileError Entry

namespace Entry

/-- The size of a directory itself. -/
def directorySize : Nat := 4096

def size : Entry → Nat
  | file bytes => bytes.size
  | directory => directorySize

end Entry

/-! ## A tree of files -/

/-- The names on the way to each file and directory below one directory. The
directories on the way to a file need not be listed. -/
structure FileTree where
  entries : List (List String × Entry)

namespace FileTree

/-- What stands at a place, given as the names on the way to it. -/
def at? (t : FileTree) (place : List String) : Option Entry :=
  if place = [] then some .directory
  else
    match t.entries.find? (·.1 = place) with
    | some e => some e.2
    | none => if t.entries.any (fun e => place.isPrefixOf e.1) then some .directory else none

/-- Parts that name nothing new: they stay where they are or lead back. -/
def isStep (p : String) : Bool := p = "" || p = "." || p = ".."

/-- The bytes that one name may have. -/
def nameLimit : Nat := 255

/-- Outside of the tree nothing is known but that there are directories; a name
there is looked up, and so refused if it is too long, but never found. -/
def outside : List String → Except FileError Entry
  | [] => .ok .directory
  | p :: ps =>
    if isStep p then outside ps
    else if nameLimit < p.utf8ByteSize then .error .nameTooLong
    else .error .notFound

/-- Follows the parts of a path from a place in the tree. Each part needs a
directory to start from. -/
def follow (t : FileTree) (place : List String) : List String → Except FileError Entry
  | [] =>
    match t.at? place with
    | some e => .ok e
    | none => .error .notFound
  | p :: ps =>
    match t.at? place with
    | none => .error .notFound
    | some (.file _) => .error .notDirectory
    | some .directory =>
      if p = ".." then if place = [] then outside ps else t.follow place.dropLast ps
      else if isStep p then t.follow place ps
      else if nameLimit < p.utf8ByteSize then .error .nameTooLong
      else t.follow (place ++ [p]) ps

/-- Where a path leads that starts in the directory of the tree. -/
def files (t : FileTree) : Files := fun path =>
  let parts := (Text.pieces '/' path.toList).map String.ofList
  if '\x00' ∈ path.toList then .error .nulByte
  else if path = "" then .error .notFound
  else if 4096 ≤ path.utf8ByteSize then .error .nameTooLong
  else if path.toList.head? = some '/' then outside parts
  else t.follow [] parts

end FileTree

/-- The last part of a path that names something; nothing if it leads back. -/
def fileName (path : String) : String :=
  let parts := (Text.pieces '/' path.toList).map String.ofList
  match (parts.filter fun p => p ≠ "" && p ≠ ".").getLast? with
  | some p => if p = ".." then "" else p
  | none => ""

end Switchboard
