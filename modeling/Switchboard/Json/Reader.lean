import Switchboard.Json.Lexeme
import Switchboard.Table

/-! Reading JSON text in one pass over its lexemes. The containers that are still
open stand on a stack, so its height is the depth of nesting. In an object a
repeated name keeps its first place and takes its last value. -/

namespace Switchboard.Json

/-- An open container. -/
inductive Frame where
  /-- The items so far, the last one first. -/
  | arr (items : List Json)
  /-- The fields so far, and the name whose value is being read. -/
  | obj (fields : List (String × Json)) (name : Option String)

/-- What may come next. -/
inductive Expect where
  | value
  /-- A value, or the end of an array that holds none. -/
  | firstItem
  /-- A name, or the end of an object that holds none. -/
  | firstName
  | name
  | colon
  /-- Anything that may follow the value just read. -/
  | after (v : Json)

structure Reading where
  stack : List Frame
  expect : Expect

namespace Reading

def start : Reading := ⟨[], .value⟩

/-- The most containers that may be open at once. -/
def maxDepth : Nat := 127

def push (f : Frame) (e : Expect) (stack : List Frame) : Option Reading :=
  if stack.length < maxDepth then some ⟨f :: stack, e⟩ else none

def beginValue (stack : List Frame) : Lexeme → Option Reading
  | .scalar v => some ⟨stack, .after v⟩
  | .openArray => push (.arr []) .firstItem stack
  | .openObject => push (.obj [] none) .firstName stack
  | _ => none

def setName : List Frame → Lexeme → Option Reading
  | .obj fields _ :: stack, .scalar (.str k) => some ⟨.obj fields (some k) :: stack, .colon⟩
  | _, _ => none

/-- Goes on after the value `v` in the innermost container. -/
def afterValue (v : Json) : List Frame → Lexeme → Option Reading
  | .arr items :: stack, .comma => some ⟨.arr (v :: items) :: stack, .value⟩
  | .arr items :: stack, .closeArray => some ⟨stack, .after (.arr (v :: items).reverse)⟩
  | .obj fields (some k) :: stack, .comma =>
    some ⟨.obj (Entries.put k v fields) none :: stack, .name⟩
  | .obj fields (some k) :: stack, .closeObject =>
    some ⟨stack, .after (.obj (Entries.put k v fields))⟩
  | _, _ => none

def step (r : Reading) (l : Lexeme) : Option Reading :=
  match r.expect, l with
  | .value, l => beginValue r.stack l
  | .firstItem, .closeArray => some ⟨r.stack.tail, .after (.arr [])⟩
  | .firstItem, l => beginValue r.stack l
  | .firstName, .closeObject => some ⟨r.stack.tail, .after (.obj [])⟩
  | .firstName, l => setName r.stack l
  | .name, l => setName r.stack l
  | .colon, .colon => some ⟨r.stack, .value⟩
  | .colon, _ => none
  | .after v, l => afterValue v r.stack l

/-- The value, once every container is closed. -/
def value? (r : Reading) : Option Json :=
  match r.stack, r.expect with
  | [], .after v => some v
  | _, _ => none

end Reading

def parseChars? (cs : List Char) : Option Json := do
  let ls ← Lexeme.all? cs
  let r ← ls.foldlM Reading.step Reading.start
  r.value?

/-- The value that a text stands for, if it is well-formed JSON nested no deeper
than `Reading.maxDepth`. -/
def parse? (text : String) : Option Json := parseChars? text.toList

end Switchboard.Json
