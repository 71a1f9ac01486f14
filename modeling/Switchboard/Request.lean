import Switchboard.Format
import Switchboard.Input
import Switchboard.Json.Record
import Switchboard.Settings

/-! Requests as they arrive, and what a pass takes from them. A body parameter
hides a query parameter of the same name. The three reserved names are taken out
before anything becomes input, and files are merged last. -/

namespace Switchboard

/-- Parameters as delivered, by where they came from. -/
@[ext]
structure Request where
  query : Table Json
  body : Table Json
  files : Table Json

/-- A request taken apart. -/
structure Intake where
  format : Format
  cmd : Option String
  map : Option String
  input : Input

namespace Request

def formatKey : String := "format"

def cmdKey : String := "cmd"

def mapKey : String := "map"

def reserved : List String := [formatKey, cmdKey, mapKey]

def empty : Request := ⟨.empty, .empty, .empty⟩

instance : Inhabited Request := ⟨empty⟩

/-- A request whose parameters all came in the body. -/
def ofBody (body : Table Json) : Request := { empty with body }

def addQuery (r : Request) (k : String) (v : Json) : Request :=
  { r with query := r.query.insert k v }

def addBody (r : Request) (k : String) (v : Json) : Request :=
  { r with body := r.body.insert k v }

def addFile (r : Request) (k : String) (v : Json) : Request :=
  { r with files := r.files.insert k v }

/-! ## Intake -/

/-- The parameters that count. -/
def parameters (r : Request) (s : Settings) : Table Json :=
  if s.acceptQuery then r.query.insertMany r.body.entries else r.body

def text? (t : Table Json) (k : String) : Option String := (t.get? k).bind Json.string?

/-- The files whose names are not reserved. -/
def fileEntries (r : Request) : List (String × Json) :=
  r.files.entries.filter fun e => !reserved.contains e.1

/-- Takes a request apart. A directive that is not a string counts as absent, and
a format that is not known as the first one. -/
def intake (r : Request) (s : Settings) : Intake :=
  let all := r.parameters s
  let rest := ((all.erase formatKey).erase cmdKey).erase mapKey
  let input := Input.ofTable rest
  { format := ((text? all formatKey).bind Format.ofString?).getD .json
    cmd := text? all cmdKey
    map := text? all mapKey
    input := if r.fileEntries.isEmpty then input else input.merge (.ofList r.fileEntries) }

/-! ## As JSON -/

def toJson (r : Request) : Json :=
  .obj [("query", .obj r.query.entries), ("body", .obj r.body.entries),
    ("files", .obj r.files.entries)]

def ofJson? (v : Json) : Option Request := do
  match ← v.columns? ["query", "body", "files"] with
  | [query, body, files] =>
    some { query := ← Json.default? Json.table? .empty query
           body := ← Json.default? Json.table? .empty body
           files := ← Json.default? Json.table? .empty files }
  | _ => none

end Request

end Switchboard
