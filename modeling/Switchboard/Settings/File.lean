import Switchboard.Files
import Switchboard.Settings
import Switchboard.Toml.Document

/-! Settings from TOML text and from files. Both switches stand in the top table;
everything else in it is passed over. -/

namespace Switchboard

inductive SettingsError where
  | unreadable (path : String) (error : FileError)
  /-- The file holds bytes that are no text. -/
  | notText (path : String)
  /-- The text is no TOML, or gives a switch a value that is no truth value. -/
  | invalid (path : String)
  deriving DecidableEq, Repr

def SettingsError.message : SettingsError → String
  | unreadable path e => "failed to read config '" ++ path ++ "': " ++ e.message
  | notText path =>
    "failed to read config '" ++ path ++ "': stream did not contain valid UTF-8"
  | invalid path => "invalid config '" ++ path ++ "'"

namespace Settings

def switch? (t : Toml.Tree) (name : String) (default : Bool) : Option Bool :=
  match Entries.get? name t with
  | none => some default
  | some (.leaf (some b)) => some b
  | some _ => none

def parse? (text : String) : Option Settings := do
  let t ← Toml.parse? text
  some { safeZone := ← switch? t "safe_zone" true
         acceptQuery := ← switch? t "accept_query" true }

/-- The text of a file. -/
def read (files : Files) (path : String) : Except SettingsError String :=
  match files path with
  | .error e => .error (.unreadable path e)
  | .ok .directory => .error (.unreadable path .isDirectory)
  | .ok (.file bytes) =>
    match String.fromUTF8? bytes with
    | some text => .ok text
    | none => .error (.notText path)

def load (files : Files) (path : String) : Except SettingsError Settings :=
  match read files path with
  | .error e => .error e
  | .ok text =>
    match parse? text with
    | some s => .ok s
    | none => .error (.invalid path)

/-- Loads the file if the path leads anywhere. -/
def loadOrDefault (files : Files) (path : String) : Except SettingsError Settings :=
  match files path with
  | .error _ => .ok {}
  | .ok _ => load files path

end Settings

end Switchboard
