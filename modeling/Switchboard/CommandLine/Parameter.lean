import Switchboard.Files
import Switchboard.Json.Reader
import Switchboard.Text.Split

/-! Parameters as the command line gives them, `name=value`. A value that is JSON
text stands for its value and any other for itself. A file parameter stands for a
description of the file. -/

namespace Switchboard.CommandLine

inductive ParameterError where
  | noValue (raw : String)
  | noName (raw : String)
  | noPath (raw : String)
  | noFileName (raw : String)
  | unreadable (path : String) (error : FileError)
  deriving DecidableEq, Repr

def ParameterError.message : ParameterError → String
  | noValue raw => "expected KEY=VALUE, got '" ++ raw ++ "'"
  | noName raw => "empty parameter name in '" ++ raw ++ "'"
  | noPath raw => "expected KEY=PATH, got '" ++ raw ++ "'"
  | noFileName raw => "empty file parameter name in '" ++ raw ++ "'"
  | unreadable path e => "cannot read file '" ++ path ++ "': " ++ e.message

/-- The text before the first equals sign, and the text after it. -/
def equation? (raw : String) : Option (String × String) :=
  (Text.cut? '=' raw.toList).map fun p => (String.ofList p.1, String.ofList p.2)

def valueOf (text : String) : Json := (Json.parse? text).getD (.str text)

def parameter (raw : String) : Except ParameterError (String × Json) :=
  match equation? raw with
  | none => .error (.noValue raw)
  | some (name, text) =>
    if name = "" then .error (.noName raw) else .ok (name, valueOf text)

/-- Name, path and size of a file. -/
def description (path : String) (e : Entry) : Json :=
  .obj [("name", .str (fileName path)), ("path", .str path), ("size", .ofInt e.size)]

def fileParameter (files : Files) (raw : String) : Except ParameterError (String × Json) :=
  match equation? raw with
  | none => .error (.noPath raw)
  | some (name, path) =>
    if name = "" then .error (.noFileName raw)
    else
      match files path with
      | .ok e => .ok (name, description path e)
      | .error e => .error (.unreadable path e)

end Switchboard.CommandLine
