import Switchboard.Catalog
import Switchboard.Text.Blank
import Switchboard.Text.Case

/-! The libraries that come built in, for trying things out: two for texts and one
for numbers, whose sum is meant to be routed on to its other method. -/

namespace Switchboard.Demo

/-! ## Texts -/

/-- Answers from the parameter `text`. -/
def withText (f : String → Json) (input : Input) : Answer :=
  match (input.get? "text").bind Json.string? with
  | some text => .value (f text)
  | none => .fault (.failed "'text' must be a string")

def textCase : Handlers :=
  ((Handlers.empty.method "upper" (withText fun s => .str (Text.toUpper s))).method
    "lower" (withText fun s => .str (Text.toLower s))).withContract
      ((Contract.empty.require "upper" ["text"]).require "lower" ["text"])

/-- The numbers of characters and of words. -/
def counts (text : String) : Json :=
  .obj [("chars", .ofInt text.length), ("words", .ofInt (Text.wordCount text))]

def textStats : Handlers :=
  (Handlers.empty.method "count" (withText counts)).withContract
    (Contract.empty.require "count" ["text"])

/-! ## Numbers -/

/-- Adds numbers in order; the first item that is none is a fault. -/
def total (sum : Float) : List Json → Except Fault Float
  | [] => .ok sum
  | v :: vs =>
    match v.float? with
    | some x => total (sum + x) vs
    | none => .error (.failed ("not a number: " ++ v.compact))

def sum (input : Input) : Answer :=
  match (input.get? "numbers").bind Json.items? with
  | none => .fault (.failed "'numbers' must be an array")
  | some items =>
    match total 0.0 items with
    | .ok x => .value (.obj [("total", .ofFloat x), ("count", .ofInt items.length)])
    | .error f => .fault f

def double (input : Input) : Answer :=
  match (input.get? "total").bind Json.float? with
  | some x => .value (.ofFloat (x * 2.0))
  | none => .fault (.failed "'total' must be a number")

def mathCalc : Handlers :=
  (((Handlers.empty.method "init" fun _ => .value .null).method "sum" sum).method
    "double" double).withContract
      ((Contract.empty.require "sum" ["numbers"]).require "double" ["total"])

/-! ## Catalog -/

def libraries : List (String × Handlers) :=
  [("text\\case", textCase), ("text\\stats", textStats), ("math\\calc", mathCalc)]

def enter (c : Catalog) (entry : String × Handlers) : Except RegistrationError Catalog :=
  c.register entry.1 entry.2.toLibrary

/-- All built-in libraries; the module of numbers has a hook, which succeeds. -/
def catalog : Except RegistrationError Catalog :=
  (libraries.foldlM enter Catalog.empty).map (·.setHook "math" (.ok ()))

end Switchboard.Demo
