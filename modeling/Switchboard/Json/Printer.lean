import Switchboard.Json.Numeral
import Switchboard.Json.Quoted

/-! The two written forms of JSON values: compact, and spread over lines with an
indent of two spaces for each open container. -/

namespace Switchboard.Json

/-! ## Compact -/

mutual

def compact : Json → String
  | null => "null"
  | bool b => if b then "true" else "false"
  | num n => n.text
  | str s => quoted s
  | arr items => "[" ++ ",".intercalate (compactItems items) ++ "]"
  | obj fields => "\x7b" ++ ",".intercalate (compactFields fields) ++ "\x7d"

def compactItems : List Json → List String
  | [] => []
  | v :: vs => v.compact :: compactItems vs

def compactFields : List (String × Json) → List String
  | [] => []
  | (k, v) :: fs => (quoted k ++ ":" ++ v.compact) :: compactFields fs

end

/-! ## Spread over lines -/

def indent (depth : Nat) : String := String.ofList (List.replicate (2 * depth) ' ')

/-- Lines between two brackets, the lines one step further in than the brackets. -/
def block (opening closing : String) (depth : Nat) : List String → String
  | [] => opening ++ closing
  | lines =>
    let margin := "\n" ++ indent (depth + 1)
    opening ++ margin ++ ("," ++ margin).intercalate lines ++ "\n" ++ indent depth ++ closing

mutual

/-- The text of a value inside of `depth` open containers. -/
def prettyAt (depth : Nat) : Json → String
  | arr items => block "[" "]" depth (prettyItems (depth + 1) items)
  | obj fields => block "\x7b" "\x7d" depth (prettyFields (depth + 1) fields)
  | null => "null"
  | bool b => if b then "true" else "false"
  | num n => n.text
  | str s => quoted s

def prettyItems (depth : Nat) : List Json → List String
  | [] => []
  | v :: vs => v.prettyAt depth :: prettyItems depth vs

def prettyFields (depth : Nat) : List (String × Json) → List String
  | [] => []
  | (k, v) :: fs => (quoted k ++ ": " ++ v.prettyAt depth) :: prettyFields depth fs

end

def pretty (v : Json) : String := v.prettyAt 0

end Switchboard.Json
