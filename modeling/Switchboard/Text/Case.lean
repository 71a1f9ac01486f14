import Switchboard.Text.CaseData

/-! Upper and lower case of whole texts. One character may become several, and a
capital sigma becomes a final sigma at the end of a word. -/

namespace Switchboard.Text

open CaseData

def Run.maps (r : Run) (n : Nat) : Bool :=
  r.first ≤ n && n ≤ r.last && (n - r.first) % r.stride = 0

def mapped (many : List (Nat × List Nat)) (runs : List Run) (c : Char) : List Char :=
  match many.find? (·.1 = c.toNat) with
  | some e => e.2.map Char.ofNat
  | none =>
    match runs.find? (Run.maps · c.toNat) with
    | some r => [Char.ofNat ((c.toNat : Int) + r.shift).toNat]
    | none => [c]

def inRanges (ranges : List (Nat × Nat)) (c : Char) : Bool :=
  ranges.any fun r => r.1 ≤ c.toNat && c.toNat ≤ r.2

/-- Characters of ASCII, for which the tables need no search. -/
def isAscii (c : Char) : Bool := c.toNat < 0x80

def upperChar (c : Char) : List Char :=
  if isAscii c then [c.toUpper] else mapped upperMany CaseData.upper c

def lowerChar (c : Char) : List Char :=
  if isAscii c then [c.toLower] else mapped lowerMany CaseData.lower c

/-- Whether the first character that counts has case. -/
def meetsCased (cs : List Char) : Bool :=
  match cs.dropWhile (inRanges ignorable) with
  | c :: _ => inRanges cased c
  | [] => false

/-- A sigma is final if a letter stands before it and none after it. -/
def isFinalSigma (before after : List Char) : Bool :=
  meetsCased before && !meetsCased after

/-- The lower case of what follows `before`, which is given backwards. -/
def lowerAfter (before : List Char) : List Char → List Char
  | [] => []
  | c :: cs =>
    let low :=
      if c = 'Σ' then if isFinalSigma before cs then ['ς'] else ['σ']
      else lowerChar c
    low ++ lowerAfter (c :: before) cs

def toUpper (s : String) : String := String.ofList (s.toList.flatMap upperChar)

def toLower (s : String) : String := String.ofList (lowerAfter [] s.toList)

end Switchboard.Text
