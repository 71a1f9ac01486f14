/-! White space as the Unicode property of that name has it, and the words of a
text: the longest runs without it. -/

namespace Switchboard.Text

def isBlank (c : Char) : Bool :=
  let n := c.toNat
  (9 ≤ n && n ≤ 13) || n = 0x20 || n = 0x85 || n = 0xa0 || n = 0x1680 ||
    (0x2000 ≤ n && n ≤ 0x200a) || n = 0x2028 || n = 0x2029 || n = 0x202f || n = 0x205f ||
    n = 0x3000

/-- The number of words; `inside` says whether one has begun. -/
def countWords (inside : Bool) : List Char → Nat
  | [] => 0
  | c :: cs =>
    if isBlank c then countWords false cs
    else (if inside then 0 else 1) + countWords true cs

def wordCount (s : String) : Nat := countWords false s.toList

end Switchboard.Text
