import Switchboard.Toml.Text

/-! Numbers, dates and times of TOML. Only their form and range are checked; what
is given back is what follows them. -/

namespace Switchboard.Toml

/-! ## Runs of digits -/

/-- Digits, with single underscores between them left out. -/
def digitRun (ok : Char → Bool) : List Char → List Char × List Char
  | [] => ([], [])
  | '_' :: c :: cs =>
    if ok c then
      let (ds, rest) := digitRun ok cs
      (c :: ds, rest)
    else ([], '_' :: c :: cs)
  | c :: cs =>
    if ok c then
      let (ds, rest) := digitRun ok cs
      (c :: ds, rest)
    else ([], c :: cs)

/-- A run that begins with a digit. -/
def digits? (ok : Char → Bool) : List Char → Option (List Char × List Char)
  | [] => none
  | c :: cs => if ok c then some (digitRun ok (c :: cs)) else none

def numberIn (base : Nat) (ds : List Char) : Nat :=
  ds.foldl (fun n c => base * n + (Text.hexValue? c).getD 0) 0

/-! ## Numbers -/

/-- A whole number without sign in base two, eight or sixteen. -/
def based? (base : Nat) (cs : List Char) : Option (List Char) := do
  let (ds, rest) ← digits? (fun c => (Text.hexValue? c).any (· < base)) cs
  if numberIn base ds < Nat.pow 2 63 then some rest else none

/-- Digits before a point: no zero in front of another. -/
def whole? : List Char → Option (List Char × List Char)
  | '0' :: cs => some (['0'], cs)
  | cs => digits? Char.isDigit cs

def sign : List Char → Bool × List Char
  | '+' :: cs => (false, cs)
  | '-' :: cs => (true, cs)
  | cs => (false, cs)

/-- The least number that doubles round to infinity. -/
def tooLarge : Nat := Nat.pow 2 1024 - Nat.pow 2 970

/-- Whether `n · 10 ^ e` is too large for a double. -/
def overflows (n : Nat) (e : Int) : Bool :=
  let place : Int := (Nat.toDigits 10 n).length + e
  if n = 0 ∨ place < 308 then false
  else if 310 < place then true
  else tooLarge * Nat.pow 10 (-e).toNat ≤ n * Nat.pow 10 e.toNat

def fraction? : List Char → Option (Option (List Char) × List Char)
  | '.' :: cs => (digits? Char.isDigit cs).map fun p => (some p.1, p.2)
  | cs => some (none, cs)

def exponent? : List Char → Option (Option Int × List Char)
  | c :: cs =>
    if c = 'e' ∨ c = 'E' then
      let (negative, cs) := sign cs
      (digits? Char.isDigit cs).map fun p =>
        let n : Int := numberIn 10 p.1
        (some (if negative then -n else n), p.2)
    else some (none, c :: cs)
  | [] => some (none, [])

/-- A decimal number: whole if 64 bits hold it, with a point or an exponent if it
does not round to plus infinity. -/
def decimal? (negative : Bool) (cs : List Char) : Option (List Char) := do
  let (whole, cs) ← whole? cs
  let (fraction, cs) ← fraction? cs
  let (exponent, cs) ← exponent? cs
  let ok : Bool := match fraction, exponent with
    | none, none => numberIn 10 whole < Nat.pow 2 63 + (if negative then 1 else 0)
    | fraction, exponent =>
      let behind := fraction.getD []
      negative || !overflows (numberIn 10 (whole ++ behind)) (exponent.getD 0 - behind.length)
  if ok then some cs else none

def number? (cs : List Char) : Option (List Char) :=
  match cs with
  | '0' :: 'x' :: cs => based? 16 cs
  | '0' :: 'o' :: cs => based? 8 cs
  | '0' :: 'b' :: cs => based? 2 cs
  | _ =>
    let (negative, cs) := sign cs
    match cs with
    | 'i' :: 'n' :: 'f' :: cs => some cs
    | 'n' :: 'a' :: 'n' :: cs => some cs
    | cs => decimal? negative cs

/-! ## Dates and times -/

/-- Exactly `n` digits. -/
def fixed? (n : Nat) (cs : List Char) : Option (Nat × List Char) :=
  let ds := cs.take n
  if ds.length = n ∧ ds.all Char.isDigit then some (numberIn 10 ds, cs.drop n) else none

def char? (c : Char) : List Char → Option (List Char)
  | x :: cs => if x = c then some cs else none
  | [] => none

def isLeap (year : Nat) : Bool := year % 4 = 0 && (year % 100 ≠ 0 || year % 400 = 0)

def daysIn (year month : Nat) : Nat :=
  if month = 2 then if isLeap year then 29 else 28
  else if month ∈ [4, 6, 9, 11] then 30
  else 31

def date? (cs : List Char) : Option (List Char) := do
  let (year, cs) ← fixed? 4 cs
  let cs ← char? '-' cs
  let (month, cs) ← fixed? 2 cs
  let cs ← char? '-' cs
  let (day, cs) ← fixed? 2 cs
  if 1 ≤ month ∧ month ≤ 12 ∧ 1 ≤ day ∧ day ≤ daysIn year month then some cs else none

/-- Hours and minutes of a clock. -/
def clock? (cs : List Char) : Option (List Char) := do
  let (hour, cs) ← fixed? 2 cs
  let cs ← char? ':' cs
  let (minute, cs) ← fixed? 2 cs
  if hour ≤ 23 ∧ minute ≤ 59 then some cs else none

/-- A point with digits behind it, or nothing. -/
def skipFraction : List Char → List Char
  | '.' :: c :: cs => if c.isDigit then cs.dropWhile Char.isDigit else '.' :: c :: cs
  | cs => cs

/-- A time to the second; a leap second counts. -/
def time? (cs : List Char) : Option (List Char) := do
  let cs ← clock? cs
  let cs ← char? ':' cs
  let (second, cs) ← fixed? 2 cs
  if second ≤ 60 then some (skipFraction cs) else none

/-- The distance from universal time, or nothing. -/
def offset? : List Char → Option (List Char)
  | c :: cs =>
    if c = 'Z' ∨ c = 'z' then some cs
    else if c = '+' ∨ c = '-' then clock? cs
    else some (c :: cs)
  | [] => some []

/-- A date, perhaps with a time, or a time alone. -/
def dateTime? (cs : List Char) : Option (List Char) :=
  match date? cs with
  | none => time? cs
  | some [] => some []
  | some (c :: rest) =>
    if c = 'T' ∨ c = 't' ∨ c = ' ' then
      match time? rest with
      | some after => offset? after
      | none => some (c :: rest)
    else some (c :: rest)

/-- A date, a time or a number. -/
def scalar? (cs : List Char) : Option (List Char) :=
  match dateTime? cs with
  | some rest => some rest
  | none => number? cs

end Switchboard.Toml
