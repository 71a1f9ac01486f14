/-! The shortest decimal that reads back as a given binary number. For one digit,
two digits and so on the two neighbours of the number on that decimal grid are
compared with the interval of reals that round to it; the first grid with a hit
wins, of two hits the nearer, and the even one where both are as near. -/

namespace Switchboard.Decimal

/-- The decimal `0.d₁d₂…dₙ · 10 ^ point`, with its digits `d₁d₂…dₙ`. -/
structure Digits where
  digits : List Char
  point : Int
  deriving DecidableEq, Repr

/-! ## Binary numbers -/

/-- A finite positive binary number, `mantissa · 2 ^ exponent`. -/
structure Binary where
  mantissa : Nat
  exponent : Int
  /-- Whether the next smaller number is only half as far away as the next larger. -/
  closeBelow : Bool
  deriving DecidableEq, Repr

/-- The fields of a double's 64 bits without its sign. -/
def Binary.ofBits (bits : Nat) : Binary :=
  let fraction : Nat := bits % Nat.pow 2 52
  let biased : Nat := bits / Nat.pow 2 52 % Nat.pow 2 11
  if biased = 0 then ⟨fraction, -1074, false⟩
  else ⟨Nat.pow 2 52 + fraction, (biased : Int) - 1075, fraction = 0 && biased ≠ 1⟩

/-! ## Grids

A quarter of the last binary place is the unit of `unit`, `low`, `mid` and `high`,
so that the midpoints between neighbouring numbers are whole. -/

structure Interval where
  low : Nat
  mid : Nat
  high : Nat
  closed : Bool
  exponent : Int

/-- The reals that round to `b`; the ends belong to it if the mantissa is even. -/
def Binary.interval (b : Binary) : Interval :=
  { low := 4 * b.mantissa - (if b.closeBelow then 1 else 2)
    mid := 4 * b.mantissa
    high := 4 * b.mantissa + 2
    closed := b.mantissa % 2 = 0
    exponent := b.exponent - 2 }

/-- Brings `x · 2 ^ e` and `c · 10 ^ g` to whole numbers in the same proportion. -/
def scaled (x : Nat) (e : Int) (c : Nat) (g : Int) : Nat × Nat :=
  (x * Nat.pow 2 e.toNat * Nat.pow 10 (-g).toNat, c * Nat.pow 10 g.toNat * Nat.pow 2 (-e).toNat)

/-- Whether `c · 10 ^ g` lies in the interval. -/
def Interval.holds (i : Interval) (c : Nat) (g : Int) : Bool :=
  let (l, x) := scaled i.low i.exponent c g
  let (h, y) := scaled i.high i.exponent c g
  if i.closed then l ≤ x && y ≤ h else l < x && y < h

/-- The point `c · 10 ^ g` of the grid on or below the middle. -/
def Interval.floor (i : Interval) (g : Int) : Nat :=
  let (n, d) := scaled i.mid i.exponent 1 g
  n / d

/-- Of two neighbouring grid points the one nearer to the middle. -/
def Interval.nearer (i : Interval) (c : Nat) (g : Int) : Nat :=
  let (m, x) := scaled i.mid i.exponent c g
  let (_, y) := scaled i.mid i.exponent (c + 1) g
  let below := m - x
  let above := y - m
  if below < above then c
  else if above < below then c + 1
  else if c % 2 = 0 then c else c + 1

/-- The point of the grid `10 ^ g` that stands for the number, if one reads back. -/
def Interval.onGrid? (i : Interval) (g : Int) : Option Nat :=
  let c := i.floor g
  match i.holds c g, i.holds (c + 1) g with
  | true, true => some (i.nearer c g)
  | true, false => some c
  | false, true => some (c + 1)
  | false, false => none

/-! ## The number of digits -/

def digitChars (n : Nat) : List Char := Nat.toDigits 10 n

/-- The place `k` with `10 ^ (k - 1) ≤ x < 10 ^ k` for the middle `x`. -/
def Interval.place (i : Interval) : Int :=
  let (n, d) := scaled i.mid i.exponent 1 0
  if d ≤ n then (digitChars (n / d)).length
  else 1 - (digitChars ((d - 1) / n)).length

def stripZeros (ds : List Char) : List Char :=
  (ds.reverse.dropWhile (· = '0')).reverse

/-- Tries `n` digits, then `n + 1` and so on, `fuel` times. -/
def Interval.search (i : Interval) (place : Int) (n : Nat) : Nat → Option Digits
  | 0 => none
  | fuel + 1 =>
    let g := place - n
    match i.onGrid? g with
    | some c =>
      let ds := digitChars c
      some ⟨stripZeros ds, ds.length + g⟩
    | none => i.search place (n + 1) fuel

/-- The shortest digits of a positive double, given its bits. Seventeen digits
always suffice. -/
def shortest (bits : Nat) : Digits :=
  let i := (Binary.ofBits bits).interval
  (i.search i.place 1 17).getD ⟨['0'], 1⟩

end Switchboard.Decimal
