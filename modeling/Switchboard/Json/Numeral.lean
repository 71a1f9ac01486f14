import Switchboard.Decimal.Scale
import Switchboard.Decimal.Shortest
import Switchboard.Json

/-! The text of JSON numbers. A numeral without point and exponent is a whole
number as long as 64 bits hold it; every other numeral is a double. -/

namespace Switchboard

/-! ## Reading -/

/-- The parts of a numeral; the digits are kept as written. -/
structure Numeral where
  negative : Bool
  whole : List Char
  fraction : List Char
  /-- Sign and digits of the exponent. -/
  exponent : Option (Bool × List Char)

namespace Numeral

/-- A run of digits, at least one. -/
def digits? (cs : List Char) : Option (List Char × List Char) :=
  match cs.takeWhile Char.isDigit with
  | [] => none
  | ds => some (ds, cs.dropWhile Char.isDigit)

/-- The digits before the point: one zero, or no zero in front. -/
def whole? : List Char → Option (List Char × List Char)
  | '0' :: cs => some (['0'], cs)
  | cs => digits? cs

def fraction? : List Char → Option (List Char × List Char)
  | '.' :: cs => digits? cs
  | cs => some ([], cs)

def exponentDigits? (negative : Bool) (cs : List Char) :
    Option (Option (Bool × List Char) × List Char) :=
  (digits? cs).map fun p => (some (negative, p.1), p.2)

def exponent? : List Char → Option (Option (Bool × List Char) × List Char)
  | c :: cs =>
    if c = 'e' ∨ c = 'E' then
      match cs with
      | '+' :: cs => exponentDigits? false cs
      | '-' :: cs => exponentDigits? true cs
      | cs => exponentDigits? false cs
    else some (none, c :: cs)
  | [] => some (none, [])

def sign : List Char → Bool × List Char
  | '-' :: cs => (true, cs)
  | cs => (false, cs)

/-- The numeral at the front of a text, and what follows it. -/
def read? (cs : List Char) : Option (Numeral × List Char) := do
  let (negative, cs) := sign cs
  let (whole, cs) ← whole? cs
  let (fraction, cs) ← fraction? cs
  let (exponent, cs) ← exponent? cs
  some (⟨negative, whole, fraction, exponent⟩, cs)

theorem digits?_length {cs ds rest : List Char} (h : digits? cs = some (ds, rest)) :
    rest.length < cs.length := by
  unfold digits? at h
  split at h
  · simp at h
  · next hd =>
    simp only [Option.some.injEq, Prod.mk.injEq] at h
    obtain ⟨-, rfl⟩ := h
    have hl := congrArg List.length (List.takeWhile_append_dropWhile (p := Char.isDigit) (l := cs))
    rw [List.length_append] at hl
    have : (cs.takeWhile Char.isDigit).length ≠ 0 := fun h0 => hd (List.eq_nil_of_length_eq_zero h0)
    omega

theorem whole?_length {cs ds rest : List Char} (h : whole? cs = some (ds, rest)) :
    rest.length < cs.length := by
  unfold whole? at h
  split at h
  · simp only [Option.some.injEq, Prod.mk.injEq] at h
    obtain ⟨-, rfl⟩ := h
    simp
  · exact digits?_length h

theorem fraction?_length {cs ds rest : List Char} (h : fraction? cs = some (ds, rest)) :
    rest.length ≤ cs.length := by
  unfold fraction? at h
  split at h
  · have := digits?_length h
    simp only [List.length_cons]
    omega
  · simp only [Option.some.injEq, Prod.mk.injEq] at h
    exact h.2 ▸ Nat.le_refl _

theorem exponentDigits?_length {n : Bool} {cs rest : List Char} {e}
    (h : exponentDigits? n cs = some (e, rest)) : rest.length < cs.length := by
  obtain ⟨⟨ds, r⟩, hd, he⟩ := Option.map_eq_some_iff.mp h
  obtain ⟨-, rfl⟩ := Prod.mk.inj he
  exact digits?_length hd

theorem exponent?_length {cs rest : List Char} {e} (h : exponent? cs = some (e, rest)) :
    rest.length ≤ cs.length := by
  unfold exponent? at h
  split at h
  · split at h
    · split at h <;>
      · have := exponentDigits?_length h
        simp only [List.length_cons] at *
        omega
    · simp only [Option.some.injEq, Prod.mk.injEq] at h
      exact h.2 ▸ Nat.le_refl _
  · simp only [Option.some.injEq, Prod.mk.injEq] at h
    exact h.2 ▸ Nat.le_refl _

theorem sign_length (cs : List Char) : (sign cs).2.length ≤ cs.length := by
  unfold sign
  split <;> simp

theorem read?_length {cs rest : List Char} {n : Numeral} (h : read? cs = some (n, rest)) :
    rest.length < cs.length := by
  unfold read? at h
  have h0 := sign_length cs
  simp only [Option.bind_eq_bind, Option.bind_eq_some_iff, Option.some.injEq, Prod.mk.injEq] at h
  obtain ⟨⟨w, c1⟩, h1, ⟨f, c2⟩, h2, ⟨e, c3⟩, h3, -, rfl⟩ := h
  have := whole?_length h1
  have := fraction?_length h2
  have := exponent?_length h3
  dsimp only at *
  omega

/-! ## Values -/

def digitValue (c : Char) : Nat := c.toNat - '0'.toNat

def natValue (ds : List Char) : Nat := ds.foldl (fun n c => 10 * n + digitValue c) 0

/-- Appends digits to a significand while 64 bits hold it. What comes second is
the digits left over. -/
def gather (significand : Nat) : List Char → Nat × List Char
  | [] => (significand, [])
  | c :: cs =>
    let next := 10 * significand + digitValue c
    if next < Nat.pow 2 64 then gather next cs else (significand, c :: cs)

def signed (n : Numeral) (x : Float) : Number := .float (if n.negative then -x else x)

/-- The value as a double. Digits that no longer fit the significand count as
zeros before the point and are dropped behind it. -/
def float? (n : Numeral) : Option Number :=
  let (s, left) := gather 0 n.whole
  let (significand, dropped) := gather s n.fraction
  let shift : Int := left.length - (n.fraction.length - dropped.length : Nat)
  let exponent : Int := match n.exponent with
    | none => 0
    | some (negative, ds) => if negative then -natValue ds else natValue ds
  (Decimal.scale? significand (shift + exponent)).map n.signed

/-- The value; `none` where no double is large enough. -/
def value? (n : Numeral) : Option Number :=
  if n.fraction = [] ∧ n.exponent.isNone then
    let whole := natValue n.whole
    if n.negative then
      if whole ≠ 0 ∧ whole ≤ Nat.pow 2 63 then some (.int (-whole)) else n.float?
    else if whole < Nat.pow 2 64 then some (.int whole) else n.float?
  else n.float?

end Numeral

/-! ## Writing -/

/-- Which doubles are written without an exponent. -/
structure FloatLayout where
  /-- The least decimal exponent that is written positionally. -/
  low : Int
  /-- The least decimal exponent above it that is not. -/
  high : Int

/-- From `1e-5` up to `1e16` a point shows the place, outside an exponent does. -/
def FloatLayout.json : FloatLayout := ⟨-5, 16⟩

namespace Decimal.Digits

def zeros (n : Nat) : List Char := List.replicate n '0'

/-- Digits around a point, with at least one on each side. -/
def positional (d : Digits) : List Char :=
  if d.point ≤ 0 then ['0', '.'] ++ zeros (-d.point).toNat ++ d.digits
  else
    let n := d.point.toNat
    match d.digits.drop n with
    | [] => d.digits ++ zeros (n - d.digits.length) ++ ['.', '0']
    | rest => d.digits.take n ++ '.' :: rest

/-- One digit before the point, and an exponent that always has a sign. -/
def exponential (d : Digits) : List Char :=
  let e := d.point - 1
  let mantissa := match d.digits with
    | c :: c' :: cs => c :: '.' :: c' :: cs
    | ds => ds
  mantissa ++ 'e' :: (if e < 0 then '-' else '+') :: digitChars e.natAbs

def layout (f : FloatLayout) (d : Digits) : List Char :=
  if f.low ≤ d.point - 1 ∧ d.point - 1 < f.high then d.positional else d.exponential

end Decimal.Digits

def floatText (x : Float) : List Char :=
  let bits := x.toBits.toNat
  let magnitude := bits % Nat.pow 2 63
  let text :=
    if magnitude = 0 then ['0', '.', '0']
    else (Decimal.shortest magnitude).layout .json
  if bits < Nat.pow 2 63 then text else '-' :: text

def Number.text : Number → String
  | .int n => toString n
  | .float x => String.ofList (floatText x)

end Switchboard
