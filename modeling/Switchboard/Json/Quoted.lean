import Switchboard.Text.Hex

/-! JSON string literals. Written, only the quote, the backslash and characters
below U+0020 are escaped. Read, any escape of the format is accepted, a surrogate
only as the half of a pair. -/

namespace Switchboard.Json

/-! ## Writing -/

def escape (c : Char) : List Char :=
  if c = '"' then ['\\', '"']
  else if c = '\\' then ['\\', '\\']
  else if c = '\x08' then ['\\', 'b']
  else if c = '\x0c' then ['\\', 'f']
  else if c = '\n' then ['\\', 'n']
  else if c = '\r' then ['\\', 'r']
  else if c = '\t' then ['\\', 't']
  else if c.toNat < 0x20 then
    ['\\', 'u', '0', '0', Nat.digitChar (c.toNat / 16), Nat.digitChar (c.toNat % 16)]
  else [c]

def quoted (s : String) : String :=
  String.ofList ('"' :: s.toList.flatMap escape ++ ['"'])

/-! ## Reading -/

/-- A character of a literal, or a number written as `\uXXXX`. -/
inductive Piece where
  | char (c : Char)
  | unit (n : Nat)

def unescape? : Char → Option Char
  | '"' => some '"'
  | '\\' => some '\\'
  | '/' => some '/'
  | 'b' => some '\x08'
  | 'f' => some '\x0c'
  | 'n' => some '\n'
  | 'r' => some '\r'
  | 't' => some '\t'
  | _ => none

/-- The pieces up to the closing quote, and what follows it. -/
def literal? : List Char → Option (List Piece × List Char)
  | [] => none
  | '"' :: cs => some ([], cs)
  | '\\' :: 'u' :: a :: b :: c :: d :: cs => do
    let n ← Text.hexNumber? [a, b, c, d]
    let (ps, rest) ← literal? cs
    some (.unit n :: ps, rest)
  | '\\' :: e :: cs => do
    let c ← unescape? e
    let (ps, rest) ← literal? cs
    some (.char c :: ps, rest)
  | c :: cs =>
    if c.toNat < 0x20 ∨ c = '\\' then none
    else (literal? cs).map fun p => (.char c :: p.1, p.2)

def isHighSurrogate (n : Nat) : Bool := 0xD800 ≤ n && n < 0xDC00

def isLowSurrogate (n : Nat) : Bool := 0xDC00 ≤ n && n < 0xE000

/-- Joins surrogate pairs; `none` if a surrogate stands alone. -/
def combine? : List Piece → Option (List Char)
  | [] => some []
  | .char c :: ps => (combine? ps).map (c :: ·)
  | .unit n :: .unit m :: ps =>
    if isHighSurrogate n then
      if isLowSurrogate m then
        (combine? ps).map (Char.ofNat (0x10000 + (n - 0xD800) * 0x400 + (m - 0xDC00)) :: ·)
      else none
    else if isLowSurrogate n then none
    else (combine? (.unit m :: ps)).map (Char.ofNat n :: ·)
  | .unit n :: ps =>
    if isHighSurrogate n || isLowSurrogate n then none
    else (combine? ps).map (Char.ofNat n :: ·)

/-- The string whose opening quote has just been read, and what follows it. -/
def readQuoted? (cs : List Char) : Option (String × List Char) := do
  let (ps, rest) ← literal? cs
  let text ← combine? ps
  some (String.ofList text, rest)

theorem literal?_length {cs rest : List Char} {ps : List Piece}
    (h : literal? cs = some (ps, rest)) : rest.length < cs.length := by
  fun_induction literal? cs generalizing ps with
  | case1 => simp at h
  | case2 cs =>
    simp only [Option.some.injEq, Prod.mk.injEq] at h
    obtain ⟨-, rfl⟩ := h
    simp
  | case3 a b c d cs ih =>
    simp only [Option.bind_eq_bind, Option.bind_eq_some_iff, Option.some.injEq,
      Prod.mk.injEq] at h
    obtain ⟨n, -, ⟨qs, r⟩, hq, -, rfl⟩ := h
    have := ih hq
    dsimp only [List.length_cons] at *
    omega
  | case4 e cs _ ih =>
    simp only [Option.bind_eq_bind, Option.bind_eq_some_iff, Option.some.injEq,
      Prod.mk.injEq] at h
    obtain ⟨n, -, ⟨qs, r⟩, hq, -, rfl⟩ := h
    have := ih hq
    dsimp only [List.length_cons] at *
    omega
  | case5 => simp at h
  | case6 c cs _ _ _ _ ih =>
    obtain ⟨⟨qs, r⟩, hq, he⟩ := Option.map_eq_some_iff.mp h
    obtain ⟨-, rfl⟩ := Prod.mk.inj he
    have := ih hq
    dsimp only [List.length_cons] at *
    omega

theorem readQuoted?_length {cs rest : List Char} {s : String}
    (h : readQuoted? cs = some (s, rest)) : rest.length < cs.length := by
  unfold readQuoted? at h
  simp only [Option.bind_eq_bind, Option.bind_eq_some_iff, Option.some.injEq,
    Prod.mk.injEq] at h
  obtain ⟨⟨ps, r⟩, hp, _, -, -, rfl⟩ := h
  exact literal?_length hp

end Switchboard.Json
