import Switchboard.Json.Numeral
import Switchboard.Json.Quoted

/-! The lexemes of JSON text: brackets, marks, and the values that hold no
other values. -/

namespace Switchboard.Json

inductive Lexeme where
  | openArray
  | closeArray
  | openObject
  | closeObject
  | comma
  | colon
  | scalar (v : Json)

namespace Lexeme

def isSpace (c : Char) : Bool := c = ' ' || c = '\t' || c = '\n' || c = '\r'

/-- The lexeme that begins with `c`, and what follows it. -/
def next? (c : Char) (cs : List Char) : Option (Lexeme × List Char) :=
  match c with
  | '[' => some (openArray, cs)
  | ']' => some (closeArray, cs)
  | '{' => some (openObject, cs)
  | '}' => some (closeObject, cs)
  | ',' => some (comma, cs)
  | ':' => some (colon, cs)
  | '"' => (readQuoted? cs).map fun p => (scalar (.str p.1), p.2)
  | 'n' => match cs with
    | 'u' :: 'l' :: 'l' :: cs => some (scalar .null, cs)
    | _ => none
  | 't' => match cs with
    | 'r' :: 'u' :: 'e' :: cs => some (scalar (.bool true), cs)
    | _ => none
  | 'f' => match cs with
    | 'a' :: 'l' :: 's' :: 'e' :: cs => some (scalar (.bool false), cs)
    | _ => none
  | _ =>
    match Numeral.read? (c :: cs) with
    | some (n, rest) => n.value?.map fun v => (scalar (.num v), rest)
    | none => none

theorem next?_length {c : Char} {cs rest : List Char} {l : Lexeme}
    (h : next? c cs = some (l, rest)) : rest.length < (c :: cs).length := by
  unfold next? at h
  split at h
  case h_7 =>
    obtain ⟨⟨s, r⟩, hq, he⟩ := Option.map_eq_some_iff.mp h
    obtain ⟨-, rfl⟩ := Prod.mk.inj he
    have := readQuoted?_length hq
    simp only [List.length_cons]
    omega
  case h_11 =>
    split at h
    · next n r hr =>
      obtain ⟨v, -, he⟩ := Option.map_eq_some_iff.mp h
      obtain ⟨-, rfl⟩ := Prod.mk.inj he
      exact Numeral.read?_length hr
    · simp at h
  case h_8 | h_9 | h_10 =>
    split at h
    · simp only [Option.some.injEq, Prod.mk.injEq] at h
      obtain ⟨-, rfl⟩ := h
      simp only [List.length_cons]
      omega
    · simp at h
  all_goals
    simp only [Option.some.injEq, Prod.mk.injEq] at h
    obtain ⟨-, rfl⟩ := h
    simp

/-- All lexemes of a text, with the space between them passed over. -/
def all? (cs : List Char) : Option (List Lexeme) :=
  match cs with
  | [] => some []
  | c :: cs =>
    if isSpace c then all? cs
    else
      match _h : next? c cs with
      | none => none
      | some (l, rest) => (all? rest).map (l :: ·)
termination_by cs.length
decreasing_by
  · simp
  · exact next?_length _h

end Lexeme

end Switchboard.Json
