import Switchboard.Text.Split

/-! Paths of the form `module\sub\library`, with or without leading separators.
The module of a path is its first non-empty segment. -/

namespace Switchboard.Path

open Text

def separator : Char := '\\'

def segments (path : String) : List String :=
  (pieces separator path.toList).map String.ofList

/-- Segments with a separator between neighbours. -/
def join (segs : List String) : String :=
  String.ofList (joined separator (segs.map String.toList))

/-- The module that `path` names when it is cut after `cut` bytes. Cut zero
passes over the first character and cuts the rest at its next separator, as
often as that leaves nothing in front of it. -/
def resolve (path : List Char) (cut : Int) : Option (List Char) :=
  if 0 < cut then
    (takeBytes? (min cut.toNat (byteSize path)) path).filter (· ≠ [])
  else if cut < 0 then none
  else match path with
    | [] => none
    | _ :: rest =>
      match cut? separator rest with
      | none => none
      | some (name, _) => resolve rest (byteSize name)

theorem resolve_of_neg {cut : Int} (h : cut < 0) (path : List Char) : resolve path cut = none := by
  have hpos : ¬ 0 < cut := by omega
  cases path <;> rw [resolve, if_neg hpos, if_pos h]

theorem resolve_of_pos {cut : Int} (h : 0 < cut) (path : List Char) :
    resolve path cut =
      (takeBytes? (min cut.toNat (byteSize path)) path).filter (· ≠ []) := by
  cases path <;> rw [resolve, if_pos h]

theorem resolve_of_cut? {c : Char} {cs name rest : List Char}
    (h : cut? separator cs = some (name, rest)) :
    resolve (c :: cs) 0 = resolve cs (byteSize name) := by
  rw [resolve, if_neg (Int.lt_irrefl 0), if_neg (Int.lt_irrefl 0), h]

/-- The module of `path` under `cut`, as text. -/
def moduleAt? (path : String) (cut : Int) : Option String :=
  (resolve path.toList cut).map String.ofList

theorem moduleAt?_eq_some {path owner : String} {cut : Int} :
    moduleAt? path cut = some owner ↔ resolve path.toList cut = some owner.toList := by
  rw [moduleAt?, Option.map_eq_some_iff]
  constructor
  · rintro ⟨found, hfound, rfl⟩
    rw [hfound, String.toList_ofList]
  · intro h
    exact ⟨owner.toList, h, String.ofList_toList⟩

/-- The name under which the result of a library's method is kept. -/
def resultKey (library method : String) : String := join [library, method]

/-- A path without one leading separator. -/
def canonical (path : String) : String :=
  match path.toList with
  | c :: cs => if c = separator then String.ofList cs else path
  | [] => path

/-- A path with a segment in front of its first separator is canonical. -/
theorem canonical_of_segments {path : String} (h : "" ∉ segments path) : canonical path = path := by
  unfold canonical
  split
  · next c cs hlist =>
    split
    · next hc =>
      subst hc
      have hempty : "" ∈ segments path := by
        rw [segments, hlist, pieces, if_pos rfl]
        exact List.mem_cons_self
      exact absurd hempty h
    · rfl
  · rfl

/-- The tokens of a comma-separated list: none is empty, and of equal ones only
the first is kept. -/
def tokens (raw : String) : List String :=
  (((pieces ',' raw.toList).filter (· ≠ [])).map String.ofList).eraseDups

end Switchboard.Path
