/-! Cutting text at marks: once, at the first mark, or at every mark. -/

namespace Switchboard.Text

/-- What stands before and after the first `mark`. -/
def cut? (mark : Char) : List Char → Option (List Char × List Char)
  | [] => none
  | c :: cs =>
    if c = mark then some ([], cs)
    else (cut? mark cs).map fun p => (c :: p.1, p.2)

/-- The pieces between marks, empty ones included. -/
def pieces (mark : Char) : List Char → List (List Char)
  | [] => [[]]
  | c :: cs =>
    if c = mark then [] :: pieces mark cs
    else (pieces mark cs).modifyHead (c :: ·)

/-- Pieces with a `mark` between neighbours. -/
def joined (mark : Char) (ps : List (List Char)) : List Char :=
  [mark].intercalate ps

def byteSize : List Char → Nat
  | [] => 0
  | c :: cs => c.utf8Size + byteSize cs

/-- The first `n` bytes, where they end between two characters. -/
def takeBytes? : Nat → List Char → Option (List Char)
  | 0, _ => some []
  | _ + 1, [] => none
  | n + 1, c :: cs =>
    if c.utf8Size ≤ n + 1 then (takeBytes? (n + 1 - c.utf8Size) cs).map (c :: ·) else none

theorem cut?_eq_none_iff {mark : Char} {cs : List Char} : cut? mark cs = none ↔ mark ∉ cs := by
  induction cs with
  | nil => simp [cut?]
  | cons c cs ih =>
    by_cases h : c = mark
    · simp [cut?, h]
    · have h' : ¬ mark = c := fun hm => h hm.symm
      simp [cut?, h, h', ih]

theorem cut?_eq_some_iff {mark : Char} {cs a b : List Char} :
    cut? mark cs = some (a, b) ↔ mark ∉ a ∧ cs = a ++ mark :: b := by
  induction cs generalizing a with
  | nil => simp [cut?]
  | cons c cs ih =>
    by_cases h : c = mark
    · subst h
      simp only [cut?, ↓reduceIte, Option.some.injEq, Prod.mk.injEq]
      constructor
      · rintro ⟨rfl, rfl⟩; simp
      · rintro ⟨hn, he⟩
        cases a with
        | nil => simpa using he
        | cons x a =>
          rw [List.cons_append, List.cons.injEq] at he
          exact absurd (he.1 ▸ List.mem_cons_self) hn
    · simp only [cut?, h, ↓reduceIte, Option.map_eq_some_iff]
      constructor
      · rintro ⟨⟨x, y⟩, hp, he⟩
        obtain ⟨rfl, rfl⟩ := Prod.mk.inj he
        obtain ⟨hn, rfl⟩ := ih.mp hp
        exact ⟨by simp [hn, Ne.symm h], rfl⟩
      · rintro ⟨hn, he⟩
        cases a with
        | nil => exact absurd (List.cons.inj he).1 h
        | cons x a =>
          obtain ⟨rfl, rfl⟩ := List.cons.inj he
          exact ⟨(a, b), ih.mpr ⟨fun hm => hn (List.mem_cons_of_mem _ hm), rfl⟩, rfl⟩

theorem pieces_eq_splitOn (mark : Char) (cs : List Char) : pieces mark cs = cs.splitOn mark := by
  induction cs with
  | nil => rfl
  | cons c cs ih =>
    rw [pieces, List.splitOn_cons_eq_if_modifyHead, ih]
    simp only [beq_iff_eq]

theorem pieces_ne_nil (mark : Char) (cs : List Char) : pieces mark cs ≠ [] := by
  rw [pieces_eq_splitOn]
  exact List.splitOn_ne_nil mark cs

/-- What stands before the first mark is the first piece. -/
theorem pieces_of_cut? {mark : Char} {cs a b : List Char} (h : cut? mark cs = some (a, b)) :
    pieces mark cs = a :: pieces mark b := by
  obtain ⟨hfree, rfl⟩ := cut?_eq_some_iff.mp h
  simp only [pieces_eq_splitOn, List.splitOn_append_cons_self_of_not_mem hfree]

theorem joined_pieces (mark : Char) (cs : List Char) : joined mark (pieces mark cs) = cs := by
  rw [joined, pieces_eq_splitOn]
  exact List.intercalate_splitOn mark

theorem not_mem_of_mem_pieces {mark : Char} {cs p : List Char} (hp : p ∈ pieces mark cs) :
    mark ∉ p := by
  induction cs generalizing p with
  | nil => simp_all [pieces]
  | cons c cs ih =>
    by_cases h : c = mark
    · simp only [pieces, h, ↓reduceIte, List.mem_cons] at hp
      rcases hp with rfl | hp
      · simp
      · exact ih hp
    · cases hq : pieces mark cs with
      | nil => exact absurd hq (pieces_ne_nil mark cs)
      | cons q qs =>
        simp only [pieces, h, ↓reduceIte, hq, List.modifyHead_cons, List.mem_cons] at hp
        rcases hp with rfl | hp
        · simp [Ne.symm h, ih (hq ▸ List.mem_cons_self)]
        · exact ih (hq ▸ List.mem_cons_of_mem q hp)

end Switchboard.Text
