/-! Sets of names, kept sorted by code point without repetition, so that two
sets with the same members are equal and every listing of one is in order. -/

namespace Switchboard

def insertSorted (k : String) : List String → List String
  | [] => [k]
  | x :: xs => if k < x then k :: x :: xs else if k = x then x :: xs else x :: insertSorted k xs

theorem mem_insertSorted {k y : String} {xs : List String} :
    y ∈ insertSorted k xs ↔ y = k ∨ y ∈ xs := by
  induction xs with
  | nil => simp [insertSorted]
  | cons x xs ih =>
    simp only [insertSorted]
    split
    · simp
    · split
      · next h => subst h; simp
      · simp only [List.mem_cons, ih]; exact or_left_comm

theorem lt_of_not_lt_of_ne {a b : String} (h : ¬ a < b) (hne : ¬ a = b) : b < a := by
  rw [String.not_lt] at h
  rcases Decidable.em (b < a) with hlt | hnlt
  · exact hlt
  · rw [String.not_lt] at hnlt
    exact absurd (String.le_antisymm hnlt h) hne

theorem pairwise_insertSorted {k : String} {xs : List String}
    (h : xs.Pairwise (· < ·)) : (insertSorted k xs).Pairwise (· < ·) := by
  induction xs with
  | nil => simp [insertSorted]
  | cons x xs ih =>
    obtain ⟨hx, hxs⟩ := List.pairwise_cons.mp h
    simp only [insertSorted]
    split
    · next hk =>
      refine List.pairwise_cons.mpr ⟨fun y hy => ?_, h⟩
      rcases List.mem_cons.mp hy with rfl | hy
      · exact hk
      · exact String.lt_trans hk (hx y hy)
    · next hk =>
      split
      · exact h
      · next hne =>
        refine List.pairwise_cons.mpr ⟨fun y hy => ?_, ih hxs⟩
        rcases mem_insertSorted.mp hy with rfl | hy
        · exact lt_of_not_lt_of_ne hk hne
        · exact hx y hy

/-- Names in strictly increasing order. -/
@[ext]
structure KeySet where
  toList : List String
  sorted : toList.Pairwise (· < ·)

namespace KeySet

def empty : KeySet := ⟨[], List.Pairwise.nil⟩

instance : Inhabited KeySet := ⟨empty⟩

def insert (s : KeySet) (k : String) : KeySet :=
  ⟨insertSorted k s.toList, pairwise_insertSorted s.sorted⟩

def ofList (ks : List String) : KeySet := ks.foldl insert empty

def contains (s : KeySet) (k : String) : Bool := s.toList.contains k

instance : Membership String KeySet := ⟨fun s k => k ∈ s.toList⟩

theorem mem_insert {s : KeySet} {k y : String} : y ∈ s.insert k ↔ y = k ∨ y ∈ s :=
  mem_insertSorted

theorem mem_foldl_insert {ks : List String} {s : KeySet} {y : String} :
    y ∈ ks.foldl insert s ↔ y ∈ ks ∨ y ∈ s := by
  induction ks generalizing s with
  | nil => simp
  | cons k ks ih =>
    rw [List.foldl_cons, ih, mem_insert, List.mem_cons]
    constructor
    · rintro (h | rfl | h)
      · exact .inl (.inr h)
      · exact .inl (.inl rfl)
      · exact .inr h
    · rintro ((rfl | h) | h)
      · exact .inr (.inl rfl)
      · exact .inl h
      · exact .inr (.inr h)

theorem mem_ofList {ks : List String} {y : String} : y ∈ ofList ks ↔ y ∈ ks := by
  rw [ofList, mem_foldl_insert]
  exact or_iff_left List.not_mem_nil

end KeySet

end Switchboard
