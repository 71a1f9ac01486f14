/-! Tables from names to values that remember the order in which names arrived.
Overwriting a value keeps its name's place, and erasing a name moves the last
entry into the hole it leaves. No name is held twice, and the type says so. -/

namespace Switchboard

universe u

/-! ## Entry lists -/

namespace Entries

variable {α : Type u}

def get? (k : String) : List (String × α) → Option α
  | [] => none
  | e :: es => if e.1 = k then some e.2 else get? k es

/-- Overwrites the value of `k` in place, or appends it. -/
def put (k : String) (v : α) : List (String × α) → List (String × α)
  | [] => [(k, v)]
  | e :: es => if e.1 = k then (k, v) :: es else e :: put k v es

def lastToFront (es : List (String × α)) : List (String × α) :=
  match es.getLast? with
  | none => []
  | some e => e :: es.dropLast

/-- Drops the entry of `k`; the last entry takes its place. -/
def erase (k : String) : List (String × α) → List (String × α)
  | [] => []
  | e :: es => if e.1 = k then lastToFront es else e :: erase k es

theorem get?_eq_lookup (k : String) (es : List (String × α)) : get? k es = es.lookup k := by
  induction es with
  | nil => rfl
  | cons e es ih =>
    obtain ⟨x, v⟩ := e
    by_cases h : x = k
    · simp [get?, h]
    · have hk : (k == x) = false := beq_eq_false_iff_ne.mpr (Ne.symm h)
      rw [get?, if_neg h, ih, List.lookup_cons, hk]

theorem lastToFront_perm (es : List (String × α)) : (lastToFront es).Perm es := by
  unfold lastToFront
  cases h : es.getLast? with
  | none => simp_all
  | some e =>
    have hne : es ≠ [] := by rintro rfl; simp at h
    rw [List.getLast?_eq_some_getLast hne, Option.some.injEq] at h
    have hl := List.dropLast_concat_getLast hne
    rw [h] at hl
    calc (e :: es.dropLast).Perm (es.dropLast ++ [e]) :=
          (List.perm_append_singleton e es.dropLast).symm
      _ = es := hl

theorem erase_perm (k : String) (es : List (String × α)) :
    (erase k es).Perm (es.eraseP (fun e => e.1 = k)) := by
  induction es with
  | nil => simp [erase]
  | cons e es ih =>
    by_cases h : e.1 = k
    · simpa [erase, h] using lastToFront_perm es
    · simpa [erase, h] using ih

theorem mem_keys_put {k x : String} {v : α} {es : List (String × α)} :
    x ∈ (put k v es).map Prod.fst ↔ x = k ∨ x ∈ es.map Prod.fst := by
  induction es with
  | nil => simp [put]
  | cons e es ih =>
    by_cases h : e.1 = k
    · simp [put, h]
    · simp only [put, h, ↓reduceIte, List.map_cons, List.mem_cons, ih]
      exact or_left_comm

/-- The names after a write: the same list, or one name more at its end. -/
theorem keys_put (k : String) (v : α) (es : List (String × α)) :
    (put k v es).map Prod.fst =
      if k ∈ es.map Prod.fst then es.map Prod.fst else es.map Prod.fst ++ [k] := by
  induction es with
  | nil => simp [put]
  | cons e es ih =>
    by_cases h : e.1 = k
    · simp [put, h]
    · have h' : ¬ k = e.1 := fun hk => h hk.symm
      simp only [put, h, ↓reduceIte, List.map_cons, ih, List.mem_cons, h', false_or]
      split <;> rfl

theorem nodup_put {k : String} {v : α} {es : List (String × α)}
    (h : (es.map Prod.fst).Nodup) : ((put k v es).map Prod.fst).Nodup := by
  rw [keys_put]
  split
  · exact h
  · next hk =>
    refine List.nodup_append.mpr ⟨h, by simp, fun a ha b hb => ?_⟩
    rw [List.mem_singleton] at hb
    subst hb
    rintro rfl
    exact hk ha

theorem nodup_erase {k : String} {es : List (String × α)}
    (h : (es.map Prod.fst).Nodup) : ((erase k es).map Prod.fst).Nodup :=
  (((erase_perm k es).map Prod.fst).nodup_iff).mpr
    (h.sublist ((List.eraseP_sublist).map Prod.fst))

theorem get?_put (k x : String) (v : α) (es : List (String × α)) :
    get? x (put k v es) = if k = x then some v else get? x es := by
  induction es with
  | nil => simp [put, get?]
  | cons e es ih =>
    by_cases h : e.1 = k
    · subst h
      by_cases hx : e.1 = x <;> simp [put, get?, hx]
    · by_cases hx : e.1 = x
      · subst hx
        have hk : ¬ k = e.1 := fun hk => h hk.symm
        simp [put, get?, h, hk]
      · simp [put, get?, h, hx, ih]

theorem get?_isSome_iff (k : String) (es : List (String × α)) :
    (get? k es).isSome = true ↔ k ∈ es.map Prod.fst := by
  rw [get?_eq_lookup, List.lookup_isSome_iff, List.mem_map]
  exact exists_congr fun _ => and_congr_right fun _ => beq_iff_eq.trans eq_comm

/-- Where no name is held twice, the entries are what look-up finds. -/
theorem get?_eq_some_iff {k : String} {v : α} {es : List (String × α)}
    (hn : (es.map Prod.fst).Nodup) : get? k es = some v ↔ (k, v) ∈ es := by
  induction es with
  | nil => simp [get?]
  | cons e es ih =>
    obtain ⟨he, hes⟩ := List.nodup_cons.mp hn
    by_cases h : e.1 = k
    · have hk : (k, v) ∉ es := fun hm => he (h ▸ List.mem_map_of_mem hm)
      simp only [get?, h, ↓reduceIte, Option.some.injEq, List.mem_cons, hk, or_false]
      constructor
      · rintro rfl
        exact Prod.ext h.symm rfl
      · rintro rfl
        rfl
    · have hk : (k, v) ≠ e := fun heq => h (congrArg Prod.fst heq).symm
      simp only [get?, h, ↓reduceIte, List.mem_cons, hk, false_or]
      exact ih hes

end Entries

/-! ## Tables -/

/-- Entries in the order held, each name once. -/
@[ext]
structure Table (α : Type u) where
  entries : List (String × α)
  nodup : (entries.map Prod.fst).Nodup

namespace Table

variable {α : Type u}

def empty : Table α := ⟨[], List.Pairwise.nil⟩

instance : EmptyCollection (Table α) := ⟨empty⟩

instance : Inhabited (Table α) := ⟨empty⟩

/-- The names in the order held. -/
def keys (t : Table α) : List String := t.entries.map Prod.fst

def size (t : Table α) : Nat := t.entries.length

def isEmpty (t : Table α) : Bool := t.entries.isEmpty

def get? (t : Table α) (k : String) : Option α := Entries.get? k t.entries

def contains (t : Table α) (k : String) : Bool := (t.get? k).isSome

def insert (t : Table α) (k : String) (v : α) : Table α :=
  ⟨Entries.put k v t.entries, Entries.nodup_put t.nodup⟩

def erase (t : Table α) (k : String) : Table α :=
  ⟨Entries.erase k t.entries, Entries.nodup_erase t.nodup⟩

/-- Inserts entries one after the other, so a later value wins. -/
def insertMany (t : Table α) (es : List (String × α)) : Table α :=
  es.foldl (fun t e => t.insert e.1 e.2) t

def ofList (es : List (String × α)) : Table α := empty.insertMany es

theorem get?_insert (t : Table α) (k x : String) (v : α) :
    (t.insert k v).get? x = if k = x then some v else t.get? x :=
  Entries.get?_put k x v t.entries

theorem mem_keys_iff (t : Table α) (k : String) : k ∈ t.keys ↔ (t.get? k).isSome = true :=
  (Entries.get?_isSome_iff k t.entries).symm

theorem mem_entries_iff (t : Table α) {k : String} {v : α} :
    (k, v) ∈ t.entries ↔ t.get? k = some v :=
  (Entries.get?_eq_some_iff t.nodup).symm

end Table

end Switchboard
