import Mathlib.Data.List.Nodup
import Switchboard.Table

/-!
What a table finds. Where no name is held twice the order of the entries does not matter, so
an entry that is taken out leaves all else to be found. After many writes, what is found under
a name is what was written there last, and else what was found before
(`Table.get?_insertMany`). A table is told by its names and what it finds under them.
-/

namespace Switchboard

universe u

/-! ## Entry lists -/

namespace Entries

variable {α : Type u}

theorem get?_append (k : String) (es fs : List (String × α)) :
    get? k (es ++ fs) = (get? k es).or (get? k fs) := by
  simp only [get?_eq_lookup, List.lookup_append]

theorem get?_eq_none_iff {k : String} {es : List (String × α)} :
    get? k es = none ↔ k ∉ es.map Prod.fst := by
  rw [get?_eq_lookup, List.lookup_eq_none_iff, List.mem_map, not_exists]
  exact forall_congr' fun _ => by rw [bne_iff_ne, not_and, ne_comm]

/-- What is found is the value of the first entry under the name. -/
theorem get?_eq_some_iff_first {k : String} {v : α} {es : List (String × α)} :
    get? k es = some v ↔
      ∃ before after, es = before ++ (k, v) :: after ∧ k ∉ before.map Prod.fst := by
  simp only [← get?_eq_none_iff, get?_eq_lookup, List.lookup_eq_some_iff, List.lookup_eq_none_iff]

theorem mem_of_get? {k : String} {v : α} {es : List (String × α)} (h : get? k es = some v) :
    (k, v) ∈ es := by
  obtain ⟨before, after, rfl, -⟩ := get?_eq_some_iff_first.mp h
  exact List.mem_append_right before List.mem_cons_self

theorem get?_of_perm {es fs : List (String × α)} (h : es.Perm fs)
    (hn : (es.map Prod.fst).Nodup) (k : String) : get? k es = get? k fs := by
  have hn' : (fs.map Prod.fst).Nodup := (h.map Prod.fst).nodup_iff.mp hn
  refine Option.ext fun v => ?_
  rw [get?_eq_some_iff hn, get?_eq_some_iff hn', h.mem_iff]

theorem get?_filter (keep : String → Bool) (k : String) (es : List (String × α)) :
    get? k (es.filter fun e => keep e.1) = if keep k then get? k es else none := by
  induction es with
  | nil => simp [get?]
  | cons e es ih =>
    by_cases hk : e.1 = k
    · subst hk
      by_cases he : keep e.1 = true <;> simp [he, get?, ih]
    · by_cases he : keep e.1 = true <;> simp [he, hk, get?, ih]

theorem get?_eraseP {es : List (String × α)} (hn : (es.map Prod.fst).Nodup) (k x : String) :
    get? x (es.eraseP fun e => e.1 = k) = if k = x then none else get? x es := by
  induction es with
  | nil => simp [get?]
  | cons e es ih =>
    obtain ⟨he, hes⟩ := List.nodup_cons.mp hn
    by_cases hk : e.1 = k
    · subst hk
      rw [List.eraseP_cons_of_pos (by simp), get?]
      split
      · next hx =>
        rw [← hx]
        exact get?_eq_none_iff.mpr he
      · rfl
    · rw [List.eraseP_cons_of_neg (by simpa using hk), get?, get?, ih hes]
      split
      · next hx => rw [if_neg fun hkx => hk (hx.trans hkx.symm)]
      · rfl

end Entries

/-! ## Tables -/

namespace Table

variable {α : Type u}

theorem get?_erase (t : Table α) (k x : String) :
    (t.erase k).get? x = if k = x then none else t.get? x := by
  rw [get?, erase, Entries.get?_of_perm (Entries.erase_perm k t.entries)
    (Entries.nodup_erase t.nodup), Entries.get?_eraseP t.nodup]
  rfl

/-- What was written last is found. -/
theorem get?_insertMany (t : Table α) (ws : List (String × α)) (k : String) :
    (t.insertMany ws).get? k = (Entries.get? k ws.reverse).or (t.get? k) := by
  induction ws generalizing t with
  | nil => rfl
  | cons w ws ih =>
    have hcons : t.insertMany (w :: ws) = (t.insert w.1 w.2).insertMany ws := rfl
    rw [hcons, ih, get?_insert, List.reverse_cons, Entries.get?_append, Option.or_assoc]
    congr 1
    by_cases h : w.1 = k <;> simp [Entries.get?, h]

/-- Of two tables, the one that is written over the other goes first. -/
theorem get?_merge (t o : Table α) (k : String) :
    (t.insertMany o.entries).get? k = (o.get? k).or (t.get? k) := by
  have hn : (o.entries.reverse.map Prod.fst).Nodup :=
    ((o.entries.reverse_perm).map Prod.fst).nodup_iff.mpr o.nodup
  rw [get?_insertMany, Entries.get?_of_perm o.entries.reverse_perm hn]
  rfl

theorem ext_of_get? {t o : Table α} (hkeys : t.keys = o.keys) (h : ∀ k, t.get? k = o.get? k) :
    t = o := by
  have hread : ∀ t : Table α,
      t.entries.map (fun e => (e.1, some e.2)) = t.keys.map fun k => (k, t.get? k) := by
    intro t
    rw [keys, List.map_map]
    refine List.map_congr_left fun e he => ?_
    rw [Function.comp_apply, t.mem_entries_iff.mp he]
  have hsame : t.entries.map (fun e => (e.1, some e.2)) =
      o.entries.map (fun e => (e.1, some e.2)) := by
    rw [hread, hread, hkeys, funext h]
  refine Table.ext (List.map_injective_iff.mpr ?_ hsame)
  intro e e' heq
  obtain ⟨hname, hvalue⟩ := Prod.mk.inj heq
  exact Prod.ext hname (Option.some.inj hvalue)

end Table

end Switchboard
