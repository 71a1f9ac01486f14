import Switchboard.Proofs.Precedence

/-!
What an input holds, through any changes. The values of an input and the set of their names are
kept apart, and every change makes the names anew. So at any time the names are those that have
a value, null or not, and each stands once (`Input.Holds`). What stands under a name is what
the last change about it left there (`Input.heldAfter`), wherever its entry has been moved to.
The safe zone reads the names alone; it therefore allows a listed method just if all that is
required has a value, and else tells what has none (`Input.authorized_by_what_is_held`).
-/

namespace Switchboard.Input

/-! ## Names and values -/

/-- There are as many names as values. -/
theorem length_names (p : Input) : p.names.toList.length = p.size := by
  have hsorted : p.names.toList.Nodup := p.names.sorted.imp String.ne_of_lt
  have hmem : ∀ k, k ∈ p.names.toList ↔ k ∈ p.values.keys := by
    intro k
    have hnames : k ∈ p.names.toList ↔ k ∈ KeySet.ofList p.values.keys := by
      rw [← p.names_eq]
      rfl
    rw [hnames, KeySet.mem_ofList]
  have hperm : p.names.toList.Perm p.values.keys :=
    (List.perm_ext_iff_of_nodup hsorted p.values.nodup).mpr hmem
  rw [hperm.length_eq, Table.keys, List.length_map]
  rfl

theorem mem_keys_iff_held (p : Input) (k : String) :
    k ∈ p.values.keys ↔ ∃ v, p.get? k = some v := by
  rw [Table.mem_keys_iff, Option.isSome_iff_exists]
  rfl

theorem not_mem_keys_iff (p : Input) (k : String) : k ∉ p.values.keys ↔ p.get? k = none := by
  rw [mem_keys_iff_held, Option.eq_none_iff_forall_ne_some, not_exists]

/-- An input that holds under each name what `held` says, and whose names are in step with
that. -/
structure Holds (p : Input) (held : String → Option Json) : Prop where
  value : ∀ k, p.get? k = held k
  /-- No name is held twice. -/
  once : (p.toList.map Prod.fst).Nodup
  names : ∀ k, k ∈ p.names ↔ ∃ v, held k = some v
  contains : ∀ k, p.contains k = true ↔ ∃ v, held k = some v
  size : p.size = p.names.toList.length

theorem holds_of_value {p : Input} {held : String → Option Json} (h : ∀ k, p.get? k = held k) :
    p.Holds held where
  value := h
  once := p.values.nodup
  names := fun k => by rw [mem_names_iff, Option.isSome_iff_exists, h]
  contains := fun k => by rw [contains_iff, mem_keys_iff_held, h]
  size := p.length_names.symm

/-! ## Changes -/

/-- A change to an input. -/
inductive Change where
  | insert (k : String) (v : Json)
  | remove (k : String)
  | merge (other : Table Json)

/-- What a change answers, and the input that it leaves. A merge answers nothing. -/
def change (p : Input) : Change → Option Json × Input
  | .insert k v => p.replace k v
  | .remove k => p.take k
  | .merge other => (none, p.merge other)

/-- The input after changes, one after the other. -/
def changed (p : Input) (cs : List Change) : Input := cs.foldl (fun p c => (p.change c).2) p

namespace Change

/-- What a change answers where `held` was held. -/
def answer (held : String → Option Json) : Change → Option Json
  | insert k _ => held k
  | remove k => held k
  | merge _ => none

/-- What a change leaves under `k`, where `before` stood. -/
def leaves (k : String) (before : Option Json) : Change → Option Json
  | insert x v => if x = k then some v else before
  | remove x => if x = k then none else before
  | merge other => (other.get? k).or before

end Change

/-- What stands under `k` after changes to the values of a table. -/
def heldAfter (t : Table Json) (cs : List Change) (k : String) : Option Json :=
  cs.foldl (Change.leaves k) (t.get? k)

theorem answer_change (p : Input) (c : Change) : (p.change c).1 = c.answer p.get? := by
  cases c with
  | insert k v => rfl
  | remove k =>
    simp only [change, take, Change.answer, get?]
    cases p.values.get? k <;> rfl
  | merge other => rfl

/-- One change leaves all other names alone. -/
theorem get?_change (p : Input) (c : Change) (k : String) :
    (p.change c).2.get? k = c.leaves k (p.get? k) := by
  cases c with
  | insert x v => exact p.values.get?_insert x k v
  | remove x =>
    simp only [change, take, Change.leaves]
    split
    · exact p.values.get?_erase x k
    · next habsent =>
      -- nothing stands under `x`, so it may as well be taken out
      split
      · next hk => exact hk ▸ habsent
      · rfl
  | merge other => exact p.values.get?_merge other k

theorem get?_changed (p : Input) (cs : List Change) (k : String) :
    (p.changed cs).get? k = cs.foldl (Change.leaves k) (p.get? k) := by
  induction cs generalizing p with
  | nil => rfl
  | cons c cs ih =>
    have hcons : p.changed (c :: cs) = (p.change c).2.changed cs := rfl
    rw [hcons, ih, get?_change, List.foldl_cons]

/-! ## What the safe zone sees -/

/-- **What is held decides.** After any changes to an input that began with the values of a
table, which may be empty, its names are those that stand for a value, each once. A change
answers what was held, and leaves all names alone but those that it is about. While the zone is
on, a method is allowed just if the contract lists it and all that is required is held, be it
null; a listed one that is denied is told what is not, in order. -/
theorem authorized_by_what_is_held (t : Table Json) (cs : List Change) :
    ((ofTable t).changed cs).Holds (heldAfter t cs) ∧
    (∀ c, (((ofTable t).changed cs).change c).1 = c.answer (heldAfter t cs) ∧
      ∀ k, (((ofTable t).changed cs).change c).2.get? k = c.leaves k (heldAfter t cs k)) ∧
    ∀ (z : SafeZone) (l : Library) (m : String), z.enabled = true →
      (z.authorize l m ((ofTable t).changed cs) = .allow ↔
        ∃ c required, l.contract = some c ∧ c.required? m = some required ∧
          ∀ k ∈ required, ∃ v, heldAfter t cs k = some v) ∧
      ∀ c required, l.contract = some c → c.required? m = some required →
        z.authorize l m ((ofTable t).changed cs) ≠ .allow →
          ∃ missing : List String,
            z.authorize l m ((ofTable t).changed cs) = .deny missing ∧
            missing.Pairwise (· < ·) ∧
            ∀ k, k ∈ missing ↔ k ∈ required ∧ heldAfter t cs k = none := by
  have hget : ∀ k, ((ofTable t).changed cs).get? k = heldAfter t cs k :=
    fun k => get?_changed (ofTable t) cs k
  refine ⟨holds_of_value hget, fun c => ⟨?_, fun k => ?_⟩, fun z l m hz => ⟨?_, ?_⟩⟩
  · rw [answer_change, funext hget]
  · rw [get?_change, hget]
  · rw [SafeZone.authorize_eq_allow_iff hz]
    simp only [mem_keys_iff_held, hget]
  · intro c required hc hr hdenied
    rw [SafeZone.authorize_of_required hz hc hr] at hdenied ⊢
    split at hdenied
    · exact absurd rfl hdenied
    · next hmissing =>
      refine ⟨((ofTable t).changed cs).missing required, if_neg hmissing,
        missing_sorted _ _, fun k => ?_⟩
      rw [mem_missing, not_mem_keys_iff, hget]

namespace Changing

def values : Table Json := .ofList [("x", .bool true), ("y", .bool true), ("z", .bool true)]

/-- `x` is taken out, so that `z` moves to its place; `y` is overwritten with null. -/
def changes : List Change :=
  [.remove "x", .merge (.ofList [("y", .null), ("w", .null)]), .remove "w", .remove "w"]

/-- Lists a method that can be satisfied and one that cannot. -/
def library : Library :=
  ((Handlers.empty.withContract ((Contract.empty.require "run" ["z", "y"]).require
    "stop" ["z", "x", "y", "w"]))).toLibrary

end Changing

/-- What is null is there, and what was taken out is not. -/
theorem null_is_held :
    ((ofTable Changing.values).changed Changing.changes).toList.map Prod.fst = ["z", "y"] ∧
    ((ofTable Changing.values).changed Changing.changes).contains "y" = true ∧
    SafeZone.authorize {} Changing.library "run"
      ((ofTable Changing.values).changed Changing.changes) = .allow ∧
    ∃ missing, SafeZone.authorize {} Changing.library "stop"
        ((ofTable Changing.values).changed Changing.changes) = .deny missing ∧
      missing.Pairwise (· < ·) ∧ "x" ∈ missing ∧ "y" ∉ missing := by
  obtain ⟨hholds, -, hzone⟩ := authorized_by_what_is_held Changing.values Changing.changes
  obtain ⟨hrun, -⟩ := hzone {} Changing.library "run" rfl
  obtain ⟨-, hstop⟩ := hzone {} Changing.library "stop" rfl
  refine ⟨by decide +kernel, (hholds.contains "y").mpr ⟨.null, rfl⟩, hrun.mpr ?_, ?_⟩
  · refine ⟨_, .ofList ["z", "y"], rfl, rfl, fun k hk => ?_⟩
    rw [KeySet.mem_ofList] at hk
    rcases List.mem_cons.mp hk with rfl | hk
    · exact ⟨.bool true, rfl⟩
    · obtain rfl := List.mem_singleton.mp hk
      exact ⟨.null, rfl⟩
  · obtain ⟨missing, hdeny, hsorted, hmem⟩ :=
      hstop _ (.ofList ["z", "x", "y", "w"]) rfl rfl (by decide +kernel)
    refine ⟨missing, hdeny, hsorted, (hmem "x").mpr ⟨?_, rfl⟩, fun hy => ?_⟩
    · exact KeySet.mem_ofList.mpr (by decide)
    · cases (hmem "y").mp hy |>.2

end Switchboard.Input
