import Switchboard.Proofs.Once
import Switchboard.Proofs.Replay

/-!
What comes back in a run, moment by moment. A call that is made has one reply, and the
reply alone says what the moment writes into the results (`kept`) and into the input
(`writes_eq`). The results of a run are what its moments keep, written one after the
other; if no two calls of the run have their result key in common, nothing is written
over and the results are just what was kept, in order.
-/

namespace Switchboard

namespace Reply

/-- Results are written under the key of the reply, once at most. -/
theorem recorded_keys_sublist (r : Reply) : (r.recorded.map Prod.fst).Sublist [r.key] := by
  unfold recorded
  split
  · exact List.Sublist.refl _
  · split
    · exact List.nil_sublist _
    · exact List.Sublist.refl _

/-- What is routed is found, along a route, in a value that is recorded beside it. -/
theorem recorded_of_mem_routed {routes : Routes} {r : Reply} {w : String × Json}
    (h : w ∈ r.routed routes) :
    ∃ v route, (r.key, v) ∈ r.recorded ∧ routes.get? r.key = some route ∧
      route.target = w.1 ∧ v.extract? route.steps = some w.2 := by
  unfold routed at h
  split at h
  · cases h
  · next v hv =>
    split at h
    · cases h
    · next hnull =>
      split at h
      · cases h
      · next route hroute =>
        obtain ⟨x, hx, rfl⟩ := Option.map_eq_some_iff.mp (Option.mem_toList.mp h)
        have hkept : (r.key, v) ∈ r.recorded := by simp [recorded, hv, hnull]
        exact ⟨v, route, hkept, hroute, rfl, hx⟩

end Reply

namespace Pass

/-! ## The reply at a moment -/

/-- What the call that is made at a moment comes back with. -/
def reply? (p : Pass) (m : Moment) : Option Reply :=
  (p.invocation? m).bind (·.reply? m.before.pools.input)

/-- What a moment writes into the results. -/
def kept (p : Pass) (m : Moment) : List (String × Json) :=
  (p.reply? m).toList.flatMap Reply.recorded

theorem writes_eq (p : Pass) (m : Moment) :
    p.writes m = (p.reply? m).toList.flatMap (Reply.routed p.directives.routes) := by
  unfold writes reply? invocation?
  cases p.called? m with
  | none => rfl
  | some c =>
    obtain ⟨path, l, method⟩ := c
    exact (Pools.routed_eq_writes m.before.pools p.directives.routes
      ⟨path, l, method, m.before.events⟩).symm

theorem perform_results (p : Pass) (s : Progress) (a : Act) :
    (p.perform s a).pools.results.toList =
      Entries.replay s.pools.results.toList (p.kept ⟨a, s⟩) := by
  rw [perform_pools, kept, reply?]
  cases p.invocation? ⟨a, s⟩ with
  | none => rfl
  | some c => exact Pools.toList_results_make s.pools p.directives.routes c

theorem foldl_results (p : Pass) (as : List Act) (s : Progress) :
    (as.foldl p.perform s).pools.results.toList =
      Entries.replay s.pools.results.toList ((p.trail as s).flatMap p.kept) := by
  induction as generalizing s with
  | nil => rfl
  | cons a as ih =>
    rw [List.foldl_cons, ih, perform_results, trail, List.flatMap_cons, Entries.replay_append]

theorem runs_results (p : Pass) (n : Nat) (s : Progress) :
    (p.runs n s).pools.results.toList =
      Entries.replay s.pools.results.toList ((p.momentsOver n s).flatMap p.kept) := by
  rw [runs_eq_foldl, foldl_results]
  rfl

theorem run_results (p : Pass) (s : Progress) :
    (p.run s).pools.results.toList =
      Entries.replay s.pools.results.toList ((p.moments s).flatMap p.kept) := by
  rw [run_eq_foldl, foldl_results]
  rfl

/-! ## The keys of the replies -/

/-- The result key of a call: of the path asked for, and the method. -/
def keyOf (c : String × String) : String := Path.resultKey c.1 c.2

/-- A reply has the key of the call that is logged. -/
theorem key_reply? (p : Pass) (m : Moment) :
    (p.reply? m).toList.map Reply.key = ((p.calls m).filterMap Event.call?).map keyOf := by
  rw [filterMap_calls, reply?]
  cases p.invocation? m with
  | none => rfl
  | some c =>
    cases hd : c.library.declares c.method <;>
      simp [Invocation.reply?, Invocation.logged?, hd, keyOf]

theorem keys_kept_sublist (p : Pass) (ms : List Moment) :
    ((ms.flatMap p.kept).map Prod.fst).Sublist
      (((ms.flatMap p.calls).filterMap Event.call?).map keyOf) := by
  induction ms with
  | nil => exact List.nil_sublist _
  | cons m ms ih =>
    have hhere : ((p.kept m).map Prod.fst).Sublist
        (((p.calls m).filterMap Event.call?).map keyOf) := by
      rw [← key_reply?, kept]
      cases p.reply? m with
      | none => exact List.nil_sublist _
      | some r => simpa using r.recorded_keys_sublist
    rw [List.flatMap_cons, List.flatMap_cons, List.map_append, List.filterMap_append,
      List.map_append]
    exact hhere.append ih

/-- Under distinct keys, the results of a run are all that its moments keep, in order. -/
theorem run_results_of_nodup {p : Pass} {input : Input}
    (h : ((p.made input).map keyOf).Nodup) :
    (p.run (.start input)).pools.results.toList =
      (p.moments (.start input)).flatMap p.kept := by
  rw [made_eq] at h
  have hkeys := h.sublist (p.keys_kept_sublist (p.moments (.start input)))
  have hreplay : Entries.replay [] ((p.moments (.start input)).flatMap p.kept) =
      [] ++ (p.moments (.start input)).flatMap p.kept := Entries.replay_eq_append hkeys
  rw [run_results]
  exact hreplay

end Pass

end Switchboard
