import Switchboard.Proofs.ResultKeys
import Switchboard.Proofs.RouteText

/-!
Where the final input of a run comes from. What the input holds in the end it held at
first, or a call routed it there out of the value that came back. If no two calls have
their result key in common, that value still stands in the final results, and the
routes then lead from the one pool to the other (`routed_input_is_justified`).
-/

namespace Switchboard.Pass

/-- What the final input holds was there before the run, or was routed by a call of it. -/
theorem routed_of_final_input {p : Pass} {s : Progress} {k : String} {v : Json}
    (h : (p.run s).pools.input.get? k = some v) :
    s.pools.input.get? k = some v ∨
      ∃ m ∈ p.moments s, ∃ r, p.reply? m = some r ∧ (k, v) ∈ r.routed p.directives.routes := by
  have hreplayed : (p.run s).pools.input.toList =
      Entries.replay s.pools.input.toList ((p.moments s).flatMap p.writes) := by
    rw [run_eq_foldl, foldl_input, Input.toList_write]
    rfl
  have hheld : (k, v) ∈ (p.run s).pools.input.toList :=
    (Table.mem_entries_iff _).mpr h
  rw [hreplayed] at hheld
  rcases Entries.mem_replay hheld with hfirst | hwritten
  · exact .inl ((Table.mem_entries_iff _).mp hfirst)
  · obtain ⟨m, hm, hw⟩ := List.mem_flatMap.mp hwritten
    rw [writes_eq] at hw
    obtain ⟨r, hr, hrouted⟩ := List.mem_flatMap.mp hw
    exact .inr ⟨m, hm, r, Option.mem_toList.mp hr, hrouted⟩

/-- Under distinct keys, what a call has recorded is not written over. -/
theorem final_result_of_recorded {p : Pass} {input : Input}
    (hkeys : ((p.made input).map keyOf).Nodup) {m : Moment} (hm : m ∈ p.moments (.start input))
    {r : Reply} (hr : p.reply? m = some r) {key : String} {v : Json}
    (h : (key, v) ∈ r.recorded) :
    (p.run (.start input)).pools.results.get? key = some v := by
  refine (Table.mem_entries_iff _).mp ?_
  have hresults := run_results_of_nodup hkeys
  unfold Results.toList at hresults
  rw [hresults]
  refine List.mem_flatMap.mpr ⟨m, hm, ?_⟩
  rw [kept, hr, Option.toList_some, List.flatMap_singleton]
  exact h

/-- **Routed input is justified.** If `cmd` names methods, or no method of the catalog has
a separator in its name, whatever the final input holds was in the input of the request,
or else some route leads to its name, the results still hold a value where that route
starts, and the route finds in that value just what the input holds. -/
theorem routed_input_is_justified {p : Pass} {cmd map : Option String}
    (hp : p.directives = .parse cmd map)
    (h : p.directives.methods.isEmpty = false ∨ p.catalog.PlainNames) (input : Input) :
    ∀ k v, (p.run (.start input)).pools.input.get? k = some v →
      input.get? k = some v ∨
        ∃ route x, p.directives.routes.get? route.source = some route ∧ route.target = k ∧
          (p.run (.start input)).pools.results.get? route.source = some x ∧
          x.extract? route.steps = some v := by
  intro k v hfinal
  rcases routed_of_final_input hfinal with hfirst | ⟨m, hm, r, hr, hrouted⟩
  · exact .inl hfirst
  · have hfiled : p.directives.modules.Filed := hp ▸ Directives.filed_parse cmd map
    have hplain : p.directives.methods.Plain := hp ▸ Directives.plain_parse cmd map
    have hkeys : ((p.made input).map keyOf).Nodup :=
      nodup_keys_of_plain hfiled fun c hc => plain_of_mem_made hplain h hc
    obtain ⟨x, route, hrecorded, hroute, htarget, hx⟩ := Reply.recorded_of_mem_routed hrouted
    have hsource : route.source = r.key := by
      rw [hp] at hroute
      exact Directives.source_of_parse hroute
    rw [← hsource] at hroute hrecorded
    exact .inr ⟨route, x, hroute, htarget, final_result_of_recorded hkeys hm hr hrecorded, hx⟩

namespace Fetching

/-- A request for one method, with its token routed into the input. -/
def pass : Pass :=
  ⟨Sample.catalog, {}, .parse (some "m\\l,fetch") (some "m\\l\\fetch\\token:token")⟩

def input : Input := .ofList [("seed", .bool true)]

/-- The token that the input holds in the end is found in the result of `fetch`. -/
theorem fetched_token_is_justified :
    pass.directives.methods.isEmpty = false ∧
    ∃ token, (pass.run (.start input)).pools.input.get? "token" = some token ∧
      token.string? = some "abc" ∧
      ∃ route x, pass.directives.routes.get? route.source = some route ∧
        route.target = "token" ∧
        (pass.run (.start input)).pools.results.get? route.source = some x ∧
        x.extract? route.steps = some token := by
  have hparsed : pass.directives =
      .parse (some "m\\l,fetch") (some "m\\l\\fetch\\token:token") := by
    rw [pass]
  have hnamed : pass.directives.methods.isEmpty = false := by decide +kernel
  have hread : ((pass.run (.start input)).pools.input.get? "token").bind Json.string? =
      some "abc" := by decide +kernel
  have hfirst : input.get? "token" = none := by decide +kernel
  obtain ⟨token, hfinal, htext⟩ := Option.bind_eq_some_iff.mp hread
  refine ⟨hnamed, token, hfinal, htext, ?_⟩
  rcases routed_input_is_justified hparsed (.inl hnamed) input "token" token hfinal with h | h
  · rw [hfirst] at h
    cases h
  · exact h

end Fetching

end Switchboard.Pass
