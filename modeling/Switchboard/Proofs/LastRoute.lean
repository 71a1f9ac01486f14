import Switchboard.Proofs.Grouping
import Switchboard.Proofs.Lookup
import Switchboard.Proofs.RouteText

/-!
Which route a `map` leaves under a key. A later route replaces an earlier one, but of equal
items of a list only the first counts. So what is held in the end is the route of the item that
comes up last, each counted where it first stands (`Directives.held_is_last_to_come_up`). An
item that is repeated behind another route from the same key does not win the key back
(`Directives.last_item_not_always_held`).
-/

namespace Switchboard

/-! ## Lists without their repetitions -/

/-- Where a list first comes to `x`, what follows is what is new behind it. -/
theorem eraseDups_split {xs : List String} {x : String} (h : x ∉ xs) (ys : List String) :
    ∃ later, (xs ++ x :: ys).eraseDups = xs.eraseDups ++ x :: later ∧
      ∀ y, y ∈ later ↔ y ∈ ys ∧ y ∉ xs ∧ y ≠ x := by
  refine ⟨((ys.removeAll xs).filter fun y => !y == x).eraseDups, ?_, fun y => ?_⟩
  · have hcons : (x :: ys).removeAll xs = x :: ys.removeAll xs := by
      rw [List.cons_removeAll]
      simp [h]
    rw [List.eraseDups_append, hcons, List.eraseDups_cons]
  · simp [List.mem_eraseDups, List.removeAll, and_assoc, and_comm]

/-! ## Routes, one after the other -/

namespace Routes

theorem get?_entries (routes : List Route) (key : String) :
    Entries.get? key (routes.map fun x => (x.source, x)) = routes.find? (·.source = key) := by
  induction routes with
  | nil => rfl
  | cons x routes ih => by_cases h : x.source = key <;> simp [Entries.get?, h, ih]

/-- Of routes that are entered one after the other, the last from a key is held. -/
theorem get?_foldl_insert (held : Routes) (routes : List Route) (key : String) :
    (routes.foldl insert held).get? key =
      (routes.reverse.find? (·.source = key)).or (held.get? key) := by
  rw [get?, table_foldl_insert, Table.get?_insertMany, ← List.map_reverse, get?_entries]
  rfl

/-- They are held in the order of their first keys. -/
theorem keys_foldl_insert (held : Routes) (routes : List Route) :
    (routes.foldl insert held).table.keys =
      (routes.map Route.source).foldl appendNew held.table.keys := by
  rw [Table.keys, table_foldl_insert, Table.entries_insertMany, Entries.keys_replay_eq_foldl,
    List.map_map]
  rfl

end Routes

/-! ## A token and its route -/

namespace Path

theorem join_singleton (s : String) : join [s] = s := by
  simp [join, Text.joined]

/-- The first two segments can be joined by themselves. -/
theorem join_join_pair (a b : String) (segs : List String) :
    join (join [a, b] :: segs) = join (a :: b :: segs) := by
  cases segs with
  | nil => exact join_singleton _
  | cons s segs =>
    rw [← String.toList_inj, toList_join_cons _ (List.cons_ne_nil s segs), toList_join_pair,
      toList_join_cons a (List.cons_ne_nil b _), toList_join_cons b (List.cons_ne_nil s segs),
      List.append_assoc, List.cons_append]

end Path

namespace Directives

variable {d : Directives} {raw key token : String} {r : Route}

/-- The token can be put together again from its route. -/
theorem cutAtColon_of_route? (h : d.route? token = some r) :
    CutAtColon token (Path.join (r.source :: r.steps)) r.target := by
  obtain ⟨path, owner, libraries, held, method, hcolon, -, -, hheld, hdrop, hsource⟩ :=
    route?_eq_some_iff_steps.mp h
  obtain ⟨hpos, -, -, -⟩ := longestHeld?_eq_some_iff.mp hheld
  have hsegs := Path.segments_divided path hpos
  rw [hdrop] at hsegs
  obtain ⟨hpath, -⟩ := (Path.segments_eq_append_iff (List.cons_ne_nil _ _)).mp hsegs
  rw [hsource, Path.resultKey, Path.join_join_pair, ← hpath]
  exact hcolon

/-- Two tokens do not read as one route. -/
theorem token_eq_of_route? {token' : String} (h : d.route? token = some r)
    (h' : d.route? token' = some r) : token = token' := by
  rw [← String.toList_inj, (cutAtColon_of_route? h).2, (cutAtColon_of_route? h').2]

/-- The route that a token reads as, if it starts at `key`. -/
def routeFrom? (d : Directives) (key token : String) : Option Route :=
  (d.route? token).filter (·.source = key)

theorem route?_of_routeFrom? (h : d.routeFrom? key token = some r) : d.route? token = some r :=
  (Option.filter_eq_some_iff.mp h).1

theorem routeFrom?_empty (d : Directives) (key : String) : d.routeFrom? key "" = none := rfl

theorem ne_empty_of_routeFrom? (h : (d.routeFrom? key token).isSome = true) : token ≠ "" := by
  rintro rfl
  cases h

/-! ## What is held in the end -/

theorem find?_filterMap_route? (d : Directives) (key : String) (tokens : List String) :
    (tokens.filterMap d.route?).find? (·.source = key) = tokens.findSome? (d.routeFrom? key) := by
  induction tokens with
  | nil => rfl
  | cons token tokens ih =>
    unfold routeFrom? at ih
    unfold routeFrom?
    cases hr : d.route? token with
    | none => simp [hr, ih]
    | some r => by_cases hkey : r.source = key <;> simp [hr, hkey, ih, Option.filter]

/-- A `map` leaves the route of the last token that starts at the key, and else what was held. -/
theorem get?_routes_addMap (d : Directives) (raw key : String) :
    (d.addMap raw).routes.get? key =
      ((Path.tokens raw).reverse.findSome? (d.routeFrom? key)).or (d.routes.get? key) := by
  rw [routes_addMap, Routes.get?_foldl_insert, ← List.filterMap_reverse, find?_filterMap_route?]

/-- Of the items of `raw` that read as a route from `key`, `token` comes up last: what stands
behind its first occurrence and reads so has come up before it. -/
def ComesUpLast (d : Directives) (raw key token : String) : Prop :=
  ∃ front back, Path.items raw = front ++ token :: back ∧ token ∉ front ∧
    (d.routeFrom? key token).isSome = true ∧
    ∀ other ∈ back, other ∉ front → other ≠ token → d.routeFrom? key other = none

theorem exists_tokens_split {front back : List String}
    (hitems : Path.items raw = front ++ token :: back) (hfirst : token ∉ front)
    (hne : token ≠ "") :
    ∃ before later, Path.tokens raw = before ++ token :: later ∧ token ∉ before ∧
      ∀ other, other ∈ later ↔ other ≠ "" ∧ other ∈ back ∧ other ∉ front ∧ other ≠ token := by
  have hnew : token ∉ front.filter (· ≠ "") := fun h => hfirst (List.mem_filter.mp h).1
  obtain ⟨later, hsplit, hlater⟩ := eraseDups_split hnew (back.filter (· ≠ ""))
  refine ⟨_, later, ?_, mt List.mem_eraseDups.mp hnew, fun other => ?_⟩
  · rw [Path.tokens_eq, hitems, List.filter_append,
      List.filter_cons_of_pos (by simpa using hne)]
    exact hsplit
  · rw [hlater, List.mem_filter, List.mem_filter, decide_eq_true_eq]
    tauto

theorem comesUpLast_iff :
    d.ComesUpLast raw key token ↔
      ∃ before later, Path.tokens raw = before ++ token :: later ∧
        (d.routeFrom? key token).isSome = true ∧
        ∀ other ∈ later, d.routeFrom? key other = none := by
  constructor
  · rintro ⟨front, back, hitems, hfirst, hroute, hback⟩
    obtain ⟨before, later, htokens, -, hlater⟩ :=
      exists_tokens_split hitems hfirst (ne_empty_of_routeFrom? hroute)
    refine ⟨before, later, htokens, hroute, fun other hother => ?_⟩
    obtain ⟨-, hin, hnew, hother⟩ := (hlater other).mp hother
    exact hback other hin hnew hother
  · rintro ⟨before, later, htokens, hroute, hlast⟩
    have hmem : token ∈ Path.tokens raw := htokens ▸ List.mem_append_right _ List.mem_cons_self
    obtain ⟨front, back, hitems, hfirst⟩ :=
      List.eq_append_cons_of_mem (Path.mem_tokens.mp hmem).1
    refine ⟨front, back, hitems, hfirst, hroute, fun other hother hnew hne' => ?_⟩
    obtain ⟨before', later', htokens', hbefore', hlater'⟩ :=
      exists_tokens_split hitems hfirst (ne_empty_of_routeFrom? hroute)
    -- the token stands once among the tokens, so they are cut there in one way
    have hagain : token ∉ later' := fun h => ((hlater' token).mp h).2.2.2 rfl
    obtain ⟨-, -, rfl⟩ :=
      (List.append_cons_inj_of_notMem hbefore' hagain).mp (htokens'.symm.trans htokens)
    by_cases hempty : other = ""
    · rw [hempty, routeFrom?_empty]
    · exact hlast other ((hlater' other).mpr ⟨hempty, hother, hnew, hne'⟩)

theorem get?_of_comesUpLast (h : d.ComesUpLast raw key token)
    (hr : d.routeFrom? key token = some r) : (d.addMap raw).routes.get? key = some r := by
  obtain ⟨before, later, htokens, -, hlater⟩ := comesUpLast_iff.mp h
  have hfound : (Path.tokens raw).reverse.findSome? (d.routeFrom? key) = some r :=
    List.findSome?_eq_some_iff.mpr ⟨later.reverse, token, before.reverse, by simp [htokens], hr,
      fun other hother => hlater other (List.mem_reverse.mp hother)⟩
  rw [get?_routes_addMap, hfound, Option.some_or]

theorem exists_comesUpLast
    (h : ∃ token ∈ Path.items raw, (d.routeFrom? key token).isSome = true) :
    ∃ token, d.ComesUpLast raw key token := by
  obtain ⟨token, hmem, hroute⟩ := h
  have htoken : token ∈ (Path.tokens raw).reverse :=
    List.mem_reverse.mpr (Path.mem_tokens.mpr ⟨hmem, ne_empty_of_routeFrom? hroute⟩)
  obtain ⟨r, hr⟩ := Option.isSome_iff_exists.mp
    (List.findSome?_isSome_iff.mpr ⟨token, htoken, hroute⟩)
  obtain ⟨later, last, before, hsplit, hlast, hnone⟩ := List.findSome?_eq_some_iff.mp hr
  refine ⟨last, comesUpLast_iff.mpr ⟨before.reverse, later.reverse, ?_, ?_, ?_⟩⟩
  · rw [← List.reverse_reverse (Path.tokens raw), hsplit]
    simp
  · rw [hlast]
    rfl
  · exact fun other hother => hnone other (List.mem_reverse.mp hother)

/-- **What a `map` leaves under a key.** If any items read as routes from the key, one of them
comes up last, each counted where it first stands, and its route is held; if none does, what
was held stays. So the very last of these items has its route held just if it comes up last in
this sense, as it does if it has not stood in the list before. -/
theorem held_is_last_to_come_up (d : Directives) (raw key : String) :
    (∀ token r, d.ComesUpLast raw key token → d.routeFrom? key token = some r →
      (d.addMap raw).routes.get? key = some r) ∧
    ((∃ token ∈ Path.items raw, (d.routeFrom? key token).isSome = true) →
      ∃ token, d.ComesUpLast raw key token) ∧
    ((∀ token ∈ Path.items raw, d.routeFrom? key token = none) →
      (d.addMap raw).routes.get? key = d.routes.get? key) ∧
    (∀ front token back r, Path.items raw = front ++ token :: back →
      d.routeFrom? key token = some r → (∀ other ∈ back, d.routeFrom? key other = none) →
      ((d.addMap raw).routes.get? key = some r ↔ d.ComesUpLast raw key token) ∧
        (token ∉ front → (d.addMap raw).routes.get? key = some r)) := by
  refine ⟨fun token r => get?_of_comesUpLast, exists_comesUpLast, fun hnone => ?_,
    fun front token back r hitems hr hback => ?_⟩
  · have hnowhere : (Path.tokens raw).reverse.findSome? (d.routeFrom? key) = none :=
      List.findSome?_eq_none_iff.mpr fun token htoken =>
        hnone token (Path.mem_tokens.mp (List.mem_reverse.mp htoken)).1
    rw [get?_routes_addMap, hnowhere, Option.none_or]
  · have hroute : (d.routeFrom? key token).isSome = true := by
      rw [hr]
      rfl
    have hmem : token ∈ Path.items raw := hitems ▸ List.mem_append_right _ List.mem_cons_self
    refine ⟨⟨fun hheld => ?_, fun h => get?_of_comesUpLast h hr⟩, fun hnew => ?_⟩
    · obtain ⟨last, hlast⟩ := exists_comesUpLast ⟨token, hmem, hroute⟩
      obtain ⟨-, -, -, -, hsome, -⟩ := id hlast
      obtain ⟨r', hr'⟩ := Option.isSome_iff_exists.mp hsome
      rw [get?_of_comesUpLast hlast hr'] at hheld
      obtain rfl := Option.some.inj hheld
      rw [token_eq_of_route? (route?_of_routeFrom? hr) (route?_of_routeFrom? hr')]
      exact hlast
    · exact get?_of_comesUpLast
        ⟨front, back, hitems, hnew, hroute, fun other hother _ _ => hback other hother⟩ hr

namespace Rerouted

def directives : Directives := empty.addCommand "m\\l"

/-- The first of two routes from one key is written once more behind the second. -/
def map : String := "m\\l\\run:a,m\\l\\run:b,m\\l\\run:a"

theorem items_map :
    Path.items map = ["m\\l\\run:a"] ++ "m\\l\\run:b" :: ["m\\l\\run:a"] := by
  decide +kernel

theorem routeFrom?_second :
    directives.routeFrom? "m\\l\\run" "m\\l\\run:b" = some ⟨"m\\l\\run", [], "b"⟩ := by
  decide +kernel

/-- Behind the second route nothing new stands. -/
theorem second_comes_up_last : directives.ComesUpLast map "m\\l\\run" "m\\l\\run:b" := by
  refine ⟨_, _, items_map, by decide, ?_, fun other hother hnew _ => absurd hother hnew⟩
  rw [routeFrom?_second]
  rfl

end Rerouted

/-- The second route is held, and under another key what was held before. -/
theorem second_route_is_held :
    Rerouted.directives.ComesUpLast Rerouted.map "m\\l\\run" "m\\l\\run:b" ∧
    (Rerouted.directives.addMap Rerouted.map).routes.get? "m\\l\\run" =
      some ⟨"m\\l\\run", [], "b"⟩ ∧
    (Rerouted.directives.addMap Rerouted.map).routes.get? "m\\l\\stop" = none := by
  obtain ⟨hheld, -, -, -⟩ :=
    held_is_last_to_come_up Rerouted.directives Rerouted.map "m\\l\\run"
  obtain ⟨-, -, hstays, -⟩ :=
    held_is_last_to_come_up Rerouted.directives Rerouted.map "m\\l\\stop"
  have hnone : ∀ token ∈ Path.items Rerouted.map,
      Rerouted.directives.routeFrom? "m\\l\\stop" token = none := by
    rw [Rerouted.items_map]
    decide +kernel
  have hbefore : Rerouted.directives.routes.get? "m\\l\\stop" = none := by
    rw [Rerouted.directives, routes_addCommand]
    rfl
  exact ⟨Rerouted.second_comes_up_last,
    hheld _ _ Rerouted.second_comes_up_last Rerouted.routeFrom?_second,
    (hstays hnone).trans hbefore⟩

/-- The last item that reads as a route from the key is the first route again, and the second
is held. -/
theorem last_item_not_always_held :
    ¬ ∀ (d : Directives) (raw key token : String) (front back : List String) (r : Route),
      Path.items raw = front ++ token :: back → d.routeFrom? key token = some r →
      (∀ other ∈ back, d.routeFrom? key other = none) →
      (d.addMap raw).routes.get? key = some r := by
  intro hlast
  have hheld : (Rerouted.directives.addMap Rerouted.map).routes.get? "m\\l\\run" =
      some ⟨"m\\l\\run", [], "b"⟩ := by decide +kernel
  have hclaimed := hlast Rerouted.directives Rerouted.map "m\\l\\run" "m\\l\\run:a"
    ["m\\l\\run:a", "m\\l\\run:b"] [] ⟨"m\\l\\run", [], "a"⟩ (by decide +kernel)
    (by decide +kernel) (fun _ h => nomatch h)
  rw [hheld] at hclaimed
  exact absurd hclaimed (by decide)

end Directives

end Switchboard
