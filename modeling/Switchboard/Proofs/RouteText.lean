import Switchboard.Proofs.LongestLibrary
import Switchboard.Proofs.Replay

/-!
Routes written as the text of a `map` list. A route of a registered library whose parts
hold none of the three marks that the text is cut at, and whose path runs into no other
registered library, is read back as it was written (`Written.route?_token`). A list of
such routes, of which no two start at one method, comes back whole and in its order, and
each call finds just the route that was written for its method
(`Directives.written_routes_are_read_back`).
-/

namespace Switchboard

/-! ## Lists of tokens -/

namespace Path

open Text

theorem not_mem_join {c : Char} (hc : c ≠ separator) {segs : List String}
    (h : ∀ s ∈ segs, c ∉ s.toList) : c ∉ (join segs).toList := by
  induction segs with
  | nil => simp [join, joined]
  | cons s segs ih =>
    have hs : c ∉ s.toList := h s List.mem_cons_self
    cases segs with
    | nil => simpa [join, joined] using hs
    | cons s' segs =>
      have hrest := ih fun x hx => h x (List.mem_cons_of_mem _ hx)
      rw [toList_join_cons s (List.cons_ne_nil _ _), List.mem_append, List.mem_cons]
      rintro (hc' | hc' | hc')
      · exact hs hc'
      · exact hc hc'
      · exact hrest hc'

/-- Distinct texts without a comma are what their list is cut into. -/
theorem tokens_intercalate {ts : List String} (hn : ts.Nodup)
    (h : ∀ t ∈ ts, ',' ∉ t.toList ∧ t ≠ "") : tokens (",".intercalate ts) = ts := by
  have hpieces : (pieces ',' (",".intercalate ts).toList).filter (· ≠ []) =
      ts.map String.toList := by
    rw [String.toList_intercalate]
    cases ts with
    | nil => rfl
    | cons t ts =>
      have hcut : pieces ',' (joined ',' ((t :: ts).map String.toList)) =
          (t :: ts).map String.toList := by
        refine pieces_joined (by simp) fun p hp => ?_
        obtain ⟨s, hs, rfl⟩ := List.mem_map.mp hp
        exact (h s hs).1
      refine (congrArg (List.filter _) hcut).trans (List.filter_eq_self.mpr fun p hp => ?_)
      obtain ⟨s, hs, rfl⟩ := List.mem_map.mp hp
      exact decide_eq_true fun hempty => (h s hs).2 (String.toList_eq_nil_iff.mp hempty)
  have hback : String.ofList ∘ String.toList = id := funext fun _ => String.ofList_toList
  rw [tokens, hpieces, List.map_map, hback, List.map_id, eraseDups_eq_self hn]

theorem not_mem_of_mem_tokens {raw token : String} (h : token ∈ tokens raw) :
    ',' ∉ token.toList := by
  rw [tokens, List.mem_eraseDups] at h
  obtain ⟨p, hp, rfl⟩ := List.mem_map.mp h
  rw [String.toList_ofList]
  exact not_mem_of_mem_pieces (List.mem_filter.mp hp).1

end Path

/-! ## Routes as they are held -/

namespace Routes

/-- Routes that are entered one after the other are written under their keys. -/
theorem table_foldl_insert (held : Routes) (routes : List Route) :
    (routes.foldl insert held).table =
      held.table.insertMany (routes.map fun x => (x.source, x)) := by
  rw [Table.insertMany, List.foldl_map]
  exact (List.foldl_hom table fun _ _ => rfl).symm

theorem table_ofList (routes : List Route) :
    (ofList routes).table = .ofList (routes.map fun x => (x.source, x)) :=
  table_foldl_insert empty routes

/-- What is held under a key is a route that starts there. -/
theorem source_of_ofList {routes : List Route} {key : String} {route : Route}
    (h : (ofList routes).get? key = some route) : route.source = key := by
  rw [get?, ← Table.mem_entries_iff, table_ofList, Table.entries_ofList] at h
  rcases Entries.mem_replay h with hnone | hroute
  · cases hnone
  · obtain ⟨other, -, heq⟩ := List.mem_map.mp hroute
    obtain ⟨rfl, rfl⟩ := Prod.mk.inj heq
    rfl

/-- Routes that start at different keys are all held, in their order. -/
theorem entries_of_nodup {routes : List Route} (h : (routes.map Route.source).Nodup) :
    (ofList routes).table.entries = routes.map fun x => (x.source, x) := by
  rw [table_ofList]
  apply Table.entries_ofList_of_nodup
  rw [List.map_map]
  exact h

end Routes

/-! ## Routes as they are written -/

/-- A route as a `map` list has it, with the library and the method that it starts at. -/
structure Written where
  library : String
  method : String
  steps : List String
  target : String

namespace Written

def path (w : Written) : String := Path.join (w.library :: w.method :: w.steps)

def token (w : Written) : String := w.path ++ ":" ++ w.target

/-- The routes one after the other, as the text of a `map`. -/
def mapText (ws : List Written) : String := ",".intercalate (ws.map token)

def route (w : Written) : Route := ⟨Path.resultKey w.library w.method, w.steps, w.target⟩

/-- The parts hold no mark at which the text is cut, and no registered library stands
behind the one that the route starts at. -/
structure Legible (paths : List String) (w : Written) : Prop where
  registered : w.library ∈ paths
  library_colon : ':' ∉ w.library.toList
  parts : ∀ s ∈ w.method :: w.steps,
    ',' ∉ s.toList ∧ ':' ∉ s.toList ∧ Path.separator ∉ s.toList
  target_comma : ',' ∉ w.target.toList
  unregistered : ∀ k ≤ w.steps.length,
    Path.join (w.library :: w.method :: w.steps.take k) ∉ paths

variable {w : Written} {paths : List String}

theorem Legible.plain (h : w.Legible paths) : Path.Plain (w.method :: w.steps) :=
  fun s hs => (h.parts s hs).2.2

theorem Legible.segments_path (h : w.Legible paths) :
    Path.segments w.path = Path.segments w.library ++ w.method :: w.steps :=
  Path.segments_join_cons w.library (List.cons_ne_nil _ _) h.plain

theorem Legible.path_not_mem (h : w.Legible paths) : w.path ∉ paths := by
  have hall := h.unregistered w.steps.length le_rfl
  rw [List.take_length] at hall
  exact hall

/-- Of the registered libraries, the path goes on from that of the route and from no longer
one. -/
theorem Legible.longest (h : w.Legible paths) : Longest paths w.library w.path := by
  have hsegs := h.segments_path
  refine ⟨h.registered, Path.goesOn_iff_segments.mpr ⟨_, List.cons_ne_nil _ _, hsegs⟩, ?_⟩
  intro other hother hgo
  obtain ⟨k, hpos, hlt, rfl⟩ := Path.goesOn_iff_take.mp hgo
  rcases Nat.lt_or_ge (Path.segments w.library).length k with hk | hk
  -- a longer beginning takes in the method, and no library is registered there
  · obtain ⟨j, rfl⟩ := Nat.exists_eq_add_of_lt hk
    have hj : j ≤ w.steps.length := by
      rw [hsegs, List.length_append, List.length_cons] at hlt
      omega
    have htake : (Path.segments w.path).take ((Path.segments w.library).length + j + 1) =
        Path.segments (Path.join (w.library :: w.method :: w.steps.take j)) := by
      rw [Path.segments_join_cons w.library (List.cons_ne_nil _ _)
        fun s hs => h.plain s ((List.take_sublist (j + 1) (w.method :: w.steps)).subset hs),
        hsegs, Nat.add_assoc, List.take_length_add_append, List.take_succ_cons]
    rw [htake, Path.join_segments] at hother
    exact absurd hother (h.unregistered j hj)
  · have hbegin : (Path.segments w.path).take k = (Path.segments w.library).take k := by
      rw [hsegs, List.take_append_of_le_length hk]
    rw [hbegin]
    rcases hk.lt_or_eq with hk | rfl
    · exact (Path.goesOn_iff_take.mpr ⟨k, hpos, hk, rfl⟩).length_lt.le
    · rw [List.take_length, Path.join_segments]

theorem Legible.cutAtColon (h : w.Legible paths) : CutAtColon w.token w.path w.target := by
  refine ⟨Path.not_mem_join (by decide) fun s hs => ?_, ?_⟩
  · rcases List.mem_cons.mp hs with rfl | hs
    · exact h.library_colon
    · exact (h.parts s hs).2.1
  · simp only [token, String.toList_append, List.append_assoc]
    rfl

/-- **One token.** It is read as the route that it was written for. -/
theorem route?_token {d : Directives} (hd : d.modules.Filed) (h : w.Legible d.modules.paths) :
    d.route? w.token = some w.route :=
  (Directives.route?_eq_some_iff hd).mpr
    ⟨w.path, w.library, w.method, h.cutAtColon, h.path_not_mem, h.longest, rfl, h.plain, rfl⟩

theorem Legible.token_ok (h : w.Legible paths) (hlibrary : ',' ∉ w.library.toList) :
    ',' ∉ w.token.toList ∧ w.token ≠ "" := by
  obtain ⟨-, htext⟩ := h.cutAtColon
  have hpath : ',' ∉ w.path.toList := by
    refine Path.not_mem_join (by decide) fun s hs => ?_
    rcases List.mem_cons.mp hs with rfl | hs
    · exact hlibrary
    · exact (h.parts s hs).1
  constructor
  · rw [htext, List.mem_append, List.mem_cons]
    rintro (hc | hc | hc)
    · exact hpath hc
    · revert hc
      decide
    · exact h.target_comma hc
  · intro hempty
    rw [hempty] at htext
    simp at htext

/-! ## Lists of routes -/

variable {ws : List Written}

/-- Where a route starts tells the library and the method. -/
theorem start_of_source {v : Written} (hw : w.Legible paths) (hv : v.Legible paths)
    (h : w.route.source = v.route.source) : (w.library, w.method) = (v.library, v.method) := by
  obtain ⟨hlibrary, hmethod⟩ := Path.resultKey_inj (hw.parts _ List.mem_cons_self).2.2
    (hv.parts _ List.mem_cons_self).2.2 h
  rw [hlibrary, hmethod]

theorem nodup_sources (hw : ∀ w ∈ ws, w.Legible paths)
    (hn : (ws.map fun w => (w.library, w.method)).Nodup) :
    (ws.map fun w => w.route.source).Nodup :=
  List.Nodup.map_on (fun _ ha _ hb h =>
    List.inj_on_of_nodup_map hn ha hb (start_of_source (hw _ ha) (hw _ hb) h)) hn.of_map

/-- Routes that start at different methods have different tokens. -/
theorem nodup_tokens {d : Directives} (hd : d.modules.Filed)
    (hw : ∀ w ∈ ws, w.Legible d.modules.paths)
    (hn : (ws.map fun w => (w.library, w.method)).Nodup) : (ws.map token).Nodup := by
  refine List.Nodup.map_on (fun a ha b hb h => ?_) hn.of_map
  -- one token is read as one route, so both start at the same method
  have hread := route?_token hd (hw a ha)
  rw [h, route?_token hd (hw b hb)] at hread
  have hsource := congrArg Route.source (Option.some.inj hread)
  exact (List.inj_on_of_nodup_map hn hb ha (start_of_source (hw b hb) (hw a ha) hsource)).symm

end Written

namespace Directives

theorem comma_not_mem_paths {cmd map : Option String} {path : String}
    (h : path ∈ (parse cmd map).modules.paths) : ',' ∉ path.toList := by
  obtain ⟨⟨raw, -, htoken⟩, -⟩ := mem_paths_parse.mp h
  exact Path.not_mem_of_mem_tokens htoken

/-- A route that a request comes to is found where it starts. -/
theorem source_of_parse {cmd map : Option String} {key : String} {route : Route}
    (h : (parse cmd map).routes.get? key = some route) : route.source = key := by
  rw [routes_parse] at h
  exact Routes.source_of_ofList h

theorem entries_mapText {cmd : Option String} {ws : List Written}
    (hw : ∀ w ∈ ws, w.Legible (parse cmd none).modules.paths)
    (hn : (ws.map fun w => (w.library, w.method)).Nodup) :
    (parse cmd (some (Written.mapText ws))).routes.table.entries =
      ws.map fun w => (w.route.source, w.route) := by
  have hfiled := filed_parse cmd none
  have htokens : Path.tokens (Written.mapText ws) = ws.map Written.token := by
    refine Path.tokens_intercalate (Written.nodup_tokens hfiled hw hn) fun t ht => ?_
    obtain ⟨w, hmem, rfl⟩ := List.mem_map.mp ht
    exact (hw w hmem).token_ok (comma_not_mem_paths (hw w hmem).registered)
  have hread : (ws.map Written.token).filterMap (parse cmd none).route? =
      ws.map Written.route := by
    rw [List.filterMap_map, ← List.filterMap_eq_map]
    exact List.filterMap_congr fun w hmem => Written.route?_token hfiled (hw w hmem)
  have hsources : ((ws.map Written.route).map Route.source).Nodup := by
    rw [List.map_map]
    exact Written.nodup_sources hw hn
  rw [routes_parse, Option.map_some, Option.getD_some, htokens, hread,
    Routes.entries_of_nodup hsources, List.map_map]
  rfl

end Directives

/-- A call takes the value of its method along the route that starts at its result key. -/
theorem Pools.input_call_of_route {routes : Routes} {w : Written}
    (hroute : routes.get? (Path.resultKey w.library w.method) = some w.route) (q : Pools)
    {l : Library} {past : History} {v : Json} (hd : l.declares w.method = true)
    (hv : (l.invoke past w.method q.input).settle w.method = .ok v) (hnull : v.isNull = false) :
    (q.call routes w.library l w.method past).2.input =
      match v.extract? w.steps with
      | some x => q.input.insert w.target x
      | none => q.input := by
  have hrouted : routed? routes (Path.resultKey w.library w.method) v =
      (v.extract? w.steps).map (w.target, ·) := by
    rw [routed?, hroute]
    rfl
  rw [call, if_pos hd, hv, settle, hnull, if_neg Bool.false_ne_true, store, hrouted]
  cases v.extract? w.steps <;> rfl

namespace Directives

/-- **Written routes are read back.** Whatever `cmd` registers, routes of its libraries
that are legible and start at different methods, written as one `map`, are all that the
`map` comes to. They stand in the order written, each under the result key of its library
and method, and a call of that method takes its value along the route written for it. -/
theorem written_routes_are_read_back (cmd : Option String) {ws : List Written}
    (hw : ∀ w ∈ ws, w.Legible (parse cmd none).modules.paths)
    (hn : (ws.map fun w => (w.library, w.method)).Nodup) :
    (parse cmd (some (Written.mapText ws))).routes.toList = ws.map Written.route ∧
    (∀ key r, (parse cmd (some (Written.mapText ws))).routes.get? key = some r ↔
      ∃ w ∈ ws, key = Path.resultKey w.library w.method ∧ r = ⟨key, w.steps, w.target⟩) ∧
    (∀ w ∈ ws, ∀ (q : Pools) (l : Library) (past : History) (v : Json),
      l.declares w.method = true →
      (l.invoke past w.method q.input).settle w.method = .ok v → v.isNull = false →
      (q.call (parse cmd (some (Written.mapText ws))).routes w.library l w.method past).2.input =
        match v.extract? w.steps with
        | some x => q.input.insert w.target x
        | none => q.input) := by
  have hentries := entries_mapText hw hn
  have hget : ∀ key r, (parse cmd (some (Written.mapText ws))).routes.get? key = some r ↔
      ∃ w ∈ ws, key = Path.resultKey w.library w.method ∧ r = ⟨key, w.steps, w.target⟩ := by
    intro key r
    rw [Routes.get?, ← Table.mem_entries_iff, hentries, List.mem_map]
    constructor
    · rintro ⟨w, hmem, heq⟩
      obtain ⟨rfl, rfl⟩ := Prod.mk.inj heq
      exact ⟨w, hmem, rfl, rfl⟩
    · rintro ⟨w, hmem, rfl, rfl⟩
      exact ⟨w, hmem, rfl⟩
  refine ⟨?_, hget, fun w hmem q l past v hd hv hnull => ?_⟩
  · rw [Routes.toList, hentries, List.map_map]
    rfl
  · exact q.input_call_of_route ((hget _ _).mpr ⟨w, hmem, rfl, rfl⟩) hd hv hnull

namespace Nested

/-- A route of the inner library and one of the outer, to names with a colon and without. -/
def written : List Written := [⟨"a\\b\\c", "run", ["k"], "to:x"⟩, ⟨"a\\b", "run", [], "y"⟩]

/-- A library of a `run` that gives a text. -/
def library : Library := ⟨["run"], none, fun _ _ _ => .value (.str "v")⟩

theorem nested_routes_are_read_back :
    Written.mapText written = "a\\b\\c\\run\\k:to:x,a\\b\\run:y" ∧
    (parse (some "a\\b,run,a\\b\\c") (some (Written.mapText written))).routes.toList =
      [⟨"a\\b\\c\\run", ["k"], "to:x"⟩, ⟨"a\\b\\run", [], "y"⟩] ∧
    (Pools.call ⟨.empty, .empty⟩
      (parse (some "a\\b,run,a\\b\\c") (some (Written.mapText written))).routes
      "a\\b" library "run").2.input = Input.empty.insert "y" (.str "v") := by
  have hpaths : (parse (some "a\\b,run,a\\b\\c") none).modules.paths = ["a\\b", "a\\b\\c"] := by
    decide +kernel
  have hlegible : ∀ w ∈ written,
      w.Legible (parse (some "a\\b,run,a\\b\\c") none).modules.paths := by
    rw [hpaths]
    intro w hw
    rcases List.mem_pair.mp hw with rfl | rfl <;> constructor <;> decide +kernel
  have hstarts : (written.map fun w => (w.library, w.method)).Nodup := by decide +kernel
  obtain ⟨hroutes, -, hcall⟩ := written_routes_are_read_back _ hlegible hstarts
  refine ⟨by decide +kernel, hroutes.trans (by decide +kernel), ?_⟩
  have hrun : ⟨"a\\b", "run", [], "y"⟩ ∈ written := List.mem_pair.mpr (.inr rfl)
  have hgives : (library.invoke [] "run" .empty).settle "run" = .ok (.str "v") := rfl
  have hdeclares : library.declares "run" = true := by decide +kernel
  have hinput := hcall _ hrun ⟨.empty, .empty⟩ library [] (.str "v") hdeclares hgives rfl
  have hwhole : (Json.str "v").extract? [] = some (.str "v") := rfl
  simp only [hwhole] at hinput
  exact hinput

end Nested

end Directives

end Switchboard
