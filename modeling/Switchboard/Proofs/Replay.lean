import Switchboard.Proofs.Protocol

/-!
The pools as a replay of the calls. Whatever calls are made, in whatever order, both
pools end as the list of what came back says: each value that is not null and that a
route takes somewhere is written into the input, each value that is not null and each
message of a failure into the results, one after the other (`pools_are_replayed`).
So no name leaves the input, a name that no route leads to keeps its value and its
place, and null is never routed. The runs of a pass are such a sequence of calls.
-/

namespace Switchboard

universe u v

/-! ## Entries, written one after the other -/

theorem eraseDups_eq_self {xs : List String} (h : xs.Nodup) : xs.eraseDups = xs := by
  induction xs with
  | nil => rfl
  | cons x xs ih =>
    obtain ⟨hx, hxs⟩ := List.nodup_cons.mp h
    have hkeep : xs.filter (fun y => !y == x) = xs := by
      refine List.filter_eq_self.mpr fun y hy => ?_
      have hne : y ≠ x := fun heq => hx (heq ▸ hy)
      simpa using hne
    rw [List.eraseDups_cons, hkeep, ih hxs]

/-- A list with `x` at its end, unless it holds `x` already. -/
def appendNew (xs : List String) (x : String) : List String :=
  if x ∈ xs then xs else xs ++ [x]

theorem nodup_appendNew {xs : List String} (h : xs.Nodup) (x : String) :
    (appendNew xs x).Nodup := by
  unfold appendNew
  split
  · exact h
  · next hx =>
    rw [← List.concat_eq_append]
    exact h.concat hx

/-- Added one after the other, texts come to stand where they first came up. -/
theorem eraseDups_append_eq_foldl {xs : List String} (h : xs.Nodup) (ys : List String) :
    (xs ++ ys).eraseDups = ys.foldl appendNew xs := by
  induction ys generalizing xs with
  | nil =>
    rw [List.append_nil]
    exact eraseDups_eq_self h
  | cons y ys ih =>
    rw [List.foldl_cons, ← ih (nodup_appendNew h y), appendNew]
    split
    · next hy => simp [List.eraseDups_append, List.removeAll, hy]
    · simp

/-- What takes on one name at a time ends with those that it had and those that were new. -/
theorem names_foldl {σ : Type u} {β : Type v} {names : σ → List String} {add : σ → β → σ}
    {name : β → String} (h : ∀ s b, names (add s b) = appendNew (names s) (name b)) (s : σ)
    (bs : List β) : names (bs.foldl add s) = (bs.map name).foldl appendNew (names s) := by
  induction bs generalizing s with
  | nil => rfl
  | cons b bs ih => rw [List.foldl_cons, ih, h, List.map_cons, List.foldl_cons]

/-- Nothing is lost and nothing moves. -/
theorem prefix_foldl_appendNew (xs ys : List String) : xs <+: ys.foldl appendNew xs := by
  induction ys generalizing xs with
  | nil => exact List.prefix_rfl
  | cons y ys ih =>
    refine List.IsPrefix.trans ?_ (ih (appendNew xs y))
    unfold appendNew
    split
    · exact List.prefix_rfl
    · exact List.prefix_append _ _

theorem mem_foldl_appendNew {xs ys : List String} {x : String} :
    x ∈ ys.foldl appendNew xs ↔ x ∈ xs ∨ x ∈ ys := by
  induction ys generalizing xs with
  | nil => simp
  | cons y ys ih =>
    rw [List.foldl_cons, ih, appendNew]
    split
    · next hy =>
      constructor
      · exact Or.imp_right (List.mem_cons_of_mem y)
      · rintro (h | h)
        · exact .inl h
        · rcases List.mem_cons.mp h with rfl | h
          · exact .inl hy
          · exact .inr h
    · simp [or_assoc]

/-- Texts that are there already add nothing. -/
theorem foldl_appendNew_of_subset {xs ys : List String} (h : ys ⊆ xs) :
    ys.foldl appendNew xs = xs := by
  induction ys with
  | nil => rfl
  | cons y ys ih =>
    obtain ⟨hy, hys⟩ := List.cons_subset.mp h
    rw [List.foldl_cons, appendNew, if_pos hy, ih hys]

namespace Entries

variable {α : Type u}

/-- Entries after `w` was written: in place, if its name is held, and else at the end. -/
def overwrite (es : List (String × α)) (w : String × α) : List (String × α) :=
  if w.1 ∈ es.map Prod.fst then es.map fun e => if e.1 = w.1 then w else e else es ++ [w]

/-- Entries after `ws` were written, in order. -/
def replay (es ws : List (String × α)) : List (String × α) := ws.foldl overwrite es

theorem replay_cons (es : List (String × α)) (w : String × α) (ws : List (String × α)) :
    replay es (w :: ws) = replay (overwrite es w) ws := rfl

theorem replay_append (es ws vs : List (String × α)) :
    replay es (ws ++ vs) = replay (replay es ws) vs := List.foldl_append

theorem put_eq_overwrite {es : List (String × α)} (hn : (es.map Prod.fst).Nodup)
    (w : String × α) : put w.1 w.2 es = overwrite es w := by
  induction es with
  | nil => rfl
  | cons e es ih =>
    obtain ⟨he, hes⟩ := List.nodup_cons.mp hn
    by_cases h : e.1 = w.1
    · have htail : ∀ e' ∈ es, (if e'.1 = w.1 then w else e') = id e' := by
        intro e' he'
        refine if_neg fun hw => he ?_
        rw [h, ← hw]
        exact List.mem_map_of_mem he'
      simp [put, overwrite, h, List.map_congr_left htail]
    · have h' : ¬ w.1 = e.1 := fun hw => h hw.symm
      rw [put, if_neg h, ih hes]
      by_cases hw : w.1 ∈ es.map Prod.fst
      · simp [overwrite, h, h', hw]
      · simp [overwrite, h', hw]

theorem keys_overwrite (es : List (String × α)) (w : String × α) :
    (overwrite es w).map Prod.fst =
      if w.1 ∈ es.map Prod.fst then es.map Prod.fst else es.map Prod.fst ++ [w.1] := by
  unfold overwrite
  split
  · rw [List.map_map]
    refine List.map_congr_left fun e _ => ?_
    by_cases h : e.1 = w.1 <;> simp [h]
  · simp

/-- No name is lost, and those that come are held last. -/
theorem keys_prefix_replay (es ws : List (String × α)) :
    es.map Prod.fst <+: (replay es ws).map Prod.fst := by
  induction ws generalizing es with
  | nil => exact List.prefix_rfl
  | cons w ws ih =>
    refine List.IsPrefix.trans ?_ (ih (overwrite es w))
    rw [keys_overwrite]
    split
    · exact List.prefix_rfl
    · exact List.prefix_append _ _

theorem getElem?_overwrite {es : List (String × α)} {w : String × α} {k : String}
    (hk : w.1 ≠ k) (i : Nat) (v : α) :
    (overwrite es w)[i]? = some (k, v) ↔ es[i]? = some (k, v) := by
  unfold overwrite
  split
  · rw [List.getElem?_map, Option.map_eq_some_iff]
    constructor
    · rintro ⟨e, he, hw⟩
      split at hw
      · exact absurd (congrArg Prod.fst hw) hk
      · rw [he, hw]
    · intro h
      exact ⟨_, h, if_neg (Ne.symm hk)⟩
  · rw [List.getElem?_append]
    split
    · rfl
    · next hi =>
      rw [List.getElem?_eq_none (Nat.le_of_not_lt hi)]
      cases i - es.length with
      | zero => simpa using fun h => absurd (congrArg Prod.fst h) hk
      | succ j => simp

/-- A name that is not written keeps its value and its place. -/
theorem getElem?_replay {es ws : List (String × α)} {k : String} (hk : ∀ w ∈ ws, w.1 ≠ k)
    (i : Nat) (v : α) : (replay es ws)[i]? = some (k, v) ↔ es[i]? = some (k, v) := by
  induction ws generalizing es with
  | nil => rfl
  | cons w ws ih =>
    have hrest : ∀ w' ∈ ws, w'.1 ≠ k := fun w' hw' => hk w' (List.mem_cons_of_mem _ hw')
    rw [replay_cons, ih hrest, getElem?_overwrite (hk w List.mem_cons_self)]

theorem overwrite_of_not_mem {es : List (String × α)} {w : String × α}
    (h : w.1 ∉ es.map Prod.fst) : overwrite es w = es ++ [w] := if_neg h

theorem mem_overwrite_self (es : List (String × α)) (w : String × α) : w ∈ overwrite es w := by
  by_cases h : w.1 ∈ es.map Prod.fst
  · obtain ⟨e, he, hw⟩ := List.mem_map.mp h
    rw [overwrite, if_pos h]
    exact List.mem_map.mpr ⟨e, he, if_pos hw⟩
  · rw [overwrite_of_not_mem h]
    exact List.mem_append_right _ (List.mem_singleton_self w)

theorem mem_overwrite {es : List (String × α)} {w x : String × α} (h : x ∈ overwrite es w) :
    x ∈ es ∨ x = w := by
  unfold overwrite at h
  split at h
  · obtain ⟨e, he, rfl⟩ := List.mem_map.mp h
    split
    · exact .inr rfl
    · exact .inl he
  · simpa using h

/-- What is held in the end was held at first or was written. -/
theorem mem_replay {es ws : List (String × α)} {x : String × α} (h : x ∈ replay es ws) :
    x ∈ es ∨ x ∈ ws := by
  induction ws generalizing es with
  | nil => exact .inl h
  | cons w ws ih =>
    rcases ih h with h | h
    · rcases mem_overwrite h with h | rfl
      · exact .inl h
      · exact .inr List.mem_cons_self
    · exact .inr (List.mem_cons_of_mem _ h)

/-- What is written last under its name is held in the end. -/
theorem mem_replay_of_last {es front back : List (String × α)} {w : String × α}
    (h : ∀ w' ∈ back, w'.1 ≠ w.1) : w ∈ replay es (front ++ w :: back) := by
  obtain ⟨i, hi⟩ := List.mem_iff_getElem?.mp (mem_overwrite_self (replay es front) w)
  rw [replay_append, replay_cons]
  exact List.mem_iff_getElem?.mpr ⟨i, (getElem?_replay h i w.2).mpr hi⟩

/-- What the writes do to the names. -/
theorem keys_replay_eq_foldl (es ws : List (String × α)) :
    (replay es ws).map Prod.fst = (ws.map Prod.fst).foldl appendNew (es.map Prod.fst) :=
  names_foldl keys_overwrite es ws

/-- The names after the writes, each where it first came up. -/
theorem keys_replay {es : List (String × α)} (hn : (es.map Prod.fst).Nodup)
    (ws : List (String × α)) :
    (replay es ws).map Prod.fst = ((es ++ ws).map Prod.fst).eraseDups := by
  rw [keys_replay_eq_foldl, List.map_append, eraseDups_append_eq_foldl hn]

/-- Under names that are new and distinct, what is written is added in its order. -/
theorem replay_eq_append {es ws : List (String × α)} (h : ((es ++ ws).map Prod.fst).Nodup) :
    replay es ws = es ++ ws := by
  induction ws generalizing es with
  | nil => exact (List.append_nil es).symm
  | cons w ws ih =>
    have hassoc : es ++ [w] ++ ws = es ++ w :: ws := by simp
    have hnew : w.1 ∉ es.map Prod.fst := by
      rw [List.map_append, List.nodup_append] at h
      intro hw
      exact h.2.2 w.1 hw w.1 List.mem_cons_self rfl
    rw [replay_cons, overwrite_of_not_mem hnew, ih (hassoc.symm ▸ h), hassoc]

end Entries

namespace Table

variable {α : Type u}

theorem entries_insertMany (t : Table α) (ws : List (String × α)) :
    (t.insertMany ws).entries = Entries.replay t.entries ws := by
  induction ws generalizing t with
  | nil => rfl
  | cons w ws ih =>
    have hstep : (t.insert w.1 w.2).entries = Entries.overwrite t.entries w :=
      Entries.put_eq_overwrite t.nodup w
    have hcons : t.insertMany (w :: ws) = (t.insert w.1 w.2).insertMany ws := rfl
    rw [hcons, ih, hstep, Entries.replay_cons]

theorem entries_ofList (ws : List (String × α)) :
    (ofList ws).entries = Entries.replay [] ws := entries_insertMany empty ws

/-- Entries under distinct names are held as they come. -/
theorem entries_ofList_of_nodup {es : List (String × α)} (h : (es.map Prod.fst).Nodup) :
    (ofList es).entries = es := by
  have hreplay : Entries.replay [] es = [] ++ es := Entries.replay_eq_append h
  rw [entries_ofList]
  exact hreplay

theorem ofList_entries (t : Table α) : ofList t.entries = t :=
  Table.ext (entries_ofList_of_nodup t.nodup)

end Table

theorem Input.toList_insert (i : Input) (w : String × Json) :
    (i.insert w.1 w.2).toList = Entries.overwrite i.toList w :=
  Entries.put_eq_overwrite i.values.nodup w

theorem Input.toList_write (i : Input) (ws : List (String × Json)) :
    (i.write ws).toList = Entries.replay i.toList ws := by
  induction ws generalizing i with
  | nil => rfl
  | cons w ws ih =>
    have hcons : i.write (w :: ws) = (i.insert w.1 w.2).write ws := rfl
    rw [hcons, ih, Input.toList_insert]
    rfl

theorem Results.toList_record (r : Results) (k : String) (v : Json) :
    (r.record k v).toList = Entries.overwrite r.toList (k, v) :=
  Entries.put_eq_overwrite r.table.nodup (k, v)

/-! ## What comes back from a call -/

/-- A call to be made: of a method, on the library found under `path`, after `past`. -/
structure Invocation where
  path : String
  library : Library
  method : String
  past : History

/-- Of a call, the path asked for and the method, if it is one that runs. -/
def Invocation.logged? (c : Invocation) : Option (String × String) :=
  if c.library.declares c.method then some (c.path, c.method) else none

/-- What a call came back with, and the result key it counts under. -/
structure Reply where
  key : String
  result : Except Fault Json

/-- Nothing comes back from a library that does not declare the method. -/
def Invocation.reply? (c : Invocation) (input : Input) : Option Reply :=
  if c.library.declares c.method then
    some ⟨Path.resultKey c.path c.method,
      (c.library.invoke c.past c.method input).settle c.method⟩
  else none

namespace Reply

/-- What a reply writes into the input. -/
def routed (routes : Routes) (r : Reply) : List (String × Json) :=
  match r.result with
  | .error _ => []
  | .ok v =>
    if v.isNull then []
    else match routes.get? r.key with
      | none => []
      | some route => ((v.extract? route.steps).map (route.target, ·)).toList

/-- What a reply writes into the results. -/
def recorded (r : Reply) : List (String × Json) :=
  match r.result with
  | .error f => [(r.key, .str f.message)]
  | .ok v => if v.isNull then [] else [(r.key, v)]

end Reply

/-! ## Values on the way -/

namespace Json

theorem isNull_member? {v w : Json} {key : String} (h : v.member? key = some w) :
    w.isNull = false := by
  unfold member? at h
  obtain ⟨-, hw⟩ := Option.filter_eq_some_iff.mp h
  simpa using hw

theorem isNull_walk? {v w : Json} {steps : List String} (hv : v.isNull = false)
    (h : v.walk? steps = some w) : w.isNull = false := by
  induction steps generalizing v with
  | nil =>
    cases h
    exact hv
  | cons k ks ih =>
    obtain ⟨x, hx, hw⟩ := Option.bind_eq_some_iff.mp h
    exact ih (isNull_member? hx) hw

/-- A value that is not null has nothing null at the end of a route. -/
theorem isNull_extract? {v w : Json} {steps : List String} (hv : v.isNull = false)
    (h : v.extract? steps = some w) : w.isNull = false := by
  unfold extract? at h
  split at h
  · cases h
    exact hv
  · exact isNull_walk? hv h

end Json

namespace Reply

/-- What is routed is not null, and goes where a route leads. -/
theorem mem_routed {routes : Routes} {r : Reply} {w : String × Json} (h : w ∈ r.routed routes) :
    w.2.isNull = false ∧ ∃ route ∈ routes.toList, route.target = w.1 := by
  unfold routed at h
  split at h
  · cases h
  · next v _ =>
    split at h
    · cases h
    · next hv =>
      split at h
      · cases h
      · next route hroute =>
        obtain ⟨x, hx, rfl⟩ := Option.map_eq_some_iff.mp (Option.mem_toList.mp h)
        have hmem : route ∈ routes.toList :=
          List.mem_map_of_mem (routes.table.mem_entries_iff.mpr hroute)
        exact ⟨Json.isNull_extract? (Bool.eq_false_iff.mpr hv) hx, route, hmem, rfl⟩

end Reply

/-! ## Calls, one after the other -/

namespace Pools

/-- The pools after a call. -/
def make (q : Pools) (routes : Routes) (c : Invocation) : Pools :=
  (q.call routes c.path c.library c.method c.past).2

def makeAll (q : Pools) (routes : Routes) (cs : List Invocation) : Pools :=
  cs.foldl (fun q c => q.make routes c) q

theorem makeAll_append (q : Pools) (routes : Routes) (cs ds : List Invocation) :
    q.makeAll routes (cs ++ ds) = (q.makeAll routes cs).makeAll routes ds := List.foldl_append

/-- What comes back from calls, each of which finds what those before it have left. -/
def replies (routes : Routes) : Pools → List Invocation → List Reply
  | _, [] => []
  | q, c :: cs => (c.reply? q.input).toList ++ replies routes (q.make routes c) cs

theorem routed_eq_writes (q : Pools) (routes : Routes) (c : Invocation) :
    (c.reply? q.input).toList.flatMap (Reply.routed routes) =
      q.writes routes c.path c.library c.method c.past := by
  unfold Invocation.reply? writes
  split
  · simp only [Option.toList_some, List.flatMap_singleton, Reply.routed, routed?]
    cases (c.library.invoke c.past c.method q.input).settle c.method with
    | error f => rfl
    | ok v => cases routes.get? (Path.resultKey c.path c.method) <;> rfl
  · rfl

theorem toList_input_make (q : Pools) (routes : Routes) (c : Invocation) :
    (q.make routes c).input.toList = Entries.replay q.input.toList
      ((c.reply? q.input).toList.flatMap (Reply.routed routes)) := by
  rw [make, call_input, Input.toList_write, routed_eq_writes]

theorem toList_results_make (q : Pools) (routes : Routes) (c : Invocation) :
    (q.make routes c).results.toList = Entries.replay q.results.toList
      ((c.reply? q.input).toList.flatMap Reply.recorded) := by
  unfold make call Invocation.reply?
  split
  · simp only [Option.toList_some, List.flatMap_singleton, Reply.recorded]
    cases (c.library.invoke c.past c.method q.input).settle c.method with
    | error f => exact Results.toList_record _ _ _
    | ok v =>
      cases hv : v.isNull with
      | true => simp only [settle, hv, ↓reduceIte]; rfl
      | false =>
        simp only [settle, hv, Bool.false_eq_true, ↓reduceIte, store]
        split <;> exact Results.toList_record _ _ _
  · rfl

/-- What each call adds to a view of the pools, all calls add in order. -/
theorem view_makeAll {routes : Routes} (view : Pools → List (String × Json))
    {write : Reply → List (String × Json)}
    (hstep : ∀ (q : Pools) (c : Invocation), view (q.make routes c) =
      Entries.replay (view q) ((c.reply? q.input).toList.flatMap write))
    (q : Pools) (cs : List Invocation) :
    view (q.makeAll routes cs) = Entries.replay (view q) ((q.replies routes cs).flatMap write) := by
  induction cs generalizing q with
  | nil => rfl
  | cons c cs ih =>
    have hcons : q.makeAll routes (c :: cs) = (q.make routes c).makeAll routes cs := rfl
    rw [hcons, ih, hstep, replies, List.flatMap_append, Entries.replay_append]

theorem toList_input_makeAll (q : Pools) (routes : Routes) (cs : List Invocation) :
    (q.makeAll routes cs).input.toList = Entries.replay q.input.toList
      ((q.replies routes cs).flatMap (Reply.routed routes)) :=
  view_makeAll (fun q => q.input.toList) (fun q c => toList_input_make q routes c) q cs

theorem toList_results_makeAll (q : Pools) (routes : Routes) (cs : List Invocation) :
    (q.makeAll routes cs).results.toList = Entries.replay q.results.toList
      ((q.replies routes cs).flatMap Reply.recorded) :=
  view_makeAll (fun q => q.results.toList) (fun q c => toList_results_make q routes c) q cs

/-- A call does not run, gives null, fails, or gives what no route takes anywhere. -/
def Quiet (routes : Routes) (c : Invocation) (input : Input) : Prop :=
  c.library.declares c.method = false ∨
    ∃ r, c.reply? input = some r ∧
      ((∃ f, r.result = .error f) ∨
        ∃ v, r.result = .ok v ∧
          (v.isNull = true ∨ ∀ route, routes.get? r.key = some route →
            v.extract? route.steps = none))

theorem input_make_of_quiet {q : Pools} {routes : Routes} {c : Invocation}
    (h : Quiet routes c q.input) : (q.make routes c).input = q.input := by
  have hnothing : (c.reply? q.input).toList.flatMap (Reply.routed routes) = [] := by
    rcases h with hd | ⟨r, hr, ⟨f, hf⟩ | ⟨v, hv, hnull | hmiss⟩⟩
    · simp [Invocation.reply?, hd]
    · simp [hr, Reply.routed, hf]
    · simp [hr, Reply.routed, hv, hnull]
    · have hroutes : r.routed routes = [] := by
        simp only [Reply.routed, hv]
        split
        · rfl
        · split
          · rfl
          · next route hroute => simp [hmiss route hroute]
      simp [hr, hroutes]
  rw [make, call_input, ← routed_eq_writes, hnothing]
  rfl

end Pools

/-! ## The calls of a pass -/

namespace Pass

/-- The call that is made at a moment. -/
def invocation? (p : Pass) (m : Moment) : Option Invocation :=
  (p.called? m).map fun c => ⟨c.1, c.2.1, c.2.2, m.before.events⟩

/-- The calls that are made in `n` runs, in order. -/
def invocations (p : Pass) (n : Nat) (s : Progress) : List Invocation :=
  (p.momentsOver n s).filterMap p.invocation?

theorem perform_pools (p : Pass) (s : Progress) (a : Act) :
    (p.perform s a).pools =
      s.pools.makeAll p.directives.routes (p.invocation? ⟨a, s⟩).toList := by
  cases a with
  | enter owner =>
    simp only [perform, bootstrap_pools]
    rfl
  | look owner path => rfl
  | schedule owner path l =>
    simp only [perform, callInit, call_pools]
    rfl
  | check owner path l method =>
    simp only [perform, consider, invocation?, called?]
    cases p.zone.authorize l method s.pools.input with
    | allow => simp only [call_pools]; rfl
    | deny missing => rfl

theorem foldl_pools (p : Pass) (as : List Act) (s : Progress) :
    (as.foldl p.perform s).pools =
      s.pools.makeAll p.directives.routes ((p.trail as s).filterMap p.invocation?) := by
  induction as generalizing s with
  | nil => rfl
  | cons a as ih =>
    rw [List.foldl_cons, ih, perform_pools, trail, List.filterMap_eq_flatMap_toList,
      List.filterMap_eq_flatMap_toList, List.flatMap_cons, Pools.makeAll_append]

theorem runs_pools (p : Pass) (n : Nat) (s : Progress) :
    (p.runs n s).pools = s.pools.makeAll p.directives.routes (p.invocations n s) := by
  rw [runs_eq_foldl, foldl_pools]
  rfl

theorem filterMap_calls (p : Pass) (m : Moment) :
    (p.calls m).filterMap Event.call? = (p.invocation? m).toList.filterMap Invocation.logged? := by
  unfold invocation?
  cases hc : p.called? m with
  | none => simpa using calls_of_not_called hc
  | some c =>
    obtain ⟨path, l, method⟩ := c
    rw [calls_of_called hc]
    cases hd : l.declares method <;> simp [Library.runs, Invocation.logged?, Event.call?, hd]

/-- The calls of the runs are those that the log shows. -/
theorem runs_logged (p : Pass) (n : Nat) (s : Progress) :
    (p.runs n s).events.filterMap Event.call? =
      s.events.filterMap Event.call? ++ (p.invocations n s).filterMap Invocation.logged? := by
  rw [runs_events, List.filterMap_append, List.filterMap_flatMap, invocations,
    List.filterMap_eq_flatMap_toList p.invocation?, List.filterMap_flatMap]
  simp only [filterMap_calls]

/-! ## The replay -/

/-- **The pools as a replay.** After any calls, each pool is what it was, with what the
replies write into it written in order; and after any number of runs of a pass, with
the calls that its log shows. -/
theorem pools_are_replayed (routes : Routes) (q : Pools) (cs : List Invocation) :
    (q.makeAll routes cs).input.toList = Entries.replay q.input.toList
      ((q.replies routes cs).flatMap (Reply.routed routes)) ∧
    (q.makeAll routes cs).results.toList = Entries.replay q.results.toList
      ((q.replies routes cs).flatMap Reply.recorded) ∧
    q.input.values.keys <+: (q.makeAll routes cs).input.values.keys ∧
    (∀ k, (∀ route ∈ routes.toList, route.target ≠ k) → ∀ (i : Nat) (v : Json),
      (q.makeAll routes cs).input.toList[i]? = some (k, v) ↔
        q.input.toList[i]? = some (k, v)) ∧
    (∀ w ∈ (q.replies routes cs).flatMap (Reply.routed routes), w.2.isNull = false) ∧
    (∀ c, Pools.Quiet routes c q.input → (q.make routes c).input = q.input) ∧
    (∀ (p : Pass) (n : Nat) (s : Progress),
      (p.runs n s).pools = s.pools.makeAll p.directives.routes (p.invocations n s) ∧
      (p.runs n s).events.filterMap Event.call? =
        s.events.filterMap Event.call? ++
          (p.invocations n s).filterMap Invocation.logged?) := by
  have hinput := Pools.toList_input_makeAll q routes cs
  refine ⟨hinput, Pools.toList_results_makeAll q routes cs, ?_, fun k hk i v => ?_,
    fun w hw => ?_, fun c => Pools.input_make_of_quiet,
    fun p n s => ⟨p.runs_pools n s, p.runs_logged n s⟩⟩
  · have hkeys : (q.makeAll routes cs).input.values.keys = (Entries.replay q.input.toList
        ((q.replies routes cs).flatMap (Reply.routed routes))).map Prod.fst :=
      congrArg (List.map Prod.fst) hinput
    rw [hkeys]
    exact Entries.keys_prefix_replay _ _
  · have hother : ∀ w ∈ (q.replies routes cs).flatMap (Reply.routed routes), w.1 ≠ k := by
      intro w hw
      obtain ⟨r, -, hr⟩ := List.mem_flatMap.mp hw
      obtain ⟨-, route, hroute, htarget⟩ := Reply.mem_routed hr
      rw [← htarget]
      exact hk route hroute
    rw [hinput, Entries.getElem?_replay hother]
  · obtain ⟨r, -, hr⟩ := List.mem_flatMap.mp hw
    exact (Reply.mem_routed hr).1

/-- Two runs route a token, twice, and leave `seed` where it was; a call that fails
writes nothing. -/
theorem sample_is_replayed :
    (Sample.pass.runs 2 Sample.start).pools.input.toList[0]? = some ("seed", .bool true) ∧
    (Sample.pass.runs 2 Sample.start).pools.input.values.keys = ["seed", "token"] ∧
    (Sample.start.pools.make Sample.pass.directives.routes
      ⟨"m\\l", Sample.library, "fail", []⟩).input = Sample.start.pools.input := by
  obtain ⟨-, -, -, hkeeps, -, hquiet, hruns⟩ := pools_are_replayed Sample.pass.directives.routes
    Sample.start.pools (Sample.pass.invocations 2 Sample.start)
  obtain ⟨hpools, -⟩ := hruns Sample.pass 2 Sample.start
  refine ⟨?_, by decide +kernel, hquiet _ (.inr ⟨_, if_pos (by decide +kernel), .inl ⟨_, rfl⟩⟩)⟩
  rw [hpools]
  exact (hkeeps "seed" (by decide +kernel) 0 (.bool true)).mpr rfl

end Pass

end Switchboard
