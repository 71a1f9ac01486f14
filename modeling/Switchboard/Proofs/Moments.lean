import Mathlib.Data.List.Basic
import Switchboard.Proofs.Agenda

/-!
A pass moment by moment. A moment is a piece of work together with the pass as it
stood when the work was begun. What a moment adds to the trace (`steps`), what runs
in it (`calls`) and what it routes into the input (`writes`) are said here for each
kind of work by itself, and a run adds to what it found just what its moments add,
in order (`run_steps`, `run_events`, `input_at`).
-/

namespace Switchboard

structure Moment where
  act : Act
  before : Progress

/-! ## Routed values -/

namespace Input

/-- Sets names to values, one after the other. -/
def write (i : Input) (ws : List (String × Json)) : Input :=
  ws.foldl (fun i w => i.insert w.1 w.2) i

theorem write_append (i : Input) (ws vs : List (String × Json)) :
    i.write (ws ++ vs) = (i.write ws).write vs := List.foldl_append

end Input

namespace Pools

/-- What a call routes: the name of the input and the value it is set to, if the
method gave a value that is not null and a route takes it somewhere. -/
def writes (q : Pools) (routes : Routes) (path : String) (l : Library) (method : String)
    (past : History) : List (String × Json) :=
  if l.declares method then
    match (l.invoke past method q.input).settle method with
    | .error _ => []
    | .ok v => if v.isNull then [] else (routed? routes (Path.resultKey path method) v).toList
  else []

theorem call_input (q : Pools) (routes : Routes) (path : String) (l : Library) (method : String)
    (past : History) :
    (q.call routes path l method past).2.input =
      q.input.write (q.writes routes path l method past) := by
  unfold call writes
  split
  · cases (l.invoke past method q.input).settle method with
    | error f => rfl
    | ok v =>
      cases hn : v.isNull with
      | true => simp [settle, hn, Input.write]
      | false =>
        simp only [settle, hn, Bool.false_eq_true, ↓reduceIte, store]
        cases routed? routes (Path.resultKey path method) v <;> rfl
  · rfl

end Pools

/-- What a call lets run: nothing, if the library does not declare the method. -/
def Library.runs (l : Library) (path method : String) (input : Input) : History :=
  if l.declares method then [.invoked path method input] else []

theorem Library.mem_runs {l : Library} {path method : String} {input : Input} {e : Event} :
    e ∈ l.runs path method input ↔ l.declares method = true ∧ e = .invoked path method input := by
  unfold runs
  cases l.declares method <;> simp

/-- Of a call, the path asked for and the method. -/
def Event.call? : Event → Option (String × String)
  | .hook _ => none
  | .invoked path method _ => some (path, method)

theorem Event.call?_eq_some {e : Event} {path method : String} :
    e.call? = some (path, method) ↔ ∃ input, e = .invoked path method input := by
  cases e <;> simp [Event.call?, eq_comm]

namespace Pass

/-! ## The moments of a run -/

/-- The moments of doing `acts` from `s` on. -/
def trail (p : Pass) : List Act → Progress → List Moment
  | [], _ => []
  | a :: as, s => ⟨a, s⟩ :: p.trail as (p.perform s a)

def moments (p : Pass) (s : Progress) : List Moment := p.trail (p.agenda s) s

theorem trail_append (p : Pass) (as bs : List Act) (s : Progress) :
    p.trail (as ++ bs) s = p.trail as s ++ p.trail bs (as.foldl p.perform s) := by
  induction as generalizing s with
  | nil => rfl
  | cons a as ih => simp [trail, ih]

theorem map_act_trail (p : Pass) (as : List Act) (s : Progress) :
    (p.trail as s).map Moment.act = as := by
  induction as generalizing s with
  | nil => rfl
  | cons a as ih => simp [trail, ih]

/-- What is done has its moment. -/
theorem mem_iff_exists_moment (p : Pass) (as : List Act) (s : Progress) (a : Act) :
    a ∈ as ↔ ∃ t, ⟨a, t⟩ ∈ p.trail as s := by
  constructor
  · intro h
    rw [← map_act_trail p as s] at h
    obtain ⟨⟨b, t⟩, ht, rfl⟩ := List.mem_map.mp h
    exact ⟨t, ht⟩
  · rintro ⟨t, ht⟩
    rw [← map_act_trail p as s]
    exact List.mem_map.mpr ⟨_, ht, rfl⟩

theorem act_mem_agenda {p : Pass} {s : Progress} {m : Moment} (h : m ∈ p.moments s) :
    m.act ∈ p.agenda s :=
  (mem_iff_exists_moment p _ s _).mpr ⟨m.before, h⟩

theorem planned_of_mem_moments {p : Pass} {s : Progress} {m : Moment} (h : m ∈ p.moments s) :
    p.Planned m.act := planned_of_mem_agenda (act_mem_agenda h)

/-! ## What a moment adds -/

/-- The method called at a moment, with its library and the path asked for. -/
def called? (p : Pass) (m : Moment) : Option (String × Library × String) :=
  match m.act with
  | .enter _ => none
  | .look _ _ => none
  | .schedule _ path l => some (path, l, Library.initMethod)
  | .check _ path l method =>
    if p.zone.authorize l method m.before.pools.input = .allow then some (path, l, method)
    else none

/-- The step that tells what a call came to. -/
def invokeStep (p : Pass) (owner path : String) (l : Library) (method : String) (s : Progress) :
    TraceStep :=
  ⟨owner, some path, some method, "invoke",
    (s.pools.call p.directives.routes path l method s.events).1.text⟩

/-- The steps that a moment adds to the trace. -/
def steps (p : Pass) (m : Moment) : List TraceStep :=
  match m.act with
  | .enter owner =>
    match p.catalog.runHook? owner m.before.events with
    | none => []
    | some (.result (.ok ())) => [⟨owner, none, none, "bootstrap", "ok"⟩]
    | some (.result (.error f)) => [⟨owner, none, none, "bootstrap", "failed: " ++ f.message⟩]
    | some .panic => []
  | .look owner path =>
    match p.catalog.library? path with
    | some _ => [⟨owner, some path, none, "library_lookup", "found"⟩]
    | none => [⟨owner, some path, none, "library_lookup", "unknown library"⟩]
  | .schedule owner path l =>
    [⟨owner, some path, some "init", "init_first", "scheduled"⟩,
      p.invokeStep owner path l "init" m.before]
  | .check owner path l method =>
    match p.zone.authorize l method m.before.pools.input with
    | .allow =>
      [⟨owner, some path, some method, "safe_zone", "allowed"⟩,
        p.invokeStep owner path l method m.before]
    | .deny missing =>
      [⟨owner, some path, some method, "safe_zone",
        "denied: missing [" ++ ", ".intercalate missing ++ "]"⟩]

/-- What runs at a moment. -/
def calls (p : Pass) (m : Moment) : History :=
  match m.act with
  | .enter owner =>
    if (p.catalog.runHook? owner m.before.events).isSome then [.hook owner] else []
  | _ =>
    match p.called? m with
    | none => []
    | some (path, l, method) => l.runs path method m.before.pools.input

/-- What a moment routes into the input. -/
def writes (p : Pass) (m : Moment) : List (String × Json) :=
  match p.called? m with
  | none => []
  | some (path, l, method) =>
    m.before.pools.writes p.directives.routes path l method m.before.events

theorem calls_of_called {p : Pass} {m : Moment} {path method : String} {l : Library}
    (h : p.called? m = some (path, l, method)) :
    p.calls m = l.runs path method m.before.pools.input := by
  obtain ⟨a, s⟩ := m
  cases a with
  | enter owner => cases h
  | look owner path' => cases h
  | schedule owner path' l' =>
    cases h
    rfl
  | check owner path' l' method' => simp only [calls, h]

/-- A moment without a call may run a hook, but no method. -/
theorem calls_of_not_called {p : Pass} {m : Moment} (h : p.called? m = none) :
    (p.calls m).filterMap Event.call? = [] := by
  obtain ⟨a, s⟩ := m
  cases a with
  | enter owner =>
    simp only [calls]
    split <;> rfl
  | look owner path => rfl
  | schedule owner path l => cases h
  | check owner path l method =>
    simp only [calls, h]
    rfl

theorem call_pools (p : Pass) (owner path : String) (l : Library) (method : String)
    (s : Progress) :
    (p.call owner path l method s).pools =
      (s.pools.call p.directives.routes path l method s.events).2 := by
  unfold call
  rfl

theorem call_steps (p : Pass) (owner path : String) (l : Library) (method : String)
    (s : Progress) :
    (p.call owner path l method s).trace.steps =
      s.trace.steps ++ [p.invokeStep owner path l method s] := by
  unfold call
  cases l.declares method <;> rfl

theorem call_events (p : Pass) (owner path : String) (l : Library) (method : String)
    (s : Progress) :
    (p.call owner path l method s).events =
      s.events ++ l.runs path method s.pools.input := by
  unfold call Library.runs
  cases l.declares method <;> simp

theorem perform_steps (p : Pass) (s : Progress) (a : Act) :
    (p.perform s a).trace.steps = s.trace.steps ++ p.steps ⟨a, s⟩ := by
  cases a with
  | enter owner =>
    simp only [perform, bootstrap, steps]
    rcases p.catalog.runHook? owner s.events with _ | ⟨_ | _⟩ | _ <;> simp <;> rfl
  | look owner path =>
    simp only [perform, steps]
    cases p.catalog.library? path <;> rfl
  | schedule owner path l =>
    simp only [perform, callInit, call_steps, Progress.note_steps, List.append_assoc]
    rfl
  | check owner path l method =>
    simp only [perform, consider, steps]
    cases p.zone.authorize l method s.pools.input with
    | allow => simp only [call_steps, Progress.note_steps, List.append_assoc]; rfl
    | deny missing => rfl

theorem perform_events (p : Pass) (s : Progress) (a : Act) :
    (p.perform s a).events = s.events ++ p.calls ⟨a, s⟩ := by
  cases a with
  | enter owner =>
    simp only [perform, bootstrap, calls]
    rcases p.catalog.runHook? owner s.events with _ | ⟨_ | _⟩ | _ <;> simp
  | look owner path => simp [perform, calls, called?]
  | schedule owner path l => simp [perform, callInit, calls, called?, call_events]
  | check owner path l method =>
    simp only [perform, consider, calls, called?]
    cases p.zone.authorize l method s.pools.input with
    | allow => simp [call_events]
    | deny missing => simp

theorem perform_input (p : Pass) (s : Progress) (a : Act) :
    (p.perform s a).pools.input = s.pools.input.write (p.writes ⟨a, s⟩) := by
  cases a with
  | enter owner =>
    simp only [perform, bootstrap_pools, writes, called?]
    rfl
  | look owner path => rfl
  | schedule owner path l =>
    simp only [perform, callInit, call_pools, Pools.call_input]
    rfl
  | check owner path l method =>
    simp only [perform, consider, writes, called?]
    cases p.zone.authorize l method s.pools.input with
    | allow => simp [call_pools, Pools.call_input]
    | deny missing => rfl

/-! ## What all moments add together -/

theorem foldl_steps (p : Pass) (as : List Act) (s : Progress) :
    (as.foldl p.perform s).trace.steps = s.trace.steps ++ (p.trail as s).flatMap p.steps := by
  induction as generalizing s with
  | nil => simp [trail]
  | cons a as ih =>
    rw [List.foldl_cons, ih, perform_steps, trail, List.flatMap_cons, List.append_assoc]

theorem foldl_events (p : Pass) (as : List Act) (s : Progress) :
    (as.foldl p.perform s).events = s.events ++ (p.trail as s).flatMap p.calls := by
  induction as generalizing s with
  | nil => simp [trail]
  | cons a as ih =>
    rw [List.foldl_cons, ih, perform_events, trail, List.flatMap_cons, List.append_assoc]

theorem foldl_input (p : Pass) (as : List Act) (s : Progress) :
    (as.foldl p.perform s).pools.input =
      s.pools.input.write ((p.trail as s).flatMap p.writes) := by
  induction as generalizing s with
  | nil => rfl
  | cons a as ih =>
    rw [List.foldl_cons, ih, perform_input, trail, List.flatMap_cons, Input.write_append]

/-- A moment stands where the work before it has led. -/
theorem trail_split {p : Pass} {as : List Act} {s : Progress} {front back : List Moment}
    {m : Moment} (h : p.trail as s = front ++ m :: back) :
    ∃ as₁ as₂, as = as₁ ++ m.act :: as₂ ∧ front = p.trail as₁ s ∧
      m.before = as₁.foldl p.perform s := by
  induction as generalizing s front with
  | nil => simp [trail] at h
  | cons a as ih =>
    cases front with
    | nil =>
      rw [trail, List.nil_append] at h
      obtain ⟨rfl, -⟩ := List.cons.inj h
      exact ⟨[], as, rfl, rfl, rfl⟩
    | cons x front =>
      rw [trail, List.cons_append] at h
      obtain ⟨rfl, htail⟩ := List.cons.inj h
      obtain ⟨as₁, as₂, rfl, rfl, hm⟩ := ih htail
      exact ⟨a :: as₁, as₂, rfl, rfl, hm⟩

/-- The input at a moment is what the moments before it have routed into the first. -/
theorem input_at {p : Pass} {as : List Act} {s : Progress} {front back : List Moment}
    {m : Moment} (h : p.trail as s = front ++ m :: back) :
    m.before.pools.input = s.pools.input.write (front.flatMap p.writes) := by
  obtain ⟨as₁, as₂, -, rfl, hm⟩ := trail_split h
  rw [hm, foldl_input]

theorem run_steps (p : Pass) (s : Progress) :
    (p.run s).trace.steps = s.trace.steps ++ (p.moments s).flatMap p.steps := by
  rw [run_eq_foldl, foldl_steps]
  rfl

theorem run_events (p : Pass) (s : Progress) :
    (p.run s).events = s.events ++ (p.moments s).flatMap p.calls := by
  rw [run_eq_foldl, foldl_events]
  rfl

/-! ## Hooks and the agenda -/

/-- Of `entries`, those that a pass comes to if its modules stand as `found` says: all
of them, or all up to the first in whose hook the pass breaks off. -/
def visited (found : String → Readiness) :
    List (String × List String) → List (String × List String)
  | [] => []
  | e :: es => e :: if found e.1 = .broken then [] else visited found es

/-- The work on `entries` if their modules stand as `found` says. -/
def agendaOf (p : Pass) (entries : List (String × List String)) (found : String → Readiness) :
    List Act :=
  entries.flatMap fun e => p.moduleActs e (found e.1).isReady

theorem prefix_of_visited (found : String → Readiness) (entries : List (String × List String)) :
    visited found entries <+: entries := by
  induction entries with
  | nil => exact List.prefix_rfl
  | cons e es ih =>
    rw [visited, List.prefix_cons_inj]
    split
    · exact List.nil_prefix
    · exact ih

/-- A pass that breaks off in none of the modules it comes to comes to all of them. -/
theorem visited_eq_self {found : String → Readiness} {entries : List (String × List String)}
    (h : ∀ e ∈ visited found entries, found e.1 ≠ .broken) : visited found entries = entries := by
  induction entries with
  | nil => rfl
  | cons e es ih =>
    rw [visited] at h ⊢
    have he : found e.1 ≠ .broken := h e List.mem_cons_self
    rw [if_neg he] at h ⊢
    rw [ih fun e' he' => h e' (List.mem_cons_of_mem _ he')]

/-- Which modules a pass comes to hangs on those modules only. -/
theorem visited_congr {found found' : String → Readiness} {entries : List (String × List String)}
    (h : ∀ e ∈ visited found entries, e ∈ visited found' entries → found e.1 = found' e.1) :
    visited found entries = visited found' entries := by
  induction entries with
  | nil => rfl
  | cons e es ih =>
    have he : found e.1 = found' e.1 := h e List.mem_cons_self List.mem_cons_self
    rw [visited, visited] at h ⊢
    rw [he] at h ⊢
    split
    · rfl
    · next hb =>
      rw [if_neg hb, if_neg hb] at h
      rw [ih fun e' h₁ h₂ => h e' (List.mem_cons_of_mem _ h₁) (List.mem_cons_of_mem _ h₂)]

theorem agendaOf_congr {p : Pass} {entries : List (String × List String)}
    {found found' : String → Readiness} (h : ∀ e ∈ entries, found e.1 = found' e.1) :
    p.agendaOf entries found = p.agendaOf entries found' :=
  List.flatMap_congr fun e he => by rw [h e he]

/-- A module is entered once in the work on it, at its start. -/
theorem trail_moduleActs_enter {p : Pass} {entry : String × List String} {ready : Bool}
    {s : Progress} {owner : String} {t : Progress}
    (h : ⟨.enter owner, t⟩ ∈ p.trail (p.moduleActs entry ready) s) :
    owner = entry.1 ∧ t = s := by
  rw [moduleActs, trail, List.mem_cons] at h
  rcases h with h | h
  · cases h
    exact ⟨rfl, rfl⟩
  · have hm := (mem_iff_exists_moment p _ _ _).mpr ⟨t, h⟩
    cases ready with
    | false => cases hm
    | true =>
      obtain ⟨path, -, hp⟩ := List.mem_flatMap.mp hm
      exact absurd hp (enter_not_mem_libraryActs p _ _ _)

theorem exists_found (p : Pass) (entries : List (String × List String)) (s : Progress)
    (hn : (entries.map Prod.fst).Nodup) :
    ∃ found : String → Readiness,
      p.agendaFrom entries s = p.agendaOf (visited found entries) found ∧
        ∀ owner t, ⟨.enter owner, t⟩ ∈ p.trail (p.agendaFrom entries s) s →
          found owner = p.readiness owner t.events := by
  induction entries generalizing s with
  | nil => exact ⟨fun _ => .ready, rfl, fun owner t h => nomatch h⟩
  | cons e es ih =>
    obtain ⟨he, hes⟩ := List.nodup_cons.mp hn
    obtain ⟨found, hacts, hfound⟩ :=
      ih ((p.moduleActs e (p.opens e.1 s.events)).foldl p.perform s) hes
    -- the names are distinct, so the first module may be decided apart from the rest
    obtain ⟨found', hfirst, hrest⟩ : ∃ found' : String → Readiness,
        found' e.1 = p.readiness e.1 s.events ∧ ∀ o, o ≠ e.1 → found' o = found o :=
      ⟨fun o => if o = e.1 then p.readiness e.1 s.events else found o, if_pos rfl,
        fun o ho => if_neg ho⟩
    have hsame : ∀ e' ∈ es, found e'.1 = found' e'.1 := by
      intro e' he'
      refine (hrest _ fun heq => ?_).symm
      exact he (heq ▸ List.mem_map_of_mem he')
    have hvisited : visited found es = visited found' es :=
      visited_congr fun e' he' _ => hsame e' ((prefix_of_visited _ _).subset he')
    refine ⟨found', ?_, ?_⟩
    · rw [agendaFrom, visited, agendaOf, List.flatMap_cons, hfirst, hacts, hvisited]
      split
      · rfl
      · rw [agendaOf_congr fun e' he' => hsame e' ((prefix_of_visited _ _).subset he')]
        rfl
    · intro owner t h
      rw [agendaFrom, trail_append, List.mem_append] at h
      rcases h with h | h
      · obtain ⟨rfl, rfl⟩ := trail_moduleActs_enter h
        exact hfirst
      · split at h
        · cases h
        · have hm := (mem_iff_exists_moment p _ _ _).mpr ⟨t, h⟩
          rw [hacts] at hm
          obtain ⟨e', he', hm⟩ := List.mem_flatMap.mp hm
          rcases mem_moduleActs.mp hm with hm | ⟨-, path, -, hm⟩
          · cases hm
            rw [← hsame e' ((prefix_of_visited _ _).subset he')]
            exact hfound e'.1 t h
          · exact absurd hm (enter_not_mem_libraryActs p _ _ _)

/-- The agenda is settled by how the hooks end, each at the moment when it is run. -/
theorem exists_agenda_eq {p : Pass} {s : Progress} (hi : p.isIdle s = false) :
    ∃ found : String → Readiness,
      p.agenda s = p.agendaOf (visited found p.directives.modules.toList) found ∧
        ∀ owner t, ⟨.enter owner, t⟩ ∈ p.moments s → found owner = p.readiness owner t.events := by
  obtain ⟨found, hacts, hfound⟩ :=
    p.exists_found p.directives.modules.toList s p.directives.modules.table.nodup
  have ha : p.agenda s = p.agendaFrom p.directives.modules.toList s := by
    rw [agenda, hi]
    rfl
  refine ⟨found, ha.trans hacts, ?_⟩
  rw [moments, ha]
  exact hfound

/-- The modules that a pass comes to are entered, and no others. -/
theorem exists_enter_iff {p : Pass} {s : Progress} {entries : List (String × List String)}
    {found : String → Readiness} (h : p.agenda s = p.agendaOf entries found) (owner : String) :
    (∃ t, ⟨.enter owner, t⟩ ∈ p.moments s) ↔ ∃ e ∈ entries, e.1 = owner := by
  rw [moments, ← mem_iff_exists_moment, h, agendaOf, List.mem_flatMap]
  refine exists_congr fun e => and_congr_right fun _ => ?_
  rw [mem_moduleActs]
  constructor
  · rintro (hm | ⟨-, path, -, hm⟩)
    · exact (Act.enter.inj hm).symm
    · exact absurd hm (enter_not_mem_libraryActs p _ _ _)
  · rintro rfl
    exact .inl rfl

/-! ## Passes that break off -/

theorem isOk_foldlM_runModule (p : Pass) (entries : List (String × List String)) (s : Progress) :
    (entries.foldlM p.runModule s).isOk = true ↔
      ∀ owner t, ⟨.enter owner, t⟩ ∈ p.trail (p.agendaFrom entries s) s →
        p.readiness owner t.events ≠ .broken := by
  induction entries generalizing s with
  | nil => exact ⟨fun _ _ _ h => absurd h List.not_mem_nil, fun _ => rfl⟩
  | cons e es ih =>
    have hhere : ⟨.enter e.1, s⟩ ∈ p.trail (p.moduleActs e (p.opens e.1 s.events)) s :=
      List.mem_cons_self
    rw [List.foldlM_cons, runModule_eq_ite, agendaFrom, trail_append]
    by_cases hb : p.readiness e.1 s.events = .broken
    · rw [if_pos hb]
      refine ⟨fun hok => absurd hok Bool.false_ne_true, fun h => ?_⟩
      exact absurd hb (h _ _ (List.mem_append_left _ hhere))
    · rw [if_neg hb, if_neg hb]
      refine (ih _).trans ⟨fun h owner t ht => ?_, fun h owner t ht => ?_⟩
      · rcases List.mem_append.mp ht with ht | ht
        · obtain ⟨rfl, rfl⟩ := trail_moduleActs_enter ht
          exact hb
        · exact h owner t ht
      · exact h owner t (List.mem_append_right _ ht)

/-- **When a pass ends.** It comes to its end just if no hook that it runs breaks off. -/
theorem ends_iff (p : Pass) (s : Progress) :
    p.ends s = true ↔
      ∀ owner t, ⟨.enter owner, t⟩ ∈ p.moments s → p.readiness owner t.events ≠ .broken := by
  unfold ends attempt moments agenda
  split
  · exact ⟨fun _ _ _ h => absurd h List.not_mem_nil, fun _ => rfl⟩
  · exact isOk_foldlM_runModule p _ s

theorem ends_iff_of_agenda {p : Pass} {s : Progress} {entries : List (String × List String)}
    {found : String → Readiness} (hacts : p.agenda s = p.agendaOf entries found)
    (hfound : ∀ owner t, ⟨.enter owner, t⟩ ∈ p.moments s →
      found owner = p.readiness owner t.events) :
    p.ends s = true ↔ ∀ e ∈ entries, found e.1 ≠ .broken := by
  rw [ends_iff]
  constructor
  · intro hnone e he
    obtain ⟨t, ht⟩ := (exists_enter_iff hacts e.1).mpr ⟨e, he, rfl⟩
    rw [hfound _ t ht]
    exact hnone _ t ht
  · intro hnone owner t ht
    obtain ⟨e, he, rfl⟩ := (exists_enter_iff hacts owner).mp ⟨t, ht⟩
    rw [← hfound _ t ht]
    exact hnone e he

/-- A pass that ends comes to every module. -/
theorem exists_agenda_eq_of_ends {p : Pass} {s : Progress} (hi : p.isIdle s = false)
    (hends : p.ends s = true) :
    ∃ found : String → Readiness,
      p.agenda s = p.agendaOf p.directives.modules.toList found ∧
        ∀ owner t, ⟨.enter owner, t⟩ ∈ p.moments s → found owner = p.readiness owner t.events := by
  obtain ⟨found, hacts, hfound⟩ := exists_agenda_eq hi
  have hall := visited_eq_self ((ends_iff_of_agenda hacts hfound).mp hends)
  rw [hall] at hacts
  exact ⟨found, hacts, hfound⟩

/-! ## The part of a run that belongs to one library -/

/-- The moments of the work on a path, begun at `t`. -/
def block (p : Pass) (owner path : String) (t : Progress) : List Moment :=
  p.trail (p.libraryActs owner path) t

theorem infix_flatMap {α β : Type} (f : α → List β) {a : α} {as : List α} (h : a ∈ as) :
    f a <:+: as.flatMap f := by
  rw [List.flatMap_def]
  exact List.infix_of_mem_flatten (List.mem_map_of_mem h)

theorem trail_infix {p : Pass} {as bs : List Act} (h : bs <:+: as) (s : Progress) :
    ∃ t, p.trail bs t <:+: p.trail as s := by
  obtain ⟨front, back, rfl⟩ := h
  refine ⟨front.foldl p.perform s, p.trail front s,
    p.trail back ((front ++ bs).foldl p.perform s), ?_⟩
  rw [trail_append, trail_append, List.append_assoc]

/-- Work that is not repeated has one moment. -/
theorem moment_unique {p : Pass} {as : List Act} {s : Progress} {m m' : Moment}
    (hn : as.Nodup) (hm : m ∈ p.trail as s) (hm' : m' ∈ p.trail as s) (h : m.act = m'.act) :
    m = m' := by
  rw [← map_act_trail p as s] at hn
  exact List.inj_on_of_nodup_map hn hm hm' h

/-- Each library asked for in a module that is ready has its part of the run. -/
theorem exists_block {p : Pass} {s t : Progress} {owner path : String} {paths : List String}
    (he : (owner, paths) ∈ p.directives.modules.toList) (hp : path ∈ paths)
    (ht : ⟨.enter owner, t⟩ ∈ p.moments s) (ho : p.opens owner t.events = true) :
    ∃ u, p.block owner path u <:+: p.moments s := by
  have hi : p.isIdle s = false := by
    cases hi : p.isIdle s with
    | false => rfl
    | true =>
      rw [moments, agenda, hi] at ht
      cases ht
  obtain ⟨found, hacts, hfound⟩ := exists_agenda_eq hi
  have hvisited : (owner, paths) ∈ visited found p.directives.modules.toList := by
    obtain ⟨e, hv, howner⟩ := (exists_enter_iff hacts owner).mp ⟨t, ht⟩
    have hmem := (prefix_of_visited _ _).subset hv
    rw [← List.inj_on_of_nodup_map p.directives.modules.table.nodup hmem he howner]
    exact hv
  have hinfix : p.libraryActs owner path <:+: p.agenda s := by
    have hmodule : p.moduleActs (owner, paths) (found owner).isReady <:+:
        p.agendaOf (visited found p.directives.modules.toList) found :=
      infix_flatMap (fun e : String × List String => p.moduleActs e (found e.1).isReady) hvisited
    have hpath : p.libraryActs owner path <:+: p.moduleActs (owner, paths) true :=
      (infix_flatMap (p.libraryActs owner) hp).trans (List.suffix_cons _ _).isInfix
    have hready : (found owner).isReady = true := by
      rw [hfound owner t ht]
      exact ho
    rw [hready] at hmodule
    rw [hacts]
    exact hpath.trans hmodule
  exact trail_infix hinfix s

/-! ## Several runs -/

/-- The pass after `n` runs. -/
def runs (p : Pass) : Nat → Progress → Progress
  | 0, s => s
  | n + 1, s => p.runs n (p.run s)

/-- The work of `n` runs. -/
def agendaOver (p : Pass) : Nat → Progress → List Act
  | 0, _ => []
  | n + 1, s => p.agenda s ++ p.agendaOver n (p.run s)

/-- The moments of `n` runs. -/
def momentsOver (p : Pass) (n : Nat) (s : Progress) : List Moment := p.trail (p.agendaOver n s) s

theorem runs_eq_foldl (p : Pass) (n : Nat) (s : Progress) :
    p.runs n s = (p.agendaOver n s).foldl p.perform s := by
  induction n generalizing s with
  | zero => rfl
  | succ n ih => rw [runs, ih, agendaOver, List.foldl_append, ← run_eq_foldl]

theorem momentsOver_succ (p : Pass) (n : Nat) (s : Progress) :
    p.momentsOver (n + 1) s = p.moments s ++ p.momentsOver n (p.run s) := by
  rw [momentsOver, agendaOver, trail_append, ← run_eq_foldl]
  rfl

theorem runs_steps (p : Pass) (n : Nat) (s : Progress) :
    (p.runs n s).trace.steps = s.trace.steps ++ (p.momentsOver n s).flatMap p.steps := by
  rw [runs_eq_foldl, foldl_steps]
  rfl

theorem runs_events (p : Pass) (n : Nat) (s : Progress) :
    (p.runs n s).events = s.events ++ (p.momentsOver n s).flatMap p.calls := by
  rw [runs_eq_foldl, foldl_events]
  rfl

theorem planned_of_mem_momentsOver {p : Pass} {n : Nat} {s : Progress} {m : Moment}
    (h : m ∈ p.momentsOver n s) : p.Planned m.act := by
  induction n generalizing s with
  | zero => cases h
  | succ n ih =>
    rw [momentsOver_succ, List.mem_append] at h
    rcases h with h | h
    · exact planned_of_mem_moments h
    · exact ih h

/-- The moments of each run are a part of those of all runs. -/
theorem moments_infix (p : Pass) {k n : Nat} (h : k < n) (s : Progress) :
    p.moments (p.runs k s) <:+: p.momentsOver n s := by
  induction k generalizing n s with
  | zero =>
    obtain ⟨n, rfl⟩ := Nat.exists_eq_add_one.mpr h
    rw [momentsOver_succ]
    exact (List.prefix_append _ _).isInfix
  | succ k ih =>
    obtain ⟨n, rfl⟩ := Nat.exists_eq_add_one.mpr (Nat.zero_lt_of_lt h)
    rw [momentsOver_succ]
    exact (ih (Nat.lt_of_succ_lt_succ h) (p.run s)).trans (List.suffix_append _ _).isInfix

/-- Each call that several runs of a new pass have logged was made at one of their
moments. -/
theorem exists_moment_of_call {p : Pass} {n : Nat} {s : Progress} {path method : String}
    (hs : s.events = []) (h : (path, method) ∈ (p.runs n s).events.filterMap Event.call?) :
    ∃ front m back input, p.momentsOver n s = front ++ m :: back ∧
      .invoked path method input ∈ p.calls m := by
  rw [runs_events, hs, List.nil_append] at h
  obtain ⟨e, he, hcall⟩ := List.mem_filterMap.mp h
  obtain ⟨input, rfl⟩ := Event.call?_eq_some.mp hcall
  obtain ⟨m, hm, hmcall⟩ := List.mem_flatMap.mp he
  obtain ⟨front, back, hsplit⟩ := List.append_of_mem hm
  exact ⟨front, m, back, input, hsplit, hmcall⟩

end Pass

end Switchboard
