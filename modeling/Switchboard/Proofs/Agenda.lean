import Mathlib.Data.List.Nodup
import Switchboard.Pass
import Switchboard.Proofs.Plan

/-!
A pass as one list of work. The nested loops over modules, libraries and
candidates come to the same as going once through a list, the agenda, that names
every hook, look-up, call ahead and check in the order in which they are done
(`run_eq_foldl`). What stands on the agenda hangs on the catalog, the zone and the
directives, and of all that happens during the pass only on how its hooks end
(`exists_agenda_eq`): no answer of a method puts anything on it or takes anything
off it.
-/

namespace Switchboard

/-- One piece of work of a pass. -/
inductive Act where
  /-- Make a module ready, if it has a hook. -/
  | enter (owner : String)
  /-- Look up a library. -/
  | look (owner path : String)
  /-- Call `init` ahead of the candidates. -/
  | schedule (owner path : String) (l : Library)
  /-- Check a candidate, and call it if it is allowed. -/
  | check (owner path : String) (l : Library) (method : String)

namespace Pass

/-! ## What is to be done -/

/-- The work on a library that was found. -/
def planActs (p : Pass) (owner path : String) (l : Library) : List Act :=
  let plan := p.zone.plan l p.directives.methods
  (if plan.initFirst then [.schedule owner path l] else []) ++
    plan.candidates.map (.check owner path l)

/-- The work on a path: a look-up, and the plan of the library it finds. -/
def libraryActs (p : Pass) (owner path : String) : List Act :=
  .look owner path ::
    match p.catalog.library? path with
    | none => []
    | some l => p.planActs owner path l

/-- How a module stands if its hook is run after `past`. -/
def readiness (p : Pass) (owner : String) (past : History) : Readiness :=
  match p.catalog.runHook? owner past with
  | none => .ready
  | some (.result (.ok ())) => .ready
  | some (.result (.error _)) => .leftOut
  | some .panic => .broken

/-- Whether the hook of a module, run after `past`, leaves its libraries to run. -/
def opens (p : Pass) (owner : String) (past : History) : Bool :=
  (p.readiness owner past).isReady

/-- The work on a module and, if it is `ready`, on its libraries in order. -/
def moduleActs (p : Pass) (entry : String × List String) (ready : Bool) : List Act :=
  .enter entry.1 :: if ready then entry.2.flatMap (p.libraryActs entry.1) else []

/-! ## Doing it -/

/-- What one piece of work does. -/
def perform (p : Pass) (s : Progress) : Act → Progress
  | .enter owner => (p.bootstrap owner s).2
  | .look owner path =>
    s.note (.ofLibrary owner path (if (p.catalog.library? path).isSome then .found else .unknown))
  | .schedule owner path l => p.callInit owner path l s
  | .check owner path l method => p.consider owner path l s method

/-- The work on `entries`, begun at `s`; each hook is judged when its turn comes, and the
work ends with a hook that breaks off. -/
def agendaFrom (p : Pass) : List (String × List String) → Progress → List Act
  | [], _ => []
  | e :: es, s =>
    let acts := p.moduleActs e (p.opens e.1 s.events)
    acts ++ if p.readiness e.1 s.events = .broken then []
      else p.agendaFrom es (acts.foldl p.perform s)

/-- All the work of a pass begun at `s`. -/
def agenda (p : Pass) (s : Progress) : List Act :=
  if p.isIdle s then [] else p.agendaFrom p.directives.modules.toList s

/-! ## The loops as one -/

theorem foldl_checks (p : Pass) (owner path : String) (l : Library) (ms : List String)
    (s : Progress) :
    (ms.map (Act.check owner path l)).foldl p.perform s = ms.foldl (p.consider owner path l) s := by
  rw [List.foldl_map]
  rfl

theorem runPlan_eq_foldl (p : Pass) (owner path : String) (l : Library) (s : Progress) :
    p.runPlan owner path l s = (p.planActs owner path l).foldl p.perform s := by
  dsimp only [runPlan, planActs]
  rw [List.foldl_append, foldl_checks]
  cases (p.zone.plan l p.directives.methods).initFirst <;> rfl

theorem runLibrary_eq_foldl (p : Pass) (owner path : String) (s : Progress) :
    p.runLibrary owner s path = (p.libraryActs owner path).foldl p.perform s := by
  unfold runLibrary libraryActs
  cases h : p.catalog.library? path with
  | none => simp [perform, h]
  | some l => simp [perform, h, runPlan_eq_foldl]

theorem foldl_runLibrary (p : Pass) (owner : String) (paths : List String) (s : Progress) :
    paths.foldl (p.runLibrary owner) s =
      (paths.flatMap (p.libraryActs owner)).foldl p.perform s := by
  induction paths generalizing s with
  | nil => rfl
  | cons path paths ih =>
    rw [List.foldl_cons, ih, runLibrary_eq_foldl, List.flatMap_cons, List.foldl_append]

theorem bootstrap_fst (p : Pass) (owner : String) (s : Progress) :
    (p.bootstrap owner s).1 = p.readiness owner s.events := by
  unfold bootstrap readiness
  rcases p.catalog.runHook? owner s.events with _ | ⟨_ | _⟩ | _ <;> rfl

/-- A module is run to the end of the work on it, unless the pass breaks off there. -/
theorem runModule_eq_ite (p : Pass) (entry : String × List String) (s : Progress) :
    p.runModule s entry =
      if p.readiness entry.1 s.events = .broken then
        .error ((p.moduleActs entry (p.opens entry.1 s.events)).foldl p.perform s)
      else .ok ((p.moduleActs entry (p.opens entry.1 s.events)).foldl p.perform s) := by
  have hb : p.bootstrap entry.1 s =
      (p.readiness entry.1 s.events, p.perform s (.enter entry.1)) := by
    rw [← bootstrap_fst]
    rfl
  unfold runModule moduleActs opens
  rw [hb]
  cases p.readiness entry.1 s.events with
  | ready => simp [Readiness.isReady, foldl_runLibrary]
  | leftOut => rfl
  | broken => rfl

theorem upshot_runModule (p : Pass) (entry : String × List String) (s : Progress) :
    upshot (p.runModule s entry) =
      (p.moduleActs entry (p.opens entry.1 s.events)).foldl p.perform s := by
  rw [runModule_eq_ite]
  split <;> rfl

theorem upshot_foldlM (p : Pass) (entries : List (String × List String)) (s : Progress) :
    upshot (entries.foldlM p.runModule s) = (p.agendaFrom entries s).foldl p.perform s := by
  induction entries generalizing s with
  | nil => rfl
  | cons e es ih =>
    rw [List.foldlM_cons, runModule_eq_ite, agendaFrom, List.foldl_append]
    split
    · rfl
    · exact ih _

/-- A run goes once through its agenda. -/
theorem run_eq_foldl (p : Pass) (s : Progress) : p.run s = (p.agenda s).foldl p.perform s := by
  unfold run attempt agenda
  split
  · rfl
  · exact upshot_foldlM p _ s

/-! ## Which work there is -/

theorem mem_planActs {p : Pass} {owner path : String} {l : Library} {a : Act} :
    a ∈ p.planActs owner path l ↔
      (p.zone.plan l p.directives.methods).initFirst = true ∧ a = .schedule owner path l ∨
        ∃ m ∈ p.zone.candidates l p.directives.methods, a = .check owner path l m := by
  dsimp only [planActs]
  rw [List.mem_append, List.mem_map]
  refine or_congr ?_ ⟨fun ⟨m, hm, h⟩ => ⟨m, hm, h.symm⟩, fun ⟨m, hm, h⟩ => ⟨m, hm, h.symm⟩⟩
  cases (p.zone.plan l p.directives.methods).initFirst <;> simp

theorem mem_libraryActs {p : Pass} {owner path : String} {a : Act} :
    a ∈ p.libraryActs owner path ↔
      a = .look owner path ∨
        ∃ l, p.catalog.library? path = some l ∧ a ∈ p.planActs owner path l := by
  unfold libraryActs
  rw [List.mem_cons]
  cases p.catalog.library? path <;> simp

theorem check_mem_libraryActs {p : Pass} {owner owner' path method : String} {l l' : Library}
    (hl : p.catalog.library? path = some l)
    (h : Act.check owner' path l' method ∈ p.libraryActs owner path) : owner' = owner ∧ l' = l := by
  rcases mem_libraryActs.mp h with h | ⟨l'', hl'', h⟩
  · cases h
  · rw [hl] at hl''
    cases hl''
    rcases mem_planActs.mp h with ⟨-, h⟩ | ⟨m, -, h⟩
    · cases h
    · cases h
      exact ⟨rfl, rfl⟩

/-- Only the work on a module enters it. -/
theorem enter_not_mem_libraryActs (p : Pass) (owner owner' path : String) :
    Act.enter owner' ∉ p.libraryActs owner path := by
  intro h
  rcases mem_libraryActs.mp h with h | ⟨l, -, h⟩
  · cases h
  · rcases mem_planActs.mp h with ⟨-, h⟩ | ⟨m, -, h⟩ <;> cases h

theorem mem_moduleActs {p : Pass} {entry : String × List String} {ready : Bool} {a : Act} :
    a ∈ p.moduleActs entry ready ↔
      a = .enter entry.1 ∨
        ready = true ∧ ∃ path ∈ entry.2, a ∈ p.libraryActs entry.1 path := by
  unfold moduleActs
  rw [List.mem_cons]
  cases ready <;> simp [List.mem_flatMap]

/-- Work on a library is there for a reason: its path finds it, and its plan says so. -/
def Planned (p : Pass) : Act → Prop
  | .enter _ => True
  | .look _ _ => True
  | .schedule _ path l =>
    p.catalog.library? path = some l ∧ (p.zone.plan l p.directives.methods).initFirst = true
  | .check _ path l method =>
    p.catalog.library? path = some l ∧ method ∈ p.zone.candidates l p.directives.methods

theorem planned_of_mem_libraryActs {p : Pass} {owner path : String} {a : Act}
    (h : a ∈ p.libraryActs owner path) : p.Planned a := by
  rcases mem_libraryActs.mp h with rfl | ⟨l, hl, h⟩
  · trivial
  · rcases mem_planActs.mp h with ⟨hi, rfl⟩ | ⟨m, hm, rfl⟩
    · exact ⟨hl, hi⟩
    · exact ⟨hl, hm⟩

theorem planned_of_mem_agendaFrom {p : Pass} {entries : List (String × List String)}
    {s : Progress} {a : Act} (h : a ∈ p.agendaFrom entries s) : p.Planned a := by
  induction entries generalizing s with
  | nil => cases h
  | cons e es ih =>
    rcases List.mem_append.mp h with h | h
    · rcases mem_moduleActs.mp h with rfl | ⟨-, path, -, h⟩
      · trivial
      · exact planned_of_mem_libraryActs h
    · split at h
      · cases h
      · exact ih h

theorem planned_of_mem_agenda {p : Pass} {s : Progress} {a : Act} (h : a ∈ p.agenda s) :
    p.Planned a := by
  unfold agenda at h
  split at h
  · cases h
  · exact planned_of_mem_agendaFrom h

/-- The work on a library repeats nothing, since no candidate is named twice. -/
theorem nodup_libraryActs (p : Pass) (owner path : String) : (p.libraryActs owner path).Nodup := by
  unfold libraryActs
  cases p.catalog.library? path with
  | none => simp
  | some l =>
    have hchecks : ((p.zone.candidates l p.directives.methods).map
        (Act.check owner path l)).Nodup :=
      (SafeZone.nodup_candidates _ l _).map fun _ _ h => (Act.check.inj h).2.2.2
    refine List.nodup_cons.mpr ⟨fun h => ?_, ?_⟩
    · rcases mem_planActs.mp h with ⟨-, h⟩ | ⟨m, -, h⟩ <;> cases h
    · dsimp only [planActs]
      split
      · refine List.nodup_cons.mpr ⟨fun h => ?_, hchecks⟩
        obtain ⟨m, -, hm⟩ := List.mem_map.mp h
        cases hm
      · exact hchecks

end Pass

end Switchboard
