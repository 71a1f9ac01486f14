import Switchboard.Proofs.Once
import Switchboard.Proofs.Replay
import Switchboard.Proofs.SideBySide

/-!
The safe zone, turned off. A pass that names methods runs no less without the zone than
with it: what a plan has a place for under the zone it has a place for without it, and
without it nothing that is planned is denied. So a call that is made with the zone on is
made with the zone off, although the two runs soon differ in all they hold. If the
contracts ask for nothing, the zone decides nothing, and the two runs are one. A pass that
names no method does nothing without the zone (`zone_off_runs_what_is_named`).
-/

namespace Switchboard

namespace SafeZone

/-! ## What the zone holds back -/

/-- A library of the same methods has a place in its plan, while the zone is off, for
whatever the other has a place for. -/
theorem Plans.disabled {z z' : SafeZone} {l l' : Library} {requested : MethodList} {m : String}
    (h : z.Plans l requested m) (hface : l.SameFace l') (hz : z'.enabled = false)
    (hr : requested.isEmpty = false) : z'.Plans l' requested m := by
  refine plans_of_disabled hz hr ?_ (h.asked hr)
  rw [← hface.declares]
  exact h.declares

end SafeZone

/-- There is a contract, and it lists each declared method and requires nothing for it. -/
def Library.AsksNothing (l : Library) : Prop :=
  ∃ c, l.contract = some c ∧ ∀ m, l.declares m = true → c.required? m = some .empty

namespace Library.AsksNothing

variable {l : Library} {requested : MethodList} {m : String}

theorem authorize (h : l.AsksNothing) (z : SafeZone) (hd : l.declares m = true)
    (input : Input) : z.authorize l m input = .allow := by
  cases hz : z.enabled with
  | false => exact SafeZone.authorize_of_disabled hz l m input
  | true =>
    obtain ⟨c, hc, hfree⟩ := h
    refine (SafeZone.authorize_eq_allow_iff hz l m input).mpr ⟨c, .empty, hc, hfree m hd, ?_⟩
    intro k hk
    cases hk

/-- Where methods are asked for, the zone makes no difference to the plan. -/
theorem plan_eq (h : l.AsksNothing) (hr : requested.isEmpty = false) (z z' : SafeZone) :
    z.plan l requested = z'.plan l requested := by
  obtain ⟨c, hc, hfree⟩ := h
  have hlists : ∀ method, (c.lists method && l.declares method) = l.declares method := by
    intro method
    cases hd : l.declares method with
    | false => rw [Bool.and_false]
    | true => rw [Contract.lists, hfree method hd, Option.isSome_some, Bool.and_true]
  have hcandidates : ∀ z : SafeZone,
      z.candidates l requested = requested.toList.filter l.declares := by
    intro z
    unfold SafeZone.candidates
    split
    · rw [hc]
      simp only [hr, Bool.false_eq_true, ↓reduceIte, hlists]
    · rfl
  unfold SafeZone.plan
  rw [hcandidates, hcandidates, hr]
  simp only [Bool.not_false, Bool.or_true]

end Library.AsksNothing

namespace Pass

/-! ## No call is lost -/

/-- While the zone is off, what is planned is called. -/
theorem filterMap_calls_of_disabled {p : Pass} (hz : p.zone.enabled = false) {m : Moment}
    (hp : p.Planned m.act) : (p.calls m).filterMap Event.call? = m.act.call?.toList := by
  obtain ⟨a, s⟩ := m
  cases a with
  | enter owner => exact calls_of_not_called rfl
  | look owner path => rfl
  | schedule owner path l =>
    have hd : l.declares Library.initMethod = true := SafeZone.declares_of_initFirst hp.2
    have hcalled : p.called? ⟨.schedule owner path l, s⟩ = some (path, l, Library.initMethod) :=
      rfl
    rw [calls_of_called hcalled, Library.runs, if_pos hd]
    rfl
  | check owner path l method =>
    have hd : l.declares method = true := SafeZone.declares_of_mem_candidates hp.2
    rw [calls_of_allowed hd (SafeZone.authorize_of_disabled hz l method _)]
    rfl

theorem filterMap_trail_of_disabled {p : Pass} (hz : p.zone.enabled = false) {as : List Act}
    (h : ∀ a ∈ as, p.Planned a) (s : Progress) :
    ((p.trail as s).flatMap p.calls).filterMap Event.call? = as.filterMap Act.call? := by
  induction as generalizing s with
  | nil => rfl
  | cons a as ih =>
    have hhere : (p.calls ⟨a, s⟩).filterMap Event.call? = a.call?.toList :=
      filterMap_calls_of_disabled hz (h a List.mem_cons_self)
    have hrest := ih (fun b hb => h b (List.mem_cons_of_mem _ hb)) (p.perform s a)
    rw [trail, List.flatMap_cons, List.filterMap_append, hhere, hrest, List.filterMap_cons]
    cases a.call? <;> rfl

/-- While the zone is off, a run makes every call that its agenda allows for. -/
theorem made_of_disabled {p : Pass} (hz : p.zone.enabled = false) (input : Input) :
    p.made input = (p.agenda (.start input)).filterMap Act.call? := by
  rw [made_eq]
  exact filterMap_trail_of_disabled hz (fun a ha => planned_of_mem_agenda ha) _

theorem mem_filterMap_agendaOf {p : Pass} {entries : List (String × List String)}
    {found : String → Readiness} {c : String × String} :
    c ∈ (p.agendaOf entries found).filterMap Act.call? ↔
      ∃ e ∈ entries, (found e.1).isReady = true ∧ ∃ path ∈ e.2, c ∈ p.plannedCalls path := by
  unfold agendaOf
  simp only [List.filterMap_flatMap, filterMap_moduleActs, List.mem_flatMap]
  refine exists_congr fun e => and_congr_right fun _ => ?_
  cases (found e.1).isReady <;> simp [List.mem_flatMap]

/-- A pass that names methods calls all it calls with the zone on with the zone off too. -/
theorem mem_made_of_disabled {c c' : Catalog} {z z' : SafeZone} {d : Directives} {input : Input}
    (hz : z'.enabled = false) (hnamed : d.methods.isEmpty = false) (hfaces : c.SameFaces c')
    (hhooks : HooksAgree ⟨c, z, d⟩ (.start input) ⟨c', z', d⟩ (.start input))
    {call : String × String} (h : call ∈ made ⟨c, z, d⟩ input) :
    call ∈ made ⟨c', z', d⟩ input := by
  rw [made_eq] at h
  have hplanned := (filterMap_trail_sublist _ _ _).subset h
  have hidle : isIdle ⟨c, z, d⟩ (.start input) = false := by
    cases hi : isIdle ⟨c, z, d⟩ (.start input) with
    | false => rfl
    | true =>
      rw [agenda, hi] at hplanned
      cases hplanned
  -- both runs are idle only without modules, since methods are named
  have hidle' : isIdle ⟨c', z', d⟩ (.start input) = false := hidle
  obtain ⟨entries, found, hacts, hacts'⟩ := hhooks.exists_found rfl hidle hidle'
  rw [hacts] at hplanned
  obtain ⟨e, he, hready, path, hpath, hcall⟩ := mem_filterMap_agendaOf.mp hplanned
  obtain ⟨l, hl, howner, hplans⟩ := mem_plannedCalls.mp hcall
  obtain ⟨l', hl', hface⟩ := hfaces.exists_library hl
  rw [made_of_disabled hz, hacts']
  refine mem_filterMap_agendaOf.mpr ⟨e, he, hready, path, hpath, ?_⟩
  exact mem_plannedCalls.mpr ⟨l', hl', howner, hplans.disabled hface hz hnamed⟩

/-! ## Zones that decide alike -/

/-- Two zones make the same plans for the libraries of a catalog, and decide alike on all
that is planned. -/
structure ZonesAgree (c : Catalog) (requested : MethodList) (z z' : SafeZone) : Prop where
  plan : ∀ path l, c.library? path = some l → z.plan l requested = z'.plan l requested
  authorize : ∀ path l, c.library? path = some l → ∀ m ∈ z.candidates l requested,
    ∀ input, z.authorize l m input = z'.authorize l m input

section

variable {c : Catalog} {z z' : SafeZone} {d : Directives}

theorem ZonesAgree.runLibrary (h : ZonesAgree c d.methods z z') (owner path : String)
    (s : Progress) :
    Pass.runLibrary ⟨c, z, d⟩ owner s path = Pass.runLibrary ⟨c, z', d⟩ owner s path := by
  simp only [Pass.runLibrary]
  cases hl : c.library? path with
  | none => rfl
  | some l =>
    simp only [runPlan]
    rw [← h.plan path l hl]
    refine List.foldl_ext _ _ _ fun t m hm => ?_
    simp only [consider]
    rw [h.authorize path l hl m hm]
    rfl

theorem ZonesAgree.runModule (h : ZonesAgree c d.methods z z') (entry : String × List String)
    (s : Progress) :
    Pass.runModule ⟨c, z, d⟩ s entry = Pass.runModule ⟨c, z', d⟩ s entry := by
  have hboot : bootstrap ⟨c, z, d⟩ entry.1 s = bootstrap ⟨c, z', d⟩ entry.1 s := rfl
  unfold Pass.runModule
  rw [hboot]
  split
  · exact congrArg Except.ok (List.foldl_ext _ _ _ fun t path _ => h.runLibrary entry.1 path t)
  · rfl
  · rfl

/-- Zones that agree are as good as one. -/
theorem ZonesAgree.run (h : ZonesAgree c d.methods z z') (s : Progress) :
    Pass.run ⟨c, z, d⟩ s = Pass.run ⟨c, z', d⟩ s := by
  have hidle : isIdle ⟨c, z, d⟩ s = isIdle ⟨c, z', d⟩ s := rfl
  have hmodule : Pass.runModule ⟨c, z, d⟩ = Pass.runModule ⟨c, z', d⟩ :=
    funext fun t => funext fun entry => h.runModule entry t
  simp only [Pass.run, attempt, hidle, hmodule]

end

/-- If methods are named and the contracts ask for nothing, all zones agree. -/
theorem zonesAgree_of_asksNothing {c : Catalog} {requested : MethodList}
    (hnamed : requested.isEmpty = false)
    (hfree : ∀ path l, c.library? path = some l → l.AsksNothing) (z z' : SafeZone) :
    ZonesAgree c requested z z' where
  plan := fun path l hl => (hfree path l hl).plan_eq hnamed z z'
  authorize := by
    intro path l hl m hm input
    have hd : l.declares m = true := SafeZone.declares_of_mem_candidates hm
    rw [(hfree path l hl).authorize z hd, (hfree path l hl).authorize z' hd]

/-! ## Nothing named -/

/-- With the zone off and no method named, no piece of work calls anything. -/
theorem call?_eq_none_of_disabled {p : Pass} (hz : p.zone.enabled = false)
    (hnone : p.directives.methods.isEmpty = true) {s : Progress} {a : Act}
    (h : a ∈ p.agenda s) : a.call? = none := by
  have hplanned : p.directives.modules.paths.flatMap p.plannedCalls = [] := by
    refine List.flatMap_eq_nil_iff.mpr fun path _ => ?_
    refine List.eq_nil_iff_forall_not_mem.mpr fun c hc => ?_
    obtain ⟨l, -, -, hplans⟩ := mem_plannedCalls.mp hc
    exact SafeZone.not_plans_of_disabled hz hnone hplans
  have hsublist := p.filterMap_agenda_sublist s
  rw [hplanned] at hsublist
  exact List.filterMap_eq_nil_iff.mp (List.sublist_nil.mp hsublist) a h

theorem pools_run_of_disabled {p : Pass} (hz : p.zone.enabled = false)
    (hnone : p.directives.methods.isEmpty = true) (s : Progress) :
    (p.run s).pools = s.pools := by
  have hinvocations : (p.moments s).filterMap p.invocation? = [] := by
    refine List.filterMap_eq_nil_iff.mpr fun m hm => ?_
    have hcall : m.act.call? = none :=
      call?_eq_none_of_disabled hz hnone (act_mem_agenda hm)
    cases hcalled : p.called? m with
    | none => rw [invocation?, hcalled, Option.map_none]
    | some c =>
      rw [call?_of_called hcalled] at hcall
      cases hcall
  rw [run_eq_foldl, foldl_pools]
  unfold moments at hinvocations
  rw [hinvocations]
  rfl

/-! ## The zone, on and off -/

/-- **Without the zone, all that is named runs.** Where methods are named, every call of a
run with the zone on is made by the run with the zone off, whatever the methods answer in
either; and if the contracts ask for nothing, the two runs come to the same. Where none is
named, the run with the zone off calls nothing and leaves both pools as they were. -/
theorem zone_off_runs_what_is_named (c c' : Catalog) (d : Directives) (input : Input) :
    (d.methods.isEmpty = false → c.SameFaces c' →
      HooksAgree ⟨c, ⟨true⟩, d⟩ (.start input) ⟨c', ⟨false⟩, d⟩ (.start input) →
      ∀ path method, (path, method) ∈ made ⟨c, ⟨true⟩, d⟩ input →
        (path, method) ∈ made ⟨c', ⟨false⟩, d⟩ input) ∧
    (d.methods.isEmpty = false → (∀ path l, c.library? path = some l → l.AsksNothing) →
      run ⟨c, ⟨true⟩, d⟩ (.start input) = run ⟨c, ⟨false⟩, d⟩ (.start input)) ∧
    (d.methods.isEmpty = true →
      made ⟨c, ⟨false⟩, d⟩ input = [] ∧
        (run ⟨c, ⟨false⟩, d⟩ (.start input)).pools = ⟨input, .empty⟩) := by
  refine ⟨?_, ?_, ?_⟩
  · intro hnamed hfaces hhooks path method hmade
    exact mem_made_of_disabled rfl hnamed hfaces hhooks hmade
  · intro hnamed hfree
    exact (zonesAgree_of_asksNothing hnamed hfree ⟨true⟩ ⟨false⟩).run (.start input)
  · intro hnone
    refine ⟨?_, pools_run_of_disabled rfl hnone (.start input)⟩
    rw [made_of_disabled rfl, List.filterMap_eq_nil_iff]
    intro a ha
    exact call?_eq_none_of_disabled rfl hnone ha

/-! ## A method that the zone holds back -/

theorem holding_sameFaces {path : String} {l l' : Library} (h : Catalog.key? path = .ok path)
    (hface : l.SameFace l') : (holding path l h).SameFaces (holding path l' h) := by
  intro spelled
  by_cases hpath : Path.canonical spelled = path
  · rw [holding_library? l h hpath, holding_library? l' h hpath]
    exact .some hface
  · simp [Catalog.library?, holding, Table.get?, Entries.get?, Ne.symm hpath]

namespace Lifted

theorem key?_path : Catalog.key? "m\\l" = .ok "m\\l" := by decide +kernel

/-- The same face, and not one answer. -/
def mute : Library := { Sample.library with invoke := fun _ _ _ => .panic none }

/-- Its contract asks for nothing. -/
def free : Library := ⟨["run"], some (.ofList [("run", [])]), fun _ _ _ => .value (.bool true)⟩

theorem free_asksNothing (path : String) (l : Library)
    (h : (holding "m\\l" free key?_path).library? path = some l) : l.AsksNothing := by
  simp only [Catalog.library?, holding, Table.get?, Entries.get?] at h
  split at h
  · cases h
    refine ⟨_, rfl, fun m hm => ?_⟩
    have hrun : m = "run" := by simpa [Library.declares, free] using hm
    rw [hrun]
    rfl
  · cases h

def input : Input := .ofList [("seed", .bool true)]

end Lifted

/-- `locked`, which requires what is not there, runs with the zone off only. -/
theorem lifted_zone_runs_what_is_named :
    made ⟨holding "m\\l" Sample.library Lifted.key?_path, ⟨true⟩,
      .parse (some "m\\l,fetch,locked") none⟩ Lifted.input =
        [("m\\l", "init"), ("m\\l", "fetch")] ∧
    ("m\\l", "fetch") ∈ made ⟨holding "m\\l" Lifted.mute Lifted.key?_path, ⟨false⟩,
      .parse (some "m\\l,fetch,locked") none⟩ Lifted.input ∧
    ("m\\l", "locked") ∈ made ⟨holding "m\\l" Lifted.mute Lifted.key?_path, ⟨false⟩,
      .parse (some "m\\l,fetch,locked") none⟩ Lifted.input ∧
    run ⟨holding "m\\l" Lifted.free Lifted.key?_path, ⟨true⟩, .parse (some "m\\l,run") none⟩
        (.start Lifted.input) =
      run ⟨holding "m\\l" Lifted.free Lifted.key?_path, ⟨false⟩,
        .parse (some "m\\l,run") none⟩ (.start Lifted.input) ∧
    made ⟨holding "m\\l" Sample.library Lifted.key?_path, ⟨false⟩,
      .parse (some "m\\l") none⟩ Lifted.input = [] := by
  obtain ⟨hmore, -, -⟩ := zone_off_runs_what_is_named
    (holding "m\\l" Sample.library Lifted.key?_path)
    (holding "m\\l" Lifted.mute Lifted.key?_path)
    (.parse (some "m\\l,fetch,locked") none) Lifted.input
  obtain ⟨-, hsame, -⟩ := zone_off_runs_what_is_named
    (holding "m\\l" Lifted.free Lifted.key?_path) (holding "m\\l" Lifted.free Lifted.key?_path)
    (.parse (some "m\\l,run") none) Lifted.input
  obtain ⟨-, -, hnothing⟩ := zone_off_runs_what_is_named
    (holding "m\\l" Sample.library Lifted.key?_path)
    (holding "m\\l" Sample.library Lifted.key?_path) (.parse (some "m\\l") none) Lifted.input
  refine ⟨by decide +kernel, ?_, by decide +kernel, ?_, (hnothing (by decide +kernel)).1⟩
  · exact hmore (by decide +kernel) (holding_sameFaces _ ⟨rfl, rfl⟩) (fun _ _ _ _ _ => rfl)
      "m\\l" "fetch" (by decide +kernel)
  · exact hsame (by decide +kernel) Lifted.free_asksNothing

end Pass

end Switchboard
