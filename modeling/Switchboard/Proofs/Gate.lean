import Switchboard.Proofs.Protocol

/-!
The gate of the safe zone, over any number of runs. While the zone is on, a method
that runs has passed every check on the input it is handed, unless it is `init`
called ahead of the candidates; and a candidate that is reached runs if the input
holds what its contract requires, and is told what is missing if not.
-/

namespace Switchboard.Pass

/-! ## Which calls there are -/

theorem mem_calls_invoked {p : Pass} {m : Moment} {path method : String} {input : Input} :
    .invoked path method input ∈ p.calls m ↔
      ∃ l, p.called? m = some (path, l, method) ∧ l.declares method = true ∧
        input = m.before.pools.input := by
  cases hc : p.called? m with
  | none =>
    constructor
    · intro h
      have hcall : (path, method) ∈ (p.calls m).filterMap Event.call? :=
        List.mem_filterMap.mpr ⟨_, h, rfl⟩
      rw [calls_of_not_called hc] at hcall
      cases hcall
    · rintro ⟨l, h, -⟩
      cases h
  | some c =>
    obtain ⟨path', l, method'⟩ := c
    rw [calls_of_called hc, Library.mem_runs]
    constructor
    · rintro ⟨hd, h⟩
      cases h
      exact ⟨l, rfl, hd, rfl⟩
    · rintro ⟨l', h, hd, rfl⟩
      cases h
      exact ⟨hd, rfl⟩

/-- A call is made ahead of the candidates, or for a candidate that was allowed. -/
theorem called?_eq_some {p : Pass} {m : Moment} {path method : String} {l : Library}
    (h : p.called? m = some (path, l, method)) :
    (method = Library.initMethod ∧ ∃ owner, m.act = .schedule owner path l) ∨
      p.zone.authorize l method m.before.pools.input = .allow ∧
        ∃ owner, m.act = .check owner path l method := by
  obtain ⟨a, s⟩ := m
  cases a with
  | enter owner => cases h
  | look owner path' => cases h
  | schedule owner path' l' =>
    cases h
    exact .inl ⟨rfl, owner, rfl⟩
  | check owner path' l' method' =>
    simp only [called?] at h
    split at h
    · next ha =>
      cases h
      exact .inr ⟨ha, owner, rfl⟩
    · cases h

/-- At a moment of planned work, the library that is called is the one that its path finds,
and the zone lets the call run. -/
theorem letsRun_of_called {p : Pass} {m : Moment} (hp : p.Planned m.act) {path method : String}
    {l : Library} (h : p.called? m = some (path, l, method)) :
    p.catalog.library? path = some l ∧
      p.zone.LetsRun l p.directives.methods method m.before.pools.input := by
  rcases called?_eq_some h with ⟨rfl, owner, hact⟩ | ⟨hallowed, owner, hact⟩
  · rw [hact] at hp
    exact ⟨hp.1, .inl ⟨rfl, hp.2⟩⟩
  · rw [hact] at hp
    exact ⟨hp.1, .inr ⟨hp.2, hallowed⟩⟩

theorem calls_of_allowed {p : Pass} {owner path method : String} {l : Library} {t : Progress}
    (hd : l.declares method = true)
    (ha : p.zone.authorize l method t.pools.input = .allow) :
    p.calls ⟨.check owner path l method, t⟩ = [.invoked path method t.pools.input] := by
  have hc : p.called? ⟨.check owner path l method, t⟩ = some (path, l, method) := if_pos ha
  rw [calls_of_called hc, Library.runs, if_pos hd]

/-! ## Sound: what runs has been checked -/

/-- Everything that the zone asks of a call. -/
structure Admitted (p : Pass) (l : Library) (method : String) (input : Input) : Prop where
  declared : l.declares method = true
  /-- If the request names any methods, it names this one. -/
  requested : p.directives.methods.isEmpty = false → p.directives.methods.contains method = true
  /-- The contract lists the method, and what it requires is there. -/
  satisfied : ∃ c required, l.contract = some c ∧ c.required? method = some required ∧
    ∀ k ∈ required, k ∈ input.values.keys

theorem admitted_of_allowed {p : Pass} (hz : p.zone.enabled = true) {l : Library}
    {method : String} {input : Input} (hm : method ∈ p.zone.candidates l p.directives.methods)
    (ha : p.zone.authorize l method input = .allow) : p.Admitted l method input := by
  obtain ⟨hd, -, hr⟩ := (SafeZone.mem_candidates_of_enabled hz l _ method).mp hm
  exact ⟨hd, hr, (SafeZone.authorize_eq_allow_iff hz l method input).mp ha⟩

/-- At a moment of planned work, a call was admitted unless it goes ahead. -/
theorem admitted_or_scheduled {p : Pass} (hz : p.zone.enabled = true) {m : Moment}
    (hp : p.Planned m.act) {path method : String} {input : Input}
    (h : .invoked path method input ∈ p.calls m) :
    ∃ l, p.catalog.library? path = some l ∧
      (p.Admitted l method input ∨
        method = Library.initMethod ∧ (p.zone.plan l p.directives.methods).initFirst = true ∧
          ∃ owner, m.act = .schedule owner path l) := by
  obtain ⟨l, hc, -, rfl⟩ := mem_calls_invoked.mp h
  rcases called?_eq_some hc with ⟨rfl, owner, hact⟩ | ⟨ha, owner, hact⟩
  · rw [hact] at hp
    exact ⟨l, hp.1, .inr ⟨rfl, hp.2, owner, hact⟩⟩
  · rw [hact] at hp
    exact ⟨l, hp.1, .inl (admitted_of_allowed hz hp.2 ha)⟩

/-! ## Complete: what has been checked runs -/

/-- What becomes of a candidate that is reached at `u`, in the part of the run that
belongs to its library and begins at `t`. -/
structure Judged (p : Pass) (owner path : String) (l : Library) (method : String)
    (required : KeySet) (t u : Progress) : Prop where
  reached : ⟨.check owner path l method, u⟩ ∈ p.block owner path t
  /-- It runs, on the input as it is, if all that is required is there. -/
  allowed : (∀ k ∈ required, k ∈ u.pools.input.values.keys) →
    p.calls ⟨.check owner path l method, u⟩ = [.invoked path method u.pools.input] ∧
      p.steps ⟨.check owner path l method, u⟩ =
        [⟨owner, some path, some method, "safe_zone", "allowed"⟩,
          p.invokeStep owner path l method u]
  /-- Otherwise it does not run, and the trace lists what is missing, in order. -/
  denied : (∃ k ∈ required, k ∉ u.pools.input.values.keys) →
    (∀ input, .invoked path method input ∉ (p.block owner path t).flatMap p.calls) ∧
      ∃ missing : List String, missing.Pairwise (· < ·) ∧
        (∀ k, k ∈ missing ↔ k ∈ required ∧ k ∉ u.pools.input.values.keys) ∧
          p.steps ⟨.check owner path l method, u⟩ =
            [⟨owner, some path, some method, "safe_zone",
              "denied: missing [" ++ ", ".intercalate missing ++ "]"⟩]

/-- Nothing but its own check runs a candidate in the part of its library. -/
theorem not_invoked_of_denied {p : Pass} {owner path method : String} {l : Library}
    {t u : Progress} {missing : List String} (hl : p.catalog.library? path = some l)
    (hm : method ∈ p.zone.candidates l p.directives.methods)
    (hu : ⟨.check owner path l method, u⟩ ∈ p.block owner path t)
    (hd : p.zone.authorize l method u.pools.input = .deny missing) (input : Input) :
    .invoked path method input ∉ (p.block owner path t).flatMap p.calls := by
  intro h
  obtain ⟨m, hmem, hcall⟩ := List.mem_flatMap.mp h
  obtain ⟨l', hc, -, -⟩ := mem_calls_invoked.mp hcall
  have hact : m.act ∈ p.libraryActs owner path :=
    (mem_iff_exists_moment p _ t _).mpr ⟨m.before, hmem⟩
  rcases called?_eq_some hc with ⟨rfl, owner', h'⟩ | ⟨ha, owner', h'⟩
  · -- the call ahead is there only if `init` is no candidate
    obtain ⟨hl', hfirst⟩ : p.Planned (.schedule owner' path l') :=
      h' ▸ planned_of_mem_libraryActs hact
    rw [hl] at hl'
    cases hl'
    exact SafeZone.init_not_mem_of_initFirst hfirst hm
  · -- a check stands once in the work on a library, and this one was denied
    rw [h'] at hact
    obtain ⟨rfl, rfl⟩ := check_mem_libraryActs hl hact
    have heq := moment_unique (p.nodup_libraryActs owner' path) hmem hu h'
    rw [heq, hd] at ha
    cases ha

theorem judged_of_candidate {p : Pass} (hz : p.zone.enabled = true) {owner path method : String}
    {l : Library} (t : Progress) (hl : p.catalog.library? path = some l)
    (hm : method ∈ p.zone.candidates l p.directives.methods) :
    ∃ c required u, l.contract = some c ∧ c.required? method = some required ∧
      p.Judged owner path l method required t u := by
  obtain ⟨hd, ⟨c, hc, hlists⟩, -⟩ := (SafeZone.mem_candidates_of_enabled hz l _ method).mp hm
  obtain ⟨required, hr⟩ := Option.isSome_iff_exists.mp hlists
  have hact : Act.check owner path l method ∈ p.libraryActs owner path :=
    mem_libraryActs.mpr (.inr ⟨l, hl, mem_planActs.mpr (.inr ⟨method, hm, rfl⟩)⟩)
  obtain ⟨u, hu⟩ := (mem_iff_exists_moment p _ t _).mp hact
  refine ⟨c, required, u, hc, hr, hu, fun hall => ?_, ?_⟩
  · have ha : p.zone.authorize l method u.pools.input = .allow :=
      (SafeZone.authorize_eq_allow_iff hz l method _).mpr ⟨c, required, hc, hr, hall⟩
    refine ⟨calls_of_allowed hd ha, ?_⟩
    simp only [steps, ha]
  · rintro ⟨k, hk, habs⟩
    have ha := SafeZone.authorize_eq_deny hz hc hr hk habs
    refine ⟨not_invoked_of_denied hl hm hu ha, u.pools.input.missing required,
      Input.missing_sorted _ _, fun k => Input.mem_missing, ?_⟩
    simp only [steps, ha]

/-! ## The gate -/

/-- **The gate of the safe zone.** The moments of `n` runs are all that the runs add
to the log and to the trace, run by run. A call made at one of them sees the input
with all that was routed before, and was admitted on it unless it is the one ahead.
Each candidate of a library that is found, in a module that is ready, is judged. -/
theorem safe_zone_gates_runs (p : Pass) (hz : p.zone.enabled = true) (n : Nat) (s : Progress) :
    (p.runs n s).events = s.events ++ (p.momentsOver n s).flatMap p.calls ∧
    (p.runs n s).trace.steps = s.trace.steps ++ (p.momentsOver n s).flatMap p.steps ∧
    (∀ k < n, p.moments (p.runs k s) <:+: p.momentsOver n s) ∧
    (∀ front m back, p.momentsOver n s = front ++ m :: back →
      ∀ path method input, .invoked path method input ∈ p.calls m →
        input = s.pools.input.write (front.flatMap p.writes) ∧
        ∃ l, p.catalog.library? path = some l ∧
          (p.Admitted l method input ∨
            method = Library.initMethod ∧
              (p.zone.plan l p.directives.methods).initFirst = true ∧
              ∃ owner, m.act = .schedule owner path l)) ∧
    (∀ k < n, ∀ owner paths t, (owner, paths) ∈ p.directives.modules.toList →
      ⟨.enter owner, t⟩ ∈ p.moments (p.runs k s) → p.opens owner t.events = true →
      ∀ path ∈ paths, ∀ l, p.catalog.library? path = some l →
        ∃ t', p.block owner path t' <:+: p.moments (p.runs k s) ∧
          ∀ method ∈ p.zone.candidates l p.directives.methods,
            ∃ c required u, l.contract = some c ∧ c.required? method = some required ∧
              p.Judged owner path l method required t' u) := by
  refine ⟨runs_events p n s, runs_steps p n s, fun k hk => p.moments_infix hk s, ?_, ?_⟩
  · intro front m back hsplit path method input hcall
    have hmem : m ∈ p.momentsOver n s := by
      rw [hsplit]
      exact List.mem_append_right _ List.mem_cons_self
    obtain ⟨l', -, -, hinput⟩ := mem_calls_invoked.mp hcall
    refine ⟨?_, admitted_or_scheduled hz (planned_of_mem_momentsOver hmem) hcall⟩
    rw [hinput]
    exact input_at hsplit
  · intro k _ owner paths t he ht ho path hpath l hl
    obtain ⟨t', hblock⟩ := exists_block he hpath ht ho
    exact ⟨t', hblock, fun method hm => judged_of_candidate hz t' hl hm⟩

theorem sample_library_found : Sample.pass.catalog.library? "m\\l" = some Sample.library := by
  have hpath : Path.canonical "m\\l" = "m\\l" := by decide +kernel
  rw [Catalog.library?, hpath]
  simp [Sample.pass, Sample.catalog, Table.get?, Entries.get?]

/-- Of two runs: `fetch` was called, on an input that holds `seed`, and in the first
of them `locked`, which requires `door` and `key`, was judged. -/
theorem sample_is_gated :
    Sample.pass.zone.enabled = true ∧
    (∃ input l, Sample.pass.catalog.library? "m\\l" = some l ∧
      Sample.pass.Admitted l "fetch" input) ∧
    (∃ t c required u, Sample.pass.block "m" "m\\l" t <:+: Sample.pass.moments Sample.start ∧
      Sample.library.contract = some c ∧ c.required? "locked" = some required ∧
      Sample.pass.Judged "m" "m\\l" Sample.library "locked" required t u) := by
  have hz : Sample.pass.zone.enabled = true := rfl
  obtain ⟨-, -, -, hsound, hcomplete⟩ := safe_zone_gates_runs Sample.pass hz 2 Sample.start
  have hfetch : ("m\\l", "fetch") ∈
      (Sample.pass.runs 2 Sample.start).events.filterMap Event.call? := by decide +kernel
  obtain ⟨front, m, back, input, hsplit, hcall⟩ := exists_moment_of_call rfl hfetch
  have hne : "fetch" ≠ Library.initMethod := by decide
  obtain ⟨-, l, hl, hadmitted | ⟨hinit, -⟩⟩ := hsound front m back hsplit _ _ _ hcall
  · have hbusy : Sample.pass.isIdle Sample.start = false := by decide +kernel
    have he : ("m", ["m\\l", "m\\gone"]) ∈ Sample.pass.directives.modules.toList := by
      decide +kernel
    have hlocked : "locked" ∈
        Sample.pass.zone.candidates Sample.library Sample.pass.directives.methods := by
      decide +kernel
    obtain ⟨t, ht⟩ := exists_enter_moment hbusy sample_ends he
    obtain ⟨t', hblock, hjudged⟩ := hcomplete 0 (by decide) "m" _ t he ht
      (sample_opens t.events) "m\\l" (by decide) _ sample_library_found
    obtain ⟨c, required, u, hc, hr, hj⟩ := hjudged "locked" hlocked
    exact ⟨hz, ⟨input, l, hl, hadmitted⟩, t', c, required, u, hblock, hc, hr, hj⟩
  · exact absurd hinit hne

end Switchboard.Pass
