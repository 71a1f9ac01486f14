import Switchboard.Proofs.Agreement

/-!
Guards that a pass has no need of. A call asks first whether the library declares the
method, the zone denies what no contract lists, and a library made of functions fails for a
name that has none. None of the three comes up in a pass, in any number of runs
(`Pass.guards_are_idle`): what a plan names is declared, and what the zone checks is listed.
-/

namespace Switchboard

/-! ## The three guards -/

/-- A candidate is allowed, or it is told of a name that is missing. -/
theorem SafeZone.authorize_ne_deny_nil {z : SafeZone} {l : Library} {requested : MethodList}
    {m : String} (hm : m ∈ z.candidates l requested) (input : Input) :
    z.authorize l m input ≠ .deny [] := by
  cases hz : z.enabled with
  | false =>
    rw [authorize_of_disabled hz]
    simp
  | true =>
    obtain ⟨-, ⟨c, hc, hlists⟩, -⟩ := (mem_candidates_of_enabled hz l requested m).mp hm
    obtain ⟨required, hr⟩ := Option.isSome_iff_exists.mp hlists
    rw [authorize_of_required hz hc hr]
    split
    · simp
    · next hmissing =>
      intro h
      exact hmissing (Decision.deny.inj h)

/-- What is neither a candidate nor listed is denied, and nothing is named to it. -/
example : SafeZone.authorize ⟨true⟩ Pass.Sample.library "init" .empty = .deny [] := by
  decide +kernel

namespace Pools

variable {q : Pools} {routes : Routes}

theorem settle_ne_undeclared (key : String) (result : Except Fault Json) :
    (q.settle routes key result).1 ≠ .undeclared := by
  cases result with
  | error f => simp [settle]
  | ok v =>
    simp only [settle]
    split
    · simp
    · unfold store
      split <;> simp

theorem call_ne_undeclared {l : Library} {method : String} (hd : l.declares method = true)
    (path : String) (past : History) :
    (q.call routes path l method past).1 ≠ .undeclared := by
  rw [call, if_pos hd]
  exact settle_ne_undeclared _ _

end Pools

/-- No outcome but one has the word for it. -/
theorem Outcome.text_eq_undeclared_iff {o : Outcome} : o.text = "undeclared" ↔ o = .undeclared := by
  constructor
  · intro h
    have hsilent : ¬ TellsOfResult o.text := by
      rw [h]
      decide
    rw [tellsOfResult_text_iff, not_and_or, not_not, not_not] at hsilent
    rcases hsilent with rfl | rfl
    · rfl
    · exact absurd h (by decide)
  · rintro rfl
    rfl

/-- A library made of functions declares just the names that have one. -/
theorem Handlers.declares_toLibrary_iff (h : Handlers) (method : String) :
    h.toLibrary.declares method = true ↔ ∃ f, h.table.get? method = some f := by
  rw [Library.declares_iff, ← Option.isSome_iff_exists]
  exact h.table.mem_keys_iff method

namespace Pass

/-! ## What is called -/

theorem declares_of_called {p : Pass} {m : Moment} (hp : p.Planned m.act) {path method : String}
    {l : Library} (hc : p.called? m = some (path, l, method)) : l.declares method = true :=
  (letsRun_of_called hp hc).2.plans.declares

/-- Where the work is planned, a call lets its method run. -/
theorem calls_of_planned {p : Pass} {m : Moment} (hp : p.Planned m.act) {path method : String}
    {l : Library} (hc : p.called? m = some (path, l, method)) :
    p.calls m = [.invoked path method m.before.pools.input] := by
  rw [calls_of_called hc, Library.runs, if_pos (declares_of_called hp hc)]

/-- Where the work is planned, no step of a call says that its method is not declared. -/
theorem outcome_ne_undeclared {p : Pass} {m : Moment} (hp : p.Planned m.act) {x : TraceStep}
    (hx : x ∈ p.steps m) (hcheck : x.check = "invoke") : x.outcome ≠ "undeclared" := by
  obtain ⟨owner, path, l, method, hc, rfl⟩ := exists_called_of_invoke_step hx hcheck
  intro hwords
  have houtcome := Outcome.text_eq_undeclared_iff.mp hwords
  exact Pools.call_ne_undeclared (declares_of_called hp hc) path m.before.events houtcome

/-! ## No guard comes up -/

/-- **The guards are idle.** In any number of runs, each call that is made lets its method
run and does not come to nothing for want of a declaration, so no step says so; what is
checked is a candidate, which is never denied without a missing name; and where the library
is made of functions, there is one for the method, and it is the one that answers. -/
theorem guards_are_idle (p : Pass) (n : Nat) (s : Progress) :
    (∀ m ∈ p.momentsOver n s, ∀ path l method, p.called? m = some (path, l, method) →
      (m.before.pools.call p.directives.routes path l method m.before.events).1 ≠ .undeclared ∧
        p.calls m = [.invoked path method m.before.pools.input]) ∧
    (∃ ran, (p.runs n s).trace.steps = s.trace.steps ++ ran ∧
      ∀ x ∈ ran, x.check = "invoke" → x.outcome ≠ "undeclared") ∧
    (∀ m ∈ p.momentsOver n s, ∀ owner path l method, m.act = .check owner path l method →
      method ∈ p.zone.candidates l p.directives.methods) ∧
    (∀ l, ∀ method ∈ p.zone.candidates l p.directives.methods, ∀ input,
      p.zone.authorize l method input ≠ .deny []) ∧
    (∀ m ∈ p.momentsOver n s, ∀ path method (h : Handlers),
      p.called? m = some (path, h.toLibrary, method) →
        ∃ f, h.table.get? method = some f ∧
          h.toLibrary.invoke m.before.events method m.before.pools.input =
            f m.before.events m.before.pools.input) := by
  have hplanned : ∀ m ∈ p.momentsOver n s, p.Planned m.act :=
    fun m hm => planned_of_mem_momentsOver hm
  refine ⟨?_, ⟨_, p.runs_steps n s, ?_⟩, ?_, ?_, ?_⟩
  · intro m hm path l method hc
    have hd := declares_of_called (hplanned m hm) hc
    exact ⟨Pools.call_ne_undeclared hd path _, calls_of_planned (hplanned m hm) hc⟩
  · intro x hx hcheck
    obtain ⟨m, hm, hstep⟩ := List.mem_flatMap.mp hx
    exact outcome_ne_undeclared (hplanned m hm) hstep hcheck
  · intro m hm owner path l method hact
    have hp := hplanned m hm
    rw [hact] at hp
    exact hp.2
  · intro l method hm input
    exact SafeZone.authorize_ne_deny_nil hm input
  · intro m hm path method h hc
    obtain ⟨f, hf⟩ :=
      (h.declares_toLibrary_iff method).mp (declares_of_called (hplanned m hm) hc)
    refine ⟨f, hf, ?_⟩
    simp only [Handlers.toLibrary, Handlers.invoke, hf]

/-- In two runs `fetch` is called, and it runs; `locked` is checked, and not denied for
nothing. -/
theorem sample_guards_are_idle :
    (∃ m ∈ Sample.pass.momentsOver 2 Sample.start, ∃ l,
      Sample.pass.called? m = some ("m\\l", l, "fetch") ∧
        Sample.pass.calls m = [.invoked "m\\l" "fetch" m.before.pools.input]) ∧
    "locked" ∈ Sample.pass.zone.candidates Sample.library Sample.pass.directives.methods ∧
    Sample.pass.zone.authorize Sample.library "locked" Sample.start.pools.input ≠ .deny [] := by
  obtain ⟨hcalls, -, -, hdenied, -⟩ := guards_are_idle Sample.pass 2 Sample.start
  have hlocked : "locked" ∈
      Sample.pass.zone.candidates Sample.library Sample.pass.directives.methods := by
    decide +kernel
  have hfetch : ("m\\l", "fetch") ∈
      (Sample.pass.runs 2 Sample.start).events.filterMap Event.call? := by decide +kernel
  obtain ⟨front, m, back, input, hsplit, hcall⟩ := exists_moment_of_call rfl hfetch
  obtain ⟨l, hc, -, -⟩ := mem_calls_invoked.mp hcall
  have hm : m ∈ Sample.pass.momentsOver 2 Sample.start := by
    rw [hsplit]
    exact List.mem_append_right _ List.mem_cons_self
  exact ⟨⟨m, hm, l, hc, (hcalls m hm _ _ _ hc).2⟩, hlocked, hdenied _ _ hlocked _⟩

end Pass

end Switchboard
