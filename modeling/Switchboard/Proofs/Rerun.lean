import Switchboard.Proofs.Replies
import Switchboard.Proofs.SideBySide

/-!
Running a pass again. What a run leaves behind is where the next one starts: the input
has no name less, and the plans hang on nothing that a run changes. So the next run goes
through the same work, and each check sees at least the names that it saw before. Of all
steps that do not tell what a call came to, only denials can come out otherwise
(`rerun_only_allows_more`).
-/

namespace Switchboard

/-! ## Names that stay -/

/-- What is written takes no name from the input. -/
theorem Input.keys_prefix_write (i : Input) (ws : List (String × Json)) :
    i.values.keys <+: (i.write ws).values.keys := by
  have hkeys : (i.write ws).values.keys = (Entries.replay i.toList ws).map Prod.fst :=
    congrArg (List.map Prod.fst) (Input.toList_write i ws)
  rw [hkeys]
  exact Entries.keys_prefix_replay _ _

theorem Input.isEmpty_iff_keys (i : Input) : i.isEmpty = true ↔ i.values.keys = [] := by
  unfold Input.isEmpty Table.isEmpty Table.keys
  rw [List.isEmpty_iff, List.map_eq_nil_iff]

namespace Pass

variable {p : Pass} {s : Progress}

/-- Names are there from the start of a run to each of its moments, and on to its end. -/
theorem input_keys_between {m : Moment} (h : m ∈ p.moments s) :
    s.pools.input.values.keys <+: m.before.pools.input.values.keys ∧
      m.before.pools.input.values.keys <+: (p.run s).pools.input.values.keys := by
  obtain ⟨front, back, hsplit⟩ := List.append_of_mem h
  obtain ⟨as, bs, hacts, -, hbefore⟩ := trail_split hsplit
  constructor
  · rw [hbefore, foldl_input]
    exact Input.keys_prefix_write _ _
  · rw [run_eq_foldl, hacts, List.foldl_append, ← hbefore, foldl_input]
    exact Input.keys_prefix_write _ _

theorem input_keys_prefix_run (p : Pass) (s : Progress) :
    s.pools.input.values.keys <+: (p.run s).pools.input.values.keys := by
  rw [run_eq_foldl, foldl_input]
  exact Input.keys_prefix_write _ _

theorem result_keys_prefix_run (p : Pass) (s : Progress) :
    s.pools.results.table.keys <+: (p.run s).pools.results.table.keys := by
  have hkeys : (p.run s).pools.results.table.keys =
      (Entries.replay s.pools.results.toList ((p.moments s).flatMap p.kept)).map Prod.fst :=
    congrArg (List.map Prod.fst) (p.run_results s)
  rw [hkeys]
  exact Entries.keys_prefix_replay _ _

/-- A pass that had something to do has something to do again. -/
theorem isIdle_run (h : p.isIdle s = false) : p.isIdle (p.run s) = false := by
  rw [Bool.eq_false_iff] at h ⊢
  intro hidle
  apply h
  rw [isIdle_eq_true_iff] at hidle ⊢
  refine hidle.imp_right (And.imp_right fun hempty => ?_)
  rw [Input.isEmpty_iff_keys] at hempty ⊢
  have hkeys := p.input_keys_prefix_run s
  rw [hempty] at hkeys
  exact List.prefix_nil.mp hkeys

theorem runs_succ (p : Pass) (n : Nat) (s : Progress) : p.runs (n + 1) s = p.run (p.runs n s) := by
  induction n generalizing s with
  | zero => rfl
  | succ n ih => exact ih (p.run s)

end Pass

/-! ## Steps that are planned -/

namespace TraceStep

/-- The step tells what was planned or decided, and not what a call came to. -/
def isPlanned (x : TraceStep) : Bool := x.check ≠ "invoke"

theorem filter_isPlanned_pair {x y : TraceStep} (hx : x.check ≠ "invoke")
    (hy : y.check = "invoke") : [x, y].filter isPlanned = [x] := by
  simp [isPlanned, hx, hy]

theorem filter_isPlanned_singleton {x : TraceStep} (hx : x.check ≠ "invoke") :
    [x].filter isPlanned = [x] := by
  simp [isPlanned, hx]

/-- It is the same step in the same words, but that a denial may have other words. -/
structure Relaxed (x y : TraceStep) : Prop where
  same : y = { x with outcome := y.outcome }
  words : x.check ≠ "safe_zone" ∨ x.outcome = "allowed" → y.outcome = x.outcome

theorem Relaxed.refl (x : TraceStep) : x.Relaxed x := ⟨rfl, fun _ => rfl⟩

theorem Relaxed.eq_of_allowed {x y : TraceStep} (h : x.Relaxed y) (ha : x.outcome = "allowed") :
    y = x := by
  rw [h.same, h.words (.inr ha)]

theorem denied_ne_allowed (missing : List String) :
    "denied: missing [" ++ ", ".intercalate missing ++ "]" ≠ "allowed" := by
  intro h
  have hbegins : "denied: missing [".toList <+: "allowed".toList := by
    rw [← h, String.append_assoc, String.toList_append]
    exact List.prefix_append _ _
  revert hbegins
  decide

/-- A denial may come to anything. -/
theorem Relaxed.of_denied (owner path method : String) (missing : List String) (words : String) :
    (TraceStep.mk owner (some path) (some method) "safe_zone"
      ("denied: missing [" ++ ", ".intercalate missing ++ "]")).Relaxed
        ⟨owner, some path, some method, "safe_zone", words⟩ := by
  refine ⟨rfl, ?_⟩
  rintro (hcheck | hallowed)
  · exact absurd rfl hcheck
  · exact absurd hallowed (denied_ne_allowed missing)

end TraceStep

theorem exists_of_forall₂ {α β : Type} {R : α → β → Prop} {as : List α} {bs : List β}
    (h : List.Forall₂ R as bs) {a : α} (ha : a ∈ as) : ∃ b ∈ bs, R a b := by
  induction h with
  | nil => cases ha
  | @cons x y xs ys hxy _ ih =>
    rcases List.mem_cons.mp ha with rfl | ha
    · exact ⟨y, List.mem_cons_self, hxy⟩
    · obtain ⟨b, hb, hab⟩ := ih ha
      exact ⟨b, List.mem_cons_of_mem _ hb, hab⟩

namespace Pass

variable {p : Pass} {t : Progress}

/-! ## Moment by moment -/

/-- **One moment.** The same work, begun with no name less, has the same steps, but for
what its call comes to and for a denial. -/
theorem relaxed_steps {m m' : Moment} (hact : m.act = m'.act)
    (hkeys : m.before.pools.input.values.keys ⊆ m'.before.pools.input.values.keys)
    (hhook : ∀ owner, m.act = .enter owner →
      p.catalog.runHook? owner m.before.events = p.catalog.runHook? owner m'.before.events) :
    List.Forall₂ TraceStep.Relaxed ((p.steps m).filter TraceStep.isPlanned)
      ((p.steps m').filter TraceStep.isPlanned) := by
  have hsame : ∀ xs : List TraceStep, List.Forall₂ TraceStep.Relaxed xs xs :=
    fun xs => List.forall₂_same.mpr fun x _ => .refl x
  obtain ⟨a, u⟩ := m
  obtain ⟨b, v⟩ := m'
  obtain rfl : a = b := hact
  cases a with
  | enter owner =>
    have hsteps : p.steps ⟨.enter owner, u⟩ = p.steps ⟨.enter owner, v⟩ := by
      simp only [steps, hhook owner rfl]
    rw [hsteps]
    exact hsame _
  | look owner path => exact hsame _
  | schedule owner path l =>
    simp only [steps]
    rw [TraceStep.filter_isPlanned_pair (by simp) rfl,
      TraceStep.filter_isPlanned_pair (by simp) rfl]
    exact hsame _
  | check owner path l method =>
    simp only [steps]
    cases hu : p.zone.authorize l method u.pools.input with
    | allow =>
      have hv : p.zone.authorize l method v.pools.input = .allow :=
        SafeZone.authorize_mono hkeys hu
      simp only [hv]
      rw [TraceStep.filter_isPlanned_pair (by simp) rfl,
        TraceStep.filter_isPlanned_pair (by simp) rfl]
      exact hsame _
    | deny missing =>
      dsimp only
      rw [TraceStep.filter_isPlanned_singleton (by simp)]
      cases p.zone.authorize l method v.pools.input with
      | allow =>
        dsimp only
        rw [TraceStep.filter_isPlanned_pair (by simp) rfl]
        exact .cons (.of_denied owner path method missing _) .nil
      | deny missing' =>
        dsimp only
        rw [TraceStep.filter_isPlanned_singleton (by simp)]
        exact .cons (.of_denied owner path method missing _) .nil

/-- A run and the next one, if their hooks end alike. -/
theorem relaxed_run (hhooks : HooksAgree p t p (p.run t)) :
    List.Forall₂ TraceStep.Relaxed (((p.moments t).flatMap p.steps).filter TraceStep.isPlanned)
      (((p.moments (p.run t)).flatMap p.steps).filter TraceStep.isPlanned) := by
  cases hidle : p.isIdle t with
  | true =>
    rw [run_of_isIdle hidle]
    exact List.forall₂_same.mpr fun x _ => .refl x
  | false =>
    obtain ⟨_, _, hacts, hacts'⟩ := hhooks.exists_found rfl hidle (isIdle_run hidle)
    have hmoments : List.Forall₂ (fun m m' => List.Forall₂ TraceStep.Relaxed
        ((p.steps m).filter TraceStep.isPlanned) ((p.steps m').filter TraceStep.isPlanned))
        (p.moments t) (p.moments (p.run t)) := by
      refine forall₂_moments (hacts.trans hacts'.symm) fun m hm m' hm' hact => ?_
      have hkeys : m.before.pools.input.values.keys <+: m'.before.pools.input.values.keys :=
        (input_keys_between hm).2.trans (input_keys_between hm').1
      refine relaxed_steps hact hkeys.subset fun owner howner => ?_
      obtain ⟨a, u⟩ := m
      obtain ⟨b, v⟩ := m'
      obtain rfl : a = .enter owner := howner
      obtain rfl : Act.enter owner = b := hact
      exact hhooks owner u v hm hm'
    rw [List.filter_flatMap, List.filter_flatMap]
    exact List.rel_flatMap hmoments fun _ _ hsteps => hsteps

/-! ## One run more -/

/-- **Again, and no less.** If the hooks end alike in both, a run and the next one have the
same steps, in the same order, but for the words on calls and for denials: the same
modules are made ready, the same libraries looked up, the same `init`s run ahead and the
same candidates checked, and what was allowed is allowed again. Each run adds to the trace
behind all that was there, and takes no name from the input and no key from the results. -/
theorem rerun_only_allows_more (p : Pass) (n : Nat) (s : Progress)
    (hhooks : HooksAgree p (p.runs n s) p (p.runs (n + 1) s)) :
    ∃ ran ran' : List TraceStep,
      (p.runs (n + 1) s).trace.steps = (p.runs n s).trace.steps ++ ran ∧
      (p.runs (n + 2) s).trace.steps = (p.runs (n + 1) s).trace.steps ++ ran' ∧
      List.Forall₂ TraceStep.Relaxed (ran.filter TraceStep.isPlanned)
        (ran'.filter TraceStep.isPlanned) ∧
      (∀ owner path method,
        ⟨owner, some path, some method, "safe_zone", "allowed"⟩ ∈ ran →
          ⟨owner, some path, some method, "safe_zone", "allowed"⟩ ∈ ran') ∧
      (p.runs n s).pools.input.values.keys <+: (p.runs (n + 1) s).pools.input.values.keys ∧
      (p.runs n s).pools.results.table.keys <+:
        (p.runs (n + 1) s).pools.results.table.keys := by
  rw [runs_succ p n s] at hhooks
  rw [runs_succ p (n + 1) s, runs_succ p n s]
  have hrelaxed := relaxed_run hhooks
  refine ⟨_, _, run_steps p _, run_steps p _, hrelaxed, ?_, input_keys_prefix_run p _,
    result_keys_prefix_run p _⟩
  intro owner path method hran
  obtain ⟨y, hy, hxy⟩ := exists_of_forall₂ hrelaxed
    (List.mem_filter.mpr ⟨hran, by simp [TraceStep.isPlanned]⟩)
  rw [hxy.eq_of_allowed rfl] at hy
  exact (List.mem_filter.mp hy).1

/-- In the second run `fetch` is allowed again, and `use`, which was denied, is allowed
too, since the token that it requires has been routed since. -/
theorem sample_reruns :
    (Sample.pass.runs 0 Sample.start).pools.input.values.keys = ["seed"] ∧
    (Sample.pass.runs 1 Sample.start).pools.input.values.keys = ["seed", "token"] ∧
    ∃ ran ran' : List TraceStep,
      (Sample.pass.runs 1 Sample.start).trace.steps = ran ∧
      (Sample.pass.runs 2 Sample.start).trace.steps = ran ++ ran' ∧
      List.Forall₂ TraceStep.Relaxed (ran.filter TraceStep.isPlanned)
        (ran'.filter TraceStep.isPlanned) ∧
      ⟨"m", some "m\\l", some "fetch", "safe_zone", "allowed"⟩ ∈ ran' ∧
      ⟨"m", some "m\\l", some "use", "safe_zone", "allowed"⟩ ∉ ran ∧
      ⟨"m", some "m\\l", some "use", "safe_zone", "allowed"⟩ ∈ ran' := by
  obtain ⟨ran, ran', hran, hran', hrelaxed, hallowed, -, -⟩ :=
    rerun_only_allows_more Sample.pass 0 Sample.start fun owner _ _ _ _ =>
      sample_runHook?_eq owner _ _
  have hstart : (Sample.pass.runs 0 Sample.start).trace.steps = [] := rfl
  rw [hstart, List.nil_append, Nat.zero_add] at hran
  rw [Nat.zero_add, Nat.zero_add, hran] at hran'
  have hfetch : ⟨"m", some "m\\l", some "fetch", "safe_zone", "allowed"⟩ ∈ ran := by
    rw [← hran]
    decide +kernel
  have hdenied : ⟨"m", some "m\\l", some "use", "safe_zone", "allowed"⟩ ∉ ran := by
    rw [← hran]
    decide +kernel
  have huse : ⟨"m", some "m\\l", some "use", "safe_zone", "allowed"⟩ ∈ ran ++ ran' := by
    rw [← hran']
    decide +kernel
  exact ⟨by decide +kernel, by decide +kernel, ran, ran', hran, hran', hrelaxed,
    hallowed _ _ _ hfetch, hdenied, (List.mem_append.mp huse).resolve_left hdenied⟩

end Pass

end Switchboard
