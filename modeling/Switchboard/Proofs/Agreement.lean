import Mathlib.Data.List.Forall2
import Switchboard.Proofs.Replies

/-!
The trace and the results of a pass. Both are written at each call, by different parts of
it, and they stay in step: a call has a step in the trace that tells of something kept
just if it writes into the results, and step by step the words of the one say what the
other receives (`Pass.tells_moment`). Over any number of runs the results therefore hold
the keys of those steps, each where it first comes up, and the last step of a key says
what is held there (`Pass.trace_tells_results`).
-/

namespace Switchboard

/-! ## The words of an outcome -/

/-- The words tell of a value or a message that is kept. -/
def TellsOfResult (outcome : String) : Prop :=
  outcome = "stored" ∨ "stored, routed to '".toList <+: outcome.toList ∨
    "failed: ".toList <+: outcome.toList

instance (outcome : String) : Decidable (TellsOfResult outcome) :=
  inferInstanceAs (Decidable (_ ∨ _ <+: _ ∨ _ <+: _))

namespace Outcome

theorem toList_prefix_append (a b : String) : a.toList <+: (a ++ b).toList := by
  rw [String.toList_append]
  exact List.prefix_append _ _

theorem text_routed (target : String) :
    (stored (some target)).text = "stored, routed to '" ++ (target ++ "'") :=
  String.append_assoc

theorem prefix_of_routed {o : Outcome} {target : String}
    (h : o.text = "stored, routed to '" ++ (target ++ "'")) :
    "stored, routed to '".toList <+: o.text.toList := by
  rw [h]
  exact toList_prefix_append _ _

theorem prefix_of_failed {o : Outcome} {message : String} (h : o.text = "failed: " ++ message) :
    "failed: ".toList <+: o.text.toList := by
  rw [h]
  exact toList_prefix_append _ _

/-- No text begins both as a failure and as a routed value. -/
theorem not_both {cs : List Char} (h : "failed: ".toList <+: cs)
    (h' : "stored, routed to '".toList <+: cs) : False := by
  rcases List.prefix_or_prefix_of_prefix h h' with hp | hp <;> revert hp <;> decide

/-- Words of a failure are those of the failure with that message. -/
theorem eq_failed_of_text {o : Outcome} {message : String}
    (h : o.text = "failed: " ++ message) : o = .failed message := by
  have hbegins := prefix_of_failed h
  match o with
  | .undeclared => exact absurd hbegins (by decide)
  | .empty => exact absurd hbegins (by decide)
  | .stored none => exact absurd hbegins (by decide)
  | .stored (some target) => exact (not_both hbegins (prefix_of_routed (text_routed target))).elim
  | .failed other => exact congrArg failed ((String.append_right_inj _).mp h)

/-- Words of a routed value are those of a value routed to that name. -/
theorem eq_stored_of_text {o : Outcome} {target : String}
    (h : o.text = "stored, routed to '" ++ target ++ "'") : o = .stored (some target) := by
  have hbegins := prefix_of_routed (h.trans String.append_assoc)
  match o with
  | .undeclared => exact absurd hbegins (by decide)
  | .empty => exact absurd hbegins (by decide)
  | .stored none => exact absurd hbegins (by decide)
  | .stored (some other) =>
    have hwords : other ++ "'" = target ++ "'" :=
      (String.append_right_inj _).mp ((text_routed other).symm.trans (h.trans String.append_assoc))
    rw [(String.append_left_inj _).mp hwords]
  | .failed message => exact (not_both (prefix_of_failed rfl) hbegins).elim

/-- What is kept is told, and nothing else. -/
theorem tellsOfResult_text_iff (o : Outcome) :
    TellsOfResult o.text ↔ o ≠ .undeclared ∧ o ≠ .empty := by
  match o with
  | .undeclared => decide
  | .empty => decide
  | .stored none => decide
  | .stored (some target) =>
    exact iff_of_true (.inr (.inl (prefix_of_routed (text_routed target)))) (by simp)
  | .failed message => exact iff_of_true (.inr (.inr (prefix_of_failed rfl))) (by simp)

/-- What an outcome under `key` says of the writes into the results. -/
def Says (routes : Routes) (key : String) : Outcome → List (String × Json) → Prop
  | undeclared, ws => ws = []
  | empty, ws => ws = []
  | stored routedTo, ws =>
    ∃ v, ws = [(key, v)] ∧
      ∀ target, routedTo = some target →
        ∃ route, routes.get? key = some route ∧ route.target = target
  | failed message, ws => ws = [(key, .str message)]

end Outcome

theorem Pools.routed?_target {routes : Routes} {key target : String} {v w : Json}
    (h : routed? routes key v = some (target, w)) :
    ∃ route, routes.get? key = some route ∧ route.target = target := by
  obtain ⟨route, hroute, hw⟩ := Option.bind_eq_some_iff.mp h
  obtain ⟨x, -, heq⟩ := Option.map_eq_some_iff.mp hw
  exact ⟨route, hroute, (Prod.mk.inj heq).1⟩

/-- A call writes what its outcome says. -/
theorem Pools.says_call (q : Pools) (routes : Routes) (c : Invocation) :
    (q.call routes c.path c.library c.method c.past).1.Says routes
      (Path.resultKey c.path c.method) ((c.reply? q.input).toList.flatMap Reply.recorded) := by
  unfold call Invocation.reply?
  split
  · simp only [Option.toList_some, List.flatMap_singleton, Reply.recorded]
    cases (c.library.invoke c.past c.method q.input).settle c.method with
    | error f => exact rfl
    | ok v =>
      cases hv : v.isNull with
      | true =>
        simp only [settle, hv, ↓reduceIte]
        exact rfl
      | false =>
        simp only [settle, hv, Bool.false_eq_true, ↓reduceIte, store]
        split
        · next target w hr =>
          refine ⟨v, rfl, ?_⟩
          rintro _ ⟨rfl⟩
          exact routed?_target hr
        · refine ⟨v, rfl, ?_⟩
          rintro _ ⟨⟩
  · exact rfl

/-! ## Steps that tell of results -/

/-- The result key of a call whose step tells of a value or a message that is kept. -/
def TraceStep.resultKey? (x : TraceStep) : Option String := do
  let library ← x.library
  let method ← x.method
  if x.check = "invoke" ∧ TellsOfResult x.outcome then some (Path.resultKey library method)
  else none

theorem TraceStep.resultKey?_of_check {x : TraceStep} (h : x.check ≠ "invoke") :
    x.resultKey? = none := by
  simp [resultKey?, h]

/-- A step tells of a write into the results: of its key, and of what its words say. -/
structure Tells (routes : Routes) (x : TraceStep) (w : String × Json) : Prop where
  key : x.resultKey? = some w.1
  failed : ∀ message, x.outcome = "failed: " ++ message → w.2 = .str message
  routed : ∀ target, x.outcome = "stored, routed to '" ++ target ++ "'" →
    ∃ route, routes.get? w.1 = some route ∧ route.target = target

/-- The steps that tell of results tell of these writes, one by one. -/
def InStep (routes : Routes) (xs : List TraceStep) (ws : List (String × Json)) : Prop :=
  List.Forall₂ (Tells routes) (xs.filter fun x => x.resultKey?.isSome) ws

namespace InStep

variable {routes : Routes} {xs ys : List TraceStep} {ws vs : List (String × Json)}

theorem append (h : InStep routes xs ws) (h' : InStep routes ys vs) :
    InStep routes (xs ++ ys) (ws ++ vs) := by
  unfold InStep
  rw [List.filter_append]
  exact List.rel_append h h'

theorem cons_of_none {x : TraceStep} (hx : x.resultKey? = none) (h : InStep routes xs ws) :
    InStep routes (x :: xs) ws := by
  unfold InStep
  rw [List.filter_cons_of_neg (by simp [hx])]
  exact h

theorem singleton {x : TraceStep} {w : String × Json} (h : Tells routes x w) :
    InStep routes [x] [w] := by
  unfold InStep
  rw [List.filter_cons_of_pos (by simp [h.key])]
  exact .cons h .nil

theorem keys_eq (h : InStep routes xs ws) :
    xs.filterMap TraceStep.resultKey? = ws.map Prod.fst := by
  have hpairs : ∀ {xs ws}, List.Forall₂ (Tells routes) xs ws →
      xs.filterMap TraceStep.resultKey? = ws.map Prod.fst := by
    intro xs ws h
    induction h with
    | nil => rfl
    | cons htells _ ih => rw [List.filterMap_cons_some htells.key, ih, List.map_cons]
  rw [← hpairs h, List.filterMap_filter]
  refine List.filterMap_congr fun x _ => ?_
  cases hx : x.resultKey? <;> simp

/-- The write that a step tells of, and those that the steps behind it tell of. -/
theorem split {front back : List TraceStep} {x : TraceStep} {key : String}
    (h : InStep routes (front ++ x :: back) ws) (hx : x.resultKey? = some key) :
    ∃ before w after, ws = before ++ w :: after ∧ Tells routes x w ∧
      InStep routes back after := by
  unfold InStep at h
  rw [List.filter_append, List.filter_cons_of_pos (by simp [hx])] at h
  -- of the steps in front only those that tell of a result are left, one for each write
  generalize front.filter (fun x => x.resultKey?.isSome) = told at h
  induction told generalizing ws with
  | nil =>
    cases h with
    | cons htells hback => exact ⟨[], _, _, rfl, htells, hback⟩
  | cons y told ih =>
    cases h with
    | @cons _ w _ ws _ hrest =>
      obtain ⟨before, w', after, rfl, htells, hback⟩ := ih hrest
      exact ⟨w :: before, w', after, rfl, htells, hback⟩

/-- The last step of a key tells of the last write under it. -/
theorem last {front back : List TraceStep} {x : TraceStep} {key : String}
    (h : InStep routes (front ++ x :: back) ws) (hx : x.resultKey? = some key)
    (hlast : key ∉ back.filterMap TraceStep.resultKey?) :
    ∃ before v after, ws = before ++ (key, v) :: after ∧ Tells routes x (key, v) ∧
      ∀ w ∈ after, w.1 ≠ key := by
  obtain ⟨before, w, after, hws, htells, hback⟩ := h.split hx
  obtain rfl : key = w.1 := Option.some.inj (hx.symm.trans htells.key)
  refine ⟨before, w.2, after, hws, htells, fun w' hw' heq => hlast ?_⟩
  rw [hback.keys_eq, ← heq]
  exact List.mem_map_of_mem hw'

end InStep

theorem resultKey?_called (owner path method : String) (o : Outcome) :
    (TraceStep.mk owner (some path) (some method) "invoke" o.text).resultKey? =
      if TellsOfResult o.text then some (Path.resultKey path method) else none := by
  simp [TraceStep.resultKey?]

/-- What is said of the writes, the step of the outcome tells. -/
theorem Outcome.Says.inStep {routes : Routes} {path method : String} {o : Outcome}
    {ws : List (String × Json)} (h : o.Says routes (Path.resultKey path method) ws)
    (owner : String) :
    InStep routes [⟨owner, some path, some method, "invoke", o.text⟩] ws := by
  have hkey := resultKey?_called owner path method o
  have htold := o.tellsOfResult_text_iff
  cases o with
  | undeclared =>
    rw [if_neg fun hwords => (htold.mp hwords).1 rfl] at hkey
    obtain rfl : ws = [] := h
    exact .cons_of_none hkey .nil
  | empty =>
    rw [if_neg fun hwords => (htold.mp hwords).2 rfl] at hkey
    obtain rfl : ws = [] := h
    exact .cons_of_none hkey .nil
  | stored routedTo =>
    obtain ⟨v, rfl, hrouted⟩ := h
    rw [if_pos (htold.mpr (by simp))] at hkey
    refine .singleton ⟨hkey, fun message hwords => ?_, fun target hwords => ?_⟩
    · have heq : stored routedTo = .failed message := eq_failed_of_text hwords
      cases heq
    · exact hrouted target (stored.inj (eq_stored_of_text hwords))
  | failed message =>
    obtain rfl : ws = _ := h
    rw [if_pos (htold.mpr (by simp))] at hkey
    refine .singleton ⟨hkey, fun other hwords => ?_, fun target hwords => ?_⟩
    · exact congrArg Json.str (failed.inj (eq_failed_of_text hwords))
    · have heq : failed message = .stored (some target) := eq_stored_of_text hwords
      cases heq

namespace Pass

/-! ## Moment by moment -/

/-- The step of a call tells of what the call writes into the results. -/
theorem tells_call (p : Pass) (owner path : String) (l : Library) (method : String)
    (s : Progress) :
    InStep p.directives.routes [p.invokeStep owner path l method s]
      ((Invocation.reply? ⟨path, l, method, s.events⟩ s.pools.input).toList.flatMap
        Reply.recorded) :=
  (s.pools.says_call p.directives.routes ⟨path, l, method, s.events⟩).inStep owner

/-- **One moment.** Its steps tell of what it writes into the results. -/
theorem tells_moment (p : Pass) (m : Moment) :
    InStep p.directives.routes (p.steps m) (p.kept m) := by
  obtain ⟨a, s⟩ := m
  have hother : ∀ {x : TraceStep} {xs : List TraceStep} {ws : List (String × Json)},
      x.check ≠ "invoke" → InStep p.directives.routes xs ws →
        InStep p.directives.routes (x :: xs) ws :=
    fun hx => .cons_of_none (TraceStep.resultKey?_of_check hx)
  cases a with
  | enter owner =>
    simp only [steps, kept, reply?, invocation?, called?]
    rcases p.catalog.runHook? owner s.events with _ | ⟨_ | _⟩ | _
    · exact .nil
    · exact hother (by simp) .nil
    · exact hother (by simp) .nil
    · exact .nil
  | look owner path =>
    simp only [steps, kept, reply?, invocation?, called?]
    cases p.catalog.library? path with
    | none => exact hother (by simp) .nil
    | some l => exact hother (by simp) .nil
  | schedule owner path l => exact hother (by simp) (p.tells_call owner path l "init" s)
  | check owner path l method =>
    simp only [steps, kept, reply?, invocation?, called?]
    cases p.zone.authorize l method s.pools.input with
    | allow => exact hother (by simp) (p.tells_call owner path l method s)
    | deny missing => exact hother (by simp) .nil

theorem tells_moments (p : Pass) (ms : List Moment) :
    InStep p.directives.routes (ms.flatMap p.steps) (ms.flatMap p.kept) := by
  induction ms with
  | nil => exact .nil
  | cons m ms ih => exact (p.tells_moment m).append ih

/-- The step of a call is there because a call is made. -/
theorem exists_called_of_invoke_step {p : Pass} {m : Moment} {x : TraceStep}
    (hx : x ∈ p.steps m) (hc : x.check = "invoke") :
    ∃ owner path l method, p.called? m = some (path, l, method) ∧
      x = p.invokeStep owner path l method m.before := by
  obtain ⟨a, s⟩ := m
  have hsecond : ∀ {y z : TraceStep}, y.check ≠ "invoke" → x ∈ [y, z] → x = z := by
    intro y z hy hmem
    rcases List.mem_pair.mp hmem with rfl | rfl
    · exact absurd hc hy
    · rfl
  cases a with
  | enter owner =>
    have hcheck : x.check = "bootstrap" := by
      simp only [steps] at hx
      split at hx <;> simp_all
    simp [hcheck] at hc
  | look owner path =>
    have hcheck : x.check = "library_lookup" := by
      simp only [steps] at hx
      split at hx <;> simp_all
    simp [hcheck] at hc
  | schedule owner path l => exact ⟨owner, path, l, "init", rfl, hsecond (by simp) hx⟩
  | check owner path l method =>
    simp only [steps] at hx
    split at hx
    · next ha => exact ⟨owner, path, l, method, if_pos ha, hsecond (by simp) hx⟩
    · rw [List.mem_singleton.mp hx] at hc
      simp at hc

/-- The step of a call tells of a result, unless the method is not declared or gives null. -/
theorem resultKey?_of_invoke_step {p : Pass} {m : Moment} {x : TraceStep} (hx : x ∈ p.steps m)
    (hc : x.check = "invoke") :
    (x.outcome = "undeclared" ∨ x.outcome = "returned null") ∧ x.resultKey? = none ∨
      ∃ library method, x.library = some library ∧ x.method = some method ∧
        x.resultKey? = some (Path.resultKey library method) := by
  obtain ⟨owner, path, l, method, -, rfl⟩ := exists_called_of_invoke_step hx hc
  rw [invokeStep]
  generalize (m.before.pools.call p.directives.routes path l method m.before.events).1 = o
  have hkey := resultKey?_called owner path method o
  have htold := o.tellsOfResult_text_iff
  by_cases hwords : TellsOfResult o.text
  · rw [if_pos hwords] at hkey
    exact .inr ⟨path, method, rfl, rfl, hkey⟩
  · rw [if_neg hwords] at hkey
    refine .inl ⟨?_, hkey⟩
    cases o with
    | undeclared => exact .inl rfl
    | empty => exact .inr rfl
    | stored routedTo => exact absurd (htold.mpr (by simp)) hwords
    | failed message => exact absurd (htold.mpr (by simp)) hwords

/-- A moment whose steps tell of no result leaves the results as they are. -/
theorem results_of_untold {p : Pass} {m : Moment} (h : ∀ x ∈ p.steps m, x.resultKey? = none) :
    (p.perform m.before m.act).pools.results = m.before.pools.results := by
  have hkept : p.kept m = [] := by
    have hkeys := (p.tells_moment m).keys_eq
    rw [List.filterMap_eq_nil_iff.mpr h] at hkeys
    exact List.map_eq_nil_iff.mp hkeys.symm
  have hsame := p.perform_results m.before m.act
  rw [hkept] at hsame
  exact Results.ext (Table.ext hsame)

/-! ## Any number of runs -/

theorem results_of_runs (p : Pass) (n : Nat) (input : Input) :
    (p.runs n (.start input)).pools.results.toList =
      Entries.replay [] ((p.momentsOver n (.start input)).flatMap p.kept) :=
  p.runs_results n (.start input)

theorem steps_of_runs (p : Pass) (n : Nat) (input : Input) :
    (p.runs n (.start input)).trace.steps = (p.momentsOver n (.start input)).flatMap p.steps :=
  p.runs_steps n (.start input)

theorem tells_runs (p : Pass) (n : Nat) (input : Input) :
    InStep p.directives.routes (p.runs n (.start input)).trace.steps
      ((p.momentsOver n (.start input)).flatMap p.kept) := by
  rw [steps_of_runs]
  exact p.tells_moments _

/-- The keys of the results are those that the steps tell of, each where it first comes up. -/
theorem keys_of_runs (p : Pass) (n : Nat) (input : Input) :
    (p.runs n (.start input)).pools.results.table.keys =
      ((p.runs n (.start input)).trace.steps.filterMap TraceStep.resultKey?).eraseDups := by
  have hempty : (([] : List (String × Json)).map Prod.fst).Nodup := List.nodup_nil
  have hkeys : (p.runs n (.start input)).pools.results.table.keys =
      (Entries.replay [] ((p.momentsOver n (.start input)).flatMap p.kept)).map Prod.fst :=
    congrArg (List.map Prod.fst) (p.results_of_runs n input)
  rw [hkeys, Entries.keys_replay hempty, List.nil_append, (p.tells_runs n input).keys_eq]

/-- The last step of a key tells of what is held under it. -/
theorem last_step_tells {p : Pass} {n : Nat} {input : Input} {front back : List TraceStep}
    {x : TraceStep} {key : String}
    (hsteps : (p.runs n (.start input)).trace.steps = front ++ x :: back)
    (hx : x.resultKey? = some key) (hlast : key ∉ back.filterMap TraceStep.resultKey?) :
    ∃ v, (p.runs n (.start input)).pools.results.get? key = some v ∧
      Tells p.directives.routes x (key, v) := by
  have htells := p.tells_runs n input
  rw [hsteps] at htells
  obtain ⟨before, v, after, hwrites, htold, hafter⟩ := htells.last hx hlast
  refine ⟨v, (Table.mem_entries_iff _).mp ?_, htold⟩
  have hresults := p.results_of_runs n input
  unfold Results.toList at hresults
  rw [hresults, hwrites]
  exact Entries.mem_replay_of_last hafter

/-- **The trace tells the results.** After any number of runs of a new pass, the results
hold the keys of the calls whose steps tell of something kept, each where it first comes
up. Where the last step of a key tells of a failure, its message is held; where it tells
of a routed value, a route leads from the key to that name. A call that is not declared
or gives null has a step that tells of nothing, every other call leaves an entry, and a
moment that tells of nothing, such as a denial, changes no entry. -/
theorem trace_tells_results (p : Pass) (n : Nat) (input : Input) :
    (p.runs n (.start input)).pools.results.table.keys =
      ((p.runs n (.start input)).trace.steps.filterMap TraceStep.resultKey?).eraseDups ∧
    (∀ front x back key, (p.runs n (.start input)).trace.steps = front ++ x :: back →
      x.resultKey? = some key → key ∉ back.filterMap TraceStep.resultKey? →
      (∀ message, x.outcome = "failed: " ++ message →
        (p.runs n (.start input)).pools.results.get? key = some (.str message)) ∧
      (∀ target, x.outcome = "stored, routed to '" ++ target ++ "'" →
        ∃ route, p.directives.routes.get? key = some route ∧ route.target = target)) ∧
    (∀ x ∈ (p.runs n (.start input)).trace.steps, x.check = "invoke" →
      (x.outcome = "undeclared" ∨ x.outcome = "returned null") ∧ x.resultKey? = none ∨
      ∃ library method, x.library = some library ∧ x.method = some method ∧
        x.resultKey? = some (Path.resultKey library method) ∧
        Path.resultKey library method ∈ (p.runs n (.start input)).pools.results.table.keys) ∧
    (∀ m ∈ p.momentsOver n (.start input), (∀ x ∈ p.steps m, x.resultKey? = none) →
      (p.perform m.before m.act).pools.results = m.before.pools.results) := by
  have hkeys := p.keys_of_runs n input
  refine ⟨hkeys, ?_, ?_, fun m _ => results_of_untold⟩
  · intro front x back key hsteps hx hlast
    obtain ⟨v, hheld, htold⟩ := last_step_tells hsteps hx hlast
    refine ⟨fun message hwords => ?_, htold.routed⟩
    obtain rfl : v = .str message := htold.failed message hwords
    exact hheld
  · intro x hx hcheck
    have hmoment := hx
    rw [steps_of_runs] at hmoment
    obtain ⟨m, -, hm⟩ := List.mem_flatMap.mp hmoment
    refine (resultKey?_of_invoke_step hm hcheck).imp_right ?_
    rintro ⟨library, method, hlibrary, hmethod, hkey⟩
    refine ⟨library, method, hlibrary, hmethod, hkey, ?_⟩
    rw [hkeys, List.mem_eraseDups]
    exact List.mem_filterMap.mpr ⟨x, hx, hkey⟩

/-- `use` is denied in the first run, so its result comes in with the second. -/
example : (Sample.pass.runs 2 Sample.start).pools.results.table.keys =
    ["m\\l\\fetch", "m\\l\\fail", "m\\l\\stop", "m\\l\\use"] := by decide +kernel

end Pass

end Switchboard
