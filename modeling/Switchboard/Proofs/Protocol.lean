import Switchboard.Proofs.Moments

/-!
The trace of a run is the protocol of the pass, as far as the pass comes. A run that has
nothing to do leaves everything as it was. Any other run adds to the trace the steps of
its moments, and its moments are those of the modules in order, each entered once and,
unless its hook fails, followed by its libraries in order; of each library they are the
look-up and, if it is found, the call ahead and the checks of its plan. What the
methods answer changes none of this: it shows in the words of the steps and not in
which moments there are. Nor does a method that breaks off. But a hook that breaks off
leaves no step behind and ends the run: no module after its own is come to
(`run_follows_protocol`, `protocol_not_always_followed`).
-/

namespace Switchboard.Pass

theorem isIdle_eq_true_iff (p : Pass) (s : Progress) :
    p.isIdle s = true ↔
      p.directives.modules.isEmpty = true ∨
        p.directives.methods.isEmpty = true ∧ s.pools.input.isEmpty = true := by
  simp [isIdle]

theorem attempt_of_isIdle {p : Pass} {s : Progress} (hi : p.isIdle s = true) :
    p.attempt s = .ok s := if_pos hi

theorem run_of_isIdle {p : Pass} {s : Progress} (hi : p.isIdle s = true) : p.run s = s := by
  rw [run, attempt_of_isIdle hi]
  rfl

theorem ends_of_isIdle {p : Pass} {s : Progress} (hi : p.isIdle s = true) : p.ends s = true := by
  rw [ends, attempt_of_isIdle hi]
  rfl

/-- A pass that is not idle and ends enters every module it was asked for. -/
theorem exists_enter_moment {p : Pass} {s : Progress} (hi : p.isIdle s = false)
    (hends : p.ends s = true) {entry : String × List String}
    (he : entry ∈ p.directives.modules.toList) : ∃ t, ⟨.enter entry.1, t⟩ ∈ p.moments s := by
  obtain ⟨found, hacts, -⟩ := exists_agenda_eq_of_ends hi hends
  exact (exists_enter_iff hacts entry.1).mpr ⟨entry, he, rfl⟩

/-- Where every hook succeeds, a pass ends. -/
theorem ends_of_opens {p : Pass} (ho : ∀ owner past, p.opens owner past = true) (s : Progress) :
    p.ends s = true := by
  refine (ends_iff p s).mpr fun owner t _ hbroken => ?_
  have hopen := ho owner t.events
  rw [opens, hbroken] at hopen
  cases hopen

/-- **The pass protocol.** It is followed to the end just if no hook that is run breaks
off; otherwise it is followed up to the first module with such a hook. -/
theorem run_follows_protocol (p : Pass) (s : Progress) :
    (p.directives.modules.isEmpty = true ∨
        p.directives.methods.isEmpty = true ∧ s.pools.input.isEmpty = true →
      p.run s = s ∧ p.ends s = true) ∧
    (¬ (p.directives.modules.isEmpty = true ∨
        p.directives.methods.isEmpty = true ∧ s.pools.input.isEmpty = true) →
      ∃ found : String → Readiness,
        (∀ owner t, ⟨.enter owner, t⟩ ∈ p.moments s → found owner = p.readiness owner t.events) ∧
        (p.moments s).map Moment.act =
          (visited found p.directives.modules.toList).flatMap (fun e =>
            .enter e.1 :: if (found e.1).isReady then e.2.flatMap (p.libraryActs e.1) else []) ∧
        p.run s = ((p.moments s).map Moment.act).foldl p.perform s ∧
        (p.run s).trace.steps = s.trace.steps ++ (p.moments s).flatMap p.steps ∧
        (p.ends s = true ↔
          ∀ e ∈ visited found p.directives.modules.toList, found e.1 ≠ .broken) ∧
        (p.ends s = true →
          visited found p.directives.modules.toList = p.directives.modules.toList)) := by
  rw [← isIdle_eq_true_iff]
  refine ⟨fun h => ⟨run_of_isIdle h, ends_of_isIdle h⟩, fun h => ?_⟩
  have hi : p.isIdle s = false := Bool.eq_false_iff.mpr h
  obtain ⟨found, hacts, hfound⟩ := exists_agenda_eq hi
  have hmap : (p.moments s).map Moment.act = p.agenda s := map_act_trail p _ s
  have hends := ends_iff_of_agenda hacts hfound
  refine ⟨found, hfound, ?_, ?_, run_steps p s, hends, fun h => visited_eq_self (hends.mp h)⟩
  · rw [hmap, hacts]
    rfl
  · rw [hmap]
    exact run_eq_foldl p s

/-! ## A run with every kind of step -/

namespace Sample

/-- Its methods give null, a value, what the input holds, a fault and no end at all;
one of them is never allowed. -/
def library : Library :=
  (((((((Handlers.empty.method "init" fun _ => .value .null).method
    "fetch" fun _ => .value (.obj [("token", .str "abc")])).method
    "use" fun i => .value ((i.get? "token").getD .null)).method
    "locked" fun _ => .value (.bool true)).method
    "fail" fun _ => .fault (.failed "bad input")).method
    "stop" fun _ => .panic none).withContract
      (.ofList [("use", ["token"]), ("fetch", ["seed"]), ("locked", ["key", "door"]),
        ("fail", []), ("stop", [])])).toLibrary

def catalog : Catalog where
  libraries := ⟨[("m\\l", library)], by decide⟩
  hooks := ⟨[("m", fun _ => .result (.ok ())),
    ("n", fun _ => .result (.error (.failed "no settings")))], by decide⟩
  addressable := by decide +kernel

/-- The token that `fetch` gives goes into the input, too late for `use`. -/
def pass : Pass :=
  ⟨catalog, {}, .parse (some "m\\l,n\\l,m\\gone") (some "m\\l\\fetch\\token:token")⟩

def start : Progress := .start (.ofList [("seed", .bool true)])

end Sample

theorem sample_readiness (past : History) :
    Sample.pass.readiness "m" past = .ready ∧ Sample.pass.readiness "n" past = .leftOut := by
  constructor <;>
    simp [readiness, Catalog.runHook?, Sample.pass, Sample.catalog, Table.get?, Entries.get?]

theorem sample_opens (past : History) : Sample.pass.opens "m" past = true := by
  rw [opens, (sample_readiness past).1]
  rfl

theorem sample_ends : Sample.pass.ends Sample.start = true := by decide +kernel

theorem sample_runHook?_eq (owner : String) (past past' : History) :
    Sample.catalog.runHook? owner past = Sample.catalog.runHook? owner past' := by
  simp only [Catalog.runHook?, Sample.catalog, Table.get?, Entries.get?]
  split
  · rfl
  · split <;> rfl

theorem sample_follows_protocol :
    (Sample.pass.run (.start .empty) = .start .empty) ∧
    (∃ found : String → Readiness, found "m" = .ready ∧ found "n" = .leftOut ∧
      visited found Sample.pass.directives.modules.toList =
        Sample.pass.directives.modules.toList ∧
      (Sample.pass.run Sample.start).trace.steps = Sample.start.trace.steps ++
        (Sample.pass.moments Sample.start).flatMap Sample.pass.steps) ∧
    ((Sample.pass.run Sample.start).trace.steps.map fun x => (x.library, x.method, x.outcome)) =
      [(none, none, "ok"),
        (some "m\\l", none, "found"),
        (some "m\\l", some "init", "scheduled"),
        (some "m\\l", some "init", "returned null"),
        (some "m\\l", some "use", "denied: missing [token]"),
        (some "m\\l", some "fetch", "allowed"),
        (some "m\\l", some "fetch", "stored, routed to 'token'"),
        (some "m\\l", some "locked", "denied: missing [door, key]"),
        (some "m\\l", some "fail", "allowed"),
        (some "m\\l", some "fail", "failed: bad input"),
        (some "m\\l", some "stop", "allowed"),
        (some "m\\l", some "stop", "failed: method 'stop' panicked"),
        (some "m\\gone", none, "unknown library"),
        (none, none, "failed: no settings")] := by
  have hbusy : Sample.pass.isIdle Sample.start = false := by decide +kernel
  have hm : ("m", ["m\\l", "m\\gone"]) ∈ Sample.pass.directives.modules.toList := by
    decide +kernel
  have hn : ("n", ["n\\l"]) ∈ Sample.pass.directives.modules.toList := by decide +kernel
  have hwork : ¬ (Sample.pass.directives.modules.isEmpty = true ∨
      Sample.pass.directives.methods.isEmpty = true ∧
        Sample.start.pools.input.isEmpty = true) := by decide +kernel
  refine ⟨((run_follows_protocol Sample.pass (.start .empty)).1 (by decide +kernel)).1, ?_,
    by decide +kernel⟩
  obtain ⟨found, hfound, -, -, hsteps, -, hall⟩ :=
    (run_follows_protocol Sample.pass Sample.start).2 hwork
  obtain ⟨t, ht⟩ := exists_enter_moment hbusy sample_ends hm
  obtain ⟨u, hu⟩ := exists_enter_moment hbusy sample_ends hn
  refine ⟨found, ?_, ?_, hall sample_ends, hsteps⟩
  · rw [hfound _ t ht]
    exact (sample_readiness t.events).1
  · rw [hfound _ u hu]
    exact (sample_readiness u.events).2

/-! ## A hook that breaks off -/

namespace Halted

/-- The hook of the first module breaks off; the second module has none. -/
def catalog : Catalog where
  libraries := ⟨[("m\\l", Sample.library), ("n\\k", Sample.library)], by decide⟩
  hooks := ⟨[("m", fun _ => .panic)], by decide⟩
  addressable := by decide +kernel

def pass : Pass := ⟨catalog, {}, .parse (some "m\\l,n\\k,fetch") none⟩

end Halted

/-- The second module is asked for and has no hook, and still its library is never looked
up: the run ends in the first module, without a step. -/
theorem protocol_not_always_followed :
    ¬ ∀ (p : Pass) (s : Progress),
      ¬ (p.directives.modules.isEmpty = true ∨
        p.directives.methods.isEmpty = true ∧ s.pools.input.isEmpty = true) →
      ∃ ready : String → Bool,
        (∀ owner t, ⟨.enter owner, t⟩ ∈ p.moments s → ready owner = p.opens owner t.events) ∧
        (p.moments s).map Moment.act =
          p.directives.modules.toList.flatMap (fun e =>
            .enter e.1 :: if ready e.1 then e.2.flatMap (p.libraryActs e.1) else []) ∧
        (p.run s).trace.steps = s.trace.steps ++ (p.moments s).flatMap p.steps := by
  intro hfollowed
  obtain ⟨ready, hready, hacts, htrace⟩ :=
    hfollowed Halted.pass Sample.start (by decide +kernel)
  have hn : ("n", ["n\\k"]) ∈ Halted.pass.directives.modules.toList := by decide +kernel
  have hempty : (Halted.pass.run Sample.start).trace.steps = [] := by decide +kernel
  have henter : .enter "n" ∈ (Halted.pass.moments Sample.start).map Moment.act := by
    rw [hacts]
    exact List.mem_flatMap.mpr ⟨_, hn, List.mem_cons_self⟩
  obtain ⟨⟨_, t⟩, ht, rfl⟩ := List.mem_map.mp henter
  have hopen : ready "n" = true := hready "n" t ht
  have hlook : .look "n" "n\\k" ∈ (Halted.pass.moments Sample.start).map Moment.act := by
    rw [hacts]
    refine List.mem_flatMap.mpr ⟨_, hn, List.mem_cons_of_mem _ ?_⟩
    rw [if_pos hopen]
    exact List.mem_flatMap.mpr ⟨_, List.mem_singleton_self _, List.mem_cons_self⟩
  obtain ⟨⟨_, u⟩, hu, rfl⟩ := List.mem_map.mp hlook
  -- the look-up would have left a step, and there is none
  rw [hempty] at htrace
  have hnone := List.flatMap_eq_nil_iff.mp (List.append_eq_nil_iff.mp htrace.symm).2 _ hu
  simp only [steps] at hnone
  split at hnone <;> cases hnone

example : Halted.pass.ends Sample.start = false := by decide +kernel

end Switchboard.Pass
