import Switchboard.Proofs.Gate
import Switchboard.Proofs.SideBySide

/-!
What does not run has no influence. Two catalogs offer the same if the same paths find
libraries of the same face in both and the same modules have hooks; what is answered is
open. If all that ran in a run with the one would have been answered alike by the other
(`Catalog.AnswersAlike`), the run with the other is the same, step by step and in all that
it leaves (`Pass.only_what_runs_matters`). What a method would have answered that was
denied, not asked for or not declared is therefore never seen, since it is not in the log.
-/

namespace Switchboard

/-! ## Catalogs that offer the same -/

/-- The same paths find libraries of the same face, and the same modules have hooks. -/
structure Catalog.SameOffer (c c' : Catalog) : Prop where
  faces : c.SameFaces c'
  hooks : ∀ owner, c.hooks.contains owner = c'.hooks.contains owner

/-- What ran behind `past` would end the same way in both catalogs. -/
def Catalog.AgreeOn (c c' : Catalog) (past : History) : Event → Prop
  | .hook owner => c.runHook? owner past = c'.runHook? owner past
  | .invoked path method input => ∀ l l', c.library? path = some l → c'.library? path = some l' →
    l.invoke past method input = l'.invoke past method input

/-- So would all that a log shows, each thing behind what the log shows before it. -/
def Catalog.AnswersAlike (c c' : Catalog) (ran : History) : Prop :=
  ∀ past e, past ++ [e] <+: ran → c.AgreeOn c' past e

theorem Catalog.AnswersAlike.of_prefix {c c' : Catalog} {part ran : History}
    (h : c.AnswersAlike c' ran) (hpart : part <+: ran) : c.AnswersAlike c' part :=
  fun past e he => h past e (he.trans hpart)

/-! ## Loops that only add to the log -/

section Loops

variable {α : Type} {f g : Progress → α → Progress}

theorem events_prefix_foldl (hgrow : ∀ s a, s.events <+: (f s a).events) (as : List α)
    (s : Progress) : s.events <+: (as.foldl f s).events := by
  induction as generalizing s with
  | nil => exact List.prefix_rfl
  | cons a as ih => exact (hgrow s a).trans (ih (f s a))

/-- Two loops come to the same if each round does that is answered alike: the log of a
round is a part of the log of the whole. -/
theorem foldl_eq_of_alike {c c' : Catalog} (hgrow : ∀ s a, s.events <+: (f s a).events)
    {as : List α} {s : Progress}
    (hround : ∀ t, ∀ a ∈ as, c.AnswersAlike c' (f t a).events → f t a = g t a)
    (h : c.AnswersAlike c' (as.foldl f s).events) : as.foldl f s = as.foldl g s := by
  induction as generalizing s with
  | nil => rfl
  | cons a as ih =>
    have hfirst : f s a = g s a :=
      hround s a List.mem_cons_self (h.of_prefix (events_prefix_foldl hgrow as (f s a)))
    rw [List.foldl_cons, List.foldl_cons, ← hfirst]
    exact ih (fun t b hb => hround t b (List.mem_cons_of_mem _ hb)) h

end Loops

/-! ## Loops that may break off -/

section Breaking

open Pass (upshot)

variable {α : Type} {f g : Progress → α → Except Progress Progress}

theorem events_prefix_foldlM (hgrow : ∀ s a, s.events <+: (upshot (f s a)).events) (as : List α)
    (s : Progress) : s.events <+: (upshot (as.foldlM f s)).events := by
  induction as generalizing s with
  | nil => exact List.prefix_rfl
  | cons a as ih =>
    have hfirst := hgrow s a
    rw [List.foldlM_cons]
    cases hf : f s a with
    | error t =>
      rw [hf] at hfirst
      exact hfirst
    | ok t =>
      rw [hf] at hfirst
      exact hfirst.trans (ih t)

theorem events_prefix_foldlM_cons (hgrow : ∀ s a, s.events <+: (upshot (f s a)).events) (a : α)
    (as : List α) (s : Progress) :
    (upshot (f s a)).events <+: (upshot ((a :: as).foldlM f s)).events := by
  rw [List.foldlM_cons]
  cases f s a with
  | error t => exact List.prefix_rfl
  | ok t => exact events_prefix_foldlM hgrow as t

/-- They come to the same too, and break off in the same round if they do. -/
theorem foldlM_eq_of_alike {c c' : Catalog}
    (hgrow : ∀ s a, s.events <+: (upshot (f s a)).events) {as : List α} {s : Progress}
    (hround : ∀ t, ∀ a ∈ as, c.AnswersAlike c' (upshot (f t a)).events → f t a = g t a)
    (h : c.AnswersAlike c' (upshot (as.foldlM f s)).events) : as.foldlM f s = as.foldlM g s := by
  induction as generalizing s with
  | nil => rfl
  | cons a as ih =>
    have hfirst : f s a = g s a :=
      hround s a List.mem_cons_self (h.of_prefix (events_prefix_foldlM_cons hgrow a as s))
    rw [List.foldlM_cons] at h
    rw [List.foldlM_cons, List.foldlM_cons, ← hfirst]
    cases hf : f s a with
    | error t => rfl
    | ok t =>
      rw [hf] at h
      exact ih (fun u b hb => hround u b (List.mem_cons_of_mem _ hb)) h

end Breaking

namespace Pass

section Growth

variable (p : Pass)

theorem events_prefix_perform (s : Progress) (a : Act) : s.events <+: (p.perform s a).events := by
  rw [perform_events]
  exact List.prefix_append _ _

theorem events_prefix_acts (as : List Act) (s : Progress) :
    s.events <+: (as.foldl p.perform s).events :=
  events_prefix_foldl p.events_prefix_perform as s

theorem events_prefix_runLibrary (owner : String) (s : Progress) (path : String) :
    s.events <+: (p.runLibrary owner s path).events := by
  rw [runLibrary_eq_foldl]
  exact p.events_prefix_acts _ s

theorem events_prefix_runModule (s : Progress) (entry : String × List String) :
    s.events <+: (upshot (p.runModule s entry)).events := by
  rw [upshot_runModule]
  exact p.events_prefix_acts _ s

end Growth

/-! ## Two passes, one log -/

section Same

variable {c c' : Catalog} {z : SafeZone} {d : Directives} {s : Progress} {owner path : String}
  {l l' : Library}

theorem call_eq (hface : l.SameFace l') (hl : c.library? path = some l)
    (hl' : c'.library? path = some l') {method : String}
    (h : c.AnswersAlike c' (call ⟨c, z, d⟩ owner path l method s).events) :
    call ⟨c, z, d⟩ owner path l method s = call ⟨c', z, d⟩ owner path l' method s := by
  rw [call_events, Library.runs] at h
  simp only [call, Pools.call]
  rw [← hface.declares]
  cases hd : l.declares method with
  | false => rfl
  | true =>
    rw [if_pos hd] at h
    have hanswer : l.invoke s.events method s.pools.input =
        l'.invoke s.events method s.pools.input := h _ _ List.prefix_rfl l l' hl hl'
    rw [hanswer]

theorem consider_eq (hface : l.SameFace l') (hl : c.library? path = some l)
    (hl' : c'.library? path = some l') {method : String}
    (h : c.AnswersAlike c' (consider ⟨c, z, d⟩ owner path l s method).events) :
    consider ⟨c, z, d⟩ owner path l s method = consider ⟨c', z, d⟩ owner path l' s method := by
  simp only [consider] at h ⊢
  rw [← hface.authorize]
  cases ha : z.authorize l method s.pools.input with
  | allow =>
    rw [ha] at h
    exact call_eq hface hl hl' h
  | deny missing => rfl

theorem runPlan_eq (hface : l.SameFace l') (hl : c.library? path = some l)
    (hl' : c'.library? path = some l')
    (h : c.AnswersAlike c' (runPlan ⟨c, z, d⟩ owner path l s).events) :
    runPlan ⟨c, z, d⟩ owner path l s = runPlan ⟨c', z, d⟩ owner path l' s := by
  have hgrow : ∀ t method, t.events <+: (consider ⟨c, z, d⟩ owner path l t method).events :=
    fun t method => events_prefix_perform ⟨c, z, d⟩ t (.check owner path l method)
  simp only [runPlan] at h ⊢
  rw [← hface.plan]
  have hfirst : (if (z.plan l d.methods).initFirst then callInit ⟨c, z, d⟩ owner path l s else s) =
      if (z.plan l d.methods).initFirst then callInit ⟨c', z, d⟩ owner path l' s else s := by
    have hbegun := h.of_prefix (events_prefix_foldl hgrow _ _)
    split
    · next hi =>
      rw [if_pos hi] at hbegun
      exact call_eq hface hl hl' hbegun
    · rfl
  rw [← hfirst]
  exact foldl_eq_of_alike hgrow (fun t method _ ht => consider_eq hface hl hl' ht) h

theorem runLibrary_eq (hc : c.SameOffer c')
    (h : c.AnswersAlike c' (runLibrary ⟨c, z, d⟩ owner s path).events) :
    runLibrary ⟨c, z, d⟩ owner s path = runLibrary ⟨c', z, d⟩ owner s path := by
  have hrel := hc.faces path
  simp only [runLibrary] at h ⊢
  cases hl : c.library? path with
  | none =>
    rw [hl] at hrel
    cases hl' : c'.library? path with
    | none => rfl
    | some l' =>
      rw [hl'] at hrel
      cases hrel
  | some l =>
    obtain ⟨l', hl', hface⟩ := hc.faces.exists_library hl
    rw [hl] at h
    rw [hl']
    exact runPlan_eq hface hl hl' h

theorem bootstrap_eq (hc : c.SameOffer c')
    (h : c.AnswersAlike c' (bootstrap ⟨c, z, d⟩ owner s).2.events) :
    bootstrap ⟨c, z, d⟩ owner s = bootstrap ⟨c', z, d⟩ owner s := by
  have hsame : c.runHook? owner s.events = c'.runHook? owner s.events := by
    have hevents := perform_events ⟨c, z, d⟩ s (.enter owner)
    simp only [perform, calls] at hevents
    rw [hevents] at h
    cases hhook : c.runHook? owner s.events with
    | none =>
      have hnone : c'.hooks.contains owner = false := by
        rw [← hc.hooks, Table.contains, Option.map_eq_none_iff.mp hhook]
        rfl
      rw [Table.contains, Option.isSome_eq_false_iff, Option.isNone_iff_eq_none] at hnone
      rw [Catalog.runHook?, hnone, Option.map_none]
    | some ending =>
      rw [hhook] at h
      have hagree : c.runHook? owner s.events = c'.runHook? owner s.events := h _ _ List.prefix_rfl
      rw [← hagree, hhook]
  simp only [bootstrap]
  rw [hsame]

theorem runModule_eq (hc : c.SameOffer c') {entry : String × List String}
    (h : c.AnswersAlike c' (upshot (runModule ⟨c, z, d⟩ s entry)).events) :
    runModule ⟨c, z, d⟩ s entry = runModule ⟨c', z, d⟩ s entry := by
  have hgrow := events_prefix_runLibrary ⟨c, z, d⟩ entry.1
  unfold runModule at h ⊢
  have hboot : bootstrap ⟨c, z, d⟩ entry.1 s = bootstrap ⟨c', z, d⟩ entry.1 s := by
    refine bootstrap_eq hc (h.of_prefix ?_)
    split
    · next t hb =>
      rw [hb]
      exact events_prefix_foldl hgrow _ _
    · next t hb =>
      rw [hb]
      exact List.prefix_rfl
    · next t hb =>
      rw [hb]
      exact List.prefix_rfl
  rw [← hboot]
  split
  · next t hb =>
    rw [hb] at h
    exact congrArg Except.ok (foldl_eq_of_alike hgrow (fun u path _ hu => runLibrary_eq hc hu) h)
  · rfl
  · rfl

theorem run_eq (hc : c.SameOffer c') (h : c.AnswersAlike c' (run ⟨c, z, d⟩ s).events) :
    run ⟨c, z, d⟩ s = run ⟨c', z, d⟩ s := by
  have hidle : isIdle ⟨c, z, d⟩ s = isIdle ⟨c', z, d⟩ s := rfl
  unfold run attempt at h ⊢
  rw [← hidle]
  split
  · rfl
  · next hi =>
    rw [if_neg hi] at h
    exact congrArg upshot (foldlM_eq_of_alike (events_prefix_runModule ⟨c, z, d⟩)
      (fun t entry _ ht => runModule_eq hc ht) h)

theorem runs_eq (hc : c.SameOffer c') {n : Nat}
    (h : c.AnswersAlike c' (runs ⟨c, z, d⟩ n s).events) :
    runs ⟨c, z, d⟩ n s = runs ⟨c', z, d⟩ n s := by
  induction n generalizing s with
  | zero => rfl
  | succ n ih =>
    have hgrow : (run ⟨c, z, d⟩ s).events <+: (runs ⟨c, z, d⟩ (n + 1) s).events := by
      rw [runs, runs_eq_foldl]
      exact events_prefix_acts _ _ _
    have hfirst : run ⟨c, z, d⟩ s = run ⟨c', z, d⟩ s := run_eq hc (h.of_prefix hgrow)
    rw [runs, runs, ← hfirst]
    exact ih h

end Same

end Pass

/-! ## What a zone lets run -/

/-- Two catalogs give the same answers wherever a zone lets a call run, and have the same
hooks. -/
structure Catalog.AgreeWithin (c c' : Catalog) (z : SafeZone) (requested : MethodList) : Prop where
  hooks : ∀ owner past, c.runHook? owner past = c'.runHook? owner past
  answers : ∀ path l l', c.library? path = some l → c'.library? path = some l' →
    ∀ method input, z.LetsRun l requested method input →
      ∀ past, l.invoke past method input = l'.invoke past method input

namespace Pass

/-- What runs in a pass was let run, on the input it saw. -/
theorem letsRun_of_invoked {p : Pass} {n : Nat} {input found : Input} {path method : String}
    (h : .invoked path method found ∈ (p.runs n (.start input)).events) :
    ∃ l, p.catalog.library? path = some l ∧
      p.zone.LetsRun l p.directives.methods method found := by
  rw [runs_events] at h
  obtain ⟨m, hm, hcall⟩ := List.mem_flatMap.mp h
  obtain ⟨l, hc, -, rfl⟩ := mem_calls_invoked.mp hcall
  exact ⟨l, letsRun_of_called (planned_of_mem_momentsOver hm) hc⟩

theorem answersAlike_of_agreeWithin {c c' : Catalog} {z : SafeZone} {d : Directives}
    (h : c.AgreeWithin c' z d.methods) (n : Nat) (input : Input) :
    c.AnswersAlike c' (runs ⟨c, z, d⟩ n (.start input)).events := by
  intro past e he
  have hmem : e ∈ (runs ⟨c, z, d⟩ n (.start input)).events :=
    he.subset (List.mem_append_right _ (List.mem_singleton_self e))
  cases e with
  | hook owner => exact h.hooks owner past
  | invoked path method found =>
    intro l l' hl hl'
    obtain ⟨l₀, hl₀, hruns⟩ := letsRun_of_invoked hmem
    obtain rfl : l₀ = l := Option.some.inj (hl₀.symm.trans hl)
    exact h.answers path l₀ l' hl hl' method found hruns past

/-! ## What does not run has no influence -/

/-- **Only what runs matters.** If two catalogs that offer the same would have answered
alike in all that ran with the one, then any number of runs with the other come to the
same: the same results, input and trace, and the same calls. Nothing ran but what the zone
lets run, so it is enough that they answer alike there. -/
theorem only_what_runs_matters {c c' : Catalog} (hoffer : c.SameOffer c') (z : SafeZone)
    (d : Directives) (n : Nat) (input : Input) :
    (c.AnswersAlike c' (runs ⟨c, z, d⟩ n (.start input)).events →
      runs ⟨c, z, d⟩ n (.start input) = runs ⟨c', z, d⟩ n (.start input)) ∧
    (∀ path method found,
      .invoked path method found ∈ (runs ⟨c, z, d⟩ n (.start input)).events →
        ∃ l, c.library? path = some l ∧ l.declares method = true ∧
          z.LetsRun l d.methods method found) ∧
    (c.AgreeWithin c' z d.methods →
      runs ⟨c, z, d⟩ n (.start input) = runs ⟨c', z, d⟩ n (.start input)) := by
  refine ⟨runs_eq hoffer, fun path method found hran => ?_, fun hagree => ?_⟩
  · obtain ⟨l, hl, hruns⟩ := letsRun_of_invoked hran
    exact ⟨l, hl, hruns.plans.declares, hruns⟩
  · exact runs_eq hoffer (answersAlike_of_agreeWithin hagree n input)

/-! ## Answers that are never seen -/

namespace Unseen

/-- The library of the sample, but `use` and `locked` break off. -/
def library : Library :=
  { Sample.library with
    invoke := fun past method input =>
      if method = "use" ∨ method = "locked" then .panic (some "never seen")
      else Sample.library.invoke past method input }

/-- The hooks of the sample, and another library. -/
def catalog (l : Library) : Catalog where
  libraries := ⟨[("m\\l", l)], List.nodup_singleton _⟩
  hooks := Sample.catalog.hooks
  addressable := Sample.catalog.addressable

theorem library?_catalog (l : Library) (path : String) :
    (catalog l).library? path = if "m\\l" = Path.canonical path then some l else none := rfl

theorem sameOffer {l l' : Library} (hface : l.SameFace l') :
    (catalog l).SameOffer (catalog l') where
  faces := by
    intro path
    rw [library?_catalog, library?_catalog]
    split
    · exact .some hface
    · exact .none
  hooks := fun _ => rfl

/-- All but those two answer alike. -/
theorem invoke_eq {path method : String} (hother : ¬ (method = "use" ∨ method = "locked"))
    {l l' : Library} (hl : (catalog Sample.library).library? path = some l)
    (hl' : (catalog library).library? path = some l') (past : History) (found : Input) :
    l.invoke past method found = l'.invoke past method found := by
  rw [library?_catalog] at hl hl'
  split at hl
  · next hpath =>
    rw [if_pos hpath] at hl'
    cases hl
    cases hl'
    exact (if_neg hother).symm
  · cases hl

def run (l : Library) : Progress := Pass.run { Sample.pass with catalog := catalog l } Sample.start

theorem run_calls : (run Sample.library).events.filterMap Event.call? =
    [("m\\l", "init"), ("m\\l", "fetch"), ("m\\l", "fail"), ("m\\l", "stop")] := by decide +kernel

theorem answersAlike :
    (catalog Sample.library).AnswersAlike (catalog library) (run Sample.library).events := by
  intro past e he
  have hmem : e ∈ (run Sample.library).events :=
    he.subset (List.mem_append_right _ (List.mem_singleton_self e))
  cases e with
  | hook owner => exact rfl
  | invoked path method found =>
    have hcall : (path, method) ∈ (run Sample.library).events.filterMap Event.call? :=
      List.mem_filterMap.mpr ⟨_, hmem, rfl⟩
    have hother : ¬ (method = "use" ∨ method = "locked") := by
      rw [run_calls] at hcall
      rintro (rfl | rfl) <;> simp at hcall
    intro l l' hl hl'
    exact invoke_eq hother hl hl' past found

/-- Where only `fetch` is asked for, neither of the two is ever let run. -/
theorem agreeWithin : (catalog Sample.library).AgreeWithin (catalog library) {}
    (Directives.parse (some "m\\l,fetch") none).methods where
  hooks := fun _ _ => rfl
  answers := by
    intro path l l' hl hl' method found hruns past
    have hnamed : (Directives.parse (some "m\\l,fetch") none).methods.toList = ["fetch"] := by
      decide +kernel
    have hasked := hruns.plans.asked (by decide +kernel)
    have hother : ¬ (method = "use" ∨ method = "locked") := by
      rw [hnamed] at hasked
      rintro (rfl | rfl) <;> revert hasked <;> decide
    exact invoke_eq hother hl hl' past found

end Unseen

/-- In one run of the sample `use` is denied and `locked` too, so nothing tells whether they
would break off; and in two runs that ask for `fetch` only, neither is let run. -/
theorem unseen_answers_do_not_matter :
    Unseen.run Sample.library = Unseen.run Unseen.library ∧
    (Unseen.run Unseen.library).pools.results.table.keys =
      ["m\\l\\fetch", "m\\l\\fail", "m\\l\\stop"] ∧
    runs ⟨Unseen.catalog Sample.library, {}, .parse (some "m\\l,fetch") none⟩ 2 Sample.start =
      runs ⟨Unseen.catalog Unseen.library, {}, .parse (some "m\\l,fetch") none⟩ 2 Sample.start := by
  have hoffer : (Unseen.catalog Sample.library).SameOffer (Unseen.catalog Unseen.library) :=
    Unseen.sameOffer ⟨rfl, rfl⟩
  obtain ⟨hsame, -, -⟩ := only_what_runs_matters hoffer {} Sample.pass.directives 1
    (.ofList [("seed", .bool true)])
  obtain ⟨-, -, hwithin⟩ := only_what_runs_matters hoffer {}
    (.parse (some "m\\l,fetch") none) 2 (.ofList [("seed", .bool true)])
  have heq : Unseen.run Sample.library = Unseen.run Unseen.library := hsame Unseen.answersAlike
  refine ⟨heq, ?_, hwithin Unseen.agreeWithin⟩
  rw [← heq]
  decide +kernel

end Pass

end Switchboard
