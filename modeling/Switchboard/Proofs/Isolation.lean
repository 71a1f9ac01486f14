import Mathlib.Data.List.Forall2
import Switchboard.Proofs.InitFirst
import Switchboard.Proofs.Registry
import Switchboard.Proofs.SideBySide

/-!
Failures stay where they happen. Two catalogs that differ in one method only, which
fails in one of them where it gives null in the other, take a pass through the same
input to the same input, to the same results but for those of that method, and
through the same steps but for the words on what that method came to. The two passes
go in step: what holds between them (`Progress.Alike`) is kept by every call, check,
hook and look-up, and so by a whole run.
-/

namespace Switchboard

universe u

/-! ## Catalogs that differ in one method -/

namespace Answer

/-- A fault, or no answer at all. -/
def fails : Answer → Bool
  | value _ => false
  | fault _ => true
  | panic _ => true

/-- One of two answers fails where the other is null. -/
def Hushed (a b : Answer) : Prop :=
  a.fails = true ∧ b = .value .null ∨ a = .value .null ∧ b.fails = true

end Answer

/-- Two libraries that are called alike and answer alike, but that where `varies` holds
one may fail where the other gives null. -/
structure Library.Variant (varies : String → Prop) (l l' : Library) : Prop where
  methods : l.methods = l'.methods
  contract : l.contract = l'.contract
  answers : ∀ past method input, l.invoke past method input = l'.invoke past method input ∨
    varies method ∧ (l.invoke past method input).Hushed (l'.invoke past method input)

/-- Two catalogs that are the same but for `method` of the library under `key`. -/
structure Catalog.Variant (key method : String) (c c' : Catalog) : Prop where
  hooks : ∀ owner past, c.runHook? owner past = c'.runHook? owner past
  elsewhere : ∀ k, k ≠ key → c.libraries.get? k = c'.libraries.get? k
  here : ∃ l l', c.libraries.get? key = some l ∧ c'.libraries.get? key = some l' ∧
    l.Variant (· = method) l'

namespace Library.Variant

variable {varies : String → Prop} {l l' : Library}

theorem refl (varies : String → Prop) (l : Library) : l.Variant varies l :=
  ⟨rfl, rfl, fun _ _ _ => .inl rfl⟩

theorem sameFace (h : l.Variant varies l') : l.SameFace l' := ⟨h.methods, h.contract⟩

end Library.Variant

/-- A path finds nothing in both catalogs, or libraries that vary only if it is a path
of the one that varies. -/
theorem Catalog.Variant.library? {key method : String} {c c' : Catalog}
    (h : c.Variant key method c') (path : String) :
    (c.library? path = none ∧ c'.library? path = none) ∨
      ∃ l l', c.library? path = some l ∧ c'.library? path = some l' ∧
        l.Variant (fun m => m = method ∧ Path.canonical path = key) l' := by
  unfold Catalog.library?
  by_cases hk : Path.canonical path = key
  · obtain ⟨l, l', hl, hl', hv⟩ := h.here
    refine .inr ⟨l, l', by rw [hk, hl], by rw [hk, hl'], hv.methods, hv.contract, ?_⟩
    intro past m input
    exact (hv.answers past m input).imp_right fun ⟨hm, hhushed⟩ => ⟨⟨hm, hk⟩, hhushed⟩
  · rw [← h.elsewhere _ hk]
    cases c.libraries.get? (Path.canonical path) with
    | none => exact .inl ⟨rfl, rfl⟩
    | some l => exact .inr ⟨l, l, rfl, rfl, Library.Variant.refl _ l⟩

/-! ## Results but for some keys -/

theorem Entries.filter_put {α : Type u} (keep : String → Bool) (k : String) (v : α)
    (es : List (String × α)) :
    (put k v es).filter (fun e => keep e.1) =
      if keep k then put k v (es.filter fun e => keep e.1) else es.filter fun e => keep e.1 := by
  induction es with
  | nil => cases h : keep k <;> simp [put, h]
  | cons e es ih =>
    by_cases he : e.1 = k
    · subst he
      cases h : keep e.1 <;> simp [put, h]
    · rw [put, if_neg he, List.filter_cons, List.filter_cons, ih]
      cases keep e.1 <;> cases keep k <;> simp [put, he]

namespace Results

/-- The results that stand under other keys than `keys`, in the order held. -/
def without (keys : List String) (r : Results) : List (String × Json) :=
  r.toList.filter fun e => !keys.contains e.1

theorem without_record (keys : List String) (r : Results) (k : String) (v : Json) :
    (r.record k v).without keys =
      if keys.contains k then r.without keys else Entries.put k v (r.without keys) := by
  refine (Entries.filter_put (fun k => !keys.contains k) k v r.toList).trans ?_
  cases keys.contains k <;> rfl

end Results

/-! ## Calls -/

namespace Pools

/-- The same input, and the same results but for those under `keys`. -/
structure Alike (keys : List String) (q q' : Pools) : Prop where
  input : q.input = q'.input
  results : q.results.without keys = q'.results.without keys

variable {keys : List String} {q q' : Pools}

theorem Alike.record (h : q.Alike keys q') (k : String) (v : Json) :
    (q.results.record k v).without keys = (q'.results.record k v).without keys := by
  rw [Results.without_record, Results.without_record, h.results]

/-- What is recorded under one of `keys` makes no difference. -/
theorem without_record_of_mem {k : String} (hk : k ∈ keys) (v : Json) (r : Results) :
    (r.record k v).without keys = r.without keys := by
  rw [Results.without_record, if_pos (List.contains_iff_mem.mpr hk)]

/-- The same thing taken in on both sides comes to the same. -/
theorem Alike.settle (h : q.Alike keys q') (routes : Routes) (k : String)
    (result : Except Fault Json) :
    (q.settle routes k result).1 = (q'.settle routes k result).1 ∧
      (q.settle routes k result).2.Alike keys (q'.settle routes k result).2 := by
  cases result with
  | error f => exact ⟨rfl, h.input, h.record k _⟩
  | ok v =>
    cases hv : v.isNull with
    | true =>
      simp only [Pools.settle, hv, ↓reduceIte]
      exact ⟨trivial, h⟩
    | false =>
      simp only [Pools.settle, hv, Bool.false_eq_true, ↓reduceIte, store]
      split
      · exact ⟨rfl, by rw [h.input], h.record k v⟩
      · exact ⟨rfl, h.input, h.record k v⟩

/-- Under one of `keys`, a failure and null come to the same pools. -/
theorem Alike.settle_hushed (h : q.Alike keys q') (routes : Routes) {k : String} (hk : k ∈ keys)
    {a b : Answer} (hab : a.Hushed b) (method : String) :
    (q.settle routes k (a.settle method)).2.Alike keys
      (q'.settle routes k (b.settle method)).2 := by
  have herror : ∀ a : Answer, a.fails = true → ∃ f, a.settle method = .error f := by
    intro a ha
    cases a with
    | value v => cases ha
    | fault f => exact ⟨f, rfl⟩
    | panic payload => cases payload <;> exact ⟨_, rfl⟩
  rcases hab with ⟨ha, rfl⟩ | ⟨rfl, hb⟩
  · obtain ⟨f, hf⟩ := herror a ha
    rw [hf]
    exact ⟨h.input, (without_record_of_mem hk _ _).trans h.results⟩
  · obtain ⟨f, hf⟩ := herror b hb
    rw [hf]
    exact ⟨h.input, h.results.trans (without_record_of_mem hk _ _).symm⟩

/-- A call leaves the pools alike, and comes to the same unless its method varies. -/
theorem Alike.call (h : q.Alike keys q') {varies : String → Prop} {l l' : Library}
    (hl : l.Variant varies l') {path : String}
    (hk : ∀ m, varies m → Path.resultKey path m ∈ keys) (routes : Routes) (method : String)
    (past : History) :
    (q.call routes path l method past).2.Alike keys (q'.call routes path l' method past).2 ∧
      ((q.call routes path l method past).1 = (q'.call routes path l' method past).1 ∨
        varies method) := by
  unfold Pools.call
  rw [← hl.sameFace.declares, ← h.input]
  cases l.declares method with
  | false => exact ⟨h, .inl rfl⟩
  | true =>
    simp only [↓reduceIte]
    rcases hl.answers past method q.input with hsame | ⟨hvaries, hhushed⟩
    · rw [hsame]
      obtain ⟨houtcome, hpools⟩ := h.settle routes (Path.resultKey path method)
        ((l'.invoke past method q.input).settle method)
      exact ⟨hpools, .inl houtcome⟩
    · exact ⟨h.settle_hushed routes (hk method hvaries) hhushed method, .inr hvaries⟩

end Pools

/-! ## Steps -/

/-- The same step, or two that tell in other words what a call of `method` came to, on a
path of the library under `key`. -/
def TraceStep.SameBut (key method : String) (x y : TraceStep) : Prop :=
  x = y ∨ x.check = "invoke" ∧ x.method = some method ∧
    (∃ path, x.library = some path ∧ Path.canonical path = key) ∧
      y = { x with outcome := y.outcome }

/-- Passes that went through the same but for `method` of the library under `key`. -/
structure Progress.Alike (key method : String) (keys : List String) (s s' : Progress) : Prop where
  pools : s.pools.Alike keys s'.pools
  steps : List.Forall₂ (TraceStep.SameBut key method) s.trace.steps s'.trace.steps
  events : s.events = s'.events

namespace Progress.Alike

variable {key method : String} {keys : List String} {s s' : Progress}

theorem start (key method : String) (keys : List String) (input : Input) :
    (Progress.start input).Alike key method keys (.start input) :=
  ⟨⟨rfl, rfl⟩, .nil, rfl⟩

theorem note (h : s.Alike key method keys s') {x y : TraceStep} (hxy : x.SameBut key method y) :
    (s.note x).Alike key method keys (s'.note y) :=
  ⟨h.pools, List.rel_append h.steps (.cons hxy .nil), h.events⟩

theorem note_same (h : s.Alike key method keys s') (x : TraceStep) :
    (s.note x).Alike key method keys (s'.note x) := h.note (.inl rfl)

theorem log (h : s.Alike key method keys s') (e : Event) :
    (s.log e).Alike key method keys (s'.log e) :=
  ⟨h.pools, h.steps, by rw [log_events, log_events, h.events]⟩

end Progress.Alike

/-! ## Two passes in step -/

/-- The paths that a request spells the library under `key` with. -/
def Modules.spellings (m : Modules) (key : String) : List String :=
  m.paths.filter fun path => Path.canonical path = key

/-- The result keys of `method` under those paths. -/
def Modules.resultKeys (m : Modules) (key method : String) : List String :=
  (m.spellings key).map (Path.resultKey · method)

theorem Modules.mem_resultKeys {m : Modules} {key path : String} (hp : path ∈ m.paths)
    (hk : Path.canonical path = key) (method : String) :
    Path.resultKey path method ∈ m.resultKeys key method :=
  List.mem_map_of_mem (List.mem_filter.mpr ⟨hp, decide_eq_true hk⟩)

namespace Pass

section InStep

variable {key method : String} {c c' : Catalog} {z : SafeZone} {d : Directives}
  {s s' : Progress} {path : String} {l l' : Library}

/-- What two passes have in common, one for each of the catalogs. -/
abbrev Alike (key method : String) (d : Directives) (s s' : Progress) : Prop :=
  s.Alike key method (d.modules.resultKeys key method) s'

theorem alike_call (hl : l.Variant (fun m => m = method ∧ Path.canonical path = key) l')
    (hp : path ∈ d.modules.paths) (owner m : String) (hs : Alike key method d s s') :
    Alike key method d (call ⟨c, z, d⟩ owner path l m s) (call ⟨c', z, d⟩ owner path l' m s') := by
  have hk : ∀ m, m = method ∧ Path.canonical path = key →
      Path.resultKey path m ∈ d.modules.resultKeys key method := by
    rintro m ⟨rfl, hpath⟩
    exact Modules.mem_resultKeys hp hpath m
  obtain ⟨hpools, houtcome⟩ := hs.pools.call hl hk d.routes m s.events
  rw [hs.events] at hpools houtcome
  have hruns : l.runs path m s.pools.input = l'.runs path m s'.pools.input := by
    rw [Library.runs, Library.runs, hl.sameFace.declares, hs.pools.input]
  constructor
  · rw [call_pools, call_pools, hs.events]
    exact hpools
  · rw [call_steps, call_steps]
    refine List.rel_append hs.steps (.cons ?_ .nil)
    rw [invokeStep, invokeStep, hs.events]
    rcases houtcome with hsame | ⟨rfl, hpath⟩
    · exact .inl (by rw [hsame])
    · exact .inr ⟨rfl, rfl, ⟨path, rfl, hpath⟩, rfl⟩
  · rw [call_events, call_events, hs.events, hruns]

theorem alike_consider (hl : l.Variant (fun m => m = method ∧ Path.canonical path = key) l')
    (hp : path ∈ d.modules.paths) (owner m : String) (hs : Alike key method d s s') :
    Alike key method d (consider ⟨c, z, d⟩ owner path l s m)
      (consider ⟨c', z, d⟩ owner path l' s' m) := by
  simp only [consider]
  rw [← hl.sameFace.authorize, ← hs.pools.input]
  cases z.authorize l m s.pools.input with
  | allow => exact alike_call hl hp owner m (hs.note_same _)
  | deny missing => exact hs.note_same _

theorem alike_runPlan (hl : l.Variant (fun m => m = method ∧ Path.canonical path = key) l')
    (hp : path ∈ d.modules.paths) (owner : String) (hs : Alike key method d s s') :
    Alike key method d (runPlan ⟨c, z, d⟩ owner path l s)
      (runPlan ⟨c', z, d⟩ owner path l' s') := by
  simp only [runPlan]
  rw [← hl.sameFace.plan]
  refine List.foldl_rel ?_ fun m _ t t' ht => alike_consider hl hp owner m ht
  split
  · exact alike_call hl hp owner _ (hs.note_same _)
  · exact hs

theorem alike_runLibrary (hc : c.Variant key method c') (hp : path ∈ d.modules.paths)
    (owner : String) (hs : Alike key method d s s') :
    Alike key method d (runLibrary ⟨c, z, d⟩ owner s path)
      (runLibrary ⟨c', z, d⟩ owner s' path) := by
  simp only [runLibrary]
  rcases hc.library? path with ⟨hnone, hnone'⟩ | ⟨l, l', hl, hl', hv⟩
  · rw [hnone, hnone']
    exact hs.note_same _
  · rw [hl, hl']
    exact alike_runPlan hv hp owner (hs.note_same _)

theorem alike_bootstrap (hc : c.Variant key method c') (owner : String)
    (hs : Alike key method d s s') :
    (bootstrap ⟨c, z, d⟩ owner s).1 = (bootstrap ⟨c', z, d⟩ owner s').1 ∧
      Alike key method d (bootstrap ⟨c, z, d⟩ owner s).2 (bootstrap ⟨c', z, d⟩ owner s').2 := by
  simp only [bootstrap]
  rw [← hc.hooks, ← hs.events]
  rcases c.runHook? owner s.events with _ | ⟨_ | _⟩ | _
  · exact ⟨rfl, hs⟩
  · exact ⟨rfl, (hs.log _).note_same _⟩
  · exact ⟨rfl, (hs.log _).note_same _⟩
  · exact ⟨rfl, hs.log _⟩

/-- Both go on, or both broke off, and what they came to has the same in common. -/
inductive AlikeSoFar (key method : String) (d : Directives) :
    Except Progress Progress → Except Progress Progress → Prop
  | goesOn {s s' : Progress} (h : Alike key method d s s') :
    AlikeSoFar key method d (.ok s) (.ok s')
  | brokeOff {s s' : Progress} (h : Alike key method d s s') :
    AlikeSoFar key method d (.error s) (.error s')

theorem AlikeSoFar.upshot {a b : Except Progress Progress} (h : AlikeSoFar key method d a b) :
    Alike key method d (Pass.upshot a) (Pass.upshot b) := by
  cases h with
  | goesOn h => exact h
  | brokeOff h => exact h

theorem alike_runModule (hc : c.Variant key method c') {entry : String × List String}
    (he : entry ∈ d.modules.toList) (hs : Alike key method d s s') :
    AlikeSoFar key method d (runModule ⟨c, z, d⟩ s entry) (runModule ⟨c', z, d⟩ s' entry) := by
  obtain ⟨hfound, hboot⟩ := alike_bootstrap (z := z) hc entry.1 hs
  unfold runModule
  cases hb : bootstrap ⟨c, z, d⟩ entry.1 s with
  | mk found t =>
    cases hb' : bootstrap ⟨c', z, d⟩ entry.1 s' with
    | mk found' t' =>
      rw [hb, hb'] at hfound hboot
      dsimp only at hfound hboot
      subst hfound
      cases found with
      | leftOut => exact .goesOn hboot
      | broken => exact .brokeOff hboot
      | ready =>
        refine .goesOn (List.foldl_rel hboot fun path hp u u' hu => ?_)
        exact alike_runLibrary hc (List.mem_flatMap.mpr ⟨entry, he, hp⟩) entry.1 hu

theorem alike_foldlM (hc : c.Variant key method c') {entries : List (String × List String)}
    (he : entries ⊆ d.modules.toList) (hs : Alike key method d s s') :
    AlikeSoFar key method d (entries.foldlM (runModule ⟨c, z, d⟩) s)
      (entries.foldlM (runModule ⟨c', z, d⟩) s') := by
  induction entries generalizing s s' with
  | nil => exact .goesOn hs
  | cons e es ih =>
    have hfirst := alike_runModule (z := z) hc (he List.mem_cons_self) hs
    rw [List.foldlM_cons, List.foldlM_cons]
    generalize runModule ⟨c, z, d⟩ s e = a at hfirst
    generalize runModule ⟨c', z, d⟩ s' e = b at hfirst
    cases hfirst with
    | goesOn h => exact ih (List.subset_of_cons_subset he) h
    | brokeOff h => exact .brokeOff h

theorem alike_run (hc : c.Variant key method c') (hs : Alike key method d s s') :
    Alike key method d (run ⟨c, z, d⟩ s) (run ⟨c', z, d⟩ s') := by
  have hidle : isIdle ⟨c, z, d⟩ s = isIdle ⟨c', z, d⟩ s' := by
    simp only [isIdle, hs.pools.input]
  unfold run attempt
  rw [hidle]
  split
  · exact hs
  · exact (alike_foldlM hc (List.Subset.refl _) hs).upshot

theorem alike_runs (hc : c.Variant key method c') (n : Nat) (hs : Alike key method d s s') :
    Alike key method d (runs ⟨c, z, d⟩ n s) (runs ⟨c', z, d⟩ n s') := by
  induction n generalizing s s' with
  | zero => exact hs
  | succ n ih => exact ih (alike_run hc hs)

end InStep

/-- **Failures are isolated.** Whether one method of one library fails or gives null, as
often as it likes, makes no difference to the input, to the results of the others and
to what is done; it shows in the words on its own calls only. -/
theorem failures_are_isolated {key method : String} {c c' : Catalog}
    (hc : c.Variant key method c') (z : SafeZone) (d : Directives) (input : Input) (n : Nat) :
    (runs ⟨c, z, d⟩ n (.start input)).pools.input =
      (runs ⟨c', z, d⟩ n (.start input)).pools.input ∧
    (runs ⟨c, z, d⟩ n (.start input)).pools.results.without (d.modules.resultKeys key method) =
      (runs ⟨c', z, d⟩ n (.start input)).pools.results.without
        (d.modules.resultKeys key method) ∧
    List.Forall₂ (TraceStep.SameBut key method)
      (runs ⟨c, z, d⟩ n (.start input)).trace.steps
      (runs ⟨c', z, d⟩ n (.start input)).trace.steps := by
  have h : Alike key method d (runs ⟨c, z, d⟩ n (.start input))
      (runs ⟨c', z, d⟩ n (.start input)) :=
    alike_runs hc n (Progress.Alike.start key method _ input)
  exact ⟨h.pools.input, h.pools.results, h.steps⟩

/-! ## A method that stops -/

theorem holding_variant {path method : String} {l l' : Library}
    (h : Catalog.key? path = .ok path) (hv : l.Variant (· = method) l') :
    (holding path l h).Variant path method (holding path l' h) where
  hooks := fun _ _ => rfl
  elsewhere := by
    intro k hk
    simp [holding, Table.get?, Entries.get?, Ne.symm hk]
  here := ⟨l, l', if_pos rfl, if_pos rfl, hv⟩

namespace Stopping

/-- What `stop` answers is open; `fetch` answers a token. -/
def library (answer : Answer) : Library where
  methods := ["stop", "fetch"]
  contract := some (.ofList [("stop", []), ("fetch", [])])
  invoke := fun _ method _ => if method = "stop" then answer else .value (.str "abc")

theorem key?_path : Catalog.key? "m\\l" = .ok "m\\l" := by decide +kernel

def catalog (answer : Answer) : Catalog := holding "m\\l" (library answer) key?_path

/-- The library is asked for in both spellings, and its token is routed. -/
def directives : Directives := .parse (some "m\\l,\\m\\l") (some "m\\l\\fetch:token")

def input : Input := .ofList [("x", .null)]

theorem variant {a b : Answer} (h : a.Hushed b) :
    (catalog a).Variant "m\\l" "stop" (catalog b) := by
  refine holding_variant _ ⟨rfl, rfl, fun past method input => ?_⟩
  by_cases hm : method = "stop"
  · exact .inr ⟨hm, by simpa [library, hm] using h⟩
  · exact .inl (by simp [library, hm])

end Stopping

/-- With a `stop` that breaks off, two results more are held, and the input is the same. -/
theorem stopping_is_isolated :
    (runs ⟨Stopping.catalog (.panic none), {}, Stopping.directives⟩ 1
      (.start Stopping.input)).pools.results.table.keys =
        ["m\\l\\stop", "m\\l\\fetch", "\\m\\l\\stop", "\\m\\l\\fetch"] ∧
    (runs ⟨Stopping.catalog (.value .null), {}, Stopping.directives⟩ 1
      (.start Stopping.input)).pools.results.table.keys =
        ["m\\l\\fetch", "\\m\\l\\fetch"] ∧
    (runs ⟨Stopping.catalog (.panic none), {}, Stopping.directives⟩ 1
      (.start Stopping.input)).pools.input =
      (runs ⟨Stopping.catalog (.value .null), {}, Stopping.directives⟩ 1
        (.start Stopping.input)).pools.input := by
  have hvariant : (Stopping.catalog (.panic none)).Variant "m\\l" "stop"
      (Stopping.catalog (.value .null)) := Stopping.variant (.inl ⟨rfl, rfl⟩)
  obtain ⟨hinput, -, -⟩ :=
    failures_are_isolated hvariant {} Stopping.directives Stopping.input 1
  exact ⟨by decide +kernel, by decide +kernel, hinput⟩

end Pass

end Switchboard
