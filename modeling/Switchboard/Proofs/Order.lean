import Switchboard.Proofs.Grouping
import Switchboard.Proofs.ResultKeys

/-!
The order of execution. A pass works on the libraries in the order of the registry, so
it goes module by module. Of two libraries that `cmd` lists, the one that is listed first
is done with before the other is begun, if both lie in one module or if its module was
asked for first; then all it has routed is there when a method of the other is checked.
If a library of the other's module stands further in front in `cmd`, the other is done
with first (`libraries_run_module_by_module`), and the order of `cmd` alone decides
nothing (`order_of_cmd_is_not_enough`).
-/

namespace Switchboard.Pass

/-! ## One library before another -/

/-- A run is done with `path` when it comes to a method of `path'`. -/
structure DoneBefore (p : Pass) (input : Input) (path path' : String) : Prop where
  /-- Each call under `path` is made before each call under `path'`. -/
  calls : ∀ (i j : Nat) (method method' : String), (p.made input)[i]? = some (path, method) →
    (p.made input)[j]? = some (path', method') → i < j
  /-- From the first check of a method of `path'` on there is no work on a method of
  `path`, and the input holds what was routed before. -/
  routed : ∀ front m back method, p.moments (.start input) = front ++ m :: back →
    m.act.call? = some (path', method) →
      (∀ m' ∈ m :: back, ∀ method', m'.act.call? ≠ some (path, method')) ∧
        m.before.pools.input = input.write (front.flatMap p.writes)

variable {p : Pass} {path path' : String}

/-- What is planned follows the order of the registry. -/
theorem pairwise_plannedCalls (hne : path ≠ path')
    (h : p.directives.modules.paths.Pairwise fun x y => ¬ (x = path' ∧ y = path)) :
    (p.directives.modules.paths.flatMap p.plannedCalls).Pairwise
      fun c d => ¬ (c.1 = path' ∧ d.1 = path) := by
  rw [List.pairwise_flatMap]
  constructor
  · intro x _
    refine List.pairwise_of_forall_mem_list fun c hc d hd => ?_
    rintro ⟨hc', hd'⟩
    apply hne
    rw [← hc', ← hd', fst_of_mem_plannedCalls hc, fst_of_mem_plannedCalls hd]
  · refine h.imp ?_
    intro x y hnot c hc d hd
    rw [fst_of_mem_plannedCalls hc, fst_of_mem_plannedCalls hd]
    exact hnot

/-- What stands in a list without a `path'` before a `path` stands there in this order. -/
theorem lt_of_pairwise {cs : List (String × String)} (hne : path ≠ path')
    (h : cs.Pairwise fun c d => ¬ (c.1 = path' ∧ d.1 = path)) {i j : Nat}
    {method method' : String} (hi : cs[i]? = some (path, method))
    (hj : cs[j]? = some (path', method')) : i < j := by
  obtain ⟨hi', hi⟩ := List.getElem?_eq_some_iff.mp hi
  obtain ⟨hj', hj⟩ := List.getElem?_eq_some_iff.mp hj
  rcases Nat.lt_trichotomy i j with hlt | heq | hgt
  · exact hlt
  · subst heq
    rw [hi] at hj
    exact absurd (Prod.mk.inj hj).1 hne
  · have hnot := List.pairwise_iff_getElem.mp h j i hj' hi' hgt
    rw [hi, hj] at hnot
    exact absurd ⟨rfl, rfl⟩ hnot

/-- The order of the registry is the order of the run. -/
theorem doneBefore_of_pairwise (hne : path ≠ path')
    (h : p.directives.modules.paths.Pairwise fun x y => ¬ (x = path' ∧ y = path))
    (input : Input) : p.DoneBefore input path path' := by
  have hplanned := pairwise_plannedCalls hne h
  constructor
  · intro i j method method' hi hj
    exact lt_of_pairwise hne (hplanned.sublist (p.made_sublist input)) hi hj
  · intro front m back method hsplit hm
    refine ⟨?_, input_at hsplit⟩
    have hagenda : p.agenda (.start input) = (front ++ m :: back).map Moment.act := by
      rw [← hsplit]
      exact (map_act_trail p _ _).symm
    have hacts := hplanned.sublist (p.filterMap_agenda_sublist (.start input))
    rw [hagenda, List.map_append, List.filterMap_append, List.map_cons,
      List.filterMap_cons_some hm] at hacts
    have hafter := (List.pairwise_cons.mp (List.pairwise_append.mp hacts).2.1).1
    intro m' hm' method' hcall
    rcases List.mem_cons.mp hm' with rfl | hback
    · rw [hm] at hcall
      exact hne (Prod.mk.inj (Option.some.inj hcall)).1.symm
    · have hmem : (path, method') ∈ (back.map Moment.act).filterMap Act.call? :=
        List.mem_filterMap.mpr ⟨m'.act, List.mem_map_of_mem hback, hcall⟩
      exact hafter _ hmem ⟨rfl, rfl⟩

/-! ## The order of `cmd` -/

/-- **Module by module.** Let `cmd` list one library before another. If both lie in one
module, or if the module of the first comes up in `cmd` before that of the other, the run
is done with the first one first. Otherwise the module of the other has come up before,
and the run is done with the other one first. -/
theorem libraries_run_module_by_module (catalog : Catalog) (zone : SafeZone) (raw : String)
    (map : Option String) (input : Input) {path path' owner owner' : String}
    (ho : Token.owner? path = some owner) (ho' : Token.owner? path' = some owner')
    (hlisted : (Path.items raw).idxOf path < (Path.items raw).idxOf path') :
    (owner = owner' ∨ (Path.owners raw).idxOf owner < (Path.owners raw).idxOf owner' →
      DoneBefore ⟨catalog, zone, .parse (some raw) map⟩ input path path') ∧
    (¬ (owner = owner' ∨ (Path.owners raw).idxOf owner < (Path.owners raw).idxOf owner') →
      (Path.owners raw).idxOf owner' < (Path.owners raw).idxOf owner ∧
        DoneBefore ⟨catalog, zone, .parse (some raw) map⟩ input path' path) := by
  have hahead : Ahead (Path.items raw) path path' := .of_idxOf_lt hlisted
  have hne : path ≠ path' := hahead.ne
  constructor
  · intro hfirst
    refine doneBefore_of_pairwise hne (Directives.pairwise_paths_parse map ho ho' ?_) input
    exact hfirst.imp (fun hsame => ⟨hsame, hahead⟩) Ahead.of_idxOf_lt
  · intro hlater
    obtain ⟨hapart, hnot⟩ := not_or.mp hlater
    have hmem : owner ∈ Path.owners raw := List.mem_filterMap.mpr ⟨path, hahead.mem, ho⟩
    have hdiffer : (Path.owners raw).idxOf owner ≠ (Path.owners raw).idxOf owner' :=
      fun heq => hapart ((List.idxOf_inj hmem).mp heq)
    have hfirst : (Path.owners raw).idxOf owner' < (Path.owners raw).idxOf owner := by omega
    refine ⟨hfirst, doneBefore_of_pairwise hne.symm ?_ input⟩
    exact Directives.pairwise_paths_parse map ho' ho (.inr (.of_idxOf_lt hfirst))

namespace Interleaved

/-- Its method gives a token. -/
def session : Library :=
  ((Handlers.empty.method "fetch" fun _ => .value (.str "abc")).withContract
    (.ofList [("fetch", [])])).toLibrary

/-- Of its methods, one requires a token. -/
def cart : Library :=
  (((Handlers.empty.method "use" fun i => .value ((i.get? "token").getD .null)).method
    "list" fun _ => .value .null).withContract
      (.ofList [("use", ["token"]), ("list", [])])).toLibrary

def log : Library :=
  ((Handlers.empty.method "note" fun _ => .value .null).withContract
    (.ofList [("note", [])])).toLibrary

def catalog : Catalog where
  libraries := ⟨[("app\\log", log), ("auth\\session", session), ("app\\cart", cart)], by decide⟩
  hooks := .empty
  addressable := by decide +kernel

/-- The library that gives the token stands in front of the one that requires it. -/
def cmd : String := "app\\log,auth\\session,app\\cart"

def pass : Pass := ⟨catalog, {}, .parse (some cmd) (some "auth\\session\\fetch:token")⟩

def input : Input := .ofList [("x", .null)]

end Interleaved

/-- The log comes before the session, as `cmd` has it; the cart does so too, since `cmd`
has opened its module with the log. -/
theorem interleaved_runs_module_by_module :
    Interleaved.pass.DoneBefore Interleaved.input "app\\log" "auth\\session" ∧
    (Path.items Interleaved.cmd).idxOf "auth\\session" <
      (Path.items Interleaved.cmd).idxOf "app\\cart" ∧
    Interleaved.pass.DoneBefore Interleaved.input "app\\cart" "auth\\session" := by
  have hlog : Token.owner? "app\\log" = some "app" := by decide +kernel
  have hsession : Token.owner? "auth\\session" = some "auth" := by decide +kernel
  have hcart : Token.owner? "app\\cart" = some "app" := by decide +kernel
  have hlisted : (Path.items Interleaved.cmd).idxOf "auth\\session" <
      (Path.items Interleaved.cmd).idxOf "app\\cart" := by decide +kernel
  obtain ⟨hfirst, -⟩ := libraries_run_module_by_module Interleaved.catalog {} Interleaved.cmd
    (some "auth\\session\\fetch:token") Interleaved.input hlog hsession (by decide +kernel)
  obtain ⟨-, hlater⟩ := libraries_run_module_by_module Interleaved.catalog {} Interleaved.cmd
    (some "auth\\session\\fetch:token") Interleaved.input hsession hcart hlisted
  exact ⟨hfirst (by decide +kernel), hlisted, (hlater (by decide +kernel)).2⟩

/-- Two libraries may run in another order than that of `cmd`. -/
theorem order_of_cmd_is_not_enough :
    ¬ ∀ (catalog : Catalog) (zone : SafeZone) (raw : String) (map : Option String)
      (input : Input) (path path' owner owner' : String),
      Token.owner? path = some owner → Token.owner? path' = some owner' →
      path' ∈ Path.items raw →
      (Path.items raw).idxOf path < (Path.items raw).idxOf path' →
      (catalog.library? path).isSome = true → (catalog.library? path').isSome = true →
      (∀ past, opens ⟨catalog, zone, .parse (some raw) map⟩ owner past = true) →
      (∀ past, opens ⟨catalog, zone, .parse (some raw) map⟩ owner' past = true) →
      ∀ (i j : Nat) (method method' : String),
        (made ⟨catalog, zone, .parse (some raw) map⟩ input)[i]? = some (path, method) →
        (made ⟨catalog, zone, .parse (some raw) map⟩ input)[j]? = some (path', method') →
          i < j := by
  intro henough
  have hmade : Interleaved.pass.made Interleaved.input =
      [("app\\log", "note"), ("app\\cart", "list"), ("auth\\session", "fetch")] := by
    decide +kernel
  have hlt := henough Interleaved.catalog {} Interleaved.cmd
    (some "auth\\session\\fetch:token") Interleaved.input "auth\\session" "app\\cart" "auth"
    "app" (by decide +kernel) (by decide +kernel) (by decide +kernel) (by decide +kernel)
    (by decide +kernel) (by decide +kernel) (fun _ => rfl) (fun _ => rfl) 2 1 "fetch" "list"
    (congrArg (·[2]?) hmade) (congrArg (·[1]?) hmade)
  omega

end Switchboard.Pass
