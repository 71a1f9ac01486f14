import Switchboard.Proofs.Gate

/-!
The call ahead of the candidates, under a contract that lists `init`. If the request
names no method, or names `init` too, then `init` is a candidate like any other and
the contract gates it. If the request names methods and leaves `init` out, then
`init` is no candidate: it is called first, whatever its contract requires.
-/

namespace Switchboard.Pass

/-- What is scheduled ahead is the first thing that runs of its library. -/
theorem block_calls_of_initFirst {p : Pass} {path : String} {l : Library}
    (hl : p.catalog.library? path = some l)
    (hi : (p.zone.plan l p.directives.methods).initFirst = true) (owner : String)
    (t : Progress) :
    ∃ rest, (p.block owner path t).flatMap p.calls =
      .invoked path Library.initMethod t.pools.input :: rest := by
  have hacts : p.libraryActs owner path = .look owner path :: .schedule owner path l ::
      (p.zone.candidates l p.directives.methods).map (.check owner path l) := by
    dsimp only [libraryActs, planActs]
    rw [hl]
    dsimp only
    rw [hi]
    rfl
  have hd : l.declares Library.initMethod = true := SafeZone.declares_of_initFirst hi
  have hlook : p.calls ⟨.look owner path, t⟩ = [] := rfl
  have hpools : (p.perform t (.look owner path)).pools = t.pools := rfl
  have hcall : p.calls ⟨.schedule owner path l, p.perform t (.look owner path)⟩ =
      [.invoked path Library.initMethod t.pools.input] := by
    rw [← hpools, calls_of_called rfl, Library.runs, if_pos hd]
  rw [block, hacts, trail, trail, List.flatMap_cons, List.flatMap_cons, hlook, hcall]
  exact ⟨_, rfl⟩

/-- **A listed `init`.** It runs on what it requires, unless the request names other
methods only; then it is the first call of its library, on the input as it is. -/
theorem listed_init_runs (p : Pass) (hz : p.zone.enabled = true) (n : Nat) (s : Progress)
    {path : String} {l : Library} {c : Contract} {required : KeySet}
    (hl : p.catalog.library? path = some l) (hc : l.contract = some c)
    (hr : c.required? Library.initMethod = some required) :
    ∃ ran, (p.runs n s).events = s.events ++ ran ∧
      (p.directives.methods.isEmpty = true ∨
          p.directives.methods.contains Library.initMethod = true ∨
          l.declares Library.initMethod = false →
        ∀ input, .invoked path Library.initMethod input ∈ ran →
          ∀ k ∈ required, k ∈ input.values.keys) ∧
      (p.directives.methods.isEmpty = false ∧
          p.directives.methods.contains Library.initMethod = false ∧
          l.declares Library.initMethod = true →
        ∀ k < n, ∀ owner paths t, (owner, paths) ∈ p.directives.modules.toList →
          path ∈ paths → ⟨.enter owner, t⟩ ∈ p.moments (p.runs k s) →
          p.opens owner t.events = true →
          ∃ t' rest, p.block owner path t' <:+: p.moments (p.runs k s) ∧
            (p.block owner path t').flatMap p.calls =
              .invoked path Library.initMethod t'.pools.input :: rest) := by
  have hlists : c.lists Library.initMethod = true := by
    rw [Contract.lists, hr]
    rfl
  have hfirst := SafeZone.initFirst_of_listed hz hc hlists p.directives.methods
  refine ⟨_, runs_events p n s, fun hgate input hran => ?_, fun habsent => ?_⟩
  · obtain ⟨m, hm, hcall⟩ := List.mem_flatMap.mp hran
    obtain ⟨l', hl', hcase⟩ := admitted_or_scheduled hz (planned_of_mem_momentsOver hm) hcall
    rw [hl] at hl'
    cases hl'
    rcases hcase with hadmitted | ⟨-, hi, -⟩
    · obtain ⟨c', required', hc', hr', hkeys⟩ := hadmitted.satisfied
      rw [hc] at hc'
      cases hc'
      rw [hr] at hr'
      cases hr'
      exact hkeys
    · obtain ⟨he, hn, hd⟩ := hfirst.mp hi
      simp [he, hn, hd] at hgate
  · intro k _ owner paths t he hpath ht ho
    obtain ⟨t', hblock⟩ := exists_block he hpath ht ho
    obtain ⟨rest, hcalls⟩ := block_calls_of_initFirst hl (hfirst.mpr habsent) owner t'
    exact ⟨t', rest, hblock, hcalls⟩

/-! ## A library that lists `init` -/

/-- A catalog of one library, without hooks. -/
def holding (path : String) (l : Library) (h : Catalog.key? path = .ok path) : Catalog where
  libraries := ⟨[(path, l)], List.nodup_singleton path⟩
  hooks := .empty
  addressable := by
    intro k hk
    rw [List.mem_singleton.mp hk]
    exact h

theorem holding_library? {path spelled : String} (l : Library) (h : Catalog.key? path = .ok path)
    (hs : Path.canonical spelled = path) : (holding path l h).library? spelled = some l := by
  rw [Catalog.library?, hs]
  exact if_pos rfl

namespace Guarded

/-- Its `init` requires `seed`. -/
def contract : Contract := .ofList [("init", ["seed"]), ("run", [])]

def library : Library :=
  (((Handlers.empty.method "init" fun _ => .value .null).method
    "run" fun _ => .value .null).withContract contract).toLibrary

def catalog : Catalog := holding "m\\l" library (by decide +kernel)

def pass (cmd : String) : Pass := ⟨catalog, {}, .parse (some cmd) none⟩

theorem library_found : catalog.library? "m\\l" = some library :=
  holding_library? library _ (by decide +kernel)

theorem contract_init : ∃ required, contract.required? Library.initMethod = some required ∧
    "seed" ∈ required := by
  have h : (contract.required? Library.initMethod).map KeySet.toList = some ["seed"] := by
    decide +kernel
  obtain ⟨required, hr, hkeys⟩ := Option.map_eq_some_iff.mp h
  have hmem : "seed" ∈ required.toList := by
    rw [hkeys]
    exact List.mem_singleton_self _
  exact ⟨required, hr, hmem⟩

end Guarded

/-- With no method named, `init` runs on an input that holds `seed`; with `run` named,
it is called first on an input that does not. -/
theorem guarded_init_runs :
    (∃ found, .invoked "m\\l" "init" found ∈
        ((Guarded.pass "m\\l").runs 1 (.start (.ofList [("seed", .null)]))).events ∧
      "seed" ∈ found.values.keys) ∧
    (∃ t rest, ((Guarded.pass "m\\l,run").block "m" "m\\l" t).flatMap
      (Guarded.pass "m\\l,run").calls = .invoked "m\\l" "init" t.pools.input :: rest) := by
  obtain ⟨required, hr, hseed⟩ := Guarded.contract_init
  constructor
  · obtain ⟨ran, heq, hgate, -⟩ := listed_init_runs (Guarded.pass "m\\l") rfl 1
      (.start (.ofList [("seed", .null)])) Guarded.library_found rfl hr
    have hcalled : ("m\\l", "init") ∈ ((Guarded.pass "m\\l").runs 1
        (.start (.ofList [("seed", .null)]))).events.filterMap Event.call? := by decide +kernel
    obtain ⟨e, he, hcall⟩ := List.mem_filterMap.mp hcalled
    obtain ⟨found, rfl⟩ := Event.call?_eq_some.mp hcall
    refine ⟨found, he, ?_⟩
    rw [heq] at he
    exact hgate (.inl (by decide +kernel)) found he "seed" hseed
  · obtain ⟨-, -, -, hfirst⟩ := listed_init_runs (Guarded.pass "m\\l,run") rfl 1
      (.start (.ofList [("x", .null)])) Guarded.library_found rfl hr
    have hbusy : (Guarded.pass "m\\l,run").isIdle (.start (.ofList [("x", .null)])) = false := by
      decide +kernel
    have he : ("m", ["m\\l"]) ∈ (Guarded.pass "m\\l,run").directives.modules.toList := by
      decide +kernel
    obtain ⟨t, ht⟩ := exists_enter_moment hbusy (ends_of_opens (fun _ _ => rfl) _) he
    obtain ⟨t', rest, -, hcalls⟩ := hfirst (by decide +kernel) 0 Nat.one_pos "m" _ t he
      (List.mem_singleton_self _) ht rfl
    exact ⟨t', rest, hcalls⟩

/-- Naming another method lets `init` run without what its contract requires. -/
theorem listed_init_not_always_gated :
    ¬ ∀ (catalog : Catalog) (cmd map : Option String) (input : Input) (path : String)
      (l : Library) (c : Contract) (required : KeySet),
      catalog.library? path = some l → l.contract = some c →
      c.required? Library.initMethod = some required →
      ∀ found, .invoked path Library.initMethod found ∈
          ((Pass.mk catalog ⟨true⟩ (.parse cmd map)).run (.start input)).events →
        ∀ k ∈ required, k ∈ found.values.keys := by
  intro hgated
  obtain ⟨required, hr, hseed⟩ := Guarded.contract_init
  have hran : ((Guarded.pass "m\\l,run").run (.start (.ofList [("x", .null)]))).events.any
      (fun | .invoked "m\\l" "init" found => !found.contains "seed" | _ => false) = true := by
    decide +kernel
  obtain ⟨e, he, habsent⟩ := List.any_eq_true.mp hran
  split at habsent
  · next found =>
    have hkeys := hgated Guarded.catalog (some "m\\l,run") none (.ofList [("x", .null)]) "m\\l"
      Guarded.library Guarded.contract required Guarded.library_found rfl hr found he "seed" hseed
    rw [← Input.contains_iff] at hkeys
    rw [hkeys] at habsent
    cases habsent
  · cases habsent

end Switchboard.Pass
