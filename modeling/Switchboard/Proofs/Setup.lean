import Switchboard.Proofs.Once

/-!
The place of `init` in the part of a run that belongs to its library. If `init` is no
candidate, it is the first call of that part and is not repeated in it. If it is a
candidate, it is one like any other: it waits for its turn, and it does not run at
all if the input then lacks what its contract requires.
-/

namespace Switchboard.Pass

/-! ## A look-up and the work behind it -/

/-- Wherever a look-up stands, all the work on its path stands there. -/
def Contiguous (p : Pass) (as : List Act) : Prop :=
  ∀ front owner path back, as = front ++ .look owner path :: back →
    p.libraryActs owner path <+: .look owner path :: back

theorem Contiguous.append {p : Pass} {as bs : List Act} (ha : p.Contiguous as)
    (hb : p.Contiguous bs) : p.Contiguous (as ++ bs) := by
  intro front owner path back h
  rcases List.append_eq_append_iff.mp h with ⟨mid, -, hbs⟩ | ⟨mid, has, hmid⟩
  · exact hb mid owner path back hbs
  · cases mid with
    | nil => exact hb [] owner path back hmid.symm
    | cons a mid =>
      rw [List.cons_append] at hmid
      obtain ⟨rfl, rfl⟩ := List.cons.inj hmid
      exact (ha front owner path mid has).trans (List.prefix_append _ bs)

theorem contiguous_of_no_look {p : Pass} {as : List Act}
    (h : ∀ owner path, Act.look owner path ∉ as) : p.Contiguous as := by
  rintro front owner path back rfl
  exact absurd (List.mem_append_right _ List.mem_cons_self) (h owner path)

theorem contiguous_nil (p : Pass) : p.Contiguous [] :=
  contiguous_of_no_look fun _ _ => List.not_mem_nil

theorem contiguous_flatMap {p : Pass} {α : Type} {f : α → List Act} {xs : List α}
    (h : ∀ x ∈ xs, p.Contiguous (f x)) : p.Contiguous (xs.flatMap f) := by
  induction xs with
  | nil => exact p.contiguous_nil
  | cons x xs ih =>
    rw [List.flatMap_cons]
    exact (h x List.mem_cons_self).append (ih fun y hy => h y (List.mem_cons_of_mem _ hy))

/-- The work on a path begins with its look-up, and there is no other look-up in it. -/
theorem exists_libraryActs_eq (p : Pass) (owner path : String) :
    ∃ rest, p.libraryActs owner path = .look owner path :: rest ∧
      ∀ owner' path', Act.look owner' path' ∉ rest := by
  refine ⟨_, rfl, fun owner' path' h => ?_⟩
  cases hl : p.catalog.library? path with
  | none =>
    rw [hl] at h
    cases h
  | some l =>
    rw [hl] at h
    rcases mem_planActs.mp h with ⟨-, h⟩ | ⟨m, -, h⟩ <;> cases h

theorem contiguous_libraryActs (p : Pass) (owner path : String) :
    p.Contiguous (p.libraryActs owner path) := by
  obtain ⟨rest, hacts, hrest⟩ := p.exists_libraryActs_eq owner path
  intro front owner' path' back h
  rw [hacts] at h
  cases front with
  | nil =>
    obtain ⟨heq, rfl⟩ := List.cons.inj h
    cases heq
    exact hacts ▸ List.prefix_rfl
  | cons a front =>
    obtain ⟨-, rfl⟩ := List.cons.inj h
    exact absurd (List.mem_append_right _ List.mem_cons_self) (hrest owner' path')

theorem contiguous_moduleActs (p : Pass) (entry : String × List String) (ready : Bool) :
    p.Contiguous (p.moduleActs entry ready) := by
  have henter : p.Contiguous [.enter entry.1] := contiguous_of_no_look (by simp)
  refine henter.append ?_
  cases ready with
  | false => exact p.contiguous_nil
  | true => exact contiguous_flatMap fun path _ => p.contiguous_libraryActs entry.1 path

theorem contiguous_agenda (p : Pass) (s : Progress) : p.Contiguous (p.agenda s) := by
  cases hi : p.isIdle s with
  | true =>
    rw [agenda, if_pos hi]
    exact p.contiguous_nil
  | false =>
    obtain ⟨found, hacts, -⟩ := exists_agenda_eq hi
    rw [hacts]
    exact contiguous_flatMap fun e _ => p.contiguous_moduleActs e (found e.1).isReady

/-- From a look-up on, a run goes through the work on the path without a break. -/
theorem block_infix_of_look {p : Pass} {s t : Progress} {owner path : String}
    (h : ⟨.look owner path, t⟩ ∈ p.moments s) : p.block owner path t <:+: p.moments s := by
  obtain ⟨front, back, hsplit⟩ := List.append_of_mem h
  obtain ⟨as₁, as₂, hacts, -, hbefore⟩ := trail_split hsplit
  obtain ⟨rest, hrest⟩ := p.contiguous_agenda s as₁ owner path as₂ hacts
  refine ⟨p.trail as₁ s, p.trail rest ((p.libraryActs owner path).foldl p.perform t), ?_⟩
  rw [moments, hacts, trail_append, ← hbefore, ← hrest, trail_append, List.append_assoc, block]

theorem look_mem_block (p : Pass) (owner path : String) (t : Progress) :
    ⟨.look owner path, t⟩ ∈ p.block owner path t := by
  obtain ⟨rest, hacts, -⟩ := p.exists_libraryActs_eq owner path
  rw [block, hacts, trail]
  exact List.mem_cons_self

/-- Where every module is ready, each path asked for is looked up. -/
theorem exists_look_moment {p : Pass} {s : Progress} {owner path : String} {paths : List String}
    (hi : p.isIdle s = false) (ho : ∀ owner past, p.opens owner past = true)
    (he : (owner, paths) ∈ p.directives.modules.toList) (hpath : path ∈ paths) :
    ∃ t, ⟨.look owner path, t⟩ ∈ p.moments s := by
  obtain ⟨t, ht⟩ := exists_enter_moment hi (ends_of_opens ho s) he
  obtain ⟨u, hblock⟩ := exists_block he hpath ht (ho owner t.events)
  exact ⟨u, hblock.subset (p.look_mem_block owner path u)⟩

/-! ## The calls in the part of a library -/

theorem calls_of_not_enter {p : Pass} {m : Moment} (h : ∀ owner, m.act ≠ .enter owner) :
    p.calls m = match p.called? m with
      | none => []
      | some (path, l, method) => l.runs path method m.before.pools.input := by
  obtain ⟨a, s⟩ := m
  cases a with
  | enter owner => exact absurd rfl (h owner)
  | look owner path => rfl
  | schedule owner path l => rfl
  | check owner path l method => rfl

/-- All that runs there are methods, under the one path. -/
theorem exists_of_mem_block_calls {p : Pass} {owner path : String} {t : Progress} {e : Event}
    (h : e ∈ (p.block owner path t).flatMap p.calls) :
    ∃ method input, e = .invoked path method input := by
  obtain ⟨m, hm, he⟩ := List.mem_flatMap.mp h
  have hact : m.act ∈ p.libraryActs owner path :=
    (mem_iff_exists_moment p _ t _).mpr ⟨m.before, hm⟩
  have henter : ∀ owner', m.act ≠ .enter owner' := fun owner' heq =>
    p.enter_not_mem_libraryActs owner owner' path (heq ▸ hact)
  rw [calls_of_not_enter henter] at he
  split at he
  · cases he
  · next path' l method hc =>
    obtain ⟨-, rfl⟩ := Library.mem_runs.mp he
    have hplanned : (path', method) ∈ p.plannedCalls path := by
      rw [← p.filterMap_libraryActs owner path]
      exact List.mem_filterMap.mpr ⟨m.act, hact, call?_of_called hc⟩
    have hpath : path' = path := fst_of_mem_plannedCalls hplanned
    rw [hpath]
    exact ⟨method, _, rfl⟩

theorem nodup_block_calls (p : Pass) (owner path : String) (t : Progress) :
    (((p.block owner path t).flatMap p.calls).filterMap Event.call?).Nodup := by
  refine List.Nodup.sublist ?_ (p.nodup_plannedCalls path)
  rw [← p.filterMap_libraryActs owner path]
  exact p.filterMap_trail_sublist _ t

/-! ## The place of `init` -/

/-- **The place of `init`.** A library that is found begins its part of the run with
`init` and never comes back to it, unless `init` is a candidate; then it is judged in
its turn and runs once at most. -/
theorem init_has_its_place (p : Pass) (hz : p.zone.enabled = true) (s : Progress)
    {owner path : String} {t : Progress} {l : Library}
    (hlook : ⟨.look owner path, t⟩ ∈ p.moments s) (hl : p.catalog.library? path = some l)
    (hd : l.declares Library.initMethod = true) :
    p.block owner path t <:+: p.moments s ∧
    (Library.initMethod ∉ p.zone.candidates l p.directives.methods →
      ∃ rest, (p.block owner path t).flatMap p.calls =
          .invoked path Library.initMethod t.pools.input :: rest ∧
        ∀ e ∈ rest, ∃ method input, e = .invoked path method input ∧
          method ≠ Library.initMethod) ∧
    (Library.initMethod ∈ p.zone.candidates l p.directives.methods →
      (((p.block owner path t).flatMap p.calls).filterMap Event.call?).count
          (path, Library.initMethod) ≤ 1 ∧
        ∃ c required u, l.contract = some c ∧ c.required? Library.initMethod = some required ∧
          p.Judged owner path l Library.initMethod required t u) := by
  have hnodup := p.nodup_block_calls owner path t
  refine ⟨block_infix_of_look hlook, fun hn => ?_, fun hm => ?_⟩
  · obtain ⟨rest, hcalls⟩ := block_calls_of_initFirst hl
      ((SafeZone.initFirst_of_enabled hz l _).mpr ⟨hd, hn⟩) owner t
    refine ⟨rest, hcalls, fun e he => ?_⟩
    have hblock : e ∈ (p.block owner path t).flatMap p.calls := by
      rw [hcalls]
      exact List.mem_cons_of_mem _ he
    obtain ⟨method, input, rfl⟩ := exists_of_mem_block_calls hblock
    refine ⟨method, input, rfl, ?_⟩
    rintro rfl
    -- a second `init` would stand twice among the calls
    have hmem : (path, Library.initMethod) ∈ rest.filterMap Event.call? :=
      List.mem_filterMap.mpr ⟨_, he, rfl⟩
    rw [hcalls] at hnodup
    exact (List.nodup_cons.mp hnodup).1 hmem
  · exact ⟨List.nodup_iff_count_le_one.mp hnodup _, judged_of_candidate hz t hl hm⟩

theorem mem_made_of_mem_block {p : Pass} {owner path method : String} {input found : Input}
    {t : Progress} (hlook : ⟨.look owner path, t⟩ ∈ p.moments (.start input))
    (h : .invoked path method found ∈ (p.block owner path t).flatMap p.calls) :
    (path, method) ∈ p.made input :=
  mem_made_of_block (block_infix_of_look hlook) h

namespace Guarded

/-- An input without `seed`. -/
def unseeded : Input := .ofList [("x", .null)]

theorem exists_look (cmd : String) (hi : (pass cmd).isIdle (.start unseeded) = false)
    (he : ("m", ["m\\l"]) ∈ (pass cmd).directives.modules.toList) :
    ∃ t, ⟨.look "m" "m\\l", t⟩ ∈ (pass cmd).moments (.start unseeded) :=
  exists_look_moment hi (fun _ _ => rfl) he (List.mem_singleton_self _)

end Guarded

/-- With `run` named, `init` is no candidate and comes first; with no method named, it
is a candidate and is judged. -/
theorem guarded_init_has_its_place :
    (∃ t rest, ((Guarded.pass "m\\l,run").block "m" "m\\l" t).flatMap
        (Guarded.pass "m\\l,run").calls = .invoked "m\\l" "init" t.pools.input :: rest ∧
      ∀ e ∈ rest, ∃ method input, e = .invoked "m\\l" method input ∧ method ≠ "init") ∧
    (∃ t c required u, Guarded.library.contract = some c ∧
      c.required? "init" = some required ∧
        (Guarded.pass "m\\l").Judged "m" "m\\l" Guarded.library "init" required t u) := by
  constructor
  · obtain ⟨t, ht⟩ := Guarded.exists_look "m\\l,run" (by decide +kernel) (by decide +kernel)
    obtain ⟨-, hfirst, -⟩ := init_has_its_place (Guarded.pass "m\\l,run") rfl _ ht
      Guarded.library_found (by decide +kernel)
    obtain ⟨rest, hcalls, hrest⟩ := hfirst (by decide +kernel)
    exact ⟨t, rest, hcalls, hrest⟩
  · obtain ⟨t, ht⟩ := Guarded.exists_look "m\\l" (by decide +kernel) (by decide +kernel)
    obtain ⟨-, -, hjudged⟩ := init_has_its_place (Guarded.pass "m\\l") rfl _ ht
      Guarded.library_found (by decide +kernel)
    obtain ⟨-, c, required, u, hc, hr, hj⟩ := hjudged (by decide +kernel)
    exact ⟨t, c, required, u, hc, hr, hj⟩

/-- A candidate that is denied does not run, not even if it is `init`. -/
theorem init_not_always_first :
    ¬ ∀ (catalog : Catalog) (directives : Directives) (input : Input) (owner path : String)
      (t : Progress) (l : Library),
      ⟨.look owner path, t⟩ ∈ (Pass.mk catalog ⟨true⟩ directives).moments (.start input) →
      catalog.library? path = some l → l.declares Library.initMethod = true →
      (Library.initMethod ∉ SafeZone.candidates ⟨true⟩ l directives.methods ∨
        ∃ u c required k,
          ⟨.check owner path l Library.initMethod, u⟩ ∈
            (Pass.mk catalog ⟨true⟩ directives).block owner path t ∧
          l.contract = some c ∧ c.required? Library.initMethod = some required ∧
          k ∈ required ∧ k ∉ u.pools.input.values.keys) →
      ∃ found, .invoked path Library.initMethod found ∈
        ((Pass.mk catalog ⟨true⟩ directives).block owner path t).flatMap
          (Pass.mk catalog ⟨true⟩ directives).calls := by
  intro hfirst
  obtain ⟨t, ht⟩ := Guarded.exists_look "m\\l" (by decide +kernel) (by decide +kernel)
  have hmade : ("m\\l", "init") ∉ (Guarded.pass "m\\l").made Guarded.unseeded := by
    decide +kernel
  have hnever : ∀ found, .invoked "m\\l" "init" found ∉
      ((Guarded.pass "m\\l").block "m" "m\\l" t).flatMap (Guarded.pass "m\\l").calls :=
    fun found h => hmade (mem_made_of_mem_block ht h)
  have hjudge : ∃ c required u, Guarded.library.contract = some c ∧
      c.required? Library.initMethod = some required ∧
        (Guarded.pass "m\\l").Judged "m" "m\\l" Guarded.library Library.initMethod required t u :=
    judged_of_candidate rfl t Guarded.library_found (by decide +kernel)
  obtain ⟨c, required, u, hc, hr, hjudged⟩ := hjudge
  have hlacks : ∃ k ∈ required, k ∉ u.pools.input.values.keys := by
    by_contra hall
    simp only [not_exists, not_and, not_not] at hall
    obtain ⟨hcalls, -⟩ := hjudged.allowed hall
    refine hnever u.pools.input (List.mem_flatMap.mpr ⟨_, hjudged.reached, ?_⟩)
    rw [hcalls]
    exact List.mem_singleton_self _
  obtain ⟨k, hk, habsent⟩ := hlacks
  obtain ⟨found, hran⟩ := hfirst Guarded.catalog (.parse (some "m\\l") none) Guarded.unseeded "m"
    "m\\l" t Guarded.library ht Guarded.library_found (by decide +kernel)
    (.inr ⟨u, c, required, k, hjudged.reached, hc, hr, hk, habsent⟩)
  exact hnever found hran

end Switchboard.Pass
