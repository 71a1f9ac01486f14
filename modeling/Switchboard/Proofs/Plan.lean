import Switchboard.SafeZone

/-!
What the safe zone plans and decides, for every library and request: the
candidates are declared methods, each once, and `init` is either among them or
ahead of them, never both. While the zone is on, a candidate is allowed exactly
when each name its contract requires is a name of the input.
-/

namespace Switchboard

/-- All that a plan names, in order of execution. -/
def Plan.methods (p : Plan) : List String :=
  (if p.initFirst then [Library.initMethod] else []) ++ p.candidates

namespace SafeZone

/-! ## Candidates -/

theorem mem_candidates_of_enabled {z : SafeZone} (hz : z.enabled = true) (l : Library)
    (requested : MethodList) (m : String) :
    m ∈ z.candidates l requested ↔
      l.declares m = true ∧ (∃ c, l.contract = some c ∧ c.lists m = true) ∧
        (requested.isEmpty = false → requested.contains m = true) := by
  unfold candidates
  rw [if_pos hz]
  cases hc : l.contract with
  | none => simp
  | some c =>
    cases he : requested.isEmpty with
    | true => simp [List.mem_filter, c.lists_iff, and_comm]
    | false =>
      have hr : m ∈ requested.toList ↔ requested.contains m = true :=
        (requested.contains_iff m).symm
      simp only [Bool.false_eq_true, ↓reduceIte, List.mem_filter, hr, Bool.and_eq_true,
        Option.some.injEq, exists_eq_left', forall_const]
      exact ⟨fun h => ⟨h.2.2, h.2.1, h.1⟩, fun h => ⟨h.2.2, h.2.1, h.1⟩⟩

theorem mem_candidates_of_disabled {z : SafeZone} (hz : z.enabled = false) (l : Library)
    (requested : MethodList) (m : String) :
    m ∈ z.candidates l requested ↔ l.declares m = true ∧ m ∈ requested.toList := by
  rw [candidates, hz]
  exact List.mem_filter.trans and_comm

theorem declares_of_mem_candidates {z : SafeZone} {l : Library} {requested : MethodList}
    {m : String} (hm : m ∈ z.candidates l requested) : l.declares m = true := by
  cases hz : z.enabled with
  | true => exact ((mem_candidates_of_enabled hz l requested m).mp hm).1
  | false => exact ((mem_candidates_of_disabled hz l requested m).mp hm).1

/-- Where any methods are asked for, the candidates are among them. -/
theorem mem_requested_of_mem_candidates {z : SafeZone} {l : Library} {requested : MethodList}
    {m : String} (hm : m ∈ z.candidates l requested) (hr : requested.isEmpty = false) :
    m ∈ requested.toList := by
  cases hz : z.enabled with
  | true =>
    obtain ⟨-, -, hasked⟩ := (mem_candidates_of_enabled hz l requested m).mp hm
    exact (requested.contains_iff m).mp (hasked hr)
  | false => exact ((mem_candidates_of_disabled hz l requested m).mp hm).2

/-- Candidates stand in the order in which they were asked for, or in that of the contract. -/
theorem candidates_sublist (z : SafeZone) (l : Library) (requested : MethodList) :
    (z.candidates l requested).Sublist
      (if requested.isEmpty then (l.contract.map Contract.methods).getD []
        else requested.toList) := by
  unfold candidates
  cases he : requested.isEmpty with
  | true =>
    have hnil : requested.toList = [] := List.isEmpty_iff.mp he
    cases l.contract with
    | none => simp [hnil]
    | some c => cases z.enabled <;> simp [hnil]
  | false =>
    cases l.contract with
    | none => cases z.enabled <;> simp
    | some c => cases z.enabled <;> simp

/-- No method is a candidate twice. -/
theorem nodup_candidates (z : SafeZone) (l : Library) (requested : MethodList) :
    (z.candidates l requested).Nodup := by
  refine List.Nodup.sublist (z.candidates_sublist l requested) ?_
  split
  · cases l.contract with
    | none => exact List.nodup_nil
    | some c => exact c.table.nodup
  · exact requested.nodup

/-! ## The call ahead of the candidates -/

theorem declares_of_initFirst {z : SafeZone} {l : Library} {requested : MethodList}
    (h : (z.plan l requested).initFirst = true) : l.declares Library.initMethod = true := by
  simp only [plan, Bool.and_eq_true] at h
  exact h.1.2

theorem init_not_mem_of_initFirst {z : SafeZone} {l : Library} {requested : MethodList}
    (h : (z.plan l requested).initFirst = true) :
    Library.initMethod ∉ (z.plan l requested).candidates := by
  simp only [plan, Bool.and_eq_true, Bool.not_eq_true'] at h
  intro hm
  rw [← List.contains_iff_mem] at hm
  rw [plan, h.2] at hm
  exact Bool.false_ne_true hm

/-- While the zone is on, `init` goes ahead unless it is a candidate. -/
theorem initFirst_of_enabled {z : SafeZone} (hz : z.enabled = true) (l : Library)
    (requested : MethodList) :
    (z.plan l requested).initFirst = true ↔
      l.declares Library.initMethod = true ∧
        Library.initMethod ∉ z.candidates l requested := by
  simp [plan, hz]

/-- A listed `init` goes ahead just when the request names methods and leaves it out. -/
theorem initFirst_of_listed {z : SafeZone} (hz : z.enabled = true) {l : Library} {c : Contract}
    (hc : l.contract = some c) (hi : c.lists Library.initMethod = true) (requested : MethodList) :
    (z.plan l requested).initFirst = true ↔
      requested.isEmpty = false ∧ requested.contains Library.initMethod = false ∧
        l.declares Library.initMethod = true := by
  rw [initFirst_of_enabled hz, mem_candidates_of_enabled hz]
  constructor
  · rintro ⟨hd, hn⟩
    have hrequested : ¬ (requested.isEmpty = false →
        requested.contains Library.initMethod = true) := fun h => hn ⟨hd, ⟨c, hc, hi⟩, h⟩
    obtain ⟨he, hr⟩ := Classical.not_imp.mp hrequested
    exact ⟨he, Bool.eq_false_iff.mpr hr, hd⟩
  · rintro ⟨he, hr, hd⟩
    refine ⟨hd, ?_⟩
    rintro ⟨-, -, h⟩
    rw [h he] at hr
    cases hr

/-! ## What a plan names -/

/-- The plan has a place for a method: ahead of the candidates, or among them. -/
def Plans (z : SafeZone) (l : Library) (requested : MethodList) (m : String) : Prop :=
  (z.plan l requested).initFirst = true ∧ m = Library.initMethod ∨ m ∈ z.candidates l requested

section

variable {z : SafeZone} {l : Library} {requested : MethodList} {m : String}

theorem mem_methods_plan : m ∈ (z.plan l requested).methods ↔ z.Plans l requested m := by
  rw [Plan.methods, List.mem_append]
  refine or_congr ?_ Iff.rfl
  cases (z.plan l requested).initFirst <;> simp

/-- The call ahead is no candidate, so a plan names no method twice. -/
theorem nodup_methods_plan (z : SafeZone) (l : Library) (requested : MethodList) :
    (z.plan l requested).methods.Nodup := by
  have hn := nodup_candidates z l requested
  unfold Plan.methods
  split
  · next hi => exact List.nodup_cons.mpr ⟨init_not_mem_of_initFirst hi, hn⟩
  · exact hn

theorem Plans.declares (h : z.Plans l requested m) : l.declares m = true := by
  rcases h with ⟨hi, rfl⟩ | hm
  · exact declares_of_initFirst hi
  · exact declares_of_mem_candidates hm

/-- Where any methods are asked for, only those are planned, and `init`. -/
theorem Plans.asked (h : z.Plans l requested m) (hr : requested.isEmpty = false) :
    m = Library.initMethod ∨ m ∈ requested.toList := by
  rcases h with ⟨-, hm⟩ | hm
  · exact .inl hm
  · exact .inr (mem_requested_of_mem_candidates hm hr)

/-- While the zone is off, all of those that are declared are planned. -/
theorem plans_of_disabled (hz : z.enabled = false) (hr : requested.isEmpty = false)
    (hd : l.declares m = true) (hm : m = Library.initMethod ∨ m ∈ requested.toList) :
    z.Plans l requested m := by
  by_cases hmem : m ∈ requested.toList
  · exact .inr ((mem_candidates_of_disabled hz l requested m).mpr ⟨hd, hmem⟩)
  · left
    obtain rfl : m = Library.initMethod := hm.resolve_right hmem
    have hno : Library.initMethod ∉ z.candidates l requested :=
      fun h => hmem (mem_requested_of_mem_candidates h hr)
    refine ⟨?_, rfl⟩
    simp [plan, hr, hd, hno]

/-- While the zone is off and no method is asked for, nothing is planned. -/
theorem not_plans_of_disabled (hz : z.enabled = false) (hr : requested.isEmpty = true) :
    ¬ z.Plans l requested m := by
  rintro (⟨hi, -⟩ | hm)
  · simp [plan, hz, hr] at hi
  · obtain ⟨-, hmem⟩ := (mem_candidates_of_disabled hz l requested m).mp hm
    rw [List.isEmpty_iff.mp hr] at hmem
    cases hmem

/-- A declared `init` has a place in each plan, but for a zone that is off and a request that
names no method. -/
theorem plans_init_iff :
    z.Plans l requested Library.initMethod ↔
      l.declares Library.initMethod = true ∧
        (z.enabled = true ∨ requested.isEmpty = false) := by
  constructor
  · intro h
    refine ⟨h.declares, ?_⟩
    cases hz : z.enabled with
    | true => exact .inl rfl
    | false =>
      cases hr : requested.isEmpty with
      | true => exact absurd h (not_plans_of_disabled hz hr)
      | false => exact .inr rfl
  · rintro ⟨hd, hon⟩
    by_cases hm : Library.initMethod ∈ z.candidates l requested
    · exact .inr hm
    · refine .inl ⟨?_, rfl⟩
      rcases hon with hz | hr
      · simp [plan, hd, hm, hz]
      · simp [plan, hd, hm, hr]

/-- A call that the zone lets run on an input: the one ahead of the candidates, or that of
a candidate which is allowed. -/
def LetsRun (z : SafeZone) (l : Library) (requested : MethodList) (m : String)
    (input : Input) : Prop :=
  m = Library.initMethod ∧ (z.plan l requested).initFirst = true ∨
    m ∈ z.candidates l requested ∧ z.authorize l m input = .allow

theorem LetsRun.plans {input : Input} (h : z.LetsRun l requested m input) :
    z.Plans l requested m := by
  rcases h with ⟨hinit, hfirst⟩ | ⟨hm, -⟩
  · exact .inl ⟨hfirst, hinit⟩
  · exact .inr hm

end

/-! ## Decisions -/

theorem authorize_of_required {z : SafeZone} (hz : z.enabled = true) {l : Library} {c : Contract}
    {m : String} {required : KeySet} (hc : l.contract = some c)
    (hr : c.required? m = some required) (input : Input) :
    z.authorize l m input =
      if input.missing required = [] then .allow else .deny (input.missing required) := by
  simp [authorize, hz, hc, hr, List.isEmpty_iff]

theorem authorize_eq_allow_iff {z : SafeZone} (hz : z.enabled = true) (l : Library) (m : String)
    (input : Input) :
    z.authorize l m input = .allow ↔
      ∃ c required, l.contract = some c ∧ c.required? m = some required ∧
        ∀ k ∈ required, k ∈ input.values.keys := by
  constructor
  · intro h
    cases hc : l.contract with
    | none => simp [authorize, hz, hc] at h
    | some c =>
      cases hr : c.required? m with
      | none => simp [authorize, hz, hc, hr] at h
      | some required =>
        rw [authorize_of_required hz hc hr] at h
        refine ⟨c, required, rfl, hr, fun k hk => ?_⟩
        split at h
        · next hn =>
          have hm : k ∉ input.missing required := by simp [hn]
          rw [Input.mem_missing] at hm
          exact Decidable.byContradiction fun hv => hm ⟨hk, hv⟩
        · cases h
  · rintro ⟨c, required, hc, hr, hk⟩
    have hn : input.missing required = [] := by
      refine List.eq_nil_iff_forall_not_mem.mpr fun k hm => ?_
      obtain ⟨hreq, habs⟩ := Input.mem_missing.mp hm
      exact habs (hk k hreq)
    rw [authorize_of_required hz hc hr, if_pos hn]

theorem authorize_of_disabled {z : SafeZone} (hz : z.enabled = false) (l : Library) (m : String)
    (input : Input) : z.authorize l m input = .allow := by
  simp [authorize, hz]

/-- What is allowed stays allowed when the input has more names. -/
theorem authorize_mono {z : SafeZone} {l : Library} {m : String} {input input' : Input}
    (h : input.values.keys ⊆ input'.values.keys) (ha : z.authorize l m input = .allow) :
    z.authorize l m input' = .allow := by
  cases hz : z.enabled with
  | false => exact authorize_of_disabled hz l m input'
  | true =>
    obtain ⟨c, required, hc, hr, hk⟩ := (authorize_eq_allow_iff hz l m input).mp ha
    exact (authorize_eq_allow_iff hz l m input').mpr
      ⟨c, required, hc, hr, fun k hreq => h (hk k hreq)⟩

/-- A denied candidate is told which of its required names the input lacks. -/
theorem authorize_eq_deny {z : SafeZone} (hz : z.enabled = true) {l : Library} {c : Contract}
    {m : String} {required : KeySet} (hc : l.contract = some c)
    (hr : c.required? m = some required) {input : Input} {k : String} (hk : k ∈ required)
    (habs : k ∉ input.values.keys) :
    z.authorize l m input = .deny (input.missing required) := by
  have hm : input.missing required ≠ [] := List.ne_nil_of_mem (Input.mem_missing.mpr ⟨hk, habs⟩)
  rw [authorize_of_required hz hc hr, if_neg hm]

end SafeZone

end Switchboard
