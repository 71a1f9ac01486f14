import Switchboard.Proofs.Grouping
import Switchboard.Proofs.Plan

/-!
What a plan names, told from the declarations that a contract was put together from and from the
names that were asked for, one after the other and with whatever repetitions. A contract and a
list of methods keep each name where it first came up (`Contract.methods_ofList`,
`MethodList.toList_ofList`). A plan takes its candidates out of the one or the other, so it names
no method twice, though a library may declare one twice (`SafeZone.plan_names_each_once`).
-/

namespace Switchboard

/-! ## Names in the order in which they first came up -/

theorem MethodList.toList_ofList (names : List String) :
    (ofList names).toList = names.eraseDups := by
  have hadded : (ofList names).toList = (names.map id).foldl appendNew [] :=
    names_foldl toList_insert empty names
  rw [hadded, List.map_id]
  exact (eraseDups_append_eq_foldl List.nodup_nil names).symm

theorem MethodList.isEmpty_ofList (names : List String) :
    (ofList names).isEmpty = true ↔ names = [] := by
  rw [isEmpty, toList_ofList, List.isEmpty_iff]
  cases names with
  | nil => simp
  | cons name names => simp [List.eraseDups_cons]

namespace Contract

/-- To declare a method anew changes neither its place nor that of another. -/
theorem methods_require (c : Contract) (method : String) (keys : List String) :
    (c.require method keys).methods = appendNew c.methods method :=
  Entries.keys_put method _ c.table.entries

theorem methods_ofList (declarations : List (String × List String)) :
    (ofList declarations).methods = (declarations.map Prod.fst).eraseDups := by
  have hadded : (ofList declarations).methods =
      (declarations.map Prod.fst).foldl appendNew [] :=
    names_foldl (fun c d => c.methods_require d.1 d.2) empty declarations
  rw [hadded]
  exact (eraseDups_append_eq_foldl List.nodup_nil _).symm

end Contract

/-! ## Plans -/

namespace Library

variable (l : Library) (declarations : Option (List (String × List String)))

/-- The library with a contract put together from declarations, or with none. -/
def declaring : Library :=
  { l with contract := declarations.map .ofList }

/-- What the contract lists, in the order in which it was first declared. -/
theorem methods_contract_declaring :
    ((l.declaring declarations).contract.map Contract.methods).getD [] =
      ((declarations.getD []).map Prod.fst).eraseDups := by
  cases declarations with
  | none => rfl
  | some ds => exact Contract.methods_ofList ds

theorem lists_contract_declaring (m : String) :
    (∃ c, (l.declaring declarations).contract = some c ∧ c.lists m = true) ↔
      m ∈ (declarations.getD []).map Prod.fst := by
  rw [← List.mem_eraseDups, ← l.methods_contract_declaring]
  cases (l.declaring declarations).contract with
  | none => simp
  | some c => simp [c.lists_iff]

end Library

namespace SafeZone

theorem mem_candidates_declaring (z : SafeZone) (l : Library)
    (declarations : Option (List (String × List String))) (asked : List String) (m : String) :
    m ∈ z.candidates (l.declaring declarations) (.ofList asked) ↔
      m ∈ l.methods ∧
        if z.enabled then
          m ∈ (declarations.getD []).map Prod.fst ∧ (asked = [] ∨ m ∈ asked)
        else m ∈ asked := by
  have hasked : m ∈ (MethodList.ofList asked).toList ↔ m ∈ asked := by
    rw [MethodList.toList_ofList, List.mem_eraseDups]
  have hdeclares : (l.declaring declarations).declares m = true ↔ m ∈ l.methods :=
    l.declares_iff m
  cases hz : z.enabled with
  | true =>
    have hnamed : ((MethodList.ofList asked).isEmpty = false →
        (MethodList.ofList asked).contains m = true) ↔ asked = [] ∨ m ∈ asked := by
      rw [MethodList.contains_iff, hasked, ← MethodList.isEmpty_ofList, ← Bool.not_eq_true]
      exact Decidable.or_iff_not_imp_left.symm
    rw [mem_candidates_of_enabled hz, hdeclares, l.lists_contract_declaring, hnamed, if_pos rfl]
  | false =>
    rw [mem_candidates_of_disabled hz, hdeclares, hasked]
    rfl

/-- **No plan names a method twice**, and none that the library does not declare. While the zone
is on, the candidates are the declared methods of the contract, or those of them that were asked
for if any were; while it is off, the declared ones that were asked for. They stand in the order
of the names asked for, or in that of the contract if there are none. A declared `init` has one
place as soon as the zone is on or a name was asked for. -/
theorem plan_names_each_once (z : SafeZone) (l : Library)
    (declarations : Option (List (String × List String))) (asked : List String) :
    let plan := z.plan (l.declaring declarations) (.ofList asked)
    let listed := (declarations.getD []).map Prod.fst
    plan.methods.Nodup ∧ plan.methods ⊆ l.methods ∧
    (∀ m, m ∈ plan.candidates ↔
      m ∈ l.methods ∧ if z.enabled then m ∈ listed ∧ (asked = [] ∨ m ∈ asked) else m ∈ asked) ∧
    plan.candidates.Sublist (if asked = [] then listed.eraseDups else asked.eraseDups) ∧
    (plan.methods.count Library.initMethod = 1 ↔
      Library.initMethod ∈ l.methods ∧ (z.enabled = true ∨ asked ≠ [])) := by
  intro plan listed
  have hplans : ∀ m, m ∈ plan.methods ↔
      z.Plans (l.declaring declarations) (.ofList asked) m := fun m => mem_methods_plan
  have hempty : (MethodList.ofList asked).isEmpty = true ↔ asked = [] :=
    MethodList.isEmpty_ofList asked
  have hnodup : plan.methods.Nodup := nodup_methods_plan z _ _
  refine ⟨hnodup, fun m hm => ?_, z.mem_candidates_declaring l declarations asked, ?_, ?_⟩
  · exact (l.declares_iff m).mp ((hplans m).mp hm).declares
  · have hsublist := z.candidates_sublist (l.declaring declarations) (.ofList asked)
    rw [l.methods_contract_declaring, MethodList.toList_ofList] at hsublist
    by_cases hnone : asked = []
    · rw [if_pos hnone]
      rwa [if_pos (hempty.mpr hnone)] at hsublist
    · rw [if_neg hnone]
      rwa [if_neg (mt hempty.mp hnone)] at hsublist
  · have honce : plan.methods.count Library.initMethod = 1 ↔
        Library.initMethod ∈ plan.methods :=
      ⟨fun h => List.count_pos_iff.mp (h ▸ Nat.one_pos), List.count_eq_one_of_mem hnodup⟩
    rw [honce, hplans, plans_init_iff, ← Bool.not_eq_true, hempty]
    exact and_congr_left' (Library.declares_iff _ _)

end SafeZone

end Switchboard
