import Mathlib.Data.Nat.Digits.Defs
import Switchboard.Json.Lookup
import Switchboard.Proofs.Lookup

/-!
Where the steps of a route lead. One step goes from an object to the member under a name, or
from an array to the element at the place that a key denotes (`Json.Denotes`), and never to
null (`Json.Step`). From a container a route takes just what such steps lead to, one after the
other (`Json.extracted_by_steps`). A value that is no container is taken as it is where a route
begins; where a route comes to it on the way, nothing is taken.
-/

namespace Switchboard.Json

/-! ## Places in an array -/

/-- The number that decimal digits stand for, the last one counting least. -/
def numeral (digits : List Char) : Nat :=
  Nat.ofDigits 10 (digits.reverse.map fun c => c.toNat - '0'.toNat)

/-- A key denotes a place: digits, at least one, perhaps behind one plus sign, for a number that
64 bits hold. -/
def Denotes (key : String) (place : Nat) : Prop :=
  ∃ digits : List Char, (key.toList = digits ∨ key.toList = '+' :: digits) ∧
    digits ≠ [] ∧ (∀ c ∈ digits, '0' ≤ c ∧ c ≤ '9') ∧
    numeral digits = place ∧ place < UInt64.size

theorem numeral_eq_foldl (digits : List Char) :
    numeral digits = digits.foldl (fun n c => 10 * n + (c.toNat - '0'.toNat)) 0 := by
  have hstep : (fun (n : Nat) (c : Char) => 10 * n + (c.toNat - '0'.toNat)) =
      fun n c => (c.toNat - '0'.toNat) + 10 * n := by
    funext n c
    exact Nat.add_comm _ _
  rw [numeral, Nat.ofDigits_eq_foldr, List.foldr_map, List.foldr_reverse, hstep]
  rfl

/-- Zeros in front do not count. -/
theorem numeral_zeros (zeros : Nat) (digits : List Char) :
    numeral (List.replicate zeros '0' ++ digits) = numeral digits := by
  rw [numeral, List.reverse_append, List.reverse_replicate, List.map_append, List.map_replicate]
  exact Nat.ofDigits_append_replicate_zero _

theorem all_isDigit_iff {cs : List Char} :
    cs.all Char.isDigit = true ↔ ∀ c ∈ cs, '0' ≤ c ∧ c ≤ '9' := by
  simp [Char.isDigit, Char.le_def]

/-- The digits of a key: what stands behind its plus sign, if it begins with one. -/
def unsigned : List Char → List Char
  | '+' :: cs => cs
  | cs => cs

theorem index?_eq (key : String) :
    index? key =
      if unsigned key.toList ≠ [] ∧ (unsigned key.toList).all Char.isDigit = true then
        if numeral (unsigned key.toList) < UInt64.size then some (numeral (unsigned key.toList))
        else none
      else none := by
  rw [numeral_eq_foldl]
  rfl

/-- A plus sign is no digit, so it is no part of the digits. -/
theorem unsigned_eq_iff {cs digits : List Char} (hne : digits ≠ [])
    (hdigits : ∀ c ∈ digits, '0' ≤ c ∧ c ≤ '9') :
    unsigned cs = digits ↔ cs = digits ∨ cs = '+' :: digits := by
  constructor
  · rintro rfl
    unfold unsigned
    split
    · exact .inr rfl
    · exact .inl rfl
  · rintro (rfl | rfl)
    · unfold unsigned
      split
      · exact absurd (hdigits '+' List.mem_cons_self).1 (by decide)
      · rfl
    · rfl

theorem index?_eq_some_iff {key : String} {place : Nat} :
    index? key = some place ↔ Denotes key place := by
  rw [index?_eq]
  constructor
  · intro h
    split at h
    · next hdigits =>
      split at h
      · next hlt =>
        obtain rfl := Option.some.inj h
        obtain ⟨hne, hall⟩ := hdigits
        rw [all_isDigit_iff] at hall
        exact ⟨_, (unsigned_eq_iff hne hall).mp rfl, hne, hall, rfl, hlt⟩
      · cases h
    · cases h
  · rintro ⟨digits, hkey, hne, hall, rfl, hlt⟩
    rw [(unsigned_eq_iff hne hall).mpr hkey, if_pos ⟨hne, all_isDigit_iff.mpr hall⟩, if_pos hlt]

/-- Digits denote their number with any zeros in front, and nothing once it is too great. -/
theorem index?_digits (zeros : Nat) {digits : List Char} (hne : digits ≠ [])
    (hdigits : ∀ c ∈ digits, '0' ≤ c ∧ c ≤ '9') :
    index? (.ofList (List.replicate zeros '0' ++ digits)) =
      if numeral digits < UInt64.size then some (numeral digits) else none := by
  have hne' : List.replicate zeros '0' ++ digits ≠ [] := List.append_ne_nil_of_right_ne_nil _ hne
  have hdigits' : ∀ c ∈ List.replicate zeros '0' ++ digits, '0' ≤ c ∧ c ≤ '9' := by
    intro c hc
    rcases List.mem_append.mp hc with hzero | hc
    · rw [List.eq_of_mem_replicate hzero]
      decide
    · exact hdigits c hc
  rw [index?_eq, String.toList_ofList, (unsigned_eq_iff hne' hdigits').mpr (.inl rfl),
    if_pos ⟨hne', all_isDigit_iff.mpr hdigits'⟩, numeral_zeros]

/-! ## Steps -/

/-- One step, to a value that is not null: in an object to the first member under the key, in an
array to the element at the place that the key denotes. -/
inductive Step : Json → String → Json → Prop
  | member (before after : List (String × Json)) {fields : List (String × Json)} {key : String}
      {w : Json} (hfields : fields = before ++ (key, w) :: after)
      (hfirst : key ∉ before.map Prod.fst) (hw : w ≠ null) : Step (obj fields) key w
  | element {items : List Json} {key : String} {place : Nat} {w : Json}
      (hkey : Denotes key place) (hitem : items[place]? = some w) (hw : w ≠ null) :
      Step (arr items) key w

/-- Steps lead from a value to another, by one key after the other. -/
inductive Leads : Json → List String → Json → Prop
  | nowhere (v : Json) : Leads v [] v
  | step {v u w : Json} {key : String} {keys : List String} (hstep : Step v key u)
      (hleads : Leads u keys w) : Leads v (key :: keys) w

theorem Step.isContainer {v w : Json} {key : String} (h : Step v key w) :
    v.isContainer = true := by
  cases h <;> rfl

theorem isNull_eq_false_iff {v : Json} : v.isNull = false ↔ v ≠ null := by
  cases v <;> simp [isNull]

theorem member?_eq_some_iff {v w : Json} {key : String} :
    v.member? key = some w ↔ Step v key w := by
  unfold member?
  rw [Option.filter_eq_some_iff, Bool.not_eq_true', isNull_eq_false_iff]
  constructor
  · rintro ⟨hfound, hw⟩
    cases v with
    | obj fields =>
      obtain ⟨before, after, hfields, hfirst⟩ := Entries.get?_eq_some_iff_first.mp hfound
      exact .member before after hfields hfirst hw
    | arr items =>
      obtain ⟨place, hplace, hitem⟩ := Option.bind_eq_some_iff.mp hfound
      exact .element (index?_eq_some_iff.mp hplace) hitem hw
    | null => cases hfound
    | bool b => cases hfound
    | num n => cases hfound
    | str s => cases hfound
  · intro h
    cases h with
    | member before after hfields hfirst hw =>
      exact ⟨Entries.get?_eq_some_iff_first.mpr ⟨before, after, hfields, hfirst⟩, hw⟩
    | element hkey hitem hw =>
      exact ⟨Option.bind_eq_some_iff.mpr ⟨_, index?_eq_some_iff.mpr hkey, hitem⟩, hw⟩

theorem walk?_eq_some_iff {v w : Json} {keys : List String} :
    v.walk? keys = some w ↔ Leads v keys w := by
  constructor
  · intro h
    induction keys generalizing v with
    | nil =>
      obtain rfl := Option.some.inj h
      exact .nowhere v
    | cons key keys ih =>
      obtain ⟨u, hu, hwalk⟩ := Option.bind_eq_some_iff.mp h
      exact .step (member?_eq_some_iff.mp hu) (ih hwalk)
  · intro h
    induction h with
    | nowhere v => rfl
    | step hstep _ ih =>
      exact Option.bind_eq_some_iff.mpr ⟨_, member?_eq_some_iff.mpr hstep, ih⟩

theorem walk?_append (v : Json) (keys keys' : List String) :
    v.walk? (keys ++ keys') = (v.walk? keys).bind (·.walk? keys') := by
  induction keys generalizing v with
  | nil => rfl
  | cons key keys ih =>
    rw [List.cons_append, walk?, walk?, Option.bind_assoc]
    exact Option.bind_congr fun u _ => ih u

/-! ## What a route takes -/

theorem extract?_of_isContainer {v : Json} (h : v.isContainer = true) (steps : List String) :
    v.extract? steps = v.walk? steps := by
  unfold extract?
  cases steps with
  | nil => rfl
  | cons key keys => simp [h]

/-- No step leads on from a value that is no container. -/
theorem walk?_of_not_isContainer {v : Json} (h : v.isContainer = false) {steps : List String}
    (hne : steps ≠ []) : v.walk? steps = none := by
  rw [Option.eq_none_iff_forall_ne_some]
  intro w hw
  cases walk?_eq_some_iff.mp hw with
  | nowhere => exact hne rfl
  | step hstep _ =>
    rw [hstep.isContainer] at h
    cases h

/-- **What a route takes from a value.** All of it, if there are no steps or the value is no
container; from a container just what the steps lead to, so that some of them can be gone first
and the others from where these lead, if that is a container. A key denotes a place by its
digits, whatever zeros stand in front, and denotes none if 64 bits do not hold their number. -/
theorem extracted_by_steps (v : Json) :
    (∀ steps, steps = [] ∨ v.isContainer = false → v.extract? steps = some v) ∧
    (∀ steps w, steps ≠ [] → v.isContainer = true →
      (v.extract? steps = some w ↔ Leads v steps w)) ∧
    (∀ first later, first ≠ [] → later ≠ [] → v.isContainer = true →
      v.extract? (first ++ later) =
        (v.extract? first).bind fun u => if u.isContainer then u.extract? later else none) ∧
    ∀ zeros digits, digits ≠ [] → (∀ c ∈ digits, '0' ≤ c ∧ c ≤ '9') →
      index? (.ofList (List.replicate zeros '0' ++ digits)) =
        if numeral digits < UInt64.size then some (numeral digits) else none := by
  refine ⟨fun steps h => ?_, fun steps w _ h => ?_, fun first later _ hlater h => ?_,
    fun zeros digits => index?_digits zeros⟩
  · unfold extract?
    rcases h with rfl | h
    · rfl
    · simp [h]
  · rw [extract?_of_isContainer h]
    exact walk?_eq_some_iff
  · rw [extract?_of_isContainer h, extract?_of_isContainer h, walk?_append]
    refine Option.bind_congr fun u _ => ?_
    split
    · next hu => exact (extract?_of_isContainer hu later).symm
    · next hu => exact walk?_of_not_isContainer (Bool.eq_false_iff.mpr hu) hlater

namespace Paged

/-- Two items, of which the first is a hole. -/
def page : Json :=
  obj [("next", ofInt 2), ("items", arr [null, obj [("id", ofInt 7)]])]

theorem leads_to_id : Leads page ["items", "+01", "id"] (ofInt 7) := by
  have hplace : Denotes "+01" 1 :=
    ⟨['0', '1'], .inr (by decide +kernel), by decide, all_isDigit_iff.mp rfl, rfl, by decide⟩
  have hitems : Step page "items" (arr [null, obj [("id", ofInt 7)]]) :=
    .member [("next", ofInt 2)] [] rfl (by decide) nofun
  have hitem : Step (arr [null, obj [("id", ofInt 7)]]) "+01" (obj [("id", ofInt 7)]) :=
    .element hplace rfl nofun
  have hid : Step (obj [("id", ofInt 7)]) "id" (ofInt 7) :=
    .member [] [] rfl List.not_mem_nil nofun
  exact .step hitems (.step hitem (.step hid (.nowhere _)))

end Paged

/-- The second item is reached by its place, with a sign and a zero in front. What is no
container leads nowhere, and a place beyond 64 bits is none. -/
theorem second_item_is_taken :
    (ofInt 7).extract? ["id"] = some (ofInt 7) ∧
    Paged.page.extract? ["items", "+01", "id"] = some (ofInt 7) ∧
    Paged.page.extract? (["next"] ++ ["id"]) = none ∧
    index? (.ofList (List.replicate 2 '0' ++ ['7'])) = some 7 ∧
    index? (.ofList (List.replicate 2 '0' ++ List.replicate 20 '9')) = none := by
  obtain ⟨hwhole, -, -, hdigits⟩ := extracted_by_steps (ofInt 7)
  obtain ⟨-, hleads, hlater, -⟩ := extracted_by_steps Paged.page
  refine ⟨hwhole ["id"] (.inr rfl), (hleads _ _ (by decide) rfl).mpr Paged.leads_to_id, ?_, ?_, ?_⟩
  · exact (hlater ["next"] ["id"] (by decide) (by decide) rfl).trans rfl
  · exact (hdigits 2 ['7'] (by decide) (all_isDigit_iff.mp rfl)).trans (if_pos (by decide))
  · exact (hdigits 2 (List.replicate 20 '9') (by decide) (all_isDigit_iff.mp rfl)).trans
      (if_neg (by decide +kernel))

end Switchboard.Json
