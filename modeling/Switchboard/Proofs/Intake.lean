import Switchboard.Dispatcher
import Switchboard.Proofs.Lookup
import Switchboard.Proofs.Replay

/-!
What a pass takes from the parameters of a request. The three reserved names are taken
out one by one, and each time the last entry moves into the hole. If the reserved names
stand behind all others, only they are moved, whatever their order, and the input keeps
its own (`Request.entries_strip_of_append`). So a request whose body is an input followed
by its directives comes to the same as a call with that input and those directives
(`Dispatcher.entry_points_agree`).
-/

namespace Switchboard

/-! ## Taking names out -/

namespace Entries

variable {α : Type}

theorem erase_append_of_not_mem {k : String} {es : List (String × α)}
    (h : k ∉ es.map Prod.fst) (ts : List (String × α)) :
    erase k (es ++ ts) = es ++ erase k ts := by
  induction es with
  | nil => rfl
  | cons e es ih =>
    obtain ⟨he, hes⟩ := not_or.mp (mt List.mem_cons.mpr h)
    rw [List.cons_append, erase, if_neg (Ne.symm he), ih hes, List.cons_append]

theorem erase_subset (k : String) (es : List (String × α)) : erase k es ⊆ es :=
  fun _ he => List.eraseP_subset ((erase_perm k es).subset he)

end Entries

namespace Request

/-- Parameters without the reserved names. -/
def strip (t : Table Json) : Table Json := ((t.erase formatKey).erase cmdKey).erase mapKey

theorem get?_strip (t : Table Json) (k : String) :
    (strip t).get? k = if k ∈ reserved then none else t.get? k := by
  simp only [strip, Table.get?_erase, reserved, List.mem_cons, List.not_mem_nil, or_false]
  grind

theorem mem_keys_strip {t : Table Json} {k : String} :
    k ∈ (strip t).keys ↔ k ∉ reserved ∧ k ∈ t.keys := by
  rw [Table.mem_keys_iff, Table.mem_keys_iff, get?_strip]
  by_cases h : k ∈ reserved <;> simp [h]

/-- Reserved names that stand last leave what is in front of them in its order. -/
theorem entries_strip_of_append {t : Table Json} {es ts : List (String × Json)}
    (ht : t.entries = es ++ ts) (hes : ∀ k ∈ reserved, k ∉ es.map Prod.fst)
    (hts : ∀ e ∈ ts, e.1 ∈ reserved) : (strip t).entries = es := by
  obtain ⟨left, hleft, hsubset⟩ : ∃ left, (strip t).entries = es ++ left ∧ left ⊆ ts := by
    refine ⟨Entries.erase mapKey (Entries.erase cmdKey (Entries.erase formatKey ts)), ?_, ?_⟩
    · have herase : ∀ k ∈ reserved, ∀ us : List (String × Json),
          Entries.erase k (es ++ us) = es ++ Entries.erase k us :=
        fun k hk => Entries.erase_append_of_not_mem (hes k hk)
      have hentries : (strip t).entries =
          Entries.erase mapKey (Entries.erase cmdKey (Entries.erase formatKey t.entries)) := rfl
      rw [hentries, ht, herase formatKey (by simp [reserved]), herase cmdKey (by simp [reserved]),
        herase mapKey (by simp [reserved])]
    · intro e he
      exact Entries.erase_subset _ _ (Entries.erase_subset _ _ (Entries.erase_subset _ _ he))
  cases left with
  | nil => rw [hleft, List.append_nil]
  | cons e left =>
    -- what is left over is reserved, and nothing reserved is left
    have hkey : e.1 ∈ (strip t).keys := by
      refine List.mem_map_of_mem ?_
      rw [hleft]
      exact List.mem_append_right _ List.mem_cons_self
    exact absurd (hts e (hsubset List.mem_cons_self)) (mem_keys_strip.mp hkey).1

/-! ## Requests with all in the body -/

/-- Without query and files, all that counts is the body. -/
theorem intake_ofBody (body : Table Json) (s : Settings) :
    (ofBody body).intake s =
      ⟨((text? body formatKey).bind Format.ofString?).getD .json, text? body cmdKey,
        text? body mapKey, .ofTable (strip body)⟩ := by
  have hparameters : (ofBody body).parameters s = body := by
    unfold parameters
    split
    · exact Table.ofList_entries body
    · rfl
  unfold intake
  rw [hparameters]
  rfl

theorem text?_of_mem {t : Table Json} {k s : String} (h : (k, .str s) ∈ t.entries) :
    text? t k = some s := by
  rw [text?, t.mem_entries_iff.mp h]
  rfl

theorem text?_of_not_mem {t : Table Json} {k : String} (h : k ∉ t.keys) : text? t k = none := by
  have hnone : t.get? k = none := by
    rw [Table.mem_keys_iff] at h
    simpa using h
  rw [text?, hnone]
  rfl

/-- The parameters that carry the directives of a request, and its format. -/
def directiveEntries (cmd : String) (map : Option String) (format : Option Json) :
    List (String × Json) :=
  (cmdKey, .str cmd) :: (map.map fun raw => (mapKey, .str raw)).toList ++
    (format.map fun v => (formatKey, v)).toList

theorem keys_directiveEntries (cmd : String) (map : Option String) (format : Option Json) :
    ((directiveEntries cmd map format).map Prod.fst).Nodup ∧
      (∀ e ∈ directiveEntries cmd map format, e.1 ∈ reserved) ∧
      (map = none → mapKey ∉ (directiveEntries cmd map format).map Prod.fst) := by
  cases map <;> cases format <;>
    simp [directiveEntries, reserved, cmdKey, mapKey, formatKey]

/-- An input followed by directives, in any order, is taken apart again. -/
theorem intake_of_directives {cmd : String} {map : Option String} {format : Option Json}
    {input : Table Json} {tail : List (String × Json)} (s : Settings)
    (hinput : ∀ k ∈ reserved, k ∉ input.keys)
    (htail : tail.Perm (directiveEntries cmd map format)) :
    ((ofBody (.ofList (input.entries ++ tail))).intake s).cmd = some cmd ∧
    ((ofBody (.ofList (input.entries ++ tail))).intake s).map = map ∧
    ((ofBody (.ofList (input.entries ++ tail))).intake s).input = .ofTable input := by
  obtain ⟨hnodup, hreserved, hnone⟩ := keys_directiveEntries cmd map format
  have hlast : ∀ e ∈ tail, e.1 ∈ reserved := fun e he => hreserved e (htail.subset he)
  have hdistinct : ((input.entries ++ tail).map Prod.fst).Nodup := by
    rw [List.map_append, List.nodup_append]
    refine ⟨input.nodup, (htail.map Prod.fst).nodup_iff.mpr hnodup, ?_⟩
    intro k hk k' hk' heq
    obtain ⟨e, he, rfl⟩ := List.mem_map.mp hk'
    exact hinput e.1 (hlast e he) (heq ▸ hk)
  have hbody := Table.entries_ofList_of_nodup hdistinct
  have hmem : ∀ e ∈ directiveEntries cmd map format,
      e ∈ (Table.ofList (input.entries ++ tail)).entries := by
    intro e he
    rw [hbody]
    exact List.mem_append_right _ (htail.mem_iff.mpr he)
  rw [intake_ofBody]
  refine ⟨text?_of_mem (hmem _ (by simp [directiveEntries])), ?_, ?_⟩
  · cases map with
    | some raw => exact text?_of_mem (hmem _ (by simp [directiveEntries]))
    | none =>
      refine text?_of_not_mem ?_
      rw [Table.keys, hbody, List.map_append, List.mem_append,
        (htail.map Prod.fst).mem_iff]
      exact not_or.mpr ⟨hinput mapKey (by simp [reserved]), hnone rfl⟩
  · exact congrArg Input.ofTable (Table.ext (entries_strip_of_append hbody hinput hlast))

end Request

/-! ## The two entry points -/

namespace Dispatcher

/-- **The entry points agree.** A request whose body holds an input and behind it, in any
order, `cmd`, a `map` if there is one and a format if there is one, has the results, the
final input and the trace of a call with that input, that `cmd` and that `map`, and breaks
off where that call breaks off. -/
theorem entry_points_agree (d : Dispatcher) (cmd : String) (map : Option String)
    (format : Option Json) (input : Table Json) (tail : List (String × Json))
    (hinput : ∀ k ∈ Request.reserved, k ∉ input.keys)
    (htail : tail.Perm (Request.directiveEntries cmd map format)) :
    (d.handle (.ofBody (.ofList (input.entries ++ tail)))).results =
      (d.call cmd map input).results ∧
    (d.handle (.ofBody (.ofList (input.entries ++ tail)))).input =
      (d.call cmd map input).input ∧
    (d.handle (.ofBody (.ofList (input.entries ++ tail)))).trace =
      (d.call cmd map input).trace ∧
    (d.handle (.ofBody (.ofList (input.entries ++ tail)))).complete =
      (d.call cmd map input).complete := by
  obtain ⟨hcmd, hmap, hin⟩ := Request.intake_of_directives d.settings hinput htail
  -- only the format may differ, since a call always has the same one
  have hsame : d.handle (.ofBody (.ofList (input.entries ++ tail))) =
      { d.call cmd map input with
        format :=
          ((Request.ofBody (.ofList (input.entries ++ tail))).intake d.settings).format } := by
    unfold handle call
    dsimp only
    rw [hcmd, hmap, hin]
    rfl
  rw [hsame]
  exact ⟨rfl, rfl, rfl, rfl⟩

namespace Scrambled

def dispatcher : Dispatcher := ⟨{}, Pass.Sample.catalog⟩

def input : Table Json := .ofList [("seed", .bool true), ("x", .null)]

def cmd : String := "m\\l,use,fetch"

def map : String := "m\\l\\fetch\\token:token"

/-- The directives in an order of their own. -/
def tail : List (String × Json) := [("format", .str "raw"), ("map", .str map), ("cmd", .str cmd)]

def request : Request := .ofBody (.ofList (input.entries ++ tail))

end Scrambled

/-- The token that `fetch` gives is routed behind what the body held, by both ways in. -/
theorem scrambled_request_agrees :
    (Scrambled.dispatcher.handle Scrambled.request).input.values.keys =
      ["seed", "x", "token"] ∧
    (Scrambled.dispatcher.handle Scrambled.request).input =
      (Scrambled.dispatcher.call Scrambled.cmd (some Scrambled.map) Scrambled.input).input := by
  have htail : Scrambled.tail.Perm (Request.directiveEntries Scrambled.cmd (some Scrambled.map)
      (some (.str "raw"))) :=
    (Request.directiveEntries Scrambled.cmd (some Scrambled.map) (some (.str "raw"))).reverse_perm
  obtain ⟨-, hinput, -⟩ := entry_points_agree Scrambled.dispatcher Scrambled.cmd
    (some Scrambled.map) (some (.str "raw")) Scrambled.input Scrambled.tail (by decide) htail
  exact ⟨by decide +kernel, hinput⟩

end Dispatcher

end Switchboard
