import Switchboard.Proofs.Intake

/-!
Which part of a request decides. A name in the body hides the same name in the query, whatever
stands under it, and a file hides both (`Request.get?_input`). The reserved names stay out of
the input wherever they come from. Format, `cmd` and `map` are read from the parameters alone,
so no file has a say in them, and where the query does not count it has none either
(`Request.intake_by_precedence`).
-/

namespace Switchboard

/-- The names that an input holds beside its values are those that have a value. -/
theorem Input.mem_names_iff (p : Input) (k : String) : k ∈ p.names ↔ (p.get? k).isSome = true := by
  rw [p.names_eq, KeySet.mem_ofList, Table.mem_keys_iff]
  rfl

theorem Json.string?_eq_some_iff {v : Json} {s : String} : v.string? = some s ↔ v = .str s := by
  cases v <;> simp [string?]

theorem Format.ofString?_eq_raw_iff {s : String} : ofString? s = some raw ↔ s = "raw" := by
  unfold ofString?
  split
  · next h => simp [h]
  · simp

namespace Request

/-! ## Parameters -/

/-- A parameter: that of the body, and else that of the query, if the query counts. -/
def parameter? (r : Request) (s : Settings) (k : String) : Option Json :=
  if s.acceptQuery then (r.body.get? k).or (r.query.get? k) else r.body.get? k

theorem get?_parameters (r : Request) (s : Settings) (k : String) :
    (r.parameters s).get? k = r.parameter? s k := by
  unfold parameters parameter?
  split
  · exact r.query.get?_merge r.body k
  · rfl

theorem parameter?_of_body {r : Request} {k : String} {v : Json} (h : r.body.get? k = some v)
    (s : Settings) : r.parameter? s k = some v := by
  unfold parameter?
  split
  · rw [h, Option.some_or]
  · exact h

/-! ## The input -/

theorem get?_files (r : Request) (k : String) :
    (Table.ofList r.fileEntries).get? k = if k ∈ reserved then none else r.files.get? k := by
  have hn : (r.fileEntries.map Prod.fst).Nodup :=
    r.files.nodup.sublist (List.filter_sublist.map Prod.fst)
  have hfound := Entries.get?_filter (fun name => !reserved.contains name) k r.files.entries
  rw [Table.get?, Table.entries_ofList_of_nodup hn]
  refine hfound.trans ?_
  by_cases h : k ∈ reserved <;> simp [h, Table.get?]

/-- The files are written over what is left of the parameters. -/
theorem input_intake (r : Request) (s : Settings) :
    (r.intake s).input =
      .ofTable ((strip (r.parameters s)).insertMany (Table.ofList r.fileEntries).entries) := by
  unfold intake
  dsimp only
  split
  · next hnone =>
    rw [List.isEmpty_iff.mp hnone]
    rfl
  · rfl

/-- **What a request puts in.** -/
theorem get?_input (r : Request) (s : Settings) (k : String) :
    (r.intake s).input.get? k =
      if k ∈ reserved then none else (r.files.get? k).or (r.parameter? s k) := by
  rw [input_intake]
  refine (Table.get?_merge _ _ k).trans ?_
  rw [get?_files, get?_strip, get?_parameters]
  split <;> rfl

/-! ## Directives and format -/

theorem text?_eq_some_iff {t : Table Json} {k text : String} :
    text? t k = some text ↔ t.get? k = some (.str text) := by
  simp only [text?, Option.bind_eq_some_iff, Json.string?_eq_some_iff, exists_eq_right]

/-- A directive is the parameter of its name, if that is text. -/
theorem text?_parameters_eq_some_iff {r : Request} {s : Settings} {k text : String} :
    text? (r.parameters s) k = some text ↔ r.parameter? s k = some (.str text) := by
  rw [text?_eq_some_iff, get?_parameters]

/-- What stands in the body hides the query, also where it is no text. -/
theorem text?_parameters_of_body {r : Request} {k : String} {v : Json}
    (h : r.body.get? k = some v) (hv : v.string? = none) (s : Settings) :
    text? (r.parameters s) k = none := by
  rw [text?, get?_parameters, parameter?_of_body h, Option.bind_some, hv]

theorem format_eq_raw_iff {r : Request} {s : Settings} :
    (r.intake s).format = .raw ↔ r.parameter? s formatKey = some (.str "raw") := by
  have hread : (r.intake s).format =
      ((text? (r.parameters s) formatKey).bind Format.ofString?).getD .json := rfl
  rw [← text?_parameters_eq_some_iff, hread]
  cases htext : text? (r.parameters s) formatKey with
  | none => simp
  | some text =>
    cases hformat : Format.ofString? text with
    | none =>
      have hother : text ≠ "raw" := fun h => by
        rw [Format.ofString?_eq_raw_iff.mpr h] at hformat
        cases hformat
      simp [hformat, hother]
    | some f =>
      rw [Option.bind_some, hformat, Option.getD_some, Option.some.injEq,
        ← Format.ofString?_eq_raw_iff, hformat, Option.some.injEq]

theorem format_eq_json_iff {r : Request} {s : Settings} :
    (r.intake s).format = .json ↔ r.parameter? s formatKey ≠ some (.str "raw") := by
  rw [ne_eq, ← format_eq_raw_iff]
  cases (r.intake s).format <;> simp

/-- **Precedence.** The input holds no reserved name; under any other it holds the file, and
else the parameter, of that name, and its names are just those that have a value. The format
is raw just if the parameter says so; `cmd` and `map` are the parameters of these names, if
they are text. So a parameter of the body that is no text still hides that of the query, files
decide nothing about the directives, and a query that does not count decides nothing at all. -/
theorem intake_by_precedence (r : Request) (s : Settings) :
    (∀ k ∈ reserved, (r.intake s).input.get? k = none) ∧
    (∀ k, k ∉ reserved →
      (r.intake s).input.get? k = (r.files.get? k).or (r.parameter? s k)) ∧
    (∀ k, k ∈ (r.intake s).input.names ↔ ((r.intake s).input.get? k).isSome = true) ∧
    ((r.intake s).format = .raw ↔ r.parameter? s formatKey = some (.str "raw")) ∧
    ((r.intake s).format = .json ↔ r.parameter? s formatKey ≠ some (.str "raw")) ∧
    (∀ text, (r.intake s).cmd = some text ↔ r.parameter? s cmdKey = some (.str text)) ∧
    (∀ text, (r.intake s).map = some text ↔ r.parameter? s mapKey = some (.str text)) ∧
    (∀ v, v.string? = none →
      (r.body.get? formatKey = some v → (r.intake s).format = .json) ∧
      (r.body.get? cmdKey = some v → (r.intake s).cmd = none) ∧
      (r.body.get? mapKey = some v → (r.intake s).map = none)) ∧
    (∀ files, (({ r with files } : Request).intake s).format = (r.intake s).format ∧
      (({ r with files } : Request).intake s).cmd = (r.intake s).cmd ∧
      (({ r with files } : Request).intake s).map = (r.intake s).map) ∧
    (s.acceptQuery = false → ∀ query, ({ r with query } : Request).intake s = r.intake s) := by
  refine ⟨fun k hk => ?_, fun k hk => ?_, fun k => Input.mem_names_iff _ k, format_eq_raw_iff,
    format_eq_json_iff, fun _ => text?_parameters_eq_some_iff,
    fun _ => text?_parameters_eq_some_iff,
    fun v hv => ⟨fun hbody => ?_, fun hbody => text?_parameters_of_body hbody hv s,
      fun hbody => text?_parameters_of_body hbody hv s⟩,
    fun files => ⟨rfl, rfl, rfl⟩, fun hoff query => ?_⟩
  · rw [get?_input, if_pos hk]
  · rw [get?_input, if_neg hk]
  · rw [format_eq_json_iff, ne_eq, ← text?_parameters_eq_some_iff,
      text?_parameters_of_body hbody hv]
    exact nofun
  · have hsame : ({ r with query } : Request).parameters s = r.parameters s := by
      simp [parameters, hoff]
    unfold intake
    rw [hsame]
    rfl

namespace Mixed

/-- One name in all three parts, directives in all three, and in the body one that is no
text. -/
def request : Request where
  query := .ofList [("cmd", .str "m\\l"), ("format", .str "raw"), ("id", .str "query")]
  body := .ofList [("id", .str "body"), ("cmd", .bool true)]
  files := .ofList [("map", .str "m\\l\\run:x"), ("id", .str "file")]

end Mixed

/-- The query gives the format, but no `cmd`; a file is the input, but no `map`. -/
theorem mixed_request_by_precedence :
    (Mixed.request.intake {}).format = .raw ∧ (Mixed.request.intake {}).cmd = none ∧
    (Mixed.request.intake {}).map = none ∧
    (∀ k ∈ reserved, (Mixed.request.intake {}).input.get? k = none) ∧
    (Mixed.request.intake {}).input.get? "id" = some (.str "file") ∧
    "id" ∈ (Mixed.request.intake {}).input.names ∧
    (Mixed.request.intake ⟨true, false⟩).format = .json := by
  obtain ⟨hreserved, hfree, hnames, hraw, -, -, -, hhides, hfiles, -⟩ :=
    intake_by_precedence Mixed.request {}
  obtain ⟨-, -, -, -, -, -, -, -, -, hoff⟩ := intake_by_precedence Mixed.request ⟨true, false⟩
  have hid : (Mixed.request.intake {}).input.get? "id" = some (.str "file") :=
    hfree "id" (by decide)
  refine ⟨hraw.mpr rfl, (hhides (.bool true) rfl).2.1 rfl, ?_, hreserved, hid, ?_, ?_⟩
  · exact (hfiles .empty).2.2.symm.trans rfl
  · rw [hnames, hid]
    rfl
  · rw [← hoff rfl .empty]
    rfl

end Request

end Switchboard
