import Switchboard.Dispatcher
import Switchboard.Proofs.Precedence

/-!
Traces, decisions and requests as JSON. What is written is read back as it was
(`wire_forms_are_read_back`). The other way round, an object is read as a step, or as a request,
just if what that is written as is the object in its normal form: without the fields that are
not known, those that are known in the order of the record (`TraceStep.ofJson?_obj_iff`,
`Request.ofJson?_obj_iff`). A step leaves out what is absent or null, and a request writes an
absent part as an empty object.
-/

namespace Switchboard

/-! ## Records -/

namespace Json

/-- The fields of a record: of its names those that stand for something, in order. -/
def record (names : List String) (column : String → Option Json) : List (String × Json) :=
  names.filterMap fun k => (column k).map (k, ·)

theorem keys_record_subset (names : List String) (column : String → Option Json) :
    (record names column).map Prod.fst ⊆ names := by
  intro k hk
  obtain ⟨e, he, rfl⟩ := List.mem_map.mp hk
  obtain ⟨k', hk', hcolumn⟩ := List.mem_filterMap.mp he
  obtain ⟨v, -, rfl⟩ := Option.map_eq_some_iff.mp hcolumn
  exact hk'

theorem get?_record {names : List String} (hnames : names.Nodup) (column : String → Option Json)
    {k : String} (hk : k ∈ names) : Entries.get? k (record names column) = column k := by
  induction names with
  | nil => cases hk
  | cons n names ih =>
    obtain ⟨hn, hrest⟩ := List.nodup_cons.mp hnames
    have hcons : record (n :: names) column =
        ((column n).map (n, ·)).toList ++ record names column := by
      rw [record, List.filterMap_cons]
      cases column n <;> rfl
    rw [hcons, Entries.get?_append]
    rcases List.mem_cons.mp hk with rfl | hk'
    · have habsent : Entries.get? k (record names column) = none :=
        Entries.get?_eq_none_iff.mpr fun h => hn (keys_record_subset names column h)
      rw [habsent, Option.or_none]
      cases column k <;> simp [Entries.get?]
    · have hne : ¬ n = k := fun h => hn (h ▸ hk')
      rw [ih hrest hk']
      cases column n <;> simp [Entries.get?, hne]

/-- Two records of the same names are equal just if each name stands for the same. -/
theorem record_eq_iff {names : List String} (hnames : names.Nodup)
    {column column' : String → Option Json} :
    record names column = record names column' ↔ ∀ k ∈ names, column k = column' k := by
  constructor
  · intro h k hk
    rw [← get?_record hnames column hk, h, get?_record hnames column' hk]
  · intro h
    exact List.filterMap_congr fun k hk => by rw [h k hk]

/-- What stands under a name, unless it is null. -/
def present? (fields : List (String × Json)) (k : String) : Option Json :=
  (Entries.get? k fields).filter (!·.isNull)

theorem required?_string_eq_some_iff {field : Option Json} {s : String} :
    required? string? field = some s ↔ field.filter (!·.isNull) = some (.str s) := by
  cases field with
  | none => simp [required?]
  | some v => cases v <;> simp [required?, string?, isNull]

theorem optional?_string_eq_some_iff {field : Option Json} {s : Option String} :
    optional? string? field = some s ↔ field.filter (!·.isNull) = s.map .str := by
  cases field with
  | none => cases s <;> simp [optional?]
  | some v => cases v <;> cases s <;> simp [optional?, string?, isNull]

end Json

/-- Items are read one by one. -/
theorem mapM_eq_some_iff {α β γ : Type} {read : α → Option β} {write : β → γ} {normal : α → γ}
    (h : ∀ a b, read a = some b ↔ write b = normal a) {xs : List α} {ys : List β} :
    xs.mapM read = some ys ↔ ys.map write = xs.map normal := by
  induction xs generalizing ys with
  | nil => cases ys <;> simp
  | cons x xs ih =>
    rw [List.mapM_cons]
    cases ys with
    | nil => simp [Option.bind_eq_some_iff]
    | cons y ys => simp [Option.bind_eq_some_iff, h, ih, and_comm]

theorem Json.fields?_eq_some_iff {v : Json} {fields : List (String × Json)} :
    v.fields? = some fields ↔ v = .obj fields := by
  cases v <;> simp [fields?]

theorem Json.strings?_arr_map (texts : List String) :
    Json.strings? (.arr (texts.map .str)) = some texts := by
  have hread : ∀ (v : Json) (s : String), v.string? = some s ↔ Json.str s = v :=
    fun v s => by rw [Json.string?_eq_some_iff, eq_comm]
  exact (mapM_eq_some_iff hread).mpr (List.map_id' _).symm

/-! ## Steps and traces -/

namespace TraceStep

/-- The names of a step's fields. -/
def fieldNames : List String := ["module", "library", "method", "check", "outcome"]

theorem nodup_fieldNames : fieldNames.Nodup := by decide

/-- The normal form of a step: what is known and not null, in the order of the record. -/
def normal (fields : List (String × Json)) : List (String × Json) :=
  Json.record fieldNames (Json.present? fields)

/-- What a step writes under a name. -/
def column (s : TraceStep) : String → Option Json
  | "module" => some (.str s.owner)
  | "library" => s.library.map .str
  | "method" => s.method.map .str
  | "check" => some (.str s.check)
  | "outcome" => some (.str s.outcome)
  | _ => none

theorem toJson_eq (s : TraceStep) : s.toJson = .obj (Json.record fieldNames s.column) := by
  obtain ⟨owner, library, method, check, outcome⟩ := s
  cases library <;> cases method <;> rfl

/-- An object is read as a step just if each of its fields says what the step would write. -/
theorem ofJson?_obj_iff_column (fields : List (String × Json)) (s : TraceStep) :
    ofJson? (.obj fields) = some s ↔
      ∀ k ∈ fieldNames, s.column k = Json.present? fields k := by
  have heach : (∀ k ∈ fieldNames, s.column k = Json.present? fields k) ↔
      Json.present? fields "module" = some (.str s.owner) ∧
      Json.present? fields "library" = s.library.map .str ∧
      Json.present? fields "method" = s.method.map .str ∧
      Json.present? fields "check" = some (.str s.check) ∧
      Json.present? fields "outcome" = some (.str s.outcome) := by
    simp [fieldNames, column, eq_comm]
  rw [heach]
  simp only [ofJson?, Json.columns?, List.map_cons, List.map_nil, Option.bind_eq_bind,
    Option.bind_some, Option.bind_eq_some_iff, Json.required?_string_eq_some_iff,
    Json.optional?_string_eq_some_iff, Json.present?]
  constructor
  · rintro ⟨owner, howner, library, hlibrary, method, hmethod, check, hcheck, outcome, houtcome, h⟩
    obtain rfl := Option.some.inj h
    exact ⟨howner, hlibrary, hmethod, hcheck, houtcome⟩
  · rintro ⟨howner, hlibrary, hmethod, hcheck, houtcome⟩
    exact ⟨_, howner, _, hlibrary, _, hmethod, _, hcheck, _, houtcome, rfl⟩

/-- **An object as a step.** It is read as a step just if the step is written as the object in
its normal form. -/
theorem ofJson?_obj_iff (fields : List (String × Json)) (s : TraceStep) :
    ofJson? (.obj fields) = some s ↔ s.toJson = .obj (normal fields) := by
  rw [ofJson?_obj_iff_column, toJson_eq, Json.obj.injEq, normal,
    Json.record_eq_iff nodup_fieldNames]

theorem filter_column (s : TraceStep) (k : String) :
    (s.column k).filter (!·.isNull) = s.column k := by
  unfold column
  split
  case h_2 => cases s.library <;> rfl
  case h_3 => cases s.method <;> rfl
  all_goals rfl

/-- What a step writes is in normal form. -/
theorem normal_record (s : TraceStep) :
    normal (Json.record fieldNames s.column) = Json.record fieldNames s.column := by
  rw [normal, Json.record_eq_iff nodup_fieldNames]
  intro k hk
  rw [Json.present?, Json.get?_record nodup_fieldNames _ hk, filter_column]

end TraceStep

namespace Trace

theorem ofJson?_arr_iff (objects : List (List (String × Json))) (t : Trace) :
    ofJson? (.arr (objects.map .obj)) = some t ↔
      t.toJson = .arr (objects.map fun fields => .obj (TraceStep.normal fields)) := by
  obtain ⟨steps⟩ := t
  have hread : ofJson? (.arr (objects.map .obj)) =
      (objects.mapM fun fields => TraceStep.ofJson? (.obj fields)).map mk := by
    simp only [ofJson?, Json.items?, Option.bind_eq_bind, Option.bind_some, List.mapM_map]
    rfl
  rw [hread, Option.map_eq_some_iff]
  simp only [mk.injEq, exists_eq_right, toJson, Json.arr.injEq]
  exact mapM_eq_some_iff TraceStep.ofJson?_obj_iff

theorem ofJson?_toJson (t : Trace) : ofJson? t.toJson = some t := by
  have hobjects : t.toJson = .arr ((t.steps.map fun s =>
      Json.record TraceStep.fieldNames s.column).map .obj) := by
    rw [toJson, List.map_map]
    exact congrArg Json.arr (List.map_congr_left fun s _ => s.toJson_eq)
  rw [hobjects, ofJson?_arr_iff, hobjects, List.map_map, List.map_map]
  refine congrArg Json.arr (List.map_congr_left fun s _ => ?_)
  rw [Function.comp_apply, Function.comp_apply, s.normal_record]

end Trace

/-! ## Decisions -/

theorem Decision.ofJson?_toJson (d : Decision) : ofJson? d.toJson = some d := by
  cases d with
  | allow => rfl
  | deny missing =>
    simp [toJson, ofJson?, Entries.get?, Json.strings?_arr_map]

/-! ## Requests -/

namespace Request

/-- The names of the parts of a request. -/
def partNames : List String := ["query", "body", "files"]

/-- The normal form of a request: each part, and an empty one for each that is absent. -/
def normal (fields : List (String × Json)) : List (String × Json) :=
  partNames.map fun k => (k, (Entries.get? k fields).getD (.obj []))

/-- In no part a parameter is named twice, as in any object that is read or made from a
table. -/
def NamesOnce (fields : List (String × Json)) : Prop :=
  ∀ k parameters, Entries.get? k fields = some (.obj parameters) →
    (parameters.map Prod.fst).Nodup

/-- A part is read as a table just if that is written as the part. -/
theorem default?_table_eq_some_iff {field : Option Json} {t : Table Json}
    (h : ∀ parameters, field = some (.obj parameters) → (parameters.map Prod.fst).Nodup) :
    Json.default? Json.table? .empty field = some t ↔
      .obj t.entries = field.getD (.obj []) := by
  cases field with
  | none =>
    rw [Json.default?, Option.some.injEq, Option.getD_none, Json.obj.injEq]
    exact ⟨fun ht => ht ▸ rfl, fun ht => (Table.ext ht).symm⟩
  | some v =>
    rw [Json.default?, Option.getD_some, Json.table?]
    constructor
    · intro hread
      obtain ⟨parameters, hfields, rfl⟩ := Option.map_eq_some_iff.mp hread
      obtain rfl : v = .obj parameters := Json.fields?_eq_some_iff.mp hfields
      rw [Table.entries_ofList_of_nodup (h parameters rfl)]
    · rintro rfl
      exact congrArg some t.ofList_entries

theorem ofJson?_obj_iff {fields : List (String × Json)} (h : NamesOnce fields) (r : Request) :
    ofJson? (.obj fields) = some r ↔ r.toJson = .obj (normal fields) := by
  have heach : r.toJson = .obj (normal fields) ↔
      .obj r.query.entries = (Entries.get? "query" fields).getD (.obj []) ∧
      .obj r.body.entries = (Entries.get? "body" fields).getD (.obj []) ∧
      .obj r.files.entries = (Entries.get? "files" fields).getD (.obj []) := by
    simp [toJson, normal, partNames]
  rw [heach, ← default?_table_eq_some_iff (h "query"), ← default?_table_eq_some_iff (h "body"),
    ← default?_table_eq_some_iff (h "files")]
  simp only [ofJson?, Json.columns?, List.map_cons, List.map_nil, Option.bind_eq_bind,
    Option.bind_some, Option.bind_eq_some_iff]
  constructor
  · rintro ⟨query, hquery, body, hbody, files, hfiles, hr⟩
    obtain rfl := Option.some.inj hr
    exact ⟨hquery, hbody, hfiles⟩
  · rintro ⟨hquery, hbody, hfiles⟩
    exact ⟨_, hquery, _, hbody, _, hfiles, rfl⟩

theorem ofJson?_toJson (r : Request) : ofJson? r.toJson = some r := by
  have honce : NamesOnce [("query", .obj r.query.entries), ("body", .obj r.body.entries),
      ("files", .obj r.files.entries)] := by
    intro k parameters hget
    have hmem := Entries.mem_of_get? hget
    simp only [List.mem_cons, Prod.mk.injEq, Json.obj.injEq, List.not_mem_nil, or_false] at hmem
    rcases hmem with ⟨-, rfl⟩ | ⟨-, rfl⟩ | ⟨-, rfl⟩
    · exact r.query.nodup
    · exact r.body.nodup
    · exact r.files.nodup
  exact (ofJson?_obj_iff honce r).mpr rfl

end Request

/-- **Wire forms.** What is written is read back. A list of objects is read as a trace, and an
object as a request, just if what is read is written as they are in their normal forms. -/
theorem wire_forms_are_read_back :
    (∀ t : Trace, Trace.ofJson? t.toJson = some t) ∧
    (∀ d : Decision, Decision.ofJson? d.toJson = some d) ∧
    (∀ r : Request, Request.ofJson? r.toJson = some r) ∧
    (∀ (objects : List (List (String × Json))) (t : Trace),
      Trace.ofJson? (.arr (objects.map .obj)) = some t ↔
        t.toJson = .arr (objects.map fun fields => .obj (TraceStep.normal fields))) ∧
    ∀ (fields : List (String × Json)) (r : Request), Request.NamesOnce fields →
      (Request.ofJson? (.obj fields) = some r ↔ r.toJson = .obj (Request.normal fields)) :=
  ⟨Trace.ofJson?_toJson, Decision.ofJson?_toJson, Request.ofJson?_toJson, Trace.ofJson?_arr_iff,
    fun _ r h => Request.ofJson?_obj_iff h r⟩

namespace Loose

/-- A step in another order, with a field that is not known, one that is null and one that is
empty. -/
def step : List (String × Json) :=
  [("outcome", .str "found"), ("note", .bool true), ("library", .str ""), ("method", .null),
    ("check", .str "library_lookup"), ("module", .str "m")]

/-- A request in another order, with a field that is not known, and without files. -/
def request : List (String × Json) :=
  [("body", .obj [("cmd", .str "m\\l"), ("x", .null)]), ("note", .null), ("query", .obj [])]

theorem namesOnce_request : Request.NamesOnce request := by
  intro k parameters h
  have hmem := Entries.mem_of_get? h
  simp only [request, List.mem_cons, Prod.mk.injEq, Json.obj.injEq, List.not_mem_nil,
    or_false] at hmem
  rcases hmem with ⟨-, rfl⟩ | ⟨-, hnull⟩ | ⟨-, rfl⟩
  · decide
  · cases hnull
  · decide

end Loose

/-- What is loose is read all the same; a library without a name is not one that is absent. -/
theorem loose_forms_are_read :
    Trace.ofJson? (.arr ([Loose.step].map .obj)) =
      some ⟨[⟨"m", some "", none, "library_lookup", "found"⟩]⟩ ∧
    Request.ofJson? (.obj Loose.request) =
      some (.ofBody (.ofList [("cmd", .str "m\\l"), ("x", .null)])) ∧
    Decision.ofJson? (Decision.deny ["x", "y"]).toJson = some (.deny ["x", "y"]) := by
  obtain ⟨-, hdecision, -, htrace, hrequest⟩ := wire_forms_are_read_back
  exact ⟨(htrace _ _).mpr rfl, (hrequest _ _ Loose.namesOnce_request).mpr rfl, hdecision _⟩

end Switchboard
