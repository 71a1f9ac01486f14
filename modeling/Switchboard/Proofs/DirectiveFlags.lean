import Switchboard.CommandLine
import Switchboard.Proofs.Precedence

/-!
The flags `--cmd`, `--map` and `--format`, and what becomes of them. They are the first entries
of the body of the request, and the body parameters `-p` are written over them
(`CommandLine.body_of_request`). So a directive is what the last body parameter of its name
holds, if there is one, and else what its flag says; query parameters and files have no say.
The flags stand just if no body parameter says anything else (`CommandLine.flags_stand_iff`),
and one that does is taken without a word (`CommandLine.flags_not_always_stand`).
-/

namespace Switchboard.CommandLine

/-! ## What succeeds -/

section

variable {ε ε' α β : Type} {x : Except ε α}

/-- One step after the other succeeds just if each does. -/
theorem bind_eq_ok {f : α → Except ε β} {b : β} :
    x >>= f = .ok b ↔ ∃ a, x = .ok a ∧ f a = .ok b := by
  cases x <;> simp [bind, Except.bind]

theorem map_eq_ok {f : α → β} {b : β} : x.map f = .ok b ↔ ∃ a, x = .ok a ∧ f a = b := by
  cases x <;> simp [Except.map]

/-- Another error is no success. -/
theorem mapError_eq_ok {f : ε → ε'} {a : α} : x.mapError f = .ok a ↔ x = .ok a := by
  cases x <;> simp [Except.mapError]

end

/-! ## Parameters, added one after the other -/

/-- The parameters that can be read, in order. -/
def readable (read : String → Except ParameterError (String × Json)) (raws : List String) :
    List (String × Json) :=
  raws.filterMap fun raw => (read raw).toOption

section

variable {read : String → Except ParameterError (String × Json)}
  {add : Request → String → Json → Request} {r r' : Request} {raws : List String}

/-- Where all can be read, all are added. -/
theorem eq_of_addAll (h : addAll read add r raws = .ok r') :
    r' = (readable read raws).foldl (fun r p => add r p.1 p.2) r := by
  induction raws generalizing r with
  | nil => exact (Except.ok.inj h).symm
  | cons raw raws ih =>
    simp only [addAll, List.foldlM_cons, bind_eq_ok, map_eq_ok] at h
    obtain ⟨_, ⟨p, hread, rfl⟩, hrest⟩ := h
    have hcons : readable read (raw :: raws) = p :: readable read raws :=
      List.filterMap_cons_some (by rw [hread]; rfl)
    rw [hcons, List.foldl_cons]
    exact ih hrest

/-- A part of the request that no addition changes is the same in the end. -/
theorem kept_of_addAll {α : Type} (part : Request → α) (h : addAll read add r raws = .ok r')
    (hadd : ∀ r k v, part (add r k v) = part r) : part r' = part r := by
  obtain rfl := eq_of_addAll h
  clear h
  induction readable read raws generalizing r with
  | nil => rfl
  | cons p ps ih => rw [List.foldl_cons, ih, hadd]

theorem body_of_addAll (h : addAll read Request.addBody r raws = .ok r') :
    r'.body = r.body.insertMany (readable read raws) := by
  obtain rfl := eq_of_addAll h
  clear h
  induction readable read raws generalizing r with
  | nil => rfl
  | cons p ps ih =>
    rw [List.foldl_cons, ih]
    rfl

end

/-! ## The body of the request -/

/-- The flags as entries of the body. -/
def flagEntries (a : Arguments) : List (String × Json) :=
  Request.directiveEntries a.cmd a.map (a.format.map .str)

/-- What the last body parameter under a name holds. -/
def lastParameter? (a : Arguments) (k : String) : Option Json :=
  Entries.get? k (readable parameter a.params).reverse

theorem eq_of_directives {a : Arguments} {r : Request} (h : directives a = .ok r) :
    r.body = .ofList (flagEntries a) ∧
      ∀ f, a.format = some f → ∃ format, Format.ofString? f = some format := by
  obtain ⟨cmd, map, format⟩ := a
  unfold directives at h
  cases format with
  | none =>
    cases h
    exact ⟨by cases map <;> rfl, nofun⟩
  | some f =>
    dsimp only at h
    split at h
    · cases h
    · next hknown =>
      cases h
      refine ⟨by cases map <;> rfl, fun f' hf => ?_⟩
      obtain rfl := Option.some.inj hf
      exact Option.ne_none_iff_exists'.mp fun hnone => hknown (by rw [hnone]; rfl)

/-- The flags come first, and the body parameters after them. -/
theorem body_of_request {files : Files} {a : Arguments} {r : Request}
    (h : request files a = .ok r) :
    r.body = .ofList (flagEntries a ++ readable parameter a.params) ∧
      ∀ f, a.format = some f → ∃ format, Format.ofString? f = some format := by
  simp only [request, bind_eq_ok, mapError_eq_ok] at h
  obtain ⟨flags, hflags, queried, hquery, filled, hbody, hfiles⟩ := h
  obtain ⟨hentries, hformat⟩ := eq_of_directives hflags
  refine ⟨?_, hformat⟩
  rw [kept_of_addAll Request.body hfiles fun _ _ _ => rfl, body_of_addAll hbody,
    kept_of_addAll Request.body hquery fun _ _ _ => rfl, hentries]
  exact List.foldl_append.symm

section

variable {files : Files} {a : Arguments} {r : Request}

/-- A directive is what the last body parameter of its name holds, and else what its flag
says. -/
theorem get?_parameters_of_flag (h : request files a = .ok r) (s : Settings) {k : String}
    {v : Json} (hflag : (k, v) ∈ flagEntries a) :
    (r.parameters s).get? k = some ((lastParameter? a k).getD v) := by
  have hheld : (Table.ofList (flagEntries a)).get? k = some v := by
    rw [← Table.mem_entries_iff, flagEntries,
      Table.entries_ofList_of_nodup (Request.keys_directiveEntries _ _ _).1]
    exact hflag
  have hjoined : r.body =
      (Table.ofList (flagEntries a)).insertMany (readable parameter a.params) :=
    (body_of_request h).1.trans List.foldl_append
  have hbody : r.body.get? k = some ((lastParameter? a k).getD v) := by
    rw [hjoined, Table.get?_insertMany, hheld, lastParameter?]
    cases Entries.get? k (readable parameter a.params).reverse <;> rfl
  rw [Request.get?_parameters, Request.parameter?_of_body hbody]

theorem text?_of_flag (h : request files a = .ok r) (s : Settings) {k : String} {v : Json}
    (hflag : (k, v) ∈ flagEntries a) :
    Request.text? (r.parameters s) k = ((lastParameter? a k).getD v).string? := by
  rw [Request.text?, get?_parameters_of_flag h s hflag, Option.bind_some]

/-- A flag is an entry if it is given. -/
theorem mem_flagEntries {a : Arguments} {k text : String} :
    (k, .str text) ∈ flagEntries a ↔
      (k = Request.cmdKey ∧ text = a.cmd) ∨ (Request.mapKey = k ∧ a.map = some text) ∨
      (Request.formatKey = k ∧ a.format = some text) := by
  simp [flagEntries, Request.directiveEntries, and_comm]

/-! ## Where the flags stand -/

/-- The directives of a request are those that the flags give. -/
structure FlagsStand (a : Arguments) (i : Intake) : Prop where
  cmd : i.cmd = some a.cmd
  map : ∀ m, a.map = some m → i.map = some m
  format : ∀ f, a.format = some f → Format.ofString? f = some i.format

/-- A body parameter with the name of a directive that a flag gives says what the flag says.
Whatever is not raw counts as the other format. -/
structure ParametersAgree (a : Arguments) : Prop where
  cmd : ∀ v, lastParameter? a Request.cmdKey = some v → v = .str a.cmd
  map : ∀ m, a.map = some m → ∀ v, lastParameter? a Request.mapKey = some v → v = .str m
  format : ∀ f, a.format = some f →
    ∀ v, lastParameter? a Request.formatKey = some v → (v = .str "raw" ↔ f = "raw")

/-- A text stands if what comes after it, if anything does, is the same text. -/
theorem string?_getD_iff {found : Option Json} {text : String} :
    (found.getD (.str text)).string? = some text ↔ ∀ v, found = some v → v = .str text := by
  cases found with
  | none => simp [Json.string?]
  | some v => simp [Json.string?_eq_some_iff]

/-- A known format is told from the other by being raw. -/
theorem ofString?_eq_some_iff {f : String} {format other : Format}
    (h : Format.ofString? f = some format) :
    Format.ofString? f = some other ↔ (other = .raw ↔ f = "raw") := by
  have hraw : f = "raw" ↔ format = .raw := by
    rw [← Format.ofString?_eq_raw_iff, h, Option.some.injEq]
  rw [h, Option.some.injEq, hraw]
  cases format <;> cases other <;> simp

/-- **Where the flags stand.** A directive that a flag gives is what the last body parameter of
its name holds, and the flag if there is none; so the flags stand just if the body parameters
agree with them. -/
theorem flags_stand_iff (h : request files a = .ok r) (s : Settings) :
    (r.intake s).cmd = ((lastParameter? a Request.cmdKey).getD (.str a.cmd)).string? ∧
    (∀ m, a.map = some m →
      (r.intake s).map = ((lastParameter? a Request.mapKey).getD (.str m)).string?) ∧
    (∀ f, a.format = some f → ((r.intake s).format = .raw ↔
      (lastParameter? a Request.formatKey).getD (.str f) = .str "raw")) ∧
    (FlagsStand a (r.intake s) ↔ ParametersAgree a) := by
  have hcmd : (r.intake s).cmd = ((lastParameter? a Request.cmdKey).getD (.str a.cmd)).string? :=
    text?_of_flag h s (mem_flagEntries.mpr (.inl ⟨rfl, rfl⟩))
  have hmap : ∀ m, a.map = some m →
      (r.intake s).map = ((lastParameter? a Request.mapKey).getD (.str m)).string? :=
    fun m hm => text?_of_flag h s (mem_flagEntries.mpr (.inr (.inl ⟨rfl, hm⟩)))
  have hformat : ∀ f, a.format = some f → ((r.intake s).format = .raw ↔
      (lastParameter? a Request.formatKey).getD (.str f) = .str "raw") := by
    intro f hf
    rw [Request.format_eq_raw_iff, ← Request.get?_parameters,
      get?_parameters_of_flag h s (mem_flagEntries.mpr (.inr (.inr ⟨rfl, hf⟩))), Option.some.injEq]
  refine ⟨hcmd, hmap, hformat, ?_⟩
  have hcmd_iff : (r.intake s).cmd = some a.cmd ↔
      ∀ v, lastParameter? a Request.cmdKey = some v → v = .str a.cmd := by
    rw [hcmd, string?_getD_iff]
  have hmap_iff : ∀ m, a.map = some m → ((r.intake s).map = some m ↔
      ∀ v, lastParameter? a Request.mapKey = some v → v = .str m) := by
    intro m hm
    rw [hmap m hm, string?_getD_iff]
  have hformat_iff : ∀ f, a.format = some f →
      (Format.ofString? f = some (r.intake s).format ↔
        ∀ v, lastParameter? a Request.formatKey = some v → (v = .str "raw" ↔ f = "raw")) := by
    intro f hf
    obtain ⟨format, hknown⟩ := (body_of_request h).2 f hf
    rw [ofString?_eq_some_iff hknown, hformat f hf]
    cases lastParameter? a Request.formatKey <;> simp
  constructor
  · intro hstand
    exact ⟨hcmd_iff.mp hstand.cmd, fun m hm => (hmap_iff m hm).mp (hstand.map m hm),
      fun f hf => (hformat_iff f hf).mp (hstand.format f hf)⟩
  · intro hagree
    exact ⟨hcmd_iff.mpr hagree.cmd, fun m hm => (hmap_iff m hm).mpr (hagree.map m hm),
      fun f hf => (hformat_iff f hf).mpr (hagree.format f hf)⟩

end

namespace Flags

/-- A query parameter and a file that would be directives, and a body parameter that says what
its flag says. -/
def agreeing : Arguments where
  cmd := "text\\case"
  format := some "raw"
  params := ["text=Hi", "format=json", "format=\"raw\""]
  query := ["cmd=text\\stats", "map=text\\case\\upper:x"]
  files := ["cmd=note.txt"]

/-- A body parameter takes the place of `--cmd`. -/
def disagreeing : Arguments where
  cmd := "text\\case"
  params := ["cmd=text\\stats", "text=Hi"]

def files : Files := fun _ => .ok .directory

end Flags

theorem exists_request {a : Arguments} (h : (request Flags.files a).isOk = true) :
    ∃ r, request Flags.files a = .ok r := by
  cases hr : request Flags.files a with
  | error e =>
    rw [hr] at h
    cases h
  | ok r => exact ⟨r, rfl⟩

/-- Neither the query nor a file touches the flags, and the last body parameter of a name
counts. -/
theorem agreeing_parameters_leave_flags :
    ∃ r, request Flags.files Flags.agreeing = .ok r ∧
      FlagsStand Flags.agreeing (r.intake {}) := by
  obtain ⟨r, hr⟩ := exists_request (a := Flags.agreeing) (by decide +kernel)
  have hcmd : lastParameter? Flags.agreeing Request.cmdKey = none := by decide +kernel
  have hformat : (lastParameter? Flags.agreeing Request.formatKey).bind Json.string? =
      some "raw" := by decide +kernel
  obtain ⟨-, -, -, hiff⟩ := flags_stand_iff hr {}
  refine ⟨r, hr, hiff.mpr ⟨fun v hv => ?_, nofun, fun f hf v hv => ?_⟩⟩
  · rw [hcmd] at hv
    cases hv
  · rw [hv] at hformat
    obtain rfl := Option.some.inj hf
    exact iff_of_true (Json.string?_eq_some_iff.mp hformat) rfl

/-- **A flag is overruled.** The arguments ask for one library, and the pass is about another. -/
theorem flags_not_always_stand :
    parse ["--cmd", "text\\case", "-p", "cmd=text\\stats", "-p", "text=Hi"] =
      .pass Flags.disagreeing ∧
    ¬ ∀ (files : Files) (a : Arguments) (r : Request) (s : Settings),
      request files a = .ok r → FlagsStand a (r.intake s) := by
  refine ⟨by decide +kernel, fun hall => ?_⟩
  obtain ⟨r, hr⟩ := exists_request (a := Flags.disagreeing) (by decide +kernel)
  have hstats : ((lastParameter? Flags.disagreeing Request.cmdKey).getD
      (.str "text\\case")).string? = some "text\\stats" := by decide +kernel
  have hcmd := text?_of_flag hr {} (mem_flagEntries.mpr (.inl ⟨rfl, rfl⟩))
  have hstand : Request.text? (r.parameters {}) Request.cmdKey = some "text\\case" :=
    (hall _ _ r {} hr).cmd
  have hsame : some "text\\case" = some "text\\stats" := hstand.symm.trans (hcmd.trans hstats)
  exact absurd hsame (by decide)

end Switchboard.CommandLine
