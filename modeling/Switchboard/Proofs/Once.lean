import Switchboard.Proofs.InitFirst
import Switchboard.Proofs.Registry

/-!
How often a method runs. By the text of the path that was asked for, no method of a
library runs twice in a run. By the library that the path finds, one does if `cmd`
asks for the library both with and without a separator in front, and only then: the
registry takes the two for different and the catalog takes them for the same.
-/

namespace Switchboard

/-- The call that a piece of work may make. -/
def Act.call? : Act → Option (String × String)
  | .enter _ => none
  | .look _ _ => none
  | .schedule _ path _ => some (path, Library.initMethod)
  | .check _ path _ method => some (path, method)

namespace Pass

/-! ## The calls that are planned -/

/-- The calls that the plan of a path allows for. -/
def plannedCalls (p : Pass) (path : String) : List (String × String) :=
  match p.catalog.library? path with
  | none => []
  | some l =>
    let plan := p.zone.plan l p.directives.methods
    ((if plan.initFirst then [Library.initMethod] else []) ++ plan.candidates).map (path, ·)

theorem fst_of_mem_plannedCalls {p : Pass} {path : String} {c : String × String}
    (h : c ∈ p.plannedCalls path) : c.1 = path := by
  unfold plannedCalls at h
  split at h
  · cases h
  · obtain ⟨method, -, rfl⟩ := List.mem_map.mp h
    rfl

theorem mem_plannedCalls {p : Pass} {path : String} {c : String × String} :
    c ∈ p.plannedCalls path ↔
      ∃ l, p.catalog.library? path = some l ∧ c.1 = path ∧
        p.zone.Plans l p.directives.methods c.2 := by
  unfold plannedCalls
  cases p.catalog.library? path with
  | none => simp
  | some l =>
    constructor
    · intro hc
      obtain ⟨method, hm, rfl⟩ := List.mem_map.mp hc
      exact ⟨l, rfl, rfl, SafeZone.mem_methods_plan.mp hm⟩
    · rintro ⟨_, ⟨rfl⟩, rfl, hm⟩
      exact List.mem_map.mpr ⟨c.2, SafeZone.mem_methods_plan.mpr hm, rfl⟩

theorem nodup_plannedCalls (p : Pass) (path : String) : (p.plannedCalls path).Nodup := by
  unfold plannedCalls
  split
  · exact List.nodup_nil
  · next l _ =>
    exact List.Nodup.map (fun _ _ h => (Prod.mk.inj h).2)
      (p.zone.nodup_methods_plan l p.directives.methods)

theorem filterMap_checks (owner path : String) (l : Library) (ms : List String) :
    (ms.map (Act.check owner path l)).filterMap Act.call? = ms.map (path, ·) := by
  induction ms with
  | nil => rfl
  | cons m ms ih => simp [Act.call?, ih]

theorem filterMap_libraryActs (p : Pass) (owner path : String) :
    (p.libraryActs owner path).filterMap Act.call? = p.plannedCalls path := by
  unfold libraryActs plannedCalls
  rw [List.filterMap_cons_none rfl]
  cases p.catalog.library? path with
  | none => rfl
  | some l =>
    dsimp only [planActs]
    rw [List.filterMap_append, filterMap_checks, List.map_append]
    cases (p.zone.plan l p.directives.methods).initFirst <;> rfl

theorem filterMap_moduleActs (p : Pass) (entry : String × List String) (ready : Bool) :
    (p.moduleActs entry ready).filterMap Act.call? =
      if ready then entry.2.flatMap p.plannedCalls else [] := by
  unfold moduleActs
  rw [List.filterMap_cons_none rfl]
  cases ready with
  | false => rfl
  | true =>
    rw [if_pos rfl, if_pos rfl, List.filterMap_flatMap]
    simp only [filterMap_libraryActs]

theorem filterMap_moduleActs_sublist (p : Pass) (entry : String × List String) (ready : Bool) :
    ((p.moduleActs entry ready).filterMap Act.call?).Sublist
      (entry.2.flatMap p.plannedCalls) := by
  rw [filterMap_moduleActs]
  split
  · exact List.Sublist.refl _
  · exact List.nil_sublist _

theorem filterMap_agenda_sublist (p : Pass) (s : Progress) :
    ((p.agenda s).filterMap Act.call?).Sublist
      (p.directives.modules.paths.flatMap p.plannedCalls) := by
  have hfrom : ∀ (entries : List (String × List String)) (s : Progress),
      ((p.agendaFrom entries s).filterMap Act.call?).Sublist
        ((entries.flatMap Prod.snd).flatMap p.plannedCalls) := by
    intro entries
    induction entries with
    | nil => exact fun _ => List.nil_sublist _
    | cons e es ih =>
      intro s
      rw [agendaFrom, List.filterMap_append, List.flatMap_cons, List.flatMap_append]
      refine (p.filterMap_moduleActs_sublist e _).append ?_
      split
      · exact List.nil_sublist _
      · exact ih _
  unfold agenda
  split
  · exact List.nil_sublist _
  · exact hfrom _ s

/-! ## The calls that are made -/

theorem call?_of_called {p : Pass} {m : Moment} {path method : String} {l : Library}
    (h : p.called? m = some (path, l, method)) : m.act.call? = some (path, method) := by
  rcases called?_eq_some h with ⟨rfl, owner, hact⟩ | ⟨-, owner, hact⟩
  · rw [hact]
    rfl
  · rw [hact]
    rfl

/-- A moment makes the call of its work, or none. -/
theorem filterMap_calls_sublist (p : Pass) (m : Moment) :
    ((p.calls m).filterMap Event.call?).Sublist m.act.call?.toList := by
  cases hc : p.called? m with
  | none =>
    rw [calls_of_not_called hc]
    exact List.nil_sublist _
  | some c =>
    obtain ⟨path, l, method⟩ := c
    rw [calls_of_called hc, call?_of_called hc, Library.runs]
    split
    · exact List.Sublist.refl _
    · exact List.nil_sublist _

theorem filterMap_trail_sublist (p : Pass) (as : List Act) (s : Progress) :
    (((p.trail as s).flatMap p.calls).filterMap Event.call?).Sublist
      (as.filterMap Act.call?) := by
  induction as generalizing s with
  | nil => exact List.nil_sublist _
  | cons a as ih =>
    have hcons : (a :: as).filterMap Act.call? = a.call?.toList ++ as.filterMap Act.call? := by
      cases h : a.call? <;> simp [h]
    rw [hcons, trail, List.flatMap_cons, List.filterMap_append]
    exact (p.filterMap_calls_sublist ⟨a, s⟩).append (ih _)

/-- The calls of a run, in order: the paths asked for and the methods. -/
def made (p : Pass) (input : Input) : List (String × String) :=
  (p.run (.start input)).events.filterMap Event.call?

theorem made_eq (p : Pass) (input : Input) :
    p.made input = ((p.moments (.start input)).flatMap p.calls).filterMap Event.call? := by
  rw [made, run_events]
  rfl

theorem made_sublist (p : Pass) (input : Input) :
    (p.made input).Sublist (p.directives.modules.paths.flatMap p.plannedCalls) := by
  rw [made_eq]
  exact (p.filterMap_trail_sublist _ _).trans (p.filterMap_agenda_sublist _)

theorem path_of_mem_made {p : Pass} {input : Input} {c : String × String}
    (h : c ∈ p.made input) : c.1 ∈ p.directives.modules.paths := by
  obtain ⟨path, hpath, hc⟩ := List.mem_flatMap.mp ((p.made_sublist input).subset h)
  rw [fst_of_mem_plannedCalls hc]
  exact hpath

/-- Told apart by path and method, no call is made twice. -/
theorem nodup_made {p : Pass} (hp : p.directives.modules.Filed) (input : Input) :
    (p.made input).Nodup := by
  refine List.Nodup.sublist (p.made_sublist input) ?_
  rw [List.nodup_flatMap]
  refine ⟨fun path _ => p.nodup_plannedCalls path, ?_⟩
  refine hp.nodup_paths.imp ?_
  intro path path' hne c hc hc'
  rw [← fst_of_mem_plannedCalls hc, ← fst_of_mem_plannedCalls hc'] at hne
  exact hne rfl

/-! ## The same library under two paths -/

/-- What a call reaches: the path under which the catalog holds the library, and
the method. -/
def reached (c : String × String) : String × String := (Path.canonical c.1, c.2)

/-- What is called stands in the catalog, under the canonical form of its path. -/
theorem key?_of_mem_made {p : Pass} {input : Input} {c : String × String}
    (h : c ∈ p.made input) :
    Catalog.key? (Path.canonical c.1) = .ok (Path.canonical c.1) := by
  obtain ⟨path, -, hc⟩ := List.mem_flatMap.mp ((p.made_sublist input).subset h)
  rw [fst_of_mem_plannedCalls hc]
  apply p.catalog.addressable
  rw [Table.mem_keys_iff]
  unfold plannedCalls at hc
  split at hc
  · cases hc
  · next l hl => exact Option.isSome_iff_exists.mpr ⟨l, hl⟩

theorem nodup_reached_iff {calls : List (String × String)} (hn : calls.Nodup) :
    (calls.map reached).Nodup ↔
      ∀ path method, Path.canonical path = path → (path, method) ∈ calls →
        (Path.rooted path, method) ∉ calls := by
  rw [List.nodup_map_iff_inj_on hn]
  constructor
  · intro hinj path method hpath h h'
    have hsame : reached (path, method) = reached (Path.rooted path, method) := by
      simp [reached, hpath]
    have heq := hinj _ h _ h' hsame
    exact Path.rooted_ne path (Prod.mk.inj heq).1.symm
  · rintro hspelled ⟨a, method⟩ ha ⟨b, method'⟩ hb hsame
    obtain ⟨hpath, hmethod⟩ := Prod.mk.inj hsame
    dsimp only at hpath hmethod
    subst hmethod
    by_cases hab : a = b
    · rw [hab]
    · exfalso
      rcases Path.spellings hpath hab with ⟨path, hc, ⟨rfl, rfl⟩ | ⟨rfl, rfl⟩⟩
      · exact hspelled _ _ hc ha hb
      · exact hspelled _ _ hc hb ha

theorem nodup_reached_made_iff {p : Pass} (hp : p.directives.modules.Filed) (input : Input) :
    ((p.made input).map reached).Nodup ↔
      ∀ path method, (path, method) ∈ p.made input →
        (Path.rooted path, method) ∉ p.made input := by
  rw [nodup_reached_iff (nodup_made hp input)]
  constructor
  · intro hspelled path method h h'
    have hkey := key?_of_mem_made h'
    rw [Path.canonical_rooted] at hkey
    exact hspelled path method (Catalog.key?_eq_ok hkey).1.symm h h'
  · intro hspelled path method _ h
    exact hspelled path method h

/-! ## A request with both spellings -/

theorem mem_made_of_block {p : Pass} {owner path method : String} {input found : Input}
    {t : Progress} (hblock : p.block owner path t <:+: p.moments (.start input))
    (h : .invoked path method found ∈ (p.block owner path t).flatMap p.calls) :
    (path, method) ∈ p.made input := by
  obtain ⟨m, hm, hcall⟩ := List.mem_flatMap.mp h
  rw [made_eq]
  exact List.mem_filterMap.mpr ⟨_, List.mem_flatMap.mpr ⟨m, hblock.subset hm, hcall⟩, rfl⟩

/-- Where every module is ready, each path asked for has its part of the run. -/
theorem exists_block_of_mem_paths {p : Pass} {s : Progress} {path : String}
    (hi : p.isIdle s = false) (ho : ∀ owner past, p.opens owner past = true)
    (hpath : path ∈ p.directives.modules.paths) :
    ∃ owner t, p.block owner path t <:+: p.moments s := by
  obtain ⟨e, he, hmem⟩ := List.mem_flatMap.mp hpath
  obtain ⟨t, ht⟩ := exists_enter_moment hi (ends_of_opens ho s) he
  exact ⟨e.1, exists_block he hmem ht (ho _ _)⟩

/-- Where every module is ready, a call that is scheduled ahead is made. -/
theorem init_mem_made {p : Pass} {input : Input} {path : String} {l : Library}
    (hi : p.isIdle (.start input) = false) (ho : ∀ owner past, p.opens owner past = true)
    (hpath : path ∈ p.directives.modules.paths) (hl : p.catalog.library? path = some l)
    (hfirst : (p.zone.plan l p.directives.methods).initFirst = true) :
    (path, Library.initMethod) ∈ p.made input := by
  obtain ⟨owner, t, hblock⟩ := exists_block_of_mem_paths hi ho hpath
  obtain ⟨rest, hcalls⟩ := block_calls_of_initFirst hl hfirst owner t
  have hhere : .invoked path Library.initMethod t.pools.input ∈
      (p.block owner path t).flatMap p.calls := by
    rw [hcalls]
    exact List.mem_cons_self
  exact mem_made_of_block hblock hhere

theorem isIdle_eq_false {p : Pass} {s : Progress} {path : String}
    (hpath : path ∈ p.directives.modules.paths) (hinput : s.pools.input.isEmpty = false) :
    p.isIdle s = false := by
  have hmodules : p.directives.modules.isEmpty = false := by
    obtain ⟨e, he, -⟩ := List.mem_flatMap.mp hpath
    exact List.isEmpty_eq_false_iff_exists_mem.mpr ⟨e, he⟩
  rw [isIdle, hmodules, hinput, Bool.and_false]
  rfl

/-- A library of nothing but an `init`. -/
def initOnly : Library := ⟨["init"], none, fun _ _ _ => .value .null⟩

theorem initFirst_initOnly {z : SafeZone} (hz : z.enabled = true) (requested : MethodList) :
    (z.plan initOnly requested).initFirst = true := by
  refine (SafeZone.initFirst_of_enabled hz initOnly requested).mpr ⟨by decide, fun h => ?_⟩
  obtain ⟨-, ⟨c, hc, -⟩, -⟩ := (SafeZone.mem_candidates_of_enabled hz _ _ _).mp h
  cases hc

/-- With both spellings of a path in `cmd`, a library under that path is called by
each of them. -/
theorem exists_repeat {raw path : String} (hkey : Catalog.key? path = .ok path)
    (htoken : path ∈ Path.tokens raw) (hrooted : Path.rooted path ∈ Path.tokens raw)
    {input : Input} (hinput : input.isEmpty = false) :
    (path, Library.initMethod) ∈
        made ⟨holding path initOnly hkey, {}, .parse (some raw) none⟩ input ∧
      (Path.rooted path, Library.initMethod) ∈
        made ⟨holding path initOnly hkey, {}, .parse (some raw) none⟩ input := by
  obtain ⟨owner, hread⟩ := Token.exists_ofString?_of_key? hkey
  have hlisted : path ∈ (Directives.parse (some raw) none).modules.paths :=
    Directives.mem_paths_parse.mpr ⟨⟨raw, rfl, htoken⟩, owner, hread⟩
  have hlisted' : Path.rooted path ∈ (Directives.parse (some raw) none).modules.paths :=
    Directives.mem_paths_parse.mpr ⟨⟨raw, rfl, hrooted⟩, owner, Token.ofString?_rooted hread⟩
  have hbusy : Pass.isIdle ⟨holding path initOnly hkey, {}, .parse (some raw) none⟩
      (.start input) = false := isIdle_eq_false hlisted hinput
  have hcanonical : Path.canonical path = path := (Catalog.key?_eq_ok hkey).1.symm
  constructor
  · exact init_mem_made hbusy (fun _ _ => rfl) hlisted
      (holding_library? initOnly hkey hcanonical) (initFirst_initOnly rfl _)
  · exact init_mem_made hbusy (fun _ _ => rfl) hlisted'
      (holding_library? initOnly hkey (Path.canonical_rooted path)) (initFirst_initOnly rfl _)

/-- **Once, unless asked for twice.** A run repeats no call of a method under one
path. It reaches a method of one library twice just if it calls it under a path with
and without a separator in front, and `cmd` leaves room for that just if it lists a
path of a library in both forms. -/
theorem runs_once_iff (cmd : Option String) :
    (∀ (catalog : Catalog) (zone : SafeZone) (map : Option String) (input : Input),
      (made ⟨catalog, zone, .parse cmd map⟩ input).Nodup ∧
      (((made ⟨catalog, zone, .parse cmd map⟩ input).map reached).Nodup ↔
        ∀ path method, (path, method) ∈ made ⟨catalog, zone, .parse cmd map⟩ input →
          (Path.rooted path, method) ∉ made ⟨catalog, zone, .parse cmd map⟩ input)) ∧
    ((∀ (catalog : Catalog) (zone : SafeZone) (map : Option String) (input : Input),
        ((made ⟨catalog, zone, .parse cmd map⟩ input).map reached).Nodup) ↔
      ∀ raw path, cmd = some raw → Catalog.key? path = .ok path → path ∈ Path.tokens raw →
        Path.rooted path ∉ Path.tokens raw) := by
  have hspelled : ∀ (catalog : Catalog) (zone : SafeZone) (map : Option String) (input : Input),
      ((made ⟨catalog, zone, .parse cmd map⟩ input).map reached).Nodup ↔
        ∀ path method, (path, method) ∈ made ⟨catalog, zone, .parse cmd map⟩ input →
          (Path.rooted path, method) ∉ made ⟨catalog, zone, .parse cmd map⟩ input :=
    fun catalog zone map input => nodup_reached_made_iff (Directives.filed_parse cmd map) input
  refine ⟨fun catalog zone map input =>
    ⟨nodup_made (Directives.filed_parse cmd map) input, hspelled catalog zone map input⟩, ?_, ?_⟩
  · rintro honce raw path rfl hkey htoken hrooted
    have hinput : (Input.ofList [("x", .null)]).isEmpty = false := by decide +kernel
    obtain ⟨hmade, hmade'⟩ := exists_repeat hkey htoken hrooted hinput
    exact (hspelled _ _ _ _).mp (honce _ _ _ _) path _ hmade hmade'
  · intro hasked catalog zone map input
    refine (hspelled catalog zone map input).mpr fun path method hmade hmade' => ?_
    obtain ⟨⟨raw, hcmd, htoken⟩, -⟩ := Directives.mem_paths_parse.mp (path_of_mem_made hmade)
    obtain ⟨⟨raw', hcmd', hrooted⟩, -⟩ :=
      Directives.mem_paths_parse.mp (path_of_mem_made hmade')
    have hraw : raw' = raw := Option.some.inj (hcmd'.symm.trans hcmd)
    have hkey := key?_of_mem_made hmade'
    rw [Path.canonical_rooted] at hkey
    rw [hraw] at hrooted
    exact hasked raw path hcmd hkey htoken hrooted

/-- Asked for in both spellings, a library runs what it has twice. -/
theorem not_always_once :
    ¬ ∀ (catalog : Catalog) (zone : SafeZone) (cmd map : Option String) (input : Input),
      ((made ⟨catalog, zone, .parse cmd map⟩ input).map reached).Nodup := by
  intro honce
  have hmade : made ⟨Guarded.catalog, {}, .parse (some "m\\l,\\m\\l,run") none⟩
      (.ofList [("x", .null)]) =
        [("m\\l", "init"), ("m\\l", "run"), ("\\m\\l", "init"), ("\\m\\l", "run")] := by
    decide +kernel
  have hnodup := honce Guarded.catalog {} (some "m\\l,\\m\\l,run") none (.ofList [("x", .null)])
  rw [hmade] at hnodup
  revert hnodup
  decide +kernel

end Pass

end Switchboard
