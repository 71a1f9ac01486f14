import Switchboard.Proofs.Replies
import Switchboard.Proofs.Segments

/-!
Which calls share a result key. A result key is the path asked for, a separator and the
method. If no separator stands in the methods, two calls never share one, and no result
of a run is written over. A catalog may hold methods with a separator in their names,
though, and then a method of one library can come to the key of a method of another,
whose path goes on from its own. For a list of `cmd` that is possible just if the list
names no method and asks for two such paths (`results_stay_apart_iff`).
-/

namespace Switchboard

/-- No separator stands in a method that a library of the catalog declares. -/
def Catalog.PlainNames (c : Catalog) : Prop :=
  ∀ path l, c.library? path = some l → ∀ method ∈ l.methods, Path.separator ∉ method.toList

namespace Pass

/-! ## Methods without a separator -/

/-- What is called is planned for the library that its path finds. -/
theorem plans_of_mem_made {p : Pass} {input : Input} {c : String × String}
    (h : c ∈ p.made input) :
    ∃ l, p.catalog.library? c.1 = some l ∧ p.zone.Plans l p.directives.methods c.2 := by
  obtain ⟨path, -, hc⟩ := List.mem_flatMap.mp ((p.made_sublist input).subset h)
  obtain ⟨l, hl, rfl, hplans⟩ := mem_plannedCalls.mp hc
  exact ⟨l, hl, hplans⟩

theorem plain_of_mem_made {p : Pass} {input : Input} (hp : p.directives.methods.Plain)
    (h : p.directives.methods.isEmpty = false ∨ p.catalog.PlainNames) {c : String × String}
    (hc : c ∈ p.made input) : Path.separator ∉ c.2.toList := by
  obtain ⟨l, hl, hplans⟩ := plans_of_mem_made hc
  rcases h with hnamed | hplain
  · rcases hplans.asked hnamed with hinit | hm
    · rw [hinit]
      decide
    · exact hp _ hm
  · exact hplain c.1 l hl _ ((l.declares_iff _).mp hplans.declares)

/-- Between calls of methods without a separator, the result key tells which is which. -/
theorem nodup_keys_of_plain {p : Pass} {input : Input} (hp : p.directives.modules.Filed)
    (h : ∀ c ∈ p.made input, Path.separator ∉ c.2.toList) :
    ((p.made input).map keyOf).Nodup := by
  refine List.Nodup.map_on (fun c hc c' hc' heq => ?_) (nodup_made hp input)
  obtain ⟨hpath, hmethod⟩ := Path.resultKey_inj (h c hc) (h c' hc') heq
  exact Prod.ext hpath hmethod

/-- So it is where the request names methods, or where all names are plain. -/
theorem nodup_keys_parse {catalog : Catalog} {zone : SafeZone} {cmd map : Option String}
    {input : Input}
    (h : (Directives.parse cmd map).methods.isEmpty = false ∨ catalog.PlainNames) :
    ((made ⟨catalog, zone, .parse cmd map⟩ input).map keyOf).Nodup := by
  refine nodup_keys_of_plain (Directives.filed_parse cmd map) fun c hc => ?_
  exact plain_of_mem_made (Directives.plain_parse cmd map) h hc

/-! ## Paths that do not go on from one another -/

/-- A path that is asked for, and under which a library can be registered. -/
def Reachable (m : Modules) (path : String) : Prop :=
  path ∈ m.paths ∧ Catalog.key? (Path.canonical path) = .ok (Path.canonical path)

/-- If two calls share their result key, the path of one goes on from that of the other. -/
theorem nodup_keys_of_apart {p : Pass} {input : Input} (hp : p.directives.modules.Filed)
    (h : ∀ path path', Reachable p.directives.modules path →
      Reachable p.directives.modules path' → ¬ Path.GoesOn path path') :
    ((p.made input).map keyOf).Nodup := by
  have hreach : ∀ c ∈ p.made input, Reachable p.directives.modules c.1 :=
    fun c hc => ⟨path_of_mem_made hc, key?_of_mem_made hc⟩
  refine List.Nodup.map_on (fun c hc c' hc' heq => ?_) (nodup_made hp input)
  rcases Path.resultKey_eq_iff.mp heq with ⟨hpath, hmethod⟩ | ⟨more, hmore, -⟩ | ⟨more, hmore, -⟩
  · exact Prod.ext hpath hmethod
  · exact absurd (Path.goesOn_iff_join.mpr ⟨more, hmore⟩) (h _ _ (hreach c hc) (hreach c' hc'))
  · exact absurd (Path.goesOn_iff_join.mpr ⟨more, hmore⟩) (h _ _ (hreach c' hc') (hreach c hc))

/-! ## A catalog in which two calls share a key -/

/-- A library of two methods that require nothing. -/
def free (method method' : String) : Library where
  methods := [method, method']
  contract := some (.ofList [(method, []), (method', [])])
  invoke := fun _ _ _ => .value .null

/-- The same library under two paths, without hooks. -/
def sharing (l : Library) {path path' : String} (h : Catalog.key? path = .ok path)
    (h' : Catalog.key? path' = .ok path') : Catalog where
  libraries := (Table.empty.insert path l).insert path' l
  hooks := .empty
  addressable := by
    intro key hkey
    rcases Entries.mem_keys_put.mp hkey with rfl | hkey
    · exact h'
    · rcases Entries.mem_keys_put.mp hkey with rfl | hkey
      · exact h
      · cases hkey

theorem sharing_library? (l : Library) {path path' spelled : String}
    (h : Catalog.key? path = .ok path) (h' : Catalog.key? path' = .ok path')
    (hs : Path.canonical spelled = path ∨ Path.canonical spelled = path') :
    (sharing l h h').library? spelled = some l := by
  rw [Catalog.library?, sharing, Table.get?_insert, Table.get?_insert]
  rcases hs with hs | hs <;> simp [hs]

theorem required?_free {method method' name : String} {required : KeySet}
    (h : (Contract.ofList [(method, []), (method', [])]).required? name = some required) :
    required = .ofList [] := by
  simp only [Contract.ofList, List.foldl_cons, List.foldl_nil, Contract.required?,
    Contract.require, Table.get?_insert] at h
  split at h
  · exact (Option.some.inj h).symm
  · split at h
    · exact (Option.some.inj h).symm
    · cases h

theorem mem_candidates_free {z : SafeZone} (hz : z.enabled = true) {requested : MethodList}
    (hr : requested.isEmpty = true) {method method' name : String}
    (h : name = method ∨ name = method') :
    name ∈ z.candidates (free method method') requested := by
  refine (SafeZone.mem_candidates_of_enabled hz _ _ _).mpr ⟨?_, ⟨_, rfl, ?_⟩, ?_⟩
  · rcases h with rfl | rfl <;> simp [Library.declares, free]
  · simp only [Contract.lists, Contract.ofList, List.foldl_cons, List.foldl_nil,
      Contract.required?, Contract.require, Table.get?_insert]
    rcases h with rfl | rfl
    · split <;> simp
    · simp
  · intro hnamed
    rw [hr] at hnamed
    cases hnamed

/-- A candidate that requires nothing is called, where every module is ready. -/
theorem candidate_mem_made {p : Pass} (hz : p.zone.enabled = true) {input : Input}
    {path method : String} {l : Library} (hi : p.isIdle (.start input) = false)
    (ho : ∀ owner past, p.opens owner past = true) (hpath : path ∈ p.directives.modules.paths)
    (hl : p.catalog.library? path = some l)
    (hm : method ∈ p.zone.candidates l p.directives.methods)
    (hfree : ∀ c required, l.contract = some c → c.required? method = some required →
      required = .ofList []) : (path, method) ∈ p.made input := by
  obtain ⟨owner, t, hblock⟩ := exists_block_of_mem_paths hi ho hpath
  obtain ⟨c, required, u, hc, hr, hjudged⟩ : ∃ c required u, l.contract = some c ∧
      c.required? method = some required ∧ p.Judged owner path l method required t u :=
    judged_of_candidate hz t hl hm
  obtain ⟨hcalls, -⟩ := hjudged.allowed fun k hk => by
    rw [hfree c required hc hr, KeySet.mem_ofList] at hk
    cases hk
  have hhere : .invoked path method u.pools.input ∈
      (p.block owner path t).flatMap p.calls := by
    refine List.mem_flatMap.mpr ⟨_, hjudged.reached, ?_⟩
    rw [hcalls]
    exact List.mem_singleton_self _
  exact mem_made_of_block hblock hhere

/-- Without methods in the request, a path and one that goes on from it can be called
under one result key. -/
theorem exists_shared_key {d : Directives} (hnone : d.methods.isEmpty = true)
    {path path' : String} (h : Reachable d.modules path) (h' : Reachable d.modules path')
    (hgo : Path.GoesOn path path') {input : Input} (hinput : input.isEmpty = false) :
    ∃ (catalog : Catalog) (method method' : String),
      (path, method) ∈ made ⟨catalog, {}, d⟩ input ∧
        (path', method') ∈ made ⟨catalog, {}, d⟩ input ∧
        keyOf (path, method) = keyOf (path', method') := by
  obtain ⟨more, hmore⟩ := Path.goesOn_iff_join.mp hgo
  -- the outer library has a method that begins with what the inner path has more
  have hcalled : ∀ spelled name, spelled ∈ d.modules.paths →
      (Path.canonical spelled = Path.canonical path ∨
        Path.canonical spelled = Path.canonical path') →
      (name = Path.join [more, "run"] ∨ name = "run") →
      (spelled, name) ∈
        made ⟨sharing (free (Path.join [more, "run"]) "run") h.2 h'.2, {}, d⟩ input := by
    intro spelled name hspelled hsame hname
    have hbusy : Pass.isIdle ⟨sharing (free (Path.join [more, "run"]) "run") h.2 h'.2, {}, d⟩
        (.start input) = false := isIdle_eq_false hspelled hinput
    refine candidate_mem_made rfl hbusy (fun _ _ => rfl) hspelled
      (sharing_library? _ h.2 h'.2 hsame) (mem_candidates_free rfl hnone hname) ?_
    rintro c required ⟨rfl⟩ hr
    exact required?_free hr
  exact ⟨_, Path.join [more, "run"], "run", hcalled _ _ h.1 (.inl rfl) (.inl rfl),
    hcalled _ _ h'.1 (.inr rfl) (.inr rfl),
    Path.resultKey_eq_iff.mpr (.inr (.inl ⟨more, hmore, rfl⟩))⟩

/-- **Apart, unless one path goes on from another.** If no method that is called has a
separator in it, the calls of a run have result keys of their own, and then the results
are all that the calls have given. That is so if `cmd` names methods, and if the catalog
has plain names only. A `cmd` that names no method leaves room for a shared key just if
it asks for a path and for one that goes on from it. -/
theorem results_stay_apart_iff (cmd : Option String) :
    (∀ (catalog : Catalog) (zone : SafeZone) (map : Option String) (input : Input),
      ((Directives.parse cmd map).methods.isEmpty = false ∨ catalog.PlainNames →
        ((made ⟨catalog, zone, .parse cmd map⟩ input).map keyOf).Nodup) ∧
      (((made ⟨catalog, zone, .parse cmd map⟩ input).map keyOf).Nodup →
        (run ⟨catalog, zone, .parse cmd map⟩ (.start input)).pools.results.toList =
          (moments ⟨catalog, zone, .parse cmd map⟩ (.start input)).flatMap
            (kept ⟨catalog, zone, .parse cmd map⟩))) ∧
    ((∀ (catalog : Catalog) (zone : SafeZone) (map : Option String) (input : Input),
        ((made ⟨catalog, zone, .parse cmd map⟩ input).map keyOf).Nodup) ↔
      (Directives.parse cmd none).methods.isEmpty = false ∨
        ∀ path path', Reachable (Directives.parse cmd none).modules path →
          Reachable (Directives.parse cmd none).modules path' → ¬ Path.GoesOn path path') := by
  refine ⟨fun catalog zone map input => ⟨nodup_keys_parse, run_results_of_nodup⟩, ?_, ?_⟩
  · intro hapart
    cases hnone : (Directives.parse cmd none).methods.isEmpty with
    | false => exact .inl rfl
    | true =>
      refine .inr fun path path' h h' hgo => ?_
      have hinput : (Input.ofList [("x", .null)]).isEmpty = false := by decide +kernel
      obtain ⟨catalog, method, method', hmade, hmade', hkey⟩ :=
        exists_shared_key hnone h h' hgo hinput
      have hsame := List.inj_on_of_nodup_map (hapart catalog {} none _) hmade hmade' hkey
      obtain rfl := (Prod.mk.inj hsame).1
      exact Nat.lt_irrefl _ hgo.length_lt
  · intro h catalog zone map input
    have hmethods : (Directives.parse cmd map).methods = (Directives.parse cmd none).methods := by
      rw [Directives.methods_parse, Directives.methods_parse]
    have hmodules : (Directives.parse cmd map).modules = (Directives.parse cmd none).modules := by
      rw [Directives.modules_parse, Directives.modules_parse]
    rcases h with hnamed | hpaths
    · exact nodup_keys_parse (.inl (hmethods ▸ hnamed))
    · refine nodup_keys_of_apart (Directives.filed_parse cmd map) fun path path' h h' => ?_
      exact hpaths path path' (hmodules ▸ h) (hmodules ▸ h')

namespace Shared

/-- A library beside one that lies inside it, and a method whose name spans the two. -/
def catalog : Catalog where
  libraries := ⟨[("a\\b", free "c\\run" "stop"), ("a\\b\\c", free "run" "stop")], by decide⟩
  hooks := .empty
  addressable := by decide +kernel

/-- A method of the outer library and one of the inner library have one result key. -/
theorem results_not_always_apart :
    ¬ ∀ (catalog : Catalog) (zone : SafeZone) (cmd map : Option String) (input : Input),
      ∀ c ∈ made ⟨catalog, zone, .parse cmd map⟩ input,
        ∀ c' ∈ made ⟨catalog, zone, .parse cmd map⟩ input, c ≠ c' → keyOf c ≠ keyOf c' := by
  intro hapart
  have hmade : made ⟨catalog, {}, .parse (some "a\\b,a\\b\\c") none⟩ (.ofList [("x", .null)]) =
      [("a\\b", "c\\run"), ("a\\b", "stop"), ("a\\b\\c", "run"), ("a\\b\\c", "stop")] := by
    decide +kernel
  have hkeys := hapart catalog {} (some "a\\b,a\\b\\c") none (.ofList [("x", .null)])
    ("a\\b", "c\\run") (by simp [hmade]) ("a\\b\\c", "run") (by simp [hmade]) (by decide)
  exact hkeys (by decide +kernel)

end Shared

end Pass

end Switchboard
