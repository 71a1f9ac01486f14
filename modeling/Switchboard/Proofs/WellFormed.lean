import Switchboard.Proofs.LastRoute

/-!
What is true of the registries at all times. Texts of `cmd` and of `map` may be entered as
often as one likes and in any order: libraries, methods and routes keep their form
(`Directives.WellFormed`), and nothing that is there is moved or taken away
(`Directives.Extends`). The main result (`Directives.entered_are_well_formed`) says all of
it about the registries as they are held.
-/

namespace Switchboard

/-! ## Parts of a path -/

namespace Path

theorem toList_subset_join {segs : List String} {s : String} (h : s ∈ segs) :
    s.toList ⊆ (join segs).toList := by
  induction segs with
  | nil => cases h
  | cons x segs ih =>
    by_cases hsegs : segs = []
    · subst hsegs
      rw [List.mem_singleton.mp h, join_singleton]
      exact List.Subset.refl _
    · rw [toList_join_cons x hsegs]
      rcases List.mem_cons.mp h with rfl | h
      · exact List.subset_append_left _ _
      · exact fun c hc => List.mem_append_right _ (List.mem_cons_of_mem _ (ih h hc))

/-- A module is one segment of its path. -/
theorem LiesIn.plain {path owner : String} (h : LiesIn path owner) :
    separator ∉ owner.toList := by
  obtain ⟨name, rest, hcut, hm⟩ := h
  rw [moduleAt?_eq_some, resolve_eq_find? hcut] at hm
  exact Text.not_mem_of_mem_pieces
    (List.dropLast_subset _ (List.mem_of_find?_eq_some hm))

end Path

theorem Token.separator_mem_of_library {token owner path : String}
    (h : ofString? token = some (.library owner path)) : Path.separator ∈ token.toList := by
  obtain ⟨-, name, rest, hcut, -⟩ := ofString?_eq_library.mp h
  rw [(Text.cut?_eq_some_iff.mp hcut).2]
  exact List.mem_append_right _ List.mem_cons_self

/-! ## Nothing is moved -/

namespace Directives

/-- Modules, the libraries of each and methods are those of `d`, with others behind them. -/
structure Extends (d d' : Directives) : Prop where
  modules : d.modules.table.keys <+: d'.modules.table.keys
  libraries : ∀ owner, d.modules.listed owner <+: d'.modules.listed owner
  methods : d.methods.toList <+: d'.methods.toList

theorem Extends.refl (d : Directives) : d.Extends d :=
  ⟨List.prefix_rfl, fun _ => List.prefix_rfl, List.prefix_rfl⟩

theorem Extends.trans {d d' d'' : Directives} (h : d.Extends d') (h' : d'.Extends d'') :
    d.Extends d'' :=
  ⟨h.modules.trans h'.modules, fun owner => (h.libraries owner).trans (h'.libraries owner),
    h.methods.trans h'.methods⟩

theorem extends_addCommand (d : Directives) (raw : String) : d.Extends (d.addCommand raw) := by
  unfold addCommand
  refine ⟨?_, fun owner => ?_, ?_⟩
  · rw [keys_foldl_enter]
    exact prefix_foldl_appendNew _ _
  · rw [listed_foldl_enter]
    exact prefix_foldl_appendNew _ _
  · rw [methods_foldl_enter]
    exact prefix_foldl_appendNew _ _

theorem extends_addMap (d : Directives) (raw : String) : d.Extends (d.addMap raw) := by
  obtain ⟨routes, heq⟩ := d.exists_addMap_eq raw
  rw [heq]
  exact ⟨List.prefix_rfl, fun _ => List.prefix_rfl, List.prefix_rfl⟩

end Directives

/-! ## Routes -/

/-- A route starts at a method of one of `paths`, and no part of it holds a mark that it
could not be read with. -/
structure Route.Anchored (paths : List String) (r : Route) : Prop where
  start : ∃ library ∈ paths, ∃ method,
    r.source = Path.resultKey library method ∧ Path.separator ∉ method.toList
  source : ':' ∉ r.source.toList ∧ ',' ∉ r.source.toList
  steps : ∀ s ∈ r.steps, Path.separator ∉ s.toList ∧ ':' ∉ s.toList ∧ ',' ∉ s.toList
  target : ',' ∉ r.target.toList

theorem Route.Anchored.mono {paths paths' : List String} {r : Route} (h : r.Anchored paths)
    (hp : paths ⊆ paths') : r.Anchored paths' := by
  obtain ⟨library, hlibrary, hstart⟩ := h.start
  exact ⟨⟨library, hp hlibrary, hstart⟩, h.source, h.steps, h.target⟩

namespace Directives

variable {d : Directives} {raw : String}

/-- A token without a comma reads as a route that is anchored. -/
theorem anchored_of_route? (hd : d.modules.Filed) {token : String} {r : Route}
    (hcomma : ',' ∉ token.toList) (h : d.route? token = some r) :
    r.Anchored d.modules.paths := by
  obtain ⟨path, library, method, -, -, hlongest, -, hplain, hsource⟩ := (route?_eq_some_iff hd).mp h
  obtain ⟨hcolon, htext⟩ := cutAtColon_of_route? h
  rw [htext, List.mem_append, List.mem_cons, not_or, not_or] at hcomma
  obtain ⟨hcomma, -, htarget⟩ := hcomma
  have hpart : ∀ s ∈ r.source :: r.steps, ':' ∉ s.toList ∧ ',' ∉ s.toList := fun s hs =>
    ⟨mt (fun hc => Path.toList_subset_join hs hc) hcolon,
      mt (fun hc => Path.toList_subset_join hs hc) hcomma⟩
  exact ⟨⟨library, hlongest.listed, method, hsource, hplain method List.mem_cons_self⟩,
    hpart _ List.mem_cons_self,
    fun s hs => ⟨hplain s (List.mem_cons_of_mem _ hs), hpart s (List.mem_cons_of_mem _ hs)⟩,
    htarget⟩

/-! ## The invariant -/

/-- The form that libraries, methods and routes keep. -/
structure WellFormed (d : Directives) : Prop where
  filed : d.modules.Filed
  inhabited : ∀ owner ∈ d.modules.table.keys, d.modules.listed owner ≠ []
  library : ∀ path ∈ d.modules.paths, ',' ∉ path.toList
  method : ∀ name ∈ d.methods.toList,
    name ≠ "" ∧ ',' ∉ name.toList ∧ Path.separator ∉ name.toList
  route : ∀ key r, d.routes.get? key = some r → r.source = key ∧ r.Anchored d.modules.paths

theorem wellFormed_empty : empty.WellFormed :=
  ⟨Modules.filed_empty, fun _ h => (nomatch h), fun _ h => (nomatch h),
    fun _ h => (nomatch h), fun _ _ h => (nomatch h)⟩

theorem WellFormed.addCommand (h : d.WellFormed) (raw : String) :
    (d.addCommand raw).WellFormed := by
  refine ⟨filed_foldl_enter h.filed _, fun owner howner => ?_, fun path hpath => ?_,
    fun name hname => ?_, fun key r hr => ?_⟩
  · rw [Directives.addCommand, keys_foldl_enter, mem_foldl_appendNew] at howner
    rw [Directives.addCommand, listed_foldl_enter]
    rcases howner with hold | hnew
    · obtain ⟨path, hpath⟩ := List.exists_mem_of_ne_nil _ (h.inhabited owner hold)
      exact List.ne_nil_of_mem (mem_foldl_appendNew.mpr (.inl hpath))
    · obtain ⟨token, htoken, ho⟩ := List.mem_filterMap.mp hnew
      have hmem : token ∈ (Path.tokens raw).filter (Token.owner? · = some owner) :=
        List.mem_filter.mpr ⟨htoken, decide_eq_true ho⟩
      exact List.ne_nil_of_mem (mem_foldl_appendNew.mpr (.inr hmem))
  · rw [Directives.addCommand, mem_paths_foldl_enter] at hpath
    rcases hpath with hold | ⟨htoken, -⟩
    · exact h.library path hold
    · exact Path.not_mem_of_mem_tokens htoken
  · rw [Directives.addCommand, mem_methods_foldl_enter] at hname
    rcases hname with hold | ⟨htoken, hread⟩
    · exact h.method name hold
    · exact ⟨(Path.mem_tokens.mp htoken).2, Path.not_mem_of_mem_tokens htoken,
        Token.plain_of_method hread⟩
  · rw [routes_addCommand] at hr
    obtain ⟨hsource, hanchored⟩ := h.route key r hr
    exact ⟨hsource, hanchored.mono fun path hpath =>
      (mem_paths_foldl_enter d _ path).mpr (.inl hpath)⟩

theorem WellFormed.addMap (h : d.WellFormed) (raw : String) : (d.addMap raw).WellFormed := by
  have hroute : ∀ key r, (d.addMap raw).routes.get? key = some r →
      r.source = key ∧ r.Anchored d.modules.paths := by
    intro key r hr
    rw [get?_routes_addMap] at hr
    rcases Option.or_eq_some_iff.mp hr with hnew | ⟨-, hold⟩
    · obtain ⟨token, htoken, hfrom⟩ := List.exists_of_findSome?_eq_some hnew
      obtain ⟨hread, hsource⟩ := Option.filter_eq_some_iff.mp hfrom
      exact ⟨of_decide_eq_true hsource, anchored_of_route? h.filed
        (Path.not_mem_of_mem_tokens (List.mem_reverse.mp htoken)) hread⟩
    · exact h.route key r hold
  obtain ⟨routes, heq⟩ := d.exists_addMap_eq raw
  rw [heq] at hroute ⊢
  exact ⟨h.filed, h.inhabited, h.library, h.method, hroute⟩

/-- What was entered, in whatever order, is well-formed. -/
theorem Entered.wellFormed (hd : d.Entered) : d.WellFormed := by
  induction hd with
  | empty => exact wellFormed_empty
  | command raw _ ih => exact ih.addCommand raw
  | map raw _ ih => exact ih.addMap raw

/-- A module is a name, with at least one library, and each of its libraries is a path that
reads as one of this module. -/
theorem WellFormed.module_ok (h : d.WellFormed) {e : String × List String}
    (he : e ∈ d.modules.toList) :
    e.1 ≠ "" ∧ Path.separator ∉ e.1.toList ∧ e.2 ≠ [] ∧
      ∀ path ∈ e.2, Path.separator ∈ path.toList ∧ ',' ∉ path.toList ∧
        Token.ofString? path = some (.library e.1 path) := by
  have hlisted : d.modules.listed e.1 = e.2 := Modules.listed_of_mem he
  have hne : e.2 ≠ [] := hlisted ▸ h.inhabited e.1 (List.mem_map_of_mem he)
  have hread : ∀ path ∈ e.2, Token.ofString? path = some (.library e.1 path) :=
    fun path hpath => h.filed.named e.1 path (hlisted ▸ hpath)
  obtain ⟨first, hfirst⟩ := List.exists_mem_of_ne_nil _ hne
  refine ⟨(Token.names_ne_empty (hread first hfirst)).1,
    (Token.liesIn_of_library (hread first hfirst)).plain, hne, fun path hpath => ?_⟩
  exact ⟨Token.separator_mem_of_library (hread path hpath),
    h.library path (Modules.mem_paths.mpr ⟨e.1, hlisted ▸ hpath⟩), hread path hpath⟩

/-- **The registries, whatever was entered.** Modules are distinct names, each with libraries
that are paths of this module, and no library is listed twice in all. Methods are distinct
names. A route is held where it starts, at a method of a registered library, and its parts
hold none of the marks that the text of a `map` is cut at. What is entered next comes behind
what is there. -/
theorem entered_are_well_formed (hd : d.Entered) :
    d.modules.table.keys.Nodup ∧
    (∀ e ∈ d.modules.toList, e.1 ≠ "" ∧ Path.separator ∉ e.1.toList ∧ e.2 ≠ [] ∧
      ∀ path ∈ e.2, Path.separator ∈ path.toList ∧ ',' ∉ path.toList ∧
        Token.ofString? path = some (.library e.1 path)) ∧
    d.modules.paths.Nodup ∧
    d.methods.toList.Nodup ∧
    (∀ name ∈ d.methods.toList,
      name ≠ "" ∧ ',' ∉ name.toList ∧ Path.separator ∉ name.toList) ∧
    (∀ key r, d.routes.get? key = some r →
      r.source = key ∧
      (∃ library ∈ d.modules.paths, ∃ method : String,
        key.toList = library.toList ++ Path.separator :: method.toList ∧
          Path.separator ∉ method.toList) ∧
      (':' ∉ key.toList ∧ ',' ∉ key.toList) ∧
      (∀ s ∈ r.steps, Path.separator ∉ s.toList ∧ ':' ∉ s.toList ∧ ',' ∉ s.toList) ∧
      ',' ∉ r.target.toList) ∧
    (∀ raw, d.Extends (d.addCommand raw)) ∧ (∀ raw, d.Extends (d.addMap raw)) := by
  have h := hd.wellFormed
  refine ⟨d.modules.table.nodup, fun e he => h.module_ok he, h.filed.nodup_paths,
    d.methods.nodup, h.method, fun key r hr => ?_, d.extends_addCommand, d.extends_addMap⟩
  obtain ⟨rfl, hanchored⟩ := h.route key r hr
  obtain ⟨library, hlibrary, method, hsource, hplain⟩ := hanchored.start
  refine ⟨rfl, ⟨library, hlibrary, method, ?_, hplain⟩, hanchored.source, hanchored.steps,
    hanchored.target⟩
  rw [hsource, Path.toList_resultKey]

namespace Interleaved

/-- A route is entered between two texts of `cmd`. -/
def directives : Directives :=
  ((empty.addCommand "a\\b,run,a\\b\\c,").addMap "a\\b\\c\\run\\k:to:x").addCommand "run,\\d\\e,a\\f"

theorem entered : directives.Entered := .command _ (.map _ (.command _ .empty))

theorem modules_eq :
    directives.modules.toList = [("a", ["a\\b", "a\\b\\c", "a\\f"]), ("d", ["\\d\\e"])] := by
  decide +kernel

end Interleaved

/-- Two modules and a route, each of the form it should have. -/
theorem interleaved_is_well_formed :
    Interleaved.directives.modules.paths.Nodup ∧
    Token.ofString? "\\d\\e" = some (.library "d" "\\d\\e") ∧
    (∃ library ∈ Interleaved.directives.modules.paths, ∃ method : String,
      "a\\b\\c\\run".toList = library.toList ++ Path.separator :: method.toList ∧
        Path.separator ∉ method.toList) ∧
    Interleaved.directives.Extends (Interleaved.directives.addCommand "g\\h") := by
  obtain ⟨-, hmodules, hnodup, -, -, hroutes, hcommand, -⟩ :=
    entered_are_well_formed Interleaved.entered
  have hd : ("d", ["\\d\\e"]) ∈ Interleaved.directives.modules.toList := by
    rw [Interleaved.modules_eq]
    decide
  obtain ⟨-, -, -, hlibraries⟩ := hmodules _ hd
  have hroute : Interleaved.directives.routes.get? "a\\b\\c\\run" =
      some ⟨"a\\b\\c\\run", ["k"], "to:x"⟩ := by decide +kernel
  exact ⟨hnodup, (hlibraries _ (List.mem_singleton.mpr rfl)).2.2, (hroutes _ _ hroute).2.1,
    hcommand _⟩

end Directives

end Switchboard
