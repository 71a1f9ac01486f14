import Mathlib.Data.List.MinMax
import Switchboard.Proofs.Segments

/-!
Where a route starts. A token of a `map` list reads as a route just if the text before
its first colon goes on from a registered library and is not one itself, and the route
then starts at the longest such library. Only the libraries of one module are looked
at; they are all that can fit, so what a token comes to depends on nothing but which
libraries are registered.
-/

namespace Switchboard

/-! ## What is asked for -/

/-- `library` is the longest of `paths` that `path` goes on from. -/
structure Longest (paths : List String) (library path : String) : Prop where
  listed : library ∈ paths
  goesOn : Path.GoesOn library path
  longest : ∀ other ∈ paths, Path.GoesOn other path → other.length ≤ library.length

namespace Longest

theorem of_goesOn {paths : List String} {path : String}
    (h : ∃ library ∈ paths, Path.GoesOn library path) : ∃ library, Longest paths library path := by
  obtain ⟨candidate, hlisted, hgoes⟩ := h
  have hfit : candidate ∈ paths.filter (Path.GoesOn · path) :=
    List.mem_filter.mpr ⟨hlisted, decide_eq_true hgoes⟩
  cases hmax : (paths.filter (Path.GoesOn · path)).argmax String.length with
  | none => exact absurd hfit (List.argmax_eq_none.mp hmax ▸ List.not_mem_nil)
  | some library =>
    obtain ⟨hmem, hgo⟩ := List.mem_filter.mp (List.argmax_mem hmax)
    refine ⟨library, hmem, of_decide_eq_true hgo, fun other hother hgo' => ?_⟩
    exact List.le_of_mem_argmax (List.mem_filter.mpr ⟨hother, decide_eq_true hgo'⟩) hmax

theorem congr {paths paths' : List String} {library path : String}
    (hp : ∀ p, p ∈ paths ↔ p ∈ paths') (h : Longest paths library path) :
    Longest paths' library path :=
  ⟨(hp library).mp h.listed, h.goesOn, fun other hother => h.longest other ((hp other).mpr hother)⟩

/-- Of two texts that a path goes on from, the length tells which is which. -/
theorem unique {paths : List String} {library library' path : String}
    (h : Longest paths library path) (h' : Longest paths library' path) : library' = library := by
  have hlength : library'.toList.length = library.toList.length :=
    Nat.le_antisymm (h.longest library' h'.listed h'.goesOn)
      (h'.longest library h.listed h.goesOn)
  have hbegins := List.prefix_of_prefix_length_le h'.goesOn.isPrefix h.goesOn.isPrefix hlength.le
  exact String.toList_inj.mp (hbegins.eq_of_length hlength)

end Longest

/-- `path` is what stands in `token` before its first colon, `target` what stands behind. -/
def CutAtColon (token path target : String) : Prop :=
  ':' ∉ path.toList ∧ token.toList = path.toList ++ ':' :: target.toList

theorem cut?_colon {token path target : String} :
    Text.cut? ':' token.toList = some (path.toList, target.toList) ↔
      CutAtColon token path target :=
  Text.cut?_eq_some_iff

namespace Directives

/-- What entering `cmd` and `map` texts comes to, as many as there are and in any order. -/
inductive Entered : Directives → Prop
  | empty : Entered empty
  | command {d : Directives} (raw : String) : Entered d → Entered (d.addCommand raw)
  | map {d : Directives} (raw : String) : Entered d → Entered (d.addMap raw)

theorem Entered.filed {d : Directives} (h : d.Entered) : d.modules.Filed := by
  induction h with
  | empty => exact Modules.filed_empty
  | command raw _ ih => exact filed_foldl_enter ih (Path.tokens raw)
  | map raw _ ih =>
    rw [modules_addMap]
    exact ih

/-! ## One token -/

theorem longestHeld?_eq_some_iff {libraries segs : List String} {n k : Nat} :
    longestHeld? libraries segs n = some k ↔
      0 < k ∧ k ≤ n ∧ Path.join (segs.take k) ∈ libraries ∧
        ∀ j, k < j → j ≤ n → Path.join (segs.take j) ∉ libraries := by
  induction n with
  | zero =>
    simp only [longestHeld?, reduceCtorEq, false_iff]
    omega
  | succ n ih =>
    by_cases hfit : Path.join (segs.take (n + 1)) ∈ libraries
    · rw [longestHeld?, if_pos hfit, Option.some.injEq]
      constructor
      · rintro rfl
        exact ⟨Nat.succ_pos n, le_rfl, hfit, by omega⟩
      · rintro ⟨-, hle, -, hlast⟩
        by_contra hne
        exact hlast (n + 1) (by omega) le_rfl hfit
    · rw [longestHeld?, if_neg hfit, ih]
      constructor
      · rintro ⟨hpos, hle, hmem, hlast⟩
        refine ⟨hpos, by omega, hmem, fun j hj hjn => ?_⟩
        rcases Nat.le_succ_iff.mp hjn with hjn | rfl
        · exact hlast j hj hjn
        · exact hfit
      · rintro ⟨hpos, hle, hmem, hlast⟩
        rcases Nat.le_succ_iff.mp hle with hle | rfl
        · exact ⟨hpos, hle, hmem, fun j hj hjn => hlast j hj (by omega)⟩
        · exact absurd hmem hfit

/-- The steps by which a token is read. -/
theorem route?_eq_some_iff_steps {d : Directives} {token : String} {r : Route} :
    d.route? token = some r ↔
      ∃ path owner libraries held method, CutAtColon token path r.target ∧
        Path.LiesIn path owner ∧ d.modules.libraries? owner = some libraries ∧
        longestHeld? libraries (Path.segments path) (Path.segments path).length = some held ∧
        (Path.segments path).drop held = method :: r.steps ∧
        r.source = Path.resultKey (Path.join ((Path.segments path).take held)) method := by
  constructor
  · intro h
    simp only [route?, Option.bind_eq_bind, Option.bind_eq_some_iff] at h
    obtain ⟨⟨source, target⟩, hcolon, ⟨name, rest⟩, hcut, owner, ho, libraries, hlibraries, held,
      hheld, h⟩ := h
    split at h
    · cases h
    · next method steps hdrop =>
      cases h
      refine ⟨.ofList source, owner, libraries, held, method, ?_, ⟨name, rest, ?_, ho⟩,
        hlibraries, hheld, hdrop, rfl⟩
      · rw [← cut?_colon, String.toList_ofList, String.toList_ofList]
        exact hcolon
      · rw [String.toList_ofList]
        exact hcut
  · rintro ⟨path, owner, libraries, held, method, hcolon, ⟨name, rest, hcut, ho⟩, hlibraries,
      hheld, hdrop, hsource⟩
    obtain ⟨source, steps, target⟩ := r
    dsimp only at hcolon hdrop hsource
    subst hsource
    simp [route?, cut?_colon.mpr hcolon, hcut, ho, hlibraries, hheld, hdrop, String.ofList_toList]

/-- Under the module of a path, the most segments that are held make up the longest
registered library, unless they are all of the path. -/
theorem longestHeld?_listed_iff {m : Modules} (hm : m.Filed) {path owner : String}
    (ho : Path.LiesIn path owner) {k : Nat} (hk : k < (Path.segments path).length) :
    longestHeld? (m.listed owner) (Path.segments path) (Path.segments path).length = some k ↔
      0 < k ∧ path ∉ m.paths ∧ Longest m.paths (Path.join ((Path.segments path).take k)) path := by
  have hall : Path.join ((Path.segments path).take (Path.segments path).length) = path := by
    rw [List.take_length, Path.join_segments]
  have hlisted : ∀ j, 0 < j → j ≤ (Path.segments path).length →
      (Path.join ((Path.segments path).take j) ∈ m.listed owner ↔
        Path.join ((Path.segments path).take j) ∈ m.paths) := by
    intro j hpos hle
    refine ⟨fun h => Modules.mem_paths.mpr ⟨owner, h⟩, fun h => (hm.liesIn_iff h ?_).mp ho⟩
    rcases hle.lt_or_eq with hlt | rfl
    · exact .inr (Path.goesOn_iff_take.mpr ⟨j, hpos, hlt, rfl⟩)
    · exact .inl hall
  rw [longestHeld?_eq_some_iff]
  constructor
  · rintro ⟨hpos, hle, hmem, hlast⟩
    refine ⟨hpos, fun hpath => ?_, (hlisted k hpos hle).mp hmem,
      Path.goesOn_iff_take.mpr ⟨k, hpos, hk, rfl⟩, ?_⟩
    · rw [← hall, ← hlisted _ (hpos.trans hk) le_rfl] at hpath
      exact hlast _ hk le_rfl hpath
    · intro other hother hgo
      obtain ⟨j, hj, hjn, rfl⟩ := Path.goesOn_iff_take.mp hgo
      rcases lt_trichotomy j k with hjk | rfl | hkj
      · exact (Path.goesOn_join_take (Path.plain_segments path) hj hjk hle).length_lt.le
      · exact le_rfl
      · exact absurd ((hlisted j hj hjn.le).mpr hother) (hlast j hkj hjn.le)
  · rintro ⟨hpos, hpath, hlongest⟩
    refine ⟨hpos, hk.le, (hlisted k hpos hk.le).mpr hlongest.listed, fun j hkj hjn hmem => ?_⟩
    rw [hlisted j (hpos.trans hkj) hjn] at hmem
    rcases hjn.lt_or_eq with hjn | rfl
    · have hle := hlongest.longest _ hmem
        (Path.goesOn_iff_take.mpr ⟨j, hpos.trans hkj, hjn, rfl⟩)
      have hlt := (Path.goesOn_join_take (Path.plain_segments path) hpos hkj hjn.le).length_lt
      exact absurd hle hlt.not_ge
    · rw [hall] at hmem
      exact hpath hmem

/-- **One token.** It is read at the longest registered library. -/
theorem route?_eq_some_iff {d : Directives} (hd : d.modules.Filed) {token : String} {r : Route} :
    d.route? token = some r ↔
      ∃ path library method, CutAtColon token path r.target ∧ path ∉ d.modules.paths ∧
        Longest d.modules.paths library path ∧
        path = Path.join (library :: method :: r.steps) ∧ Path.Plain (method :: r.steps) ∧
        r.source = Path.resultKey library method := by
  rw [route?_eq_some_iff_steps]
  constructor
  · rintro ⟨path, owner, libraries, held, method, hcolon, ho, hlibraries, hheld, hdrop, hsource⟩
    have hlisted : d.modules.listed owner = libraries := by
      rw [Modules.listed, hlibraries, Option.getD_some]
    have hk : held < (Path.segments path).length := by
      rw [← Nat.sub_pos_iff_lt, ← List.length_drop, hdrop]
      exact Nat.succ_pos _
    rw [← hlisted] at hheld
    obtain ⟨hpos, hpath, hlongest⟩ := (longestHeld?_listed_iff hd ho hk).mp hheld
    have hsegs := Path.segments_divided path hpos
    rw [hdrop] at hsegs
    obtain ⟨hjoin, hplain⟩ := (Path.segments_eq_append_iff (List.cons_ne_nil _ _)).mp hsegs
    exact ⟨path, _, method, hcolon, hpath, hlongest, hjoin, hplain, hsource⟩
  · rintro ⟨path, library, method, hcolon, hpath, hlongest, hjoin, hplain, hsource⟩
    have hsegs : Path.segments path = Path.segments library ++ method :: r.steps :=
      (Path.segments_eq_append_iff (List.cons_ne_nil _ _)).mpr ⟨hjoin, hplain⟩
    have htake : Path.join ((Path.segments path).take (Path.segments library).length) =
        library := by
      rw [hsegs, List.take_left, Path.join_segments]
    have hk : (Path.segments library).length < (Path.segments path).length := by
      rw [hsegs, List.length_append]
      exact Nat.lt_add_of_pos_right (Nat.succ_pos _)
    obtain ⟨owner, howner⟩ := Modules.mem_paths.mp hlongest.listed
    have ho : Path.LiesIn path owner :=
      (hd.liesIn_iff hlongest.listed (.inr hlongest.goesOn)).mpr howner
    have hheld : longestHeld? (d.modules.listed owner) (Path.segments path)
        (Path.segments path).length = some (Path.segments library).length := by
      rw [longestHeld?_listed_iff hd ho hk, htake]
      exact ⟨List.length_pos_iff.mpr (Path.segments_ne_nil library), hpath, hlongest⟩
    refine ⟨path, owner, d.modules.listed owner, _, method, hcolon, ho,
      Modules.libraries?_of_listed howner, hheld, ?_, ?_⟩
    · rw [hsegs, List.drop_left]
    · rw [htake]
      exact hsource

/-- Only one name of a method and only one list of steps can follow a library. -/
theorem divided_once {library path method method' : String} {steps steps' : List String}
    (h : path = Path.join (library :: method :: steps)) (hp : Path.Plain (method :: steps))
    (h' : path = Path.join (library :: method' :: steps'))
    (hp' : Path.Plain (method' :: steps')) : method' = method ∧ steps' = steps := by
  have hsegs := (Path.segments_eq_append_iff (List.cons_ne_nil _ _)).mpr ⟨h, hp⟩
  rw [(Path.segments_eq_append_iff (List.cons_ne_nil _ _)).mpr ⟨h', hp'⟩] at hsegs
  exact List.cons.inj (List.append_cancel_left hsegs)

/-- A path that goes on from a library reads as a route behind the longest of them. -/
theorem exists_route {d : Directives} (hd : d.modules.Filed) {token path target : String}
    (hcolon : CutAtColon token path target) (hpath : path ∉ d.modules.paths)
    (hgo : ∃ library ∈ d.modules.paths, Path.GoesOn library path) :
    ∃ library method steps, Longest d.modules.paths library path ∧
      path = Path.join (library :: method :: steps) ∧ Path.Plain (method :: steps) ∧
      d.route? token = some ⟨Path.resultKey library method, steps, target⟩ := by
  obtain ⟨library, hl⟩ := Longest.of_goesOn hgo
  obtain ⟨more, hne, hsegs⟩ := Path.goesOn_iff_segments.mp hl.goesOn
  obtain ⟨hjoin, hplain⟩ := (Path.segments_eq_append_iff hne).mp hsegs
  obtain ⟨method, steps, rfl⟩ := List.exists_cons_of_ne_nil hne
  exact ⟨library, method, steps, hl, hjoin, hplain, (route?_eq_some_iff hd).mpr
    ⟨path, library, method, hcolon, hpath, hl, hjoin, hplain, rfl⟩⟩

/-! ## Whole lists -/

theorem route?_congr {d d' : Directives} (hd : d.modules.Filed) (hd' : d'.modules.Filed)
    (h : ∀ path, path ∈ d.modules.paths ↔ path ∈ d'.modules.paths) (token : String) :
    d.route? token = d'.route? token := by
  have himp : ∀ {d d' : Directives}, d.modules.Filed → d'.modules.Filed →
      (∀ path, path ∈ d.modules.paths ↔ path ∈ d'.modules.paths) → ∀ r,
        d.route? token = some r → d'.route? token = some r := by
    intro d d' hd hd' h r hr
    obtain ⟨path, library, method, hcolon, hpath, hl, hdivided⟩ := (route?_eq_some_iff hd).mp hr
    exact (route?_eq_some_iff hd').mpr
      ⟨path, library, method, hcolon, mt (h path).mpr hpath, hl.congr h, hdivided⟩
  exact Option.ext fun r => ⟨himp hd hd' h r, himp hd' hd (fun p => (h p).symm) r⟩

/-- A `map` enters the routes that its tokens read as. -/
theorem routes_addMap (d : Directives) (raw : String) :
    (d.addMap raw).routes =
      ((Path.tokens raw).filterMap d.route?).foldl Routes.insert d.routes := by
  unfold addMap
  induction Path.tokens raw generalizing d with
  | nil => rfl
  | cons token tokens ih =>
    -- What the tokens behind it read as is up to the modules, and they stay.
    have hread : ∀ routes, route? { d with routes := routes } = d.route? := fun _ => rfl
    rw [List.foldl_cons, ih]
    unfold enterRoute
    cases hr : d.route? token with
    | none => rw [List.filterMap_cons_none hr]
    | some route =>
      rw [List.filterMap_cons_some hr, List.foldl_cons]
      simp only [hread]

theorem routes_addCommand (d : Directives) (raw : String) :
    (d.addCommand raw).routes = d.routes := by
  have hstep : ∀ (d : Directives) (token : String), (d.enter token).routes = d.routes := by
    intro d token
    unfold enter
    split <;> rfl
  unfold addCommand
  induction Path.tokens raw generalizing d with
  | nil => rfl
  | cons token tokens ih => rw [List.foldl_cons, ih, hstep]

theorem routes_parse (cmd map : Option String) :
    (parse cmd map).routes =
      .ofList (((map.map Path.tokens).getD []).filterMap (parse cmd none).route?) := by
  unfold parse add
  cases cmd <;> cases map <;> simp only [routes_addMap, routes_addCommand] <;> rfl

theorem routes_addMap_congr {d d' : Directives} (hd : d.modules.Filed) (hd' : d'.modules.Filed)
    (h : ∀ path, path ∈ d.modules.paths ↔ path ∈ d'.modules.paths) (hr : d.routes = d'.routes)
    (raw : String) : (d.addMap raw).routes = (d'.addMap raw).routes := by
  rw [routes_addMap, routes_addMap, hr, funext (route?_congr hd hd' h)]

/-- **Longest registered library.** However the texts came in, a token of a `map` list
reads as a route just if what stands before its first colon is not a registered library
and goes on from one. The route starts at the longest one there is, with the method and
the steps behind it. All libraries that can fit are listed under the module of the path,
so that only which libraries are registered counts, and not the order of `cmd`. -/
theorem map_tokens_start_at_longest_library {d : Directives} (hd : d.Entered) :
    (∀ token, (d.route? token).isSome ↔
      ∃ path target, CutAtColon token path target ∧ path ∉ d.modules.paths ∧
        ∃ library ∈ d.modules.paths, Path.GoesOn library path) ∧
    (∀ token path target, CutAtColon token path target → path ∉ d.modules.paths →
      (∃ library ∈ d.modules.paths, Path.GoesOn library path) →
      ∃ library method steps, Longest d.modules.paths library path ∧
        (∀ other, Longest d.modules.paths other path → other = library) ∧
        path = Path.join (library :: method :: steps) ∧ Path.Plain (method :: steps) ∧
        (∀ method' steps', path = Path.join (library :: method' :: steps') →
          Path.Plain (method' :: steps') → method' = method ∧ steps' = steps) ∧
        d.route? token = some ⟨Path.resultKey library method, steps, target⟩) ∧
    (∀ library path, library ∈ d.modules.paths → library = path ∨ Path.GoesOn library path →
      (∃ owner, Path.LiesIn path owner) ∧
        ∀ owner, Path.LiesIn path owner → library ∈ d.modules.listed owner) ∧
    (∀ d' : Directives, d'.Entered →
      (∀ path, path ∈ d.modules.paths ↔ path ∈ d'.modules.paths) →
      (∀ token, d.route? token = d'.route? token) ∧
        ∀ map, d.routes = d'.routes → (d.addMap map).routes = (d'.addMap map).routes) ∧
    (∀ cmd cmd' map, (∀ token, token ∈ Path.tokens cmd ↔ token ∈ Path.tokens cmd') →
      ((d.addCommand cmd).addMap map).routes = ((d.addCommand cmd').addMap map).routes) := by
  have hfiled := hd.filed
  refine ⟨fun token => ⟨fun h => ?_, ?_⟩, ?_, ?_, ?_, ?_⟩
  · obtain ⟨r, hr⟩ := Option.isSome_iff_exists.mp h
    obtain ⟨path, library, method, hcolon, hpath, hl, -⟩ := (route?_eq_some_iff hfiled).mp hr
    exact ⟨path, r.target, hcolon, hpath, library, hl.listed, hl.goesOn⟩
  · rintro ⟨path, target, hcolon, hpath, hgo⟩
    obtain ⟨library, method, steps, -, -, -, hroute⟩ := exists_route hfiled hcolon hpath hgo
    rw [hroute]
    rfl
  · intro token path target hcolon hpath hgo
    obtain ⟨library, method, steps, hl, hjoin, hplain, hroute⟩ :=
      exists_route hfiled hcolon hpath hgo
    exact ⟨library, method, steps, hl, fun _ => hl.unique, hjoin, hplain,
      fun _ _ => divided_once hjoin hplain, hroute⟩
  · intro library path hl hp
    obtain ⟨owner, ho⟩ := Modules.mem_paths.mp hl
    exact ⟨⟨owner, (hfiled.liesIn_iff hl hp).mpr ho⟩,
      fun _ => (hfiled.liesIn_iff hl hp).mp⟩
  · intro d' hd' h
    exact ⟨route?_congr hfiled hd'.filed h,
      fun map hr => routes_addMap_congr hfiled hd'.filed h hr map⟩
  · intro cmd cmd' map htokens
    refine routes_addMap_congr (hd.command cmd).filed (hd.command cmd').filed
      (fun path => ?_) ?_ map
    · rw [addCommand, addCommand, mem_paths_foldl_enter, mem_paths_foldl_enter, htokens]
    · rw [routes_addCommand, routes_addCommand]

namespace Nested

/-- A library listed behind the one that it goes on from. -/
def directives : Directives := empty.addCommand "a\\b,run,a\\b\\c"

/-- The inner library takes the token, although the outer one is listed first. -/
theorem inner_library_takes_token :
    directives.route? "a\\b\\c\\run\\k:to:x" = some ⟨"a\\b\\c\\run", ["k"], "to:x"⟩ := by
  have hpaths : directives.modules.paths = ["a\\b", "a\\b\\c"] := by decide +kernel
  have hcolon : CutAtColon "a\\b\\c\\run\\k:to:x" "a\\b\\c\\run\\k" "to:x" := by
    unfold CutAtColon
    decide +kernel
  have hlongest : Longest directives.modules.paths "a\\b\\c" "a\\b\\c\\run\\k" := by
    rw [hpaths]
    exact ⟨by decide +kernel, by decide +kernel, by decide +kernel⟩
  have hpath : "a\\b\\c\\run\\k" ∉ directives.modules.paths := by
    rw [hpaths]
    decide +kernel
  have hjoin : "a\\b\\c\\run\\k" = Path.join ["a\\b\\c", "run", "k"] := by decide +kernel
  have hplain : Path.Plain ["run", "k"] := by
    unfold Path.Plain
    decide +kernel
  obtain ⟨library, method, steps, -, hunique, -, -, honce, hroute⟩ :=
    (map_tokens_start_at_longest_library (.command _ .empty)).2.1 _ _ _ hcolon hpath
      ⟨_, hlongest.listed, hlongest.goesOn⟩
  obtain rfl := hunique _ hlongest
  obtain ⟨rfl, rfl⟩ := honce _ _ hjoin hplain
  have hkey : Path.resultKey "a\\b\\c" "run" = "a\\b\\c\\run" := by decide +kernel
  rw [hkey] at hroute
  exact hroute

end Nested

end Directives

end Switchboard
