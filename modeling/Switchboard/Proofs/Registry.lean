import Mathlib.Data.List.Nodup
import Switchboard.Catalog
import Switchboard.Directive

/-!
Which libraries a request asks for. The registry lists each path of `cmd` that asks
for a library, once, under the module that the path itself names (`Filed`), so no
path is listed twice in all of it. It tells paths apart by their text. The catalog
does not: a path and the same path behind one separator are one library to it, and
both read as the same module (`Token.ofString?_rooted`). The methods that a request
names hold no separator (`Directives.plain_parse`).
-/

namespace Switchboard

/-! ## Paths behind a separator -/

namespace Path

/-- A path with one separator put in front. -/
def rooted (path : String) : String := String.ofList (separator :: path.toList)

@[simp] theorem canonical_rooted (path : String) : canonical (rooted path) = path := by
  simp [canonical, rooted]

theorem rooted_ne (path : String) : rooted path ≠ path := by
  intro h
  have hlist : separator :: path.toList = path.toList := by
    rw [← String.toList_ofList (l := separator :: path.toList)]
    exact congrArg String.toList h
  exact List.cons_ne_self _ _ hlist

/-- The canonical form takes nothing off, or just what `rooted` puts on. -/
theorem eq_or_eq_rooted (path : String) :
    canonical path = path ∨ path = rooted (canonical path) := by
  unfold canonical
  split
  · next c cs h =>
    split
    · next hc =>
      right
      rw [rooted, String.toList_ofList, ← hc, ← h, String.ofList_toList]
    · exact .inl rfl
  · exact .inl rfl

/-- Two texts that name one library differ by a separator in front. -/
theorem spellings {a b : String} (h : canonical a = canonical b) (hne : a ≠ b) :
    ∃ path, canonical path = path ∧
      (a = path ∧ b = rooted path ∨ a = rooted path ∧ b = path) := by
  rcases eq_or_eq_rooted a with ha | ha <;> rcases eq_or_eq_rooted b with hb | hb
  · rw [ha, hb] at h
    exact absurd h hne
  · refine ⟨a, ha, .inl ⟨rfl, ?_⟩⟩
    rw [← h, ha] at hb
    exact hb
  · refine ⟨b, hb, .inr ⟨?_, rfl⟩⟩
    rw [h, hb] at ha
    exact ha
  · rw [← h, ← ha] at hb
    exact absurd hb.symm hne

theorem resolve_ne_nil (path : List Char) (cut : Int) : resolve path cut ≠ some [] := by
  induction path, cut using resolve.induct with
  | case1 path cut hpos =>
    rw [resolve_of_pos hpos]
    simp
  | case2 path cut hpos hneg =>
    rw [resolve_of_neg hneg]
    simp
  | case3 cut hpos hneg => simp [resolve, hpos, hneg]
  | case4 cut hpos hneg c rest hcut => simp [resolve, hpos, hneg, hcut]
  | case5 cut hpos hneg c rest name after hcut ih => simpa [resolve, hpos, hneg, hcut] using ih

theorem moduleAt?_ne_empty {path owner : String} {cut : Int}
    (h : moduleAt? path cut = some owner) : owner ≠ "" := by
  rintro rfl
  exact resolve_ne_nil _ _ (moduleAt?_eq_some.mp h)

end Path

/-! ## Tokens that ask for a library -/

namespace Token

/-- What a library token says: where it is cut, and that text follows. -/
theorem ofString?_eq_library {token owner path : String} :
    ofString? token = some (.library owner path) ↔
      path = token ∧ ∃ name rest, Text.cut? Path.separator token.toList = some (name, rest) ∧
        rest ≠ [] ∧ Path.moduleAt? token (Text.byteSize name) = some owner := by
  unfold ofString?
  cases hcut : Text.cut? Path.separator token.toList with
  | none =>
    dsimp only
    split <;> simp
  | some p =>
    obtain ⟨name, rest⟩ := p
    cases hm : Path.moduleAt? token (Text.byteSize name) with
    | none => simp [hm]
    | some o =>
      by_cases hr : rest = []
      · simp [hr]
      · simp [hr, hm, eq_comm, and_comm]

theorem path_eq {token owner path : String} (h : ofString? token = some (.library owner path)) :
    path = token := (ofString?_eq_library.mp h).1

theorem names_ne_empty {token owner path : String}
    (h : ofString? token = some (.library owner path)) : owner ≠ "" ∧ path ≠ "" := by
  obtain ⟨rfl, name, rest, hcut, -, hm⟩ := ofString?_eq_library.mp h
  refine ⟨Path.moduleAt?_ne_empty hm, ?_⟩
  rintro rfl
  cases hcut

/-- A separator in front leaves a path in its module. -/
theorem ofString?_rooted {owner path : String} (h : ofString? path = some (.library owner path)) :
    ofString? (Path.rooted path) = some (.library owner (Path.rooted path)) := by
  obtain ⟨-, name, rest, hcut, -, hm⟩ := ofString?_eq_library.mp h
  have hlist : (Path.rooted path).toList = Path.separator :: path.toList :=
    String.toList_ofList
  refine ofString?_eq_library.mpr ⟨rfl, [], path.toList, ?_, ?_, ?_⟩
  · rw [hlist, Text.cut?, if_pos rfl]
  · intro hnil
    rw [hnil] at hcut
    cases hcut
  · have hsame : Path.resolve (Path.separator :: path.toList) 0 =
        Path.resolve path.toList (Text.byteSize name) := Path.resolve_of_cut? hcut
    rw [Path.moduleAt?, hlist]
    rw [Path.moduleAt?, ← hsame] at hm
    exact hm

/-- A path under which a library can be registered asks for a library. -/
theorem exists_ofString?_of_key? {path : String} (h : Catalog.key? path = .ok path) :
    ∃ owner, ofString? path = some (.library owner path) := by
  obtain ⟨-, ⟨name, rest, owner, hcut, ho⟩, hs⟩ := Catalog.key?_eq_ok h
  refine ⟨owner, ofString?_eq_library.mpr ⟨rfl, name, rest, hcut, ?_, ho⟩⟩
  rintro rfl
  have hempty : "" ∈ Path.segments path := by
    rw [Path.segments, Text.pieces_of_cut? hcut]
    exact List.mem_cons_of_mem _ List.mem_cons_self
  exact hs hempty

/-- A token that asks for a method is its name. -/
theorem name_eq {token name : String} (h : ofString? token = some (.method name)) :
    name = token := by
  unfold ofString? at h
  split at h
  · split at h
    · cases h
    · exact (method.inj (Option.some.inj h)).symm
  · obtain ⟨owner, -, h⟩ := Option.bind_eq_some_iff.mp h
    split at h <;> cases h

/-- A token with a separator in it asks for no method. -/
theorem plain_of_method {token name : String} (h : ofString? token = some (.method name)) :
    Path.separator ∉ name.toList := by
  unfold ofString? at h
  split at h
  · next hcut =>
    split at h
    · cases h
    · cases h
      exact Text.cut?_eq_none_iff.mp hcut
  · obtain ⟨owner, -, h⟩ := Option.bind_eq_some_iff.mp h
    split at h <;> cases h

end Token

namespace MethodList

/-- No separator stands in a name asked for. -/
def Plain (m : MethodList) : Prop := ∀ name ∈ m.toList, Path.separator ∉ name.toList

theorem plain_empty : empty.Plain := fun _ h => (nomatch h)

theorem mem_insert {m : MethodList} {name x : String} :
    x ∈ (m.insert name).toList ↔ x ∈ m.toList ∨ x = name := by
  unfold MethodList.insert
  split
  · next hlisted =>
    rw [List.contains_iff_mem] at hlisted
    constructor
    · exact .inl
    · rintro (h | rfl)
      · exact h
      · exact hlisted
  · rw [List.mem_append, List.mem_singleton]

theorem Plain.insert {m : MethodList} (h : m.Plain) {name : String}
    (hname : Path.separator ∉ name.toList) : (m.insert name).Plain := by
  unfold MethodList.insert
  split
  · exact h
  · intro other hother
    rcases List.mem_append.mp hother with hother | hother
    · exact h other hother
    · rw [List.mem_singleton.mp hother]
      exact hname

end MethodList

/-! ## The registry -/

namespace Modules

/-- All paths asked for, in order of execution. -/
def paths (m : Modules) : List String := m.toList.flatMap Prod.snd

/-- The paths asked for under a module, none if it is not asked for at all. -/
def listed (m : Modules) (owner : String) : List String := (m.libraries? owner).getD []

theorem listed_of_mem {m : Modules} {e : String × List String} (h : e ∈ m.toList) :
    m.listed e.1 = e.2 := by
  have hget : m.libraries? e.1 = some e.2 := m.table.mem_entries_iff.mp h
  rw [listed, hget]
  rfl

/-- A module that a path is listed under is asked for. -/
theorem libraries?_of_listed {m : Modules} {owner path : String} (h : path ∈ m.listed owner) :
    m.libraries? owner = some (m.listed owner) := by
  unfold listed at *
  cases hm : m.libraries? owner with
  | none => simp [hm] at h
  | some libraries => rfl

theorem mem_paths {m : Modules} {path : String} :
    path ∈ m.paths ↔ ∃ owner, path ∈ m.listed owner := by
  unfold paths
  rw [List.mem_flatMap]
  constructor
  · rintro ⟨e, he, hp⟩
    rw [← listed_of_mem he] at hp
    exact ⟨e.1, hp⟩
  · rintro ⟨owner, hp⟩
    exact ⟨(owner, m.listed owner), m.table.mem_entries_iff.mpr (libraries?_of_listed hp), hp⟩

/-- Between names that are there, a library is new if it is not listed yet. -/
theorem admits_iff {m : Modules} {owner path : String} (ho : owner ≠ "") (hp : path ≠ "") :
    m.admits owner path = true ↔ path ∉ m.listed owner := by
  simp [admits, containsLibrary, listed, ho, hp]

theorem listed_insert {m : Modules} {owner path : String} (h : m.admits owner path = true)
    (o : String) :
    (m.insert owner path).listed o =
      if owner = o then m.listed owner ++ [path] else m.listed o := by
  have hget := m.table.get?_insert owner o (m.listed owner ++ [path])
  rw [insert, if_pos h]
  unfold listed libraries? at *
  rw [hget]
  split <;> rfl

/-- A library that is listed already is not new. -/
theorem insert_of_listed {m : Modules} {owner path : String} (h : path ∈ m.listed owner) :
    m.insert owner path = m := by
  have hheld : m.containsLibrary owner path = true := List.contains_iff_mem.mpr h
  simp [insert, admits, hheld]

theorem mem_listed_insert {m : Modules} {owner path : String} (ho : owner ≠ "") (hp : path ≠ "")
    (o x : String) :
    x ∈ (m.insert owner path).listed o ↔ x ∈ m.listed o ∨ owner = o ∧ x = path := by
  by_cases hlisted : path ∈ m.listed owner
  · rw [insert_of_listed hlisted]
    constructor
    · exact .inl
    · rintro (h | ⟨rfl, rfl⟩)
      · exact h
      · exact hlisted
  · rw [listed_insert ((admits_iff ho hp).mpr hlisted)]
    split
    · next heq => simp [heq]
    · next hne => simp [hne]

theorem mem_paths_insert {m : Modules} {owner path : String} (ho : owner ≠ "") (hp : path ≠ "")
    (x : String) : x ∈ (m.insert owner path).paths ↔ x ∈ m.paths ∨ x = path := by
  simp only [mem_paths, mem_listed_insert ho hp, exists_or, exists_eq_left']

/-- Each path is listed once under a module, and it is the module the path names. -/
structure Filed (m : Modules) : Prop where
  nodup : ∀ owner, (m.listed owner).Nodup
  named : ∀ owner, ∀ path ∈ m.listed owner, Token.ofString? path = some (.library owner path)

theorem filed_empty : empty.Filed :=
  ⟨fun _ => List.nodup_nil, fun _ _ h => (nomatch h)⟩

theorem Filed.insert {m : Modules} (h : m.Filed) {owner path : String}
    (hr : Token.ofString? path = some (.library owner path)) : (m.insert owner path).Filed := by
  obtain ⟨ho, hp⟩ := Token.names_ne_empty hr
  constructor
  · intro o
    by_cases hlisted : path ∈ m.listed owner
    · rw [insert_of_listed hlisted]
      exact h.nodup o
    · rw [listed_insert ((admits_iff ho hp).mpr hlisted)]
      split
      · rw [← List.concat_eq_append]
        exact (h.nodup owner).concat hlisted
      · exact h.nodup o
  · intro o x hx
    rcases (mem_listed_insert ho hp o x).mp hx with hx | ⟨rfl, rfl⟩
    · exact h.named o x hx
    · exact hr

/-- Under one module each path stands once, and under two there is no path in common. -/
theorem Filed.nodup_paths {m : Modules} (h : m.Filed) : m.paths.Nodup := by
  unfold paths
  rw [List.nodup_flatMap]
  constructor
  · intro e he
    rw [← listed_of_mem he]
    exact h.nodup e.1
  · have hkeys : m.toList.Pairwise fun e e' => e.1 ≠ e'.1 :=
      List.pairwise_map.mp m.table.nodup
    refine hkeys.imp_of_mem ?_
    intro e e' he he' hne x hx hx'
    rw [← listed_of_mem he] at hx
    rw [← listed_of_mem he'] at hx'
    have hread := h.named e.1 x hx
    rw [h.named e'.1 x hx'] at hread
    exact hne (Token.library.inj (Option.some.inj hread)).1.symm

end Modules

/-! ## What a request comes to -/

namespace Directives

theorem filed_enter {d : Directives} (h : d.modules.Filed) (token : String) :
    (d.enter token).modules.Filed := by
  unfold enter
  split
  · next owner path hr =>
    have hpath := Token.path_eq hr
    subst hpath
    exact h.insert hr
  · exact h
  · exact h

theorem mem_paths_enter (d : Directives) (token x : String) :
    x ∈ (d.enter token).modules.paths ↔
      x ∈ d.modules.paths ∨
        x = token ∧ ∃ owner, Token.ofString? token = some (.library owner token) := by
  unfold enter
  split
  · next owner path hr =>
    have hpath := Token.path_eq hr
    subst hpath
    obtain ⟨ho, hp⟩ := Token.names_ne_empty hr
    have hread : ∃ o, Token.ofString? path = some (.library o path) := ⟨owner, hr⟩
    rw [Modules.mem_paths_insert ho hp, and_iff_left hread]
  · next name hr => simp [hr]
  · next hr => simp [hr]

theorem filed_foldl_enter {d : Directives} (h : d.modules.Filed) (tokens : List String) :
    (tokens.foldl enter d).modules.Filed := by
  induction tokens generalizing d with
  | nil => exact h
  | cons token tokens ih => exact ih (filed_enter h token)

theorem mem_paths_foldl_enter (d : Directives) (tokens : List String) (x : String) :
    x ∈ (tokens.foldl enter d).modules.paths ↔
      x ∈ d.modules.paths ∨ x ∈ tokens ∧ ∃ owner, Token.ofString? x = some (.library owner x) := by
  induction tokens generalizing d with
  | nil => simp
  | cons token tokens ih =>
    rw [List.foldl_cons, ih, mem_paths_enter, List.mem_cons, or_assoc, or_and_right]
    refine or_congr Iff.rfl (or_congr ?_ Iff.rfl)
    constructor <;>
    · rintro ⟨rfl, h⟩
      exact ⟨rfl, h⟩

/-- A `map` adds to the routes and to nothing else. -/
theorem exists_addMap_eq (d : Directives) (raw : String) :
    ∃ routes, d.addMap raw = { d with routes := routes } := by
  have hstep : ∀ (d : Directives) (token : String),
      ∃ routes, d.enterRoute token = { d with routes := routes } := by
    intro d token
    unfold enterRoute
    split
    · exact ⟨_, rfl⟩
    · exact ⟨d.routes, rfl⟩
  unfold addMap
  induction Path.tokens raw generalizing d with
  | nil => exact ⟨d.routes, rfl⟩
  | cons token tokens ih =>
    obtain ⟨routes, hroutes⟩ := hstep d token
    rw [List.foldl_cons, hroutes]
    exact ih _

theorem modules_addMap (d : Directives) (raw : String) : (d.addMap raw).modules = d.modules := by
  obtain ⟨routes, h⟩ := d.exists_addMap_eq raw
  rw [h]

theorem methods_addMap (d : Directives) (raw : String) : (d.addMap raw).methods = d.methods := by
  obtain ⟨routes, h⟩ := d.exists_addMap_eq raw
  rw [h]

theorem modules_parse (cmd map : Option String) :
    (parse cmd map).modules = (((cmd.map Path.tokens).getD []).foldl enter empty).modules := by
  unfold parse add
  cases cmd <;> cases map <;> simp only [modules_addMap] <;> rfl

theorem methods_parse (cmd map : Option String) :
    (parse cmd map).methods = (((cmd.map Path.tokens).getD []).foldl enter empty).methods := by
  unfold parse add
  cases cmd <;> cases map <;> simp only [methods_addMap] <;> rfl

theorem filed_parse (cmd map : Option String) : (parse cmd map).modules.Filed := by
  rw [modules_parse]
  exact filed_foldl_enter Modules.filed_empty _

/-- **What is asked for.** -/
theorem mem_paths_parse {cmd map : Option String} {path : String} :
    path ∈ (parse cmd map).modules.paths ↔
      (∃ raw, cmd = some raw ∧ path ∈ Path.tokens raw) ∧
        ∃ owner, Token.ofString? path = some (.library owner path) := by
  have hnone : path ∉ empty.modules.paths := List.not_mem_nil
  rw [modules_parse, mem_paths_foldl_enter, or_iff_right hnone]
  cases cmd <;> simp

/-! ## The methods among it -/

theorem plain_enter {d : Directives} (h : d.methods.Plain) (token : String) :
    (d.enter token).methods.Plain := by
  unfold enter
  split
  · exact h
  · next name hr => exact h.insert (Token.plain_of_method hr)
  · exact h

theorem plain_foldl_enter {d : Directives} (h : d.methods.Plain) (tokens : List String) :
    (tokens.foldl enter d).methods.Plain := by
  induction tokens generalizing d with
  | nil => exact h
  | cons token tokens ih => exact ih (plain_enter h token)

theorem plain_parse (cmd map : Option String) : (parse cmd map).methods.Plain := by
  rw [methods_parse]
  exact plain_foldl_enter MethodList.plain_empty _

theorem mem_methods_enter (d : Directives) (token x : String) :
    x ∈ (d.enter token).methods.toList ↔
      x ∈ d.methods.toList ∨ x = token ∧ Token.ofString? token = some (.method token) := by
  unfold enter
  split
  · next owner path hr => simp [hr]
  · next name hr =>
    obtain rfl := Token.name_eq hr
    rw [MethodList.mem_insert, and_iff_left hr]
  · next hr => simp [hr]

theorem mem_methods_foldl_enter (d : Directives) (tokens : List String) (x : String) :
    x ∈ (tokens.foldl enter d).methods.toList ↔
      x ∈ d.methods.toList ∨ x ∈ tokens ∧ Token.ofString? x = some (.method x) := by
  induction tokens generalizing d with
  | nil => simp
  | cons token tokens ih =>
    rw [List.foldl_cons, ih, mem_methods_enter, List.mem_cons, or_assoc, or_and_right]
    refine or_congr Iff.rfl (or_congr ?_ Iff.rfl)
    constructor <;>
    · rintro ⟨rfl, h⟩
      exact ⟨rfl, h⟩

end Directives

end Switchboard
