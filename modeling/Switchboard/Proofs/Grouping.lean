import Mathlib.Data.List.Basic
import Switchboard.Proofs.Registry
import Switchboard.Proofs.Replay

/-!
The order of the registry. A list of `cmd` is grouped by module: the modules stand in
the order in which the list first asks for a library of each (`Directives.keys_addCommand`),
and the libraries of a module in the order in which the list first names them
(`Directives.listed_addCommand`). Of two libraries, the one that is named first stands first
in all of the registry, if both lie in one module or if its module came up first. An item
whose wants are met already changes nothing (`Directives.enter_of_covers`), so a list can be
entered with the items that it repeats (`Directives.addCommand_eq_foldl_items`).
-/

namespace Switchboard

/-! ## What comes up first -/

/-- There is an `a` in a list before any `b`. -/
def Ahead (xs : List String) (a b : String) : Prop :=
  ∃ front, front <+: xs ∧ a ∈ front ∧ b ∉ front

namespace Ahead

variable {xs : List String} {a b : String}

theorem of_idxOf_lt (h : xs.idxOf a < xs.idxOf b) : Ahead xs a b := by
  have ha : a ∈ xs := List.idxOf_lt_length_iff.mp (Nat.lt_of_lt_of_le h List.idxOf_le_length)
  refine ⟨xs.take (xs.idxOf a + 1), List.take_prefix _ _, ?_, fun hb => ?_⟩
  · exact (List.mem_take_iff_idxOf_lt ha).mpr (Nat.lt_succ_self _)
  · have hlt := (List.mem_take_iff_idxOf_lt (List.mem_of_mem_take hb)).mp hb
    omega

theorem mem (h : Ahead xs a b) : a ∈ xs := by
  obtain ⟨front, hfront, ha, -⟩ := h
  exact hfront.subset ha

theorem ne (h : Ahead xs a b) : a ≠ b := by
  obtain ⟨front, -, ha, hb⟩ := h
  rintro rfl
  exact hb ha

theorem filter (h : Ahead xs a b) {keep : String → Bool} (ha : keep a = true) :
    Ahead (xs.filter keep) a b := by
  obtain ⟨front, hfront, hmem, hb⟩ := h
  refine ⟨front.filter keep, hfront.filter keep, List.mem_filter.mpr ⟨hmem, ha⟩, fun hin => ?_⟩
  exact hb (List.mem_filter.mp hin).1

theorem eraseDups (h : Ahead xs a b) : Ahead xs.eraseDups a b := by
  obtain ⟨front, ⟨back, rfl⟩, ha, hb⟩ := h
  refine ⟨front.eraseDups, ?_, List.mem_eraseDups.mpr ha, fun hin => ?_⟩
  · rw [List.eraseDups_append]
    exact List.prefix_append _ _
  · exact hb (List.mem_eraseDups.mp hin)

/-- Where nothing is repeated, no `b` stands before an `a`. -/
theorem pairwise (h : Ahead xs a b) (hn : xs.Nodup) :
    xs.Pairwise fun x y => ¬ (x = b ∧ y = a) := by
  obtain ⟨front, ⟨back, rfl⟩, ha, hb⟩ := h
  obtain ⟨-, -, hapart⟩ := List.nodup_append.mp hn
  refine List.pairwise_append.mpr ⟨?_, ?_, ?_⟩
  · refine List.pairwise_of_forall_mem_list fun x hx y _ => ?_
    rintro ⟨rfl, -⟩
    exact hb hx
  · refine List.pairwise_of_forall_mem_list fun x _ y hy => ?_
    rintro ⟨-, rfl⟩
    exact hapart y ha y hy rfl
  · rintro x hx y - ⟨rfl, -⟩
    exact hb hx

end Ahead

/-! ## The items of a list -/

namespace Path

/-- The texts between the commas of a list, empty and repeated ones included. -/
def items (raw : String) : List String := (Text.pieces ',' raw.toList).map String.ofList

theorem tokens_eq (raw : String) : tokens raw = ((items raw).filter (· ≠ "")).eraseDups := by
  have hempty : (fun item : String => decide (item ≠ "")) ∘ String.ofList =
      fun piece : List Char => decide (piece ≠ []) := by
    funext piece
    simp
  rw [items, List.filter_map, hempty]
  rfl

theorem mem_tokens {raw token : String} :
    token ∈ tokens raw ↔ token ∈ items raw ∧ token ≠ "" := by
  simp [tokens_eq, List.mem_eraseDups]

end Path

/-- The module under which an item asks for a library, if it does. -/
def Token.owner? (token : String) : Option String :=
  match ofString? token with
  | some (.library owner _) => some owner
  | _ => none

theorem Token.owner?_eq_some {token owner : String} :
    owner? token = some owner ↔ ofString? token = some (.library owner token) := by
  unfold owner?
  constructor
  · intro h
    split at h
    · next path hread =>
      obtain rfl := path_eq hread
      rw [hread, Option.some.inj h]
    · cases h
  · intro h
    rw [h]

namespace Path

/-- The modules that the items of a list ask for, with repetitions. -/
def owners (raw : String) : List String := (items raw).filterMap Token.owner?

end Path

/-! ## The registry, grouped -/

namespace Modules

/-- A library that is listed already opens no module. -/
theorem keys_insert {m : Modules} {owner path : String} (ho : owner ≠ "") (hp : path ≠ "") :
    (m.insert owner path).table.keys = appendNew m.table.keys owner := by
  by_cases hlisted : path ∈ m.listed owner
  · have hkey : owner ∈ m.table.keys := (m.table.mem_keys_iff owner).mpr
      (Option.isSome_iff_exists.mpr ⟨_, libraries?_of_listed hlisted⟩)
    rw [insert_of_listed hlisted, appendNew, if_pos hkey]
  · rw [Modules.insert, if_pos ((admits_iff ho hp).mpr hlisted)]
    exact Entries.keys_put owner _ m.table.entries

theorem listed_insert_eq {m : Modules} {owner path : String} (ho : owner ≠ "") (hp : path ≠ "")
    (o : String) :
    (m.insert owner path).listed o =
      if owner = o then appendNew (m.listed o) path else m.listed o := by
  by_cases hlisted : path ∈ m.listed owner
  · rw [insert_of_listed hlisted]
    split
    · next heq => rw [← heq, appendNew, if_pos hlisted]
    · rfl
  · rw [listed_insert ((admits_iff ho hp).mpr hlisted)]
    split
    · next heq => rw [← heq, appendNew, if_neg hlisted]
    · rfl

/-- The registry, read off from the names of its modules. -/
theorem toList_eq (m : Modules) :
    m.toList = m.table.keys.map fun owner => (owner, m.listed owner) := by
  have hentries : m.toList.map (fun e => (e.1, m.listed e.1)) = m.toList.map id :=
    List.map_congr_left fun e he => by rw [listed_of_mem he, id]
  rw [List.map_id] at hentries
  unfold Table.keys
  rw [List.map_map]
  exact hentries.symm

theorem paths_eq (m : Modules) : m.paths = m.table.keys.flatMap m.listed := by
  rw [paths, toList_eq, List.flatMap_map]

/-- Of two libraries in the registry, no `path'` stands before a `path`, if `path` is the
first of them in the module that both lie in or lies in the module that came up first. -/
theorem Filed.pairwise_paths {m : Modules} (h : m.Filed) {path path' owner owner' : String}
    (ho : Token.owner? path = some owner) (ho' : Token.owner? path' = some owner')
    (hfirst : owner = owner' ∧ Ahead (m.listed owner) path path' ∨
      Ahead m.table.keys owner owner') :
    m.paths.Pairwise fun x y => ¬ (x = path' ∧ y = path) := by
  have hfiled : ∀ {p q o}, Token.owner? p = some o → p ∈ m.listed q → q = o := by
    intro p q o hp hq
    have hread := Token.owner?_eq_some.mpr (h.named q p hq)
    rw [hp] at hread
    exact (Option.some.inj hread).symm
  rw [paths_eq, List.pairwise_flatMap]
  constructor
  · intro o _
    by_cases hboth : path ∈ m.listed o ∧ path' ∈ m.listed o
    · -- both lie in this module, so the module of neither is ahead of the other's
      obtain rfl := hfiled ho hboth.1
      obtain rfl := hfiled ho' hboth.2
      rcases hfirst with ⟨-, hahead⟩ | hahead
      · exact hahead.pairwise (h.nodup o)
      · exact absurd rfl hahead.ne
    · refine List.pairwise_of_forall_mem_list fun x hx y hy => ?_
      rintro ⟨rfl, rfl⟩
      exact hboth ⟨hy, hx⟩
  · have hkeys : m.table.keys.Pairwise fun o o' => ¬ (o = owner' ∧ o' = owner) := by
      rcases hfirst with ⟨rfl, -⟩ | hahead
      · refine List.Pairwise.imp ?_ m.table.nodup
        rintro o o' hne ⟨rfl, rfl⟩
        exact hne rfl
      · exact hahead.pairwise m.table.nodup
    refine hkeys.imp ?_
    rintro o o' hnot x hx y hy ⟨rfl, rfl⟩
    exact hnot ⟨hfiled ho' hx, hfiled ho hy⟩

end Modules

theorem MethodList.toList_insert (m : MethodList) (name : String) :
    (m.insert name).toList = appendNew m.toList name := by
  unfold MethodList.insert appendNew
  simp only [List.contains_iff_mem]
  split <;> rfl

namespace Directives

theorem modules_enter_of_owner? {d : Directives} {token owner : String}
    (h : Token.owner? token = some owner) :
    (d.enter token).modules = d.modules.insert owner token := by
  rw [enter, Token.owner?_eq_some.mp h]

theorem modules_enter_of_no_owner? {d : Directives} {token : String}
    (h : Token.owner? token = none) : (d.enter token).modules = d.modules := by
  unfold enter
  split
  · next owner path hread =>
    simp [Token.owner?, hread] at h
  · rfl
  · rfl

theorem keys_foldl_enter (d : Directives) (tokens : List String) :
    (tokens.foldl enter d).modules.table.keys =
      (tokens.filterMap Token.owner?).foldl appendNew d.modules.table.keys := by
  induction tokens generalizing d with
  | nil => rfl
  | cons token tokens ih =>
    rw [List.foldl_cons, ih]
    cases ho : Token.owner? token with
    | none => rw [modules_enter_of_no_owner? ho, List.filterMap_cons_none ho]
    | some owner =>
      obtain ⟨hname, hpath⟩ := Token.names_ne_empty (Token.owner?_eq_some.mp ho)
      rw [modules_enter_of_owner? ho, List.filterMap_cons_some ho, List.foldl_cons,
        Modules.keys_insert hname hpath]

theorem listed_foldl_enter (d : Directives) (tokens : List String) (o : String) :
    (tokens.foldl enter d).modules.listed o =
      (tokens.filter (Token.owner? · = some o)).foldl appendNew (d.modules.listed o) := by
  induction tokens generalizing d with
  | nil => rfl
  | cons token tokens ih =>
    rw [List.foldl_cons, ih]
    cases ho : Token.owner? token with
    | none => simp [modules_enter_of_no_owner? ho, ho]
    | some owner =>
      obtain ⟨hname, hpath⟩ := Token.names_ne_empty (Token.owner?_eq_some.mp ho)
      rw [modules_enter_of_owner? ho, Modules.listed_insert_eq hname hpath]
      by_cases heq : owner = o <;> simp [ho, heq]

theorem methods_foldl_enter (d : Directives) (tokens : List String) :
    (tokens.foldl enter d).methods.toList =
      (tokens.filter fun t => Token.ofString? t = some (.method t)).foldl appendNew
        d.methods.toList := by
  induction tokens generalizing d with
  | nil => rfl
  | cons token tokens ih =>
    rw [List.foldl_cons, ih, enter]
    split
    · next owner path hread => rw [List.filter_cons_of_neg (by simp [hread])]
    · next name hread =>
      obtain rfl := Token.name_eq hread
      rw [List.filter_cons_of_pos (by simp [hread]), List.foldl_cons,
        MethodList.toList_insert]
    · next hread => rw [List.filter_cons_of_neg (by simp [hread])]

/-! ## Tokens that come again -/

variable {d : Directives} {token : String}

/-- What a token asks for is there. -/
def Covers (d : Directives) (token : String) : Prop :=
  match Token.ofString? token with
  | some (.library owner path) => path ∈ d.modules.listed owner
  | some (.method name) => name ∈ d.methods.toList
  | none => True

theorem enter_of_covers (h : d.Covers token) : d.enter token = d := by
  unfold Covers at h
  split at h
  · next owner path hread =>
    simp only [enter, hread, Modules.insert_of_listed h]
  · next name hread =>
    have hlisted : d.methods.toList.contains name = true := List.contains_iff_mem.mpr h
    simp only [enter, hread, MethodList.insert, dif_pos hlisted]
  · next hread => simp only [enter, hread]

theorem covers_foldl_enter (d : Directives) {tokens : List String} (h : token ∈ tokens) :
    (tokens.foldl enter d).Covers token := by
  unfold Covers
  split
  · next owner path hread =>
    obtain rfl := Token.path_eq hread
    rw [listed_foldl_enter, mem_foldl_appendNew]
    exact .inr (List.mem_filter.mpr ⟨h, decide_eq_true (Token.owner?_eq_some.mpr hread)⟩)
  · next name hread =>
    obtain rfl := Token.name_eq hread
    rw [methods_foldl_enter, mem_foldl_appendNew]
    exact .inr (List.mem_filter.mpr ⟨h, decide_eq_true hread⟩)
  · trivial

/-- To enter texts without their repetitions is to enter all of them. -/
theorem foldl_enter_foldl_appendNew (d : Directives) (xs ys : List String) :
    (ys.foldl appendNew xs).foldl enter d = (xs ++ ys).foldl enter d := by
  induction ys generalizing xs with
  | nil => rw [List.foldl_nil, List.append_nil]
  | cons y ys ih =>
    rw [List.foldl_cons, ih, appendNew]
    split
    · next hy =>
      -- `y` is left out, and where it would come everything in `xs` is covered
      rw [List.foldl_append, List.foldl_append, List.foldl_cons,
        enter_of_covers (covers_foldl_enter d hy)]
    · rw [List.append_assoc, List.singleton_append]

/-- Empty items and repeated ones can be entered with the others. -/
theorem addCommand_eq_foldl_items (d : Directives) (raw : String) :
    d.addCommand raw = (Path.items raw).foldl enter d := by
  have hempty : ∀ (d : Directives) (item : String),
      (if decide (item ≠ "") = true then d.enter item else d) = d.enter item := by
    intro d item
    split
    · rfl
    · next h =>
      obtain rfl : item = "" := by simpa using h
      rfl
  rw [addCommand, Path.tokens_eq, ← List.nil_append ((Path.items raw).filter _),
    eraseDups_append_eq_foldl List.nodup_nil, foldl_enter_foldl_appendNew, List.nil_append,
    List.foldl_filter]
  simp only [hempty]

/-! ## The order of a list -/

/-- Modules stand in the order in which items first ask for a library of each. -/
theorem keys_addCommand (raw : String) :
    (empty.addCommand raw).modules.table.keys = (Path.owners raw).eraseDups := by
  rw [addCommand_eq_foldl_items, keys_foldl_enter]
  exact (eraseDups_append_eq_foldl List.nodup_nil _).symm

/-- The libraries of a module stand in the order in which items first name them. -/
theorem listed_addCommand (raw owner : String) :
    (empty.addCommand raw).modules.listed owner =
      ((Path.items raw).filter (Token.owner? · = some owner)).eraseDups := by
  rw [addCommand_eq_foldl_items, listed_foldl_enter]
  exact (eraseDups_append_eq_foldl List.nodup_nil _).symm

/-- A `map` leaves the modules as a list has put them. -/
theorem modules_parse_some (raw : String) (map : Option String) :
    (parse (some raw) map).modules = (empty.addCommand raw).modules :=
  modules_parse (some raw) map

/-- **The order of the registry.** -/
theorem pairwise_paths_parse {raw path path' owner owner' : String} (map : Option String)
    (ho : Token.owner? path = some owner) (ho' : Token.owner? path' = some owner')
    (h : owner = owner' ∧ Ahead (Path.items raw) path path' ∨
      Ahead (Path.owners raw) owner owner') :
    (parse (some raw) map).modules.paths.Pairwise fun x y => ¬ (x = path' ∧ y = path) := by
  refine (filed_parse (some raw) map).pairwise_paths ho ho' ?_
  rcases h with ⟨hsame, hahead⟩ | hahead
  · refine .inl ⟨hsame, ?_⟩
    rw [modules_parse_some, listed_addCommand]
    exact (hahead.filter (by simpa using ho)).eraseDups
  · refine .inr ?_
    rw [modules_parse_some, keys_addCommand]
    exact hahead.eraseDups

end Directives

end Switchboard
