import Switchboard.Proofs.Registry

/-!
Paths and their segments. Cutting a path at its separators and joining the segments
again are undone by each other, so a path goes on from a library, separator and all,
just if it has the library's segments and then more. Two calls have one result key
only if the path of one goes on from the path of the other (`resultKey_eq_iff`). The
module of a path is its first segment but the last that is not empty; a path that goes
on from a library therefore lies in the library's module.
-/

namespace Switchboard

/-! ## Pieces of a text -/

namespace Text

variable {mark : Char}

/-- A mark separates the pieces in front of it from those behind it. -/
theorem pieces_append (a b : List Char) :
    pieces mark (a ++ mark :: b) = pieces mark a ++ pieces mark b := by
  simp only [pieces_eq_splitOn, List.splitOn_append_cons_self]

theorem pieces_of_not_mem {a : List Char} (h : mark ∉ a) : pieces mark a = [a] := by
  rw [pieces_eq_splitOn, List.splitOn_eq_singleton h]

theorem joined_cons (p : List Char) {ps : List (List Char)} (hps : ps ≠ []) :
    joined mark (p :: ps) = p ++ mark :: joined mark ps := by
  rw [joined, joined, List.intercalate_cons_of_ne_nil hps, List.append_assoc, List.singleton_append]

/-- Pieces without a mark are what their text is cut into. -/
theorem pieces_joined {ps : List (List Char)} (hps : ps ≠ []) (h : ∀ p ∈ ps, mark ∉ p) :
    pieces mark (joined mark ps) = ps := by
  rw [joined, pieces_eq_splitOn]
  exact List.splitOn_intercalate mark h hps

theorem byteSize_append (a b : List Char) : byteSize (a ++ b) = byteSize a + byteSize b := by
  induction a with
  | nil => simp [byteSize]
  | cons c a ih => simp [byteSize, ih, Nat.add_assoc]

/-- The bytes of its first part are taken off a text whole. -/
theorem takeBytes?_append (a b : List Char) : takeBytes? (byteSize a) (a ++ b) = some a := by
  induction a with
  | nil => cases b <;> rfl
  | cons c a ih =>
    have hc : 0 < c.utf8Size := c.utf8Size_pos
    obtain ⟨n, hn⟩ : ∃ n, byteSize (c :: a) = n + 1 :=
      Nat.exists_eq_add_one.mpr (Nat.add_pos_left hc _)
    have hle : c.utf8Size ≤ n + 1 := by
      rw [← hn]
      exact Nat.le_add_right _ _
    have hrest : n + 1 - c.utf8Size = byteSize a := by
      rw [← hn, byteSize]
      exact Nat.add_sub_cancel_left _ _
    rw [hn, List.cons_append, takeBytes?, if_pos hle, hrest, ih, Option.map_some]

theorem byteSize_pos {cs : List Char} (h : cs ≠ []) : 0 < byteSize cs := by
  cases cs with
  | nil => exact absurd rfl h
  | cons c cs => exact Nat.add_pos_left c.utf8Size_pos _

/-- What stands before the first mark is taken off whole. -/
theorem takeBytes?_of_cut? {cs name rest : List Char} (h : cut? mark cs = some (name, rest)) :
    takeBytes? (min (byteSize name) (byteSize cs)) cs = some name := by
  obtain ⟨-, rfl⟩ := cut?_eq_some_iff.mp h
  have hle : byteSize name ≤ byteSize (name ++ mark :: rest) := by
    rw [byteSize_append]
    exact Nat.le_add_right _ _
  rw [Nat.min_eq_left hle, takeBytes?_append]

end Text

/-! ## Segments of a path -/

namespace Path

open Text

theorem segments_ne_nil (path : String) : segments path ≠ [] :=
  fun h => pieces_ne_nil separator path.toList (List.map_eq_nil_iff.mp h)

/-- Segments whose texts are free of separators. -/
def Plain (segs : List String) : Prop := ∀ s ∈ segs, separator ∉ s.toList

theorem plain_segments (path : String) : Plain (segments path) := by
  intro s hs
  obtain ⟨p, hp, rfl⟩ := List.mem_map.mp hs
  rw [String.toList_ofList]
  exact not_mem_of_mem_pieces hp

theorem map_toList_segments (path : String) :
    (segments path).map String.toList = pieces separator path.toList := by
  rw [segments, List.map_map]
  exact List.map_id'' (fun _ => String.toList_ofList) _

theorem join_segments (path : String) : join (segments path) = path := by
  rw [join, map_toList_segments, joined_pieces, String.ofList_toList]

theorem segments_join {segs : List String} (hne : segs ≠ []) (h : Plain segs) :
    segments (join segs) = segs := by
  have hpieces : ∀ p ∈ segs.map String.toList, separator ∉ p := by
    intro p hp
    obtain ⟨s, hs, rfl⟩ := List.mem_map.mp hp
    exact h s hs
  rw [segments, join, String.toList_ofList,
    pieces_joined (mt List.map_eq_nil_iff.mp hne) hpieces, List.map_map]
  exact List.map_id'' (fun _ => String.ofList_toList) _

theorem segments_join_take {segs : List String} (h : Plain segs) (hne : segs ≠ []) {k : Nat}
    (hk : 0 < k) : segments (join (segs.take k)) = segs.take k := by
  refine segments_join (fun hnil => ?_) fun s hs => h s (List.mem_of_mem_take hs)
  rcases List.take_eq_nil_iff.mp hnil with hzero | hnil
  · exact Nat.ne_of_gt hk hzero
  · exact hne hnil

/-- A path is its first segments, at least one of them, and those behind. -/
theorem segments_divided (path : String) {k : Nat} (hk : 0 < k) :
    segments path = segments (join ((segments path).take k)) ++ (segments path).drop k := by
  rw [segments_join_take (plain_segments path) (segments_ne_nil path) hk, List.take_append_drop]

theorem toList_join_cons (path : String) {segs : List String} (hne : segs ≠ []) :
    (join (path :: segs)).toList = path.toList ++ separator :: (join segs).toList := by
  rw [join, List.map_cons, String.toList_ofList,
    joined_cons _ (mt List.map_eq_nil_iff.mp hne), join, String.toList_ofList]

/-- Segments joined behind a path come after the path's own. -/
theorem segments_join_cons (path : String) {segs : List String} (hne : segs ≠ [])
    (h : Plain segs) : segments (join (path :: segs)) = segments path ++ segs := by
  rw [segments, toList_join_cons path hne, pieces_append, List.map_append]
  exact congrArg (segments path ++ ·) (segments_join hne h)

/-- What stands in a path behind another, segment by segment, is told by the path. -/
theorem segments_eq_append_iff {library path : String} {more : List String} (hne : more ≠ []) :
    segments path = segments library ++ more ↔ path = join (library :: more) ∧ Plain more := by
  constructor
  · intro hsegs
    have hplain : Plain more := fun s hs =>
      plain_segments path s (hsegs ▸ List.mem_append_right _ hs)
    refine ⟨?_, hplain⟩
    rw [← join_segments path, hsegs, ← segments_join_cons library hne hplain, join_segments]
  · rintro ⟨rfl, hplain⟩
    exact segments_join_cons library hne hplain

/-! ## Going on from a library -/

/-- `path` begins with `library` and then a separator. -/
def GoesOn (library path : String) : Prop :=
  library.toList ++ [separator] <+: path.toList

instance (library path : String) : Decidable (GoesOn library path) :=
  inferInstanceAs (Decidable (library.toList ++ [separator] <+: path.toList))

theorem goesOn_iff_append {library path : String} :
    GoesOn library path ↔ ∃ tail, path.toList = library.toList ++ separator :: tail := by
  simp only [GoesOn, List.IsPrefix, List.append_assoc, List.singleton_append, eq_comm]

/-- A path goes on from a library just if it has the library's segments and then more. -/
theorem goesOn_iff_segments {library path : String} :
    GoesOn library path ↔ ∃ more, more ≠ [] ∧ segments path = segments library ++ more := by
  rw [goesOn_iff_append]
  constructor
  · rintro ⟨tail, htail⟩
    refine ⟨(pieces separator tail).map String.ofList, ?_, ?_⟩
    · exact mt List.map_eq_nil_iff.mp (pieces_ne_nil separator tail)
    · rw [segments, htail, pieces_append, List.map_append, segments]
  · rintro ⟨more, hne, hsegs⟩
    obtain ⟨rfl, -⟩ := (segments_eq_append_iff hne).mp hsegs
    exact ⟨(join more).toList, toList_join_cons library hne⟩

theorem GoesOn.isPrefix {library path : String} (h : GoesOn library path) :
    library.toList <+: path.toList :=
  (List.prefix_append _ _).trans h

theorem GoesOn.length_lt {library path : String} (h : GoesOn library path) :
    library.length < path.length := by
  have hle := h.length_le
  rw [List.length_append, List.length_singleton] at hle
  exact hle

/-- More segments go on from fewer. -/
theorem goesOn_join_take {segs : List String} (h : Plain segs) {i j : Nat} (hi : 0 < i)
    (hij : i < j) (hj : j ≤ segs.length) :
    GoesOn (join (segs.take i)) (join (segs.take j)) := by
  have hne : segs ≠ [] := List.ne_nil_of_length_pos (by omega)
  have htake : segs.take i = (segs.take j).take i := by
    rw [List.take_take, Nat.min_eq_left (Nat.le_of_lt hij)]
  refine goesOn_iff_segments.mpr ⟨(segs.take j).drop i, ?_, ?_⟩
  · rw [← List.length_pos_iff, List.length_drop, List.length_take, Nat.min_eq_left hj]
    exact Nat.sub_pos_of_lt hij
  · rw [segments_join_take h hne (Nat.lt_trans hi hij), segments_join_take h hne hi]
    conv_rhs => rw [htake]
    exact (List.take_append_drop i _).symm

/-- A path goes on from each of its proper beginnings, and from nothing else. -/
theorem goesOn_iff_take {library path : String} :
    GoesOn library path ↔
      ∃ k, 0 < k ∧ k < (segments path).length ∧ library = join ((segments path).take k) := by
  constructor
  · intro h
    obtain ⟨more, hne, hsegs⟩ := goesOn_iff_segments.mp h
    refine ⟨(segments library).length, List.length_pos_iff.mpr (segments_ne_nil library), ?_, ?_⟩
    · rw [hsegs, List.length_append]
      exact Nat.lt_add_of_pos_right (List.length_pos_iff.mpr hne)
    · rw [hsegs, List.take_left, join_segments]
  · rintro ⟨k, hpos, hlt, rfl⟩
    have hgo := goesOn_join_take (plain_segments path) hpos hlt (Nat.le_refl _)
    rw [List.take_length, join_segments] at hgo
    exact hgo

/-! ## Result keys -/

theorem toList_join_pair (a b : String) :
    (join [a, b]).toList = a.toList ++ separator :: b.toList := by
  rw [toList_join_cons a (List.cons_ne_nil b []), join]
  simp [joined]

theorem toList_resultKey (path method : String) :
    (resultKey path method).toList = path.toList ++ separator :: method.toList :=
  toList_join_pair path method

/-- A path goes on from another by what is joined to that one. -/
theorem goesOn_iff_join {library path : String} :
    GoesOn library path ↔ ∃ more, path = join [library, more] := by
  rw [goesOn_iff_append]
  constructor
  · rintro ⟨tail, htail⟩
    refine ⟨.ofList tail, String.toList_inj.mp ?_⟩
    rw [toList_join_pair, String.toList_ofList, htail]
  · rintro ⟨more, rfl⟩
    exact ⟨more.toList, toList_join_pair library more⟩

/-- The part of a result key that the longer of two paths takes from the method of the other. -/
theorem join_of_append {path path' method method' : String} {part : List Char}
    (hpath : path'.toList = path.toList ++ part)
    (hmethod : separator :: method.toList = part ++ separator :: method'.toList) :
    path = path' ∧ method = method' ∨
      ∃ more, path' = join [path, more] ∧ method = join [more, method'] := by
  cases part with
  | nil =>
    rw [List.append_nil] at hpath
    exact .inl ⟨String.toList_inj.mp hpath.symm, String.toList_inj.mp (List.cons.inj hmethod).2⟩
  | cons c more =>
    rw [List.cons_append] at hmethod
    obtain ⟨rfl, hrest⟩ := List.cons.inj hmethod
    refine .inr ⟨.ofList more, String.toList_inj.mp ?_, String.toList_inj.mp ?_⟩
    · rw [hpath, toList_join_pair, String.toList_ofList]
    · rw [hrest, toList_join_pair, String.toList_ofList]

/-- Two calls have one result key just if they are one call, or if the path of one goes
on from the path of the other by what the method of the other begins with. -/
theorem resultKey_eq_iff {path path' method method' : String} :
    resultKey path method = resultKey path' method' ↔
      path = path' ∧ method = method' ∨
      (∃ more, path' = join [path, more] ∧ method = join [more, method']) ∨
        ∃ more, path = join [path', more] ∧ method' = join [more, method] := by
  rw [← String.toList_inj, toList_resultKey, toList_resultKey]
  constructor
  · intro h
    rcases List.append_eq_append_iff.mp h with ⟨part, hpath, hmethod⟩ | ⟨part, hpath, hmethod⟩
    · exact (join_of_append hpath hmethod).imp_right .inl
    · rcases join_of_append hpath hmethod with ⟨rfl, rfl⟩ | hmore
      · exact .inl ⟨rfl, rfl⟩
      · exact .inr (.inr hmore)
  · rintro (⟨rfl, rfl⟩ | ⟨more, rfl, rfl⟩ | ⟨more, rfl, rfl⟩)
    · rfl
    · simp only [toList_join_pair, List.append_assoc, List.cons_append]
    · simp only [toList_join_pair, List.append_assoc, List.cons_append]

/-- The result key tells path and method, if no separator stands in the methods. -/
theorem resultKey_inj {path path' method method' : String} (hm : separator ∉ method.toList)
    (hm' : separator ∉ method'.toList) (h : resultKey path method = resultKey path' method') :
    path = path' ∧ method = method' := by
  rcases resultKey_eq_iff.mp h with hsame | ⟨more, -, rfl⟩ | ⟨more, -, rfl⟩
  · exact hsame
  · exact absurd (by simp [toList_join_pair]) hm
  · exact absurd (by simp [toList_join_pair]) hm'

/-! ## The module of a path -/

/-- The module of a path is its first segment but the last that is not empty. -/
theorem resolve_eq_find? {path name rest : List Char}
    (h : cut? separator path = some (name, rest)) :
    resolve path (byteSize name) = (pieces separator path).dropLast.find? (· ≠ []) := by
  induction path generalizing name rest with
  | nil => cases h
  | cons c path ih =>
    cases name with
    | nil =>
      obtain ⟨-, heq⟩ := cut?_eq_some_iff.mp h
      obtain ⟨rfl, rfl⟩ := List.cons.inj heq
      have hdrop : (pieces separator (separator :: path)).dropLast =
          [] :: (pieces separator path).dropLast := by
        rw [pieces, if_pos rfl, List.dropLast_cons_of_ne_nil (pieces_ne_nil _ _)]
      rw [hdrop]
      cases hcut : cut? separator path with
      | none =>
        rw [pieces_of_not_mem (cut?_eq_none_iff.mp hcut)]
        simp [resolve, byteSize, hcut]
      | some p =>
        obtain ⟨name, rest⟩ := p
        simp [resolve, byteSize, hcut, ih hcut]
    | cons x name =>
      have hpos : 0 < byteSize (x :: name) := byteSize_pos (List.cons_ne_nil x name)
      rw [pieces_of_cut? h, List.dropLast_cons_of_ne_nil (pieces_ne_nil _ _),
        resolve_of_pos (Int.natCast_pos.mpr hpos), Int.toNat_natCast, takeBytes?_of_cut? h]
      simp

/-- `owner` is the module of `path`, cut at its first separator. -/
def LiesIn (path owner : String) : Prop :=
  ∃ name rest, cut? separator path.toList = some (name, rest) ∧
    moduleAt? path (byteSize name) = some owner

theorem LiesIn.unique {path owner owner' : String} (h : LiesIn path owner)
    (h' : LiesIn path owner') : owner = owner' := by
  obtain ⟨name, rest, hcut, ho⟩ := h
  obtain ⟨name', rest', hcut', ho'⟩ := h'
  obtain ⟨rfl, rfl⟩ := Prod.mk.inj (Option.some.inj (hcut.symm.trans hcut'))
  exact Option.some.inj (ho.symm.trans ho')

/-- A path that goes on from a library lies in the library's module. -/
theorem GoesOn.liesIn {owner library path : String} (h : GoesOn library path)
    (hl : LiesIn library owner) : LiesIn path owner := by
  obtain ⟨name, rest, hcut, hm⟩ := hl
  obtain ⟨tail, htail⟩ := goesOn_iff_append.mp h
  obtain ⟨hname, hlist⟩ := cut?_eq_some_iff.mp hcut
  have hcut' : cut? separator path.toList = some (name, rest ++ separator :: tail) := by
    rw [cut?_eq_some_iff, htail, hlist, List.append_assoc, List.cons_append]
    exact ⟨hname, rfl⟩
  have hbegins : (pieces separator library.toList).dropLast <+:
      (pieces separator path.toList).dropLast := by
    rw [htail, pieces_append, List.dropLast_append_of_ne_nil (pieces_ne_nil separator tail)]
    exact (List.dropLast_prefix _).trans (List.prefix_append _ _)
  refine ⟨name, _, hcut', ?_⟩
  rw [moduleAt?_eq_some, resolve_eq_find? hcut] at hm
  rw [moduleAt?_eq_some, resolve_eq_find? hcut', hbegins.find?_eq_some hm]

end Path

theorem Token.liesIn_of_library {token owner path : String}
    (h : ofString? token = some (.library owner path)) : Path.LiesIn token owner := by
  obtain ⟨-, name, rest, hcut, -, hm⟩ := ofString?_eq_library.mp h
  exact ⟨name, rest, hcut, hm⟩

namespace Modules

/-- A listed library stands under the module of each path that it is or that goes on
from it, and under no other. -/
theorem Filed.liesIn_iff {m : Modules} (h : m.Filed) {owner library path : String}
    (hl : library ∈ m.paths) (hp : library = path ∨ Path.GoesOn library path) :
    Path.LiesIn path owner ↔ library ∈ m.listed owner := by
  have hin : ∀ o, library ∈ m.listed o → Path.LiesIn path o := by
    intro o ho
    have hlibrary := Token.liesIn_of_library (h.named o library ho)
    rcases hp with rfl | hg
    · exact hlibrary
    · exact hg.liesIn hlibrary
  obtain ⟨o, ho⟩ := mem_paths.mp hl
  constructor
  · intro hpath
    obtain rfl := hpath.unique (hin o ho)
    exact ho
  · exact hin owner

end Modules

end Switchboard
