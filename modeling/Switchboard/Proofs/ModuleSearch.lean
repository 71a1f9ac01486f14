import Switchboard.Proofs.TokenGrammar

/-!
Which module a path has under each cut. A negative cut gives none; a positive one gives the first
bytes of the path, unless there are none or they end inside a character; and under cut zero the
module is the name behind the first character and any number of separators, up to the next one.
The search for it is told turn by turn (`Search.turn?`), with cuts of 64 bits and slices at byte
offsets. From any path and cut it ends, with what `resolve` gives, and none of the cuts that it
makes on the way is negative or ends inside a character (`Path.modules_are_exact`). For the cuts a
path has to fit into memory (`Path.Fits`), so that no count of its bytes turns negative.
-/

namespace Switchboard

namespace Text

/-- The first `n` bytes of a text are the bytes of its beginning, where they end between two
characters. -/
theorem takeBytes?_eq_some_iff_bytes {text front : String} {n : Nat} :
    takeBytes? n text.toList = some front.toList ↔
      (⟨n⟩ : String.Pos.Raw).IsValid text ∧
        front.toByteArray = text.toByteArray.extract 0 n := by
  have hbytes : ∀ {s : String}, takeBytes? n text.toList = some s.toList →
      s.toByteArray = text.toByteArray.extract 0 n := by
    intro s hs
    obtain ⟨hsize, back, hback⟩ := takeBytes?_eq_some_iff.mp hs
    have htext : text = s ++ .ofList back := by
      rw [← String.toList_inj, String.toList_append, String.toList_ofList, hback]
    have hn : n = s.toByteArray.size := by
      rw [String.size_toByteArray, ← hsize, byteSize_toList]
    rw [htext, String.toByteArray_append, ByteArray.extract_append_eq_left hn]
  constructor
  · intro h
    exact ⟨takeBytes?_isSome_iff.mp (Option.isSome_iff_exists.mpr ⟨_, h⟩), hbytes h⟩
  · rintro ⟨hvalid, hfront⟩
    obtain ⟨found, hfound⟩ := Option.isSome_iff_exists.mp (takeBytes?_isSome_iff.mpr hvalid)
    rw [← String.toList_ofList (l := found)] at hfound
    have hsame : front = .ofList found := by
      rw [← String.toByteArray_inj, hfront, hbytes hfound]
    rw [hsame, hfound]

end Text

namespace Path

open Text

/-! ## The module under each cut -/

/-- Without a cut the module is the first segment but the last that is not empty, the first
character left out. -/
theorem resolve_zero (c : Char) (cs : List Char) :
    resolve (c :: cs) 0 = (pieces separator cs).dropLast.find? (· ≠ []) := by
  rw [resolve, if_neg (Int.lt_irrefl 0), if_neg (Int.lt_irrefl 0)]
  cases hcut : cut? separator cs with
  | none =>
    rw [pieces_of_not_mem (cut?_eq_none_iff.mp hcut)]
    rfl
  | some p => exact resolve_eq_find? hcut

theorem moduleAt?_of_pos {cut : Int} (h : 0 < cut) {path owner : String} :
    moduleAt? path cut = some owner ↔
      owner ≠ "" ∧ (⟨min cut.toNat path.utf8ByteSize⟩ : String.Pos.Raw).IsValid path ∧
        owner.toByteArray = path.toByteArray.extract 0 (min cut.toNat path.utf8ByteSize) := by
  rw [moduleAt?_eq_some, resolve_of_pos h, byteSize_toList, Option.filter_eq_some_iff,
    takeBytes?_eq_some_iff_bytes, and_comm]
  refine and_congr_left' ?_
  simp

theorem moduleAt?_zero {path owner : String} :
    moduleAt? path 0 = some owner ↔
      ∃ c tail lead rest, path.toList = c :: tail.toList ∧ Token.Names tail owner lead rest := by
  have hsegment : ∀ c cs, resolve (c :: cs) 0 = some owner.toList ↔
      ∃ lead rest, Token.Names (.ofList cs) owner lead rest := by
    intro c cs
    rw [resolve_zero, Token.exists_names_iff_find?, String.toList_ofList]
  rw [moduleAt?_eq_some]
  constructor
  · intro h
    cases hpath : path.toList with
    | nil =>
      rw [hpath] at h
      cases h
    | cons c cs =>
      rw [hpath] at h
      obtain ⟨lead, rest, hnames⟩ := (hsegment c cs).mp h
      exact ⟨c, .ofList cs, lead, rest, by rw [String.toList_ofList], hnames⟩
  · rintro ⟨c, tail, lead, rest, hpath, hnames⟩
    rw [hpath, hsegment, String.ofList_toList]
    exact ⟨lead, rest, hnames⟩

/-! ## The search for it -/

/-- A search for the module of `path` under a cut of 64 bits. -/
structure Search where
  path : List Char
  cut : Int64

/-- What a search comes to. -/
inductive Turn where
  | ends (found : Option (List Char))
  | again (s : Search)

/-- One turn of a search. Slices are taken at byte offsets; where one is taken inside a character
there is no turn. -/
def Search.turn? (s : Search) : Option Turn :=
  if 0 < s.cut then
    some (.ends ((takeBytes? (min s.cut.toNatClampNeg (byteSize s.path)) s.path).filter (· ≠ [])))
  else if s.cut < 0 then some (.ends none)
  else match s.path with
    | [] => some (.ends none)
    | c :: cs =>
      (dropBytes? c.utf8Size (c :: cs)).map fun rest =>
        match cut? separator rest with
        | none => .ends none
        | some (name, _) => .again ⟨rest, .ofNat (byteSize name)⟩

theorem turn?_of_neg {cut : Int64} (h : cut < 0) (path : List Char) :
    Search.turn? ⟨path, cut⟩ = some (.ends none) := by
  have hpos : ¬ 0 < cut := Int64.lt_asymm h
  rw [Search.turn?, if_neg hpos, if_pos h]

theorem turn?_of_pos {cut : Int64} (h : 0 < cut) (path : List Char) :
    Search.turn? ⟨path, cut⟩ = some (.ends (resolve path cut.toInt)) := by
  have hint : 0 < cut.toInt := Int64.lt_iff_toInt_lt.mp h
  rw [Search.turn?, if_pos h, resolve_of_pos hint]
  rfl

/-- The first character is dropped whole. -/
theorem turn?_cons (c : Char) (cs : List Char) :
    Search.turn? ⟨c :: cs, 0⟩ =
      some (match cut? separator cs with
        | none => .ends none
        | some (name, _) => .again ⟨cs, .ofNat (byteSize name)⟩) := by
  rw [Search.turn?, if_neg Int64.lt_irrefl, if_neg Int64.lt_irrefl]
  dsimp only
  rw [dropBytes?_cons, Option.map_some]

/-- A turn ends the search with the module of its path, or leaves it to a search in the path
without its first character, cut at the first separator. -/
theorem turn?_cases (s : Search) :
    s.turn? = some (.ends (resolve s.path s.cut.toInt)) ∨
      ∃ c cs name rest, s = ⟨c :: cs, 0⟩ ∧ cut? separator cs = some (name, rest) ∧
        s.turn? = some (.again ⟨cs, .ofNat (byteSize name)⟩) := by
  obtain ⟨path, cut⟩ := s
  by_cases hzero : cut = 0
  · subst hzero
    cases path with
    | nil => exact .inl rfl
    | cons c cs =>
      cases hcut : cut? separator cs with
      | none =>
        left
        rw [turn?_cons, hcut]
        simp [resolve, hcut]
      | some p => exact .inr ⟨c, cs, p.1, p.2, rfl, hcut, by rw [turn?_cons, hcut]⟩
  · rcases Int64.lt_or_lt_of_ne hzero with hneg | hpos
    · left
      rw [turn?_of_neg hneg, resolve_of_neg (Int64.lt_iff_toInt_lt.mp hneg)]
    · exact .inl (turn?_of_pos hpos path)

/-- What ends a search is the module of its path. -/
theorem found_of_turn? {s : Search} {found : Option (List Char)}
    (h : s.turn? = some (.ends found)) : found = resolve s.path s.cut.toInt := by
  rcases turn?_cases s with hends | ⟨c, cs, name, rest, -, -, hagain⟩
  · rw [h] at hends
    cases hends
    rfl
  · rw [h] at hagain
    cases hagain

/-- What follows a search is a search in the path without its first character, cut at the first
separator. -/
theorem next_of_turn? {s s' : Search} (h : s.turn? = some (.again s')) :
    ∃ c cs name rest, s = ⟨c :: cs, 0⟩ ∧ cut? separator cs = some (name, rest) ∧
      s' = ⟨cs, .ofNat (byteSize name)⟩ := by
  rcases turn?_cases s with hends | ⟨c, cs, name, rest, hs, hcut, hagain⟩
  · rw [h] at hends
    cases hends
  · rw [h] at hagain
    cases hagain
    exact ⟨c, cs, name, rest, hs, hcut, rfl⟩

theorem length_of_turn? {s s' : Search} (h : s.turn? = some (.again s')) :
    s'.path.length < s.path.length := by
  obtain ⟨c, cs, name, rest, rfl, -, rfl⟩ := next_of_turn? h
  exact Nat.lt_succ_self _

/-! ### Cuts of 64 bits -/

/-- The bytes of a path can be counted by a cut, as those of any text in memory can. -/
def Fits (path : List Char) : Prop := (byteSize path : Int) ≤ Int64.maxValue.toInt

instance (path : List Char) : Decidable (Fits path) :=
  inferInstanceAs (Decidable ((byteSize path : Int) ≤ Int64.maxValue.toInt))

theorem Fits.of_append {a b : List Char} (h : Fits (a ++ b)) : Fits a ∧ Fits b := by
  unfold Fits at *
  rw [byteSize_append] at h
  omega

theorem Fits.toInt_ofNat {name : List Char} (h : Fits name) :
    (Int64.ofNat (byteSize name)).toInt = byteSize name := by
  refine Int64.toInt_ofNat_of_lt ?_
  rw [Fits, Int64.toInt_maxValue] at h
  omega

/-- The cut is not negative and does not end inside a character. -/
def Search.AtBoundary (s : Search) : Prop :=
  0 ≤ s.cut ∧ (⟨s.cut.toNatClampNeg⟩ : String.Pos.Raw).IsValid (.ofList s.path)

theorem Fits.atBoundary {name : List Char} (h : Fits name) (rest : List Char) :
    Search.AtBoundary ⟨name ++ rest, .ofNat (byteSize name)⟩ := by
  constructor
  · rw [Int64.le_iff_toInt_le, h.toInt_ofNat]
    exact Int.natCast_nonneg _
  · have hcut : (Int64.ofNat (byteSize name)).toNatClampNeg = byteSize name := by
      rw [Int64.toNatClampNeg, h.toInt_ofNat, Int.toNat_natCast]
    rw [← takeBytes?_isSome_iff, String.toList_ofList, hcut, takeBytes?_append]
    rfl

/-- The search that follows another looks for the same module, and its cut is sound. -/
theorem Fits.of_turn? {s s' : Search} (hfits : Fits s.path) (h : s.turn? = some (.again s')) :
    Fits s'.path ∧ s'.AtBoundary ∧
      resolve s'.path s'.cut.toInt = resolve s.path s.cut.toInt := by
  obtain ⟨c, cs, name, rest, rfl, hcut, rfl⟩ := next_of_turn? h
  obtain ⟨-, hcs⟩ := Fits.of_append (a := [c]) hfits
  obtain ⟨-, rfl⟩ := cut?_eq_some_iff.mp hcut
  obtain ⟨hname, -⟩ := hcs.of_append
  refine ⟨hcs, hname.atBoundary _, ?_⟩
  dsimp only
  rw [hname.toInt_ofNat]
  exact (resolve_of_cut? hcut).symm

/-! ### The whole search -/

/-- `Resolves s later found`: after `s` come the searches `later`, each inside the one before,
and the last of them ends with `found`. -/
inductive Resolves : Search → List Search → Option (List Char) → Prop
  | ends {s found} : s.turn? = some (.ends found) → Resolves s [] found
  | again {s s' later found} : s.turn? = some (.again s') → Resolves s' later found →
      Resolves s (s' :: later) found

/-- Every search ends, whatever its path and its cut. -/
theorem exists_resolves (path : List Char) (cut : Int64) :
    ∃ later found, Resolves ⟨path, cut⟩ later found := by
  induction path generalizing cut with
  | nil =>
    rcases turn?_cases ⟨[], cut⟩ with hends | ⟨c, cs, name, rest, hs, -, -⟩
    · exact ⟨[], _, .ends hends⟩
    · cases hs
  | cons c cs ih =>
    rcases turn?_cases ⟨c :: cs, cut⟩ with hends | ⟨c', cs', name, rest, hs, -, hagain⟩
    · exact ⟨[], _, .ends hends⟩
    · cases hs
      obtain ⟨later, found, hlater⟩ := ih (.ofNat (byteSize name))
      exact ⟨_, found, .again hagain hlater⟩

theorem Resolves.unique {s : Search} {later later' : List Search}
    {found found' : Option (List Char)} (h : Resolves s later found)
    (h' : Resolves s later' found') : later = later' ∧ found = found' := by
  induction h generalizing later' found' with
  | ends hturn =>
    cases h' with
    | ends hturn' =>
      rw [hturn] at hturn'
      cases hturn'
      exact ⟨rfl, rfl⟩
    | again hturn' =>
      rw [hturn] at hturn'
      cases hturn'
  | again hturn _ ih =>
    cases h' with
    | ends hturn' =>
      rw [hturn] at hturn'
      cases hturn'
    | again hturn' hrest =>
      rw [hturn] at hturn'
      cases hturn'
      obtain ⟨rfl, rfl⟩ := ih hrest
      exact ⟨rfl, rfl⟩

/-- No search is followed by more searches than its path has characters. -/
theorem Resolves.length_le {s : Search} {later : List Search} {found : Option (List Char)}
    (h : Resolves s later found) : later.length ≤ s.path.length := by
  induction h with
  | ends => exact Nat.zero_le _
  | again hturn _ ih => exact Nat.lt_of_le_of_lt ih (length_of_turn? hturn)

/-- A search ends with the module of its path, and makes no cut on the way that is not sound. -/
theorem Resolves.spec {s : Search} {later : List Search} {found : Option (List Char)}
    (h : Resolves s later found) (hfits : Fits s.path) :
    found = resolve s.path s.cut.toInt ∧ ∀ s' ∈ later, s'.AtBoundary := by
  induction h with
  | ends hturn => exact ⟨found_of_turn? hturn, fun s' hs' => nomatch hs'⟩
  | again hturn _ ih =>
    obtain ⟨hnext, hcut, hsame⟩ := hfits.of_turn? hturn
    obtain ⟨hfound, hlater⟩ := ih hnext
    exact ⟨hfound.trans hsame, List.forall_mem_cons.mpr ⟨hcut, hlater⟩⟩

/-- **The module under each cut.** A negative cut gives none. A positive one gives the first
bytes, as many as there are up to the cut, unless there are none or they end inside a character.
Cut zero gives the name that stands behind the first character and any number of separators, with
a separator behind it. Under every cut the search for the module ends, and in one way only, so no
slice is taken inside a character. It is followed by no more searches than the path has
characters, it finds that module, and every cut that is made on the way is sound. -/
theorem modules_are_exact (path : String) :
    (∀ cut : Int64, cut < 0 → moduleAt? path cut.toInt = none) ∧
    (∀ cut : Int64, 0 < cut → ∀ owner, moduleAt? path cut.toInt = some owner ↔
      owner ≠ "" ∧
        (⟨min cut.toNatClampNeg path.utf8ByteSize⟩ : String.Pos.Raw).IsValid path ∧
        owner.toByteArray =
          path.toByteArray.extract 0 (min cut.toNatClampNeg path.utf8ByteSize)) ∧
    (∀ owner, moduleAt? path 0 = some owner ↔
      ∃ c tail lead rest, path.toList = c :: tail.toList ∧ Token.Names tail owner lead rest) ∧
    ∀ cut : Int64, ∃ later found,
      (∀ later' found', Resolves ⟨path.toList, cut⟩ later' found' ↔
        later' = later ∧ found' = found) ∧
      later.length ≤ path.length ∧
      (Fits path.toList →
        found.map String.ofList = moduleAt? path cut.toInt ∧ ∀ s ∈ later, s.AtBoundary) := by
  refine ⟨fun cut hcut => ?_, fun cut hcut owner => ?_, fun owner => moduleAt?_zero,
    fun cut => ?_⟩
  · rw [moduleAt?, resolve_of_neg (Int64.lt_iff_toInt_lt.mp hcut), Option.map_none]
  · exact moduleAt?_of_pos (Int64.lt_iff_toInt_lt.mp hcut)
  · obtain ⟨later, found, h⟩ := exists_resolves path.toList cut
    refine ⟨later, found, fun later' found' => ⟨fun h' => h'.unique h, ?_⟩, h.length_le,
      fun hfits => ?_⟩
    · rintro ⟨rfl, rfl⟩
      exact h
    · obtain ⟨rfl, hlater⟩ := h.spec hfits
      exact ⟨rfl, hlater⟩

/-- Behind a first character of two bytes the separators are passed over one by one. -/
theorem wide_module_is_found :
    moduleAt? "é\\\\ü\\x" (-1 : Int64).toInt = none ∧
    moduleAt? "é\\\\ü\\x" (2 : Int64).toInt = some "é" ∧
    moduleAt? "é\\\\ü\\x" 0 = some "ü" ∧
    ∃ later found, Resolves ⟨"é\\\\ü\\x".toList, 0⟩ later found ∧
      found.map String.ofList = some "ü" ∧ later.length ≤ 6 ∧ ∀ s ∈ later, s.AtBoundary := by
  obtain ⟨hneg, hpos, hzero, hsearch⟩ := modules_are_exact "é\\\\ü\\x"
  obtain ⟨later, found, hresolves, hlength, hspec⟩ := hsearch 0
  obtain ⟨hfound, hlater⟩ := hspec (by decide +kernel)
  have hbehind : Token.Names "\\\\ü\\x" "ü" 2 ['x'] := by
    constructor <;> decide +kernel
  have hname := (hzero "ü").mpr ⟨'é', _, 2, ['x'], by decide +kernel, hbehind⟩
  refine ⟨hneg (-1) (by decide), ?_, hname, later, found, (hresolves _ _).mpr ⟨rfl, rfl⟩,
    hfound.trans hname, hlength, hlater⟩
  exact (hpos 2 (by decide) "é").mpr ⟨by decide, by decide +kernel, by decide +kernel⟩

end Path

end Switchboard
