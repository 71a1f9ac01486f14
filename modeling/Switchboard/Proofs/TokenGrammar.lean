import Switchboard.Proofs.Grouping
import Switchboard.Proofs.Segments

/-!
How the tokens of a `cmd` are written. A token without a separator is a method. A library is
written as any number of separators, the name of its module, one more separator and a rest
(`Token.Names`), and the rest may be left out only behind a separator in front.
`Token.reads_by_grammar` says that nothing else is read, and that a reader that cuts the token
at byte offsets never cuts inside a character. One separator in front changes nothing but what
becomes of a module's name with a separator and nothing behind it, which is passed over without
and is a library with it (`Token.spellings_agree_iff`).
-/

namespace Switchboard

/-! ## Cuts at byte offsets -/

namespace Text

theorem takeBytes?_eq_some_iff {n : Nat} {cs front : List Char} :
    takeBytes? n cs = some front ↔ byteSize front = n ∧ front <+: cs := by
  constructor
  · intro h
    induction n, cs using takeBytes?.induct generalizing front with
    | case1 cs =>
      rw [takeBytes?] at h
      obtain rfl := Option.some.inj h
      exact ⟨rfl, List.nil_prefix⟩
    | case2 n => cases h
    | case3 n c cs hle ih =>
      rw [takeBytes?, if_pos hle] at h
      obtain ⟨rest, hrest, rfl⟩ := Option.map_eq_some_iff.mp h
      obtain ⟨hsize, hprefix⟩ := ih hrest
      refine ⟨?_, List.cons_prefix_cons.mpr ⟨rfl, hprefix⟩⟩
      rw [byteSize, hsize]
      omega
    | case4 n c cs hle =>
      rw [takeBytes?, if_neg hle] at h
      cases h
  · rintro ⟨rfl, back, rfl⟩
    exact takeBytes?_append front back

theorem utf8ByteSize_ofList (cs : List Char) : (String.ofList cs).utf8ByteSize = byteSize cs := by
  induction cs with
  | nil => rfl
  | cons c cs ih =>
    have happend : String.ofList (c :: cs) = String.ofList [c] ++ String.ofList cs := by
      rw [← String.ofList_append, List.singleton_append]
    have hsingle : (String.ofList [c]).utf8ByteSize = c.utf8Size := by
      simp
    rw [happend, String.utf8ByteSize_append, hsingle, ih, byteSize]

theorem byteSize_toList (text : String) : byteSize text.toList = text.utf8ByteSize := by
  rw [← utf8ByteSize_ofList, String.ofList_toList]

/-- A cut has an outcome just where the offset is a position of the text in UTF-8, so not inside
a character. -/
theorem takeBytes?_isSome_iff {text : String} {n : Nat} :
    (takeBytes? n text.toList).isSome = true ↔ (⟨n⟩ : String.Pos.Raw).IsValid text := by
  rw [Option.isSome_iff_exists, String.Pos.Raw.isValid_iff_exists_append]
  constructor
  · rintro ⟨front, hfront⟩
    obtain ⟨rfl, back, hback⟩ := takeBytes?_eq_some_iff.mp hfront
    refine ⟨.ofList front, .ofList back, ?_, ?_⟩
    · rw [← String.ofList_append, hback, String.ofList_toList]
    · rw [String.rawEndPos, utf8ByteSize_ofList]
  · rintro ⟨front, back, rfl, hn⟩
    refine ⟨front.toList, takeBytes?_eq_some_iff.mpr ⟨?_, ?_⟩⟩
    · rw [byteSize_toList]
      exact (congrArg String.Pos.Raw.byteIdx hn).symm
    · rw [String.toList_append]
      exact List.prefix_append _ _

/-- What stands behind the first `n` bytes, where they end between two characters. -/
def dropBytes? (n : Nat) (cs : List Char) : Option (List Char) :=
  (takeBytes? n cs).map fun front => cs.drop front.length

theorem dropBytes?_append (a b : List Char) : dropBytes? (byteSize a) (a ++ b) = some b := by
  rw [dropBytes?, takeBytes?_append, Option.map_some, List.drop_left]

theorem dropBytes?_cons (c : Char) (cs : List Char) :
    dropBytes? c.utf8Size (c :: cs) = some cs := dropBytes?_append [c] cs

theorem length_lt_of_dropBytes? {n : Nat} {cs rest : List Char} (h : dropBytes? n cs = some rest)
    (hn : 0 < n) : rest.length < cs.length := by
  obtain ⟨front, hfront, rfl⟩ := Option.map_eq_some_iff.mp h
  obtain ⟨hsize, hprefix⟩ := takeBytes?_eq_some_iff.mp hfront
  have hpos : 0 < front.length := by
    refine List.length_pos_iff.mpr ?_
    rintro rfl
    exact Nat.ne_of_lt hn hsize
  have hle := hprefix.length_le
  rw [List.length_drop]
  omega

/-! ## The first piece that is not empty -/

theorem pieces_lead (mark : Char) (lead : Nat) (cs : List Char) :
    pieces mark (List.replicate lead mark ++ cs) = List.replicate lead [] ++ pieces mark cs := by
  induction lead with
  | zero => rfl
  | succ lead ih =>
    rw [List.replicate_succ, List.cons_append, pieces, if_pos rfl, ih, List.replicate_succ,
      List.cons_append]

/-- A piece is the first that is not empty, and not the last of all, just if nothing but marks
stands in front of it and a mark stands behind it. -/
theorem find?_dropLast_pieces_eq_some_iff {mark : Char} {cs name : List Char} :
    (pieces mark cs).dropLast.find? (· ≠ []) = some name ↔
      name ≠ [] ∧ mark ∉ name ∧
        ∃ lead rest, cs = List.replicate lead mark ++ name ++ mark :: rest := by
  constructor
  · intro h
    induction cs with
    | nil => cases h
    | cons c cs ih =>
      cases hcut : cut? mark (c :: cs) with
      | none =>
        rw [pieces_of_not_mem (cut?_eq_none_iff.mp hcut)] at h
        cases h
      | some p =>
        obtain ⟨front, rest⟩ := p
        obtain ⟨hfront, htext⟩ := cut?_eq_some_iff.mp hcut
        rw [pieces_of_cut? hcut, List.dropLast_cons_of_ne_nil (pieces_ne_nil _ _)] at h
        by_cases hnil : front = []
        · -- the text begins with a mark, which is one more in front of the name
          subst hnil
          obtain ⟨rfl, rfl⟩ := List.cons.inj htext
          obtain ⟨hne, hplain, lead, rest', rfl⟩ := ih h
          exact ⟨hne, hplain, lead + 1, rest', rfl⟩
        · rw [List.find?_cons_of_pos (by simpa using hnil)] at h
          obtain rfl := Option.some.inj h
          exact ⟨hnil, hfront, 0, rest, htext⟩
  · rintro ⟨hne, hplain, lead, rest, rfl⟩
    have hpieces : pieces mark (List.replicate lead mark ++ name ++ mark :: rest) =
        List.replicate lead [] ++ name :: pieces mark rest := by
      rw [List.append_assoc, pieces_lead, pieces_append, pieces_of_not_mem hplain,
        List.singleton_append]
    have hempty : (List.replicate lead ([] : List Char)).find? (· ≠ []) = none :=
      List.find?_eq_none.mpr fun piece hpiece => by simp [List.eq_of_mem_replicate hpiece]
    rw [hpieces, List.dropLast_append_of_ne_nil (List.cons_ne_nil _ _),
      List.dropLast_cons_of_ne_nil (pieces_ne_nil _ _), List.find?_append, hempty, Option.none_or,
      List.find?_cons_of_pos (by simpa using hne)]

end Text

/-! ## The module by byte offsets -/

namespace Path

open Text

/-- The module of `path` like `resolve`, with every cut made at a byte offset. There is no outcome
at all if one of them ends inside a character. -/
def resolveBytes? (path : List Char) (cut : Int) : Option (Option (List Char)) :=
  if 0 < cut then
    (takeBytes? (min cut.toNat (byteSize path)) path).map fun name =>
      if name = [] then none else some name
  else if cut < 0 then some none
  else match path with
    | [] => some none
    | c :: cs =>
      match _hdrop : dropBytes? c.utf8Size (c :: cs) with
      | none => none
      | some rest =>
        match cut? separator rest with
        | none => some none
        | some (name, _) => resolveBytes? rest (byteSize name)
termination_by path.length
decreasing_by exact length_lt_of_dropBytes? _hdrop c.utf8Size_pos

/-- The first character is dropped whole. -/
theorem resolveBytes?_zero (c : Char) (cs : List Char) :
    resolveBytes? (c :: cs) 0 =
      match cut? separator cs with
      | none => some none
      | some (name, _) => resolveBytes? cs (byteSize name) := by
  rw [resolveBytes?, if_neg (Int.lt_irrefl 0), if_neg (Int.lt_irrefl 0)]
  split
  · next hdrop =>
    rw [dropBytes?_cons] at hdrop
    cases hdrop
  · next rest hdrop =>
    rw [dropBytes?_cons] at hdrop
    obtain rfl := Option.some.inj hdrop
    rfl

/-- Where a path is cut at its first separator, no cut ends inside a character. -/
theorem resolveBytes?_eq {path name rest : List Char}
    (h : cut? separator path = some (name, rest)) :
    resolveBytes? path (byteSize name) = some (resolve path (byteSize name)) := by
  induction path generalizing name rest with
  | nil => cases h
  | cons c path ih =>
    cases name with
    | nil =>
      rw [byteSize, Int.natCast_zero, resolveBytes?_zero, resolve, if_neg (Int.lt_irrefl 0),
        if_neg (Int.lt_irrefl 0)]
      cases hcut : cut? separator path with
      | none => rfl
      | some p => exact ih hcut
    | cons x name =>
      have hpos : 0 < byteSize (x :: name) := byteSize_pos (List.cons_ne_nil x name)
      rw [resolveBytes?, resolve, if_pos (Int.natCast_pos.mpr hpos),
        if_pos (Int.natCast_pos.mpr hpos), Int.toNat_natCast, takeBytes?_of_cut? h]
      rfl

end Path

namespace Token

open Switchboard.Path Switchboard.Text

/-! ## Reading by byte offsets -/

/-- Reads a token like `ofString?`, with every cut made at a byte offset. There is no outcome at
all if one of them ends inside a character. -/
def readBytes? (token : String) : Option (Option Token) :=
  match cut? separator token.toList with
  | none => some (if token = "" then none else some (.method token))
  | some (name, _) =>
    match resolveBytes? token.toList (byteSize name) with
    | none => none
    | some none => some none
    | some (some owner) =>
      (dropBytes? (byteSize name + separator.utf8Size) token.toList).map fun rest =>
        if rest = [] then none else some (.library (.ofList owner) token)

theorem readBytes?_eq (token : String) : readBytes? token = some (ofString? token) := by
  unfold readBytes? ofString?
  cases hcut : cut? separator token.toList with
  | none => rfl
  | some p =>
    obtain ⟨name, rest⟩ := p
    have htext : token.toList = (name ++ [separator]) ++ rest := by
      rw [(cut?_eq_some_iff.mp hcut).2, List.append_assoc, List.singleton_append]
    have hrest : dropBytes? (byteSize name + separator.utf8Size) token.toList = some rest := by
      have hsize : byteSize name + separator.utf8Size = byteSize (name ++ [separator]) :=
        (byteSize_append name [separator]).symm
      rw [hsize, htext, dropBytes?_append]
    dsimp only
    rw [resolveBytes?_eq hcut, hrest, moduleAt?]
    cases resolve token.toList (byteSize name) <;> rfl

/-! ## The grammar -/

/-- `token` names the module `owner` behind `lead` separators, and `rest` stands behind one
more. -/
structure Names (token owner : String) (lead : Nat) (rest : List Char) : Prop where
  text : token.toList = List.replicate lead separator ++ owner.toList ++ separator :: rest
  ne_empty : owner ≠ ""
  plain : separator ∉ owner.toList

variable {token owner : String} {lead : Nat} {rest : List Char}

theorem exists_names_iff_find? :
    (∃ lead rest, Names token owner lead rest) ↔
      (pieces separator token.toList).dropLast.find? (· ≠ []) = some owner.toList := by
  rw [find?_dropLast_pieces_eq_some_iff]
  constructor
  · rintro ⟨lead, rest, h⟩
    exact ⟨by simpa using h.ne_empty, h.plain, lead, rest, h.text⟩
  · rintro ⟨hne, hplain, lead, rest, htext⟩
    exact ⟨lead, rest, htext, by simpa using hne, hplain⟩

/-- The module is the first segment of the token that is not empty. -/
theorem Names.find?_segments (h : Names token owner lead rest) :
    (segments token).find? (· ≠ "") = some owner := by
  have hfirst : (pieces separator token.toList).find? (· ≠ []) = some owner.toList :=
    (List.dropLast_prefix _).find?_eq_some (exists_names_iff_find?.mp ⟨lead, rest, h⟩)
  have hempty : (fun segment : String => decide (segment ≠ "")) ∘ String.ofList =
      fun piece : List Char => decide (piece ≠ []) := by
    funext piece
    simp
  rw [segments, List.find?_map, hempty, hfirst, Option.map_some, String.ofList_toList]

/-- What is read of the token up to its first separator. -/
theorem Names.exists_cut? (h : Names token owner lead rest) :
    ∃ name after, Text.cut? separator token.toList = some (name, after) ∧
      (after = [] ↔ lead = 0 ∧ rest = []) := by
  cases lead with
  | zero =>
    have htext : token.toList = owner.toList ++ separator :: rest := h.text
    exact ⟨owner.toList, rest, cut?_eq_some_iff.mpr ⟨h.plain, htext⟩, by simp⟩
  | succ lead =>
    have htext : token.toList =
        [] ++ separator :: (List.replicate lead separator ++ owner.toList ++ separator :: rest) :=
      h.text
    exact ⟨[], _, cut?_eq_some_iff.mpr ⟨List.not_mem_nil, htext⟩, by simp⟩

theorem moduleAt?_eq_some_iff {name after : List Char}
    (h : Text.cut? separator token.toList = some (name, after)) :
    moduleAt? token (byteSize name) = some owner ↔ ∃ lead rest, Names token owner lead rest := by
  rw [moduleAt?_eq_some, resolve_eq_find? h, exists_names_iff_find?]

/-- A token reads as a library just if it names a module, and something follows unless a
separator stands in front. -/
theorem ofString?_eq_library_iff_names :
    ofString? token = some (.library owner token) ↔
      ∃ lead rest, Names token owner lead rest ∧ (lead = 0 → rest ≠ []) := by
  rw [ofString?_eq_library]
  constructor
  · rintro ⟨-, name, after, hcut, hafter, hmodule⟩
    obtain ⟨lead, rest, h⟩ := (moduleAt?_eq_some_iff hcut).mp hmodule
    obtain ⟨name', after', hcut', hiff⟩ := h.exists_cut?
    obtain ⟨rfl, rfl⟩ := Prod.mk.inj (Option.some.inj (hcut.symm.trans hcut'))
    exact ⟨lead, rest, h, fun hlead hrest => hafter (hiff.mpr ⟨hlead, hrest⟩)⟩
  · rintro ⟨lead, rest, h, hrest⟩
    obtain ⟨name, after, hcut, hiff⟩ := h.exists_cut?
    refine ⟨rfl, name, after, hcut, fun hafter => ?_,
      (moduleAt?_eq_some_iff hcut).mpr ⟨lead, rest, h⟩⟩
    obtain ⟨hlead, hnil⟩ := hiff.mp hafter
    exact hrest hlead hnil

/-- A token reads as a method just if it is a name without a separator. -/
theorem ofString?_eq_method_iff :
    ofString? token = some (.method token) ↔ token ≠ "" ∧ separator ∉ token.toList := by
  constructor
  · intro h
    refine ⟨?_, plain_of_method h⟩
    rintro rfl
    cases h
  · rintro ⟨hne, hplain⟩
    unfold ofString?
    rw [cut?_eq_none_iff.mpr hplain]
    exact if_neg hne

/-- **What the tokens of a `cmd` read as.** A name without a separator is a method; a module's
name with a separator behind it is a library, if something follows or a separator stands in
front; nothing else is read. The module is the first segment that is not empty, so there is one
at most. No cut made on the way ends inside a character. -/
theorem reads_by_grammar (token : String) :
    (∀ name, ofString? token = some (.method name) ↔
      name = token ∧ token ≠ "" ∧ separator ∉ token.toList) ∧
    (∀ owner path, ofString? token = some (.library owner path) ↔
      path = token ∧ ∃ lead rest, Names token owner lead rest ∧ (lead = 0 → rest ≠ [])) ∧
    (ofString? token = none ↔
      (token = "" ∨ separator ∈ token.toList) ∧
        ∀ owner lead rest, Names token owner lead rest → lead = 0 ∧ rest = []) ∧
    (∀ owner lead rest, Names token owner lead rest →
      (segments token).find? (· ≠ "") = some owner) ∧
    readBytes? token = some (ofString? token) := by
  have hmethod : ∀ name, ofString? token = some (.method name) ↔
      name = token ∧ token ≠ "" ∧ separator ∉ token.toList := by
    intro name
    rw [← ofString?_eq_method_iff]
    constructor
    · intro h
      obtain rfl := name_eq h
      exact ⟨rfl, h⟩
    · rintro ⟨rfl, h⟩
      exact h
  have hlibrary : ∀ owner path, ofString? token = some (.library owner path) ↔
      path = token ∧ ∃ lead rest, Names token owner lead rest ∧ (lead = 0 → rest ≠ []) := by
    intro owner path
    rw [← ofString?_eq_library_iff_names]
    constructor
    · intro h
      obtain rfl := path_eq h
      exact ⟨rfl, h⟩
    · rintro ⟨rfl, h⟩
      exact h
  refine ⟨hmethod, hlibrary, ?_, fun owner lead rest h => h.find?_segments, readBytes?_eq token⟩
  constructor
  · intro hnone
    constructor
    · by_contra hplain
      rw [not_or] at hplain
      have hread := (hmethod token).mpr ⟨rfl, hplain⟩
      rw [hnone] at hread
      cases hread
    · intro owner lead rest h
      by_contra hrest
      have hread := (hlibrary owner token).mpr ⟨rfl, lead, rest, h, not_and.mp hrest⟩
      rw [hnone] at hread
      cases hread
  · rintro ⟨hplain, hnames⟩
    cases hread : ofString? token with
    | none => rfl
    | some read =>
      cases read with
      | library owner path =>
        obtain ⟨-, lead, rest, h, hrest⟩ := (hlibrary owner path).mp hread
        obtain ⟨hlead, hnil⟩ := hnames owner lead rest h
        exact absurd hnil (hrest hlead)
      | method name =>
        obtain ⟨-, hne, hmem⟩ := (hmethod name).mp hread
        exact absurd hplain (not_or.mpr ⟨hne, hmem⟩)

/-- Behind two separators a character of two bytes is a module, though nothing follows. -/
theorem far_module_is_read :
    Names "\\\\é\\" "é" 2 [] ∧
    ofString? "\\\\é\\" = some (.library "é" "\\\\é\\") ∧
    (segments "\\\\é\\").find? (· ≠ "") = some "é" ∧
    readBytes? "\\\\é\\" = some (some (.library "é" "\\\\é\\")) := by
  obtain ⟨-, hlibrary, -, hfirst, hbytes⟩ := reads_by_grammar "\\\\é\\"
  have hnames : Names "\\\\é\\" "é" 2 [] := by
    constructor <;> decide +kernel
  have hread := (hlibrary "é" "\\\\é\\").mpr ⟨rfl, 2, [], hnames, fun h => nomatch h⟩
  exact ⟨hnames, hread, hfirst _ _ _ hnames, hread ▸ hbytes⟩

/-! ## A separator in front -/

theorem names_rooted_iff :
    Names (rooted token) owner (lead + 1) rest ↔ Names token owner lead rest := by
  have htext : (rooted token).toList = separator :: token.toList := String.toList_ofList
  constructor
  · intro h
    have hlist := h.text
    rw [htext, List.replicate_succ, List.cons_append, List.cons_append] at hlist
    exact ⟨(List.cons.inj hlist).2, h.ne_empty, h.plain⟩
  · intro h
    refine ⟨?_, h.ne_empty, h.plain⟩
    rw [htext, h.text, List.replicate_succ, List.cons_append, List.cons_append]

/-- A name does not begin with the separator that is put in front. -/
theorem not_names_rooted_zero : ¬ Names (rooted token) owner 0 rest := by
  intro h
  have hlist : separator :: token.toList = owner.toList ++ separator :: rest :=
    String.toList_ofList.symm.trans h.text
  cases howner : owner.toList with
  | nil => exact h.ne_empty (String.toList_eq_nil_iff.mp howner)
  | cons c cs =>
    rw [howner, List.cons_append] at hlist
    have hmem : separator ∈ owner.toList := by
      rw [howner, (List.cons.inj hlist).1]
      exact List.mem_cons_self
    exact h.plain hmem

/-- With a separator in front a token asks for a library as soon as it names a module. -/
theorem owner?_rooted_eq_some_iff :
    owner? (rooted token) = some owner ↔ ∃ lead rest, Names token owner lead rest := by
  rw [owner?_eq_some, ofString?_eq_library_iff_names]
  constructor
  · rintro ⟨lead, rest, h, -⟩
    cases lead with
    | zero => exact absurd h not_names_rooted_zero
    | succ lead => exact ⟨lead, rest, names_rooted_iff.mp h⟩
  · rintro ⟨lead, rest, h⟩
    exact ⟨lead + 1, rest, names_rooted_iff.mpr h, fun hlead => nomatch hlead⟩

/-- A module's name with a separator and nothing behind it is passed over. -/
theorem Names.ofString?_of_bare (h : Names token owner 0 []) : ofString? token = none := by
  have hcut : Text.cut? separator token.toList = some (owner.toList, []) :=
    cut?_eq_some_iff.mpr ⟨h.plain, h.text⟩
  rw [ofString?, hcut]
  dsimp only
  cases moduleAt? token (byteSize owner.toList) <;> rfl

/-- **One separator in front.** A token with it and the token without it ask for libraries of
one module, or both for none, unless the token is a module's name with a separator and nothing
behind it. Such a token is passed over, and with a separator in front it opens the module. -/
theorem spellings_agree_iff (token : String) :
    (owner? (rooted token) = owner? token ↔ ∀ owner, ¬ Names token owner 0 []) ∧
    ∀ owner, Names token owner 0 [] →
      owner? token = none ∧ owner? (rooted token) = some owner ∧
      ∀ d : Directives, d.enter token = d ∧
        ∃ libraries, (d.enter (rooted token)).modules.libraries? owner = some libraries ∧
          rooted token ∈ libraries := by
  have hbare : ∀ owner, Names token owner 0 [] →
      owner? token = none ∧ owner? (rooted token) = some owner := by
    intro owner h
    refine ⟨?_, owner?_rooted_eq_some_iff.mpr ⟨0, [], h⟩⟩
    rw [owner?, h.ofString?_of_bare]
  refine ⟨⟨fun hsame owner h => ?_, fun hnone => Option.ext fun owner => ?_⟩, fun owner h => ?_⟩
  · obtain ⟨hdropped, hkept⟩ := hbare owner h
    rw [hdropped, hkept] at hsame
    cases hsame
  · rw [owner?_rooted_eq_some_iff, owner?_eq_some, ofString?_eq_library_iff_names]
    constructor
    · rintro ⟨lead, rest, h⟩
      refine ⟨lead, rest, h, ?_⟩
      rintro rfl rfl
      exact hnone owner h
    · rintro ⟨lead, rest, h, -⟩
      exact ⟨lead, rest, h⟩
  · obtain ⟨hdropped, hkept⟩ := hbare owner h
    refine ⟨hdropped, hkept, fun d => ⟨?_, ?_⟩⟩
    · rw [Directives.enter, h.ofString?_of_bare]
    · have hread := owner?_eq_some.mp hkept
      obtain ⟨ho, hp⟩ := names_ne_empty hread
      have hlisted : rooted token ∈ (d.enter (rooted token)).modules.listed owner := by
        rw [Directives.modules_enter_of_owner? hkept]
        exact (Modules.mem_listed_insert ho hp _ _).mpr (.inr ⟨rfl, rfl⟩)
      exact ⟨_, Modules.libraries?_of_listed hlisted, hlisted⟩

/-- Without the separator in front nothing is entered, and with it a module is. -/
theorem bare_module_is_opened :
    Names "user\\" "user" 0 [] ∧
    owner? "user\\" = none ∧ owner? (rooted "user\\") = some "user" ∧
    Directives.empty.enter "user\\" = Directives.empty ∧
    ∃ libraries,
      (Directives.empty.enter (rooted "user\\")).modules.libraries? "user" = some libraries ∧
        rooted "user\\" ∈ libraries := by
  have hnames : Names "user\\" "user" 0 [] := by
    constructor <;> decide +kernel
  obtain ⟨-, hbare⟩ := spellings_agree_iff "user\\"
  obtain ⟨hdropped, hkept, henter⟩ := hbare "user" hnames
  exact ⟨hnames, hdropped, hkept, henter Directives.empty⟩

/-- A module's name with a separator behind it is dropped in one of its two spellings only. -/
theorem bare_module_not_always_dropped :
    ¬ ∀ token : String, ¬ [separator] <+: token.toList →
      owner? (rooted token) = owner? token := by
  intro hsame
  have huser := hsame "user\\" (by decide +kernel)
  exact absurd huser (by decide +kernel)

end Token

end Switchboard
