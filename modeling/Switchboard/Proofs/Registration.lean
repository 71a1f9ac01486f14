import Switchboard.Proofs.Lookup
import Switchboard.Proofs.Segments

/-!
How a catalog is set up. A path can be registered just if, without one separator in front, it
has two segments or more and none of them is empty (`Catalog.key?_eq`), and just then the list
of a request can ask for it, in both spellings. Of the registrations of one library the first
counts: it is what either spelling finds from then on, whatever is registered behind it, and
one that fails leaves the catalog as it was (`Catalog.first_registration_stands`).
-/

namespace Switchboard

/-! ## Paths that can be registered -/

namespace Path

open Text

theorem segments_of_cut? {path : String} {name rest : List Char}
    (h : cut? separator path.toList = some (name, rest)) :
    segments path = .ofList name :: (pieces separator rest).map .ofList := by
  rw [segments, pieces_of_cut? h, List.map_cons]

theorem length_segments_of_cut? {path : String} {name rest : List Char}
    (h : cut? separator path.toList = some (name, rest)) : 2 ≤ (segments path).length := by
  have hrest := List.length_pos_iff.mpr (pieces_ne_nil separator rest)
  rw [segments_of_cut? h, List.length_cons, List.length_map]
  omega

theorem segments_of_not_cut {path : String} (h : cut? separator path.toList = none) :
    segments path = [path] := by
  rw [segments, pieces_of_not_mem (cut?_eq_none_iff.mp h), List.map_singleton,
    String.ofList_toList]

/-- Without an empty segment, the first segment is the module. -/
theorem moduleAt?_of_full {path : String} {name rest : List Char}
    (h : cut? separator path.toList = some (name, rest)) (hs : "" ∉ segments path) :
    moduleAt? path (byteSize name) = (segments path).head? := by
  have hname : name ≠ [] := by
    rintro rfl
    rw [segments_of_cut? h] at hs
    exact hs List.mem_cons_self
  rw [moduleAt?, resolve_eq_find? h, pieces_of_cut? h,
    List.dropLast_cons_of_ne_nil (pieces_ne_nil separator rest), segments_of_cut? h]
  simp [hname]

/-- Two segments or more, none of them empty, but for a separator in front. -/
def Fit (path : String) : Prop :=
  2 ≤ (segments (canonical path)).length ∧ "" ∉ segments (canonical path)

instance (path : String) : Decidable (Fit path) := inferInstanceAs (Decidable (_ ∧ _))

end Path

namespace Catalog

open Text

/-- **The paths of libraries.** -/
theorem key?_eq (path : String) :
    key? path =
      if (Path.segments (Path.canonical path)).length < 2 then .error (.missingSeparator path)
      else if "" ∈ Path.segments (Path.canonical path) then .error (.emptySegment path)
      else .ok (Path.canonical path) := by
  unfold key?
  dsimp only
  cases hcut : cut? Path.separator (Path.canonical path).toList with
  | none =>
    rw [Path.segments_of_not_cut hcut]
    rfl
  | some cut =>
    obtain ⟨name, rest⟩ := cut
    have hlong := Path.length_segments_of_cut? hcut
    rw [if_neg (Nat.not_lt.mpr hlong)]
    by_cases hs : "" ∈ Path.segments (Path.canonical path)
    · rw [if_pos hs]
      exact if_pos (.inr hs)
    · have hmodule : (Path.moduleAt? (Path.canonical path) (byteSize name)).isNone = false := by
        rw [Path.moduleAt?_of_full hcut hs, Path.segments_of_cut? hcut]
        rfl
      rw [if_neg hs]
      exact if_neg (by simp [hmodule, hs])

theorem key?_eq_ok_iff {path key : String} :
    key? path = .ok key ↔ Path.Fit path ∧ key = Path.canonical path := by
  rw [key?_eq]
  unfold Path.Fit
  split
  · next h => simp [Nat.not_le.mpr h]
  · next h =>
    split
    · next hs => simp [hs]
    · next hs => simp [Nat.not_lt.mp h, hs, eq_comm]

theorem exists_error_of_unfit {path : String} (h : ¬ Path.Fit path) :
    key? path = .error (.missingSeparator path) ∨ key? path = .error (.emptySegment path) := by
  rw [key?_eq]
  split
  · exact .inl rfl
  · next hlong =>
    split
    · exact .inr rfl
    · next hs => exact absurd ⟨Nat.not_lt.mp hlong, hs⟩ h

end Catalog

namespace Path.Fit

variable {path : String}

theorem key? (h : Fit path) : Catalog.key? path = .ok (canonical path) :=
  Catalog.key?_eq_ok_iff.mpr ⟨h, rfl⟩

theorem canonical_canonical (h : Fit path) : canonical (canonical path) = canonical path :=
  canonical_of_segments h.2

/-- Both spellings of a path that can be registered ask for it, in its first segment. -/
theorem ofString? (h : Fit path) :
    ∃ first, (segments (canonical path)).head? = some first ∧
      Token.ofString? (canonical path) = some (.library first (canonical path)) ∧
      Token.ofString? (rooted (canonical path)) =
        some (.library first (rooted (canonical path))) := by
  obtain ⟨owner, hread⟩ := Token.exists_ofString?_of_key? (Catalog.key?_idem h.key?)
  obtain ⟨-, name, rest, hcut, -, howner⟩ := Token.ofString?_eq_library.mp hread
  rw [moduleAt?_of_full hcut h.2] at howner
  exact ⟨owner, howner, hread, Token.ofString?_rooted hread⟩

end Path.Fit

/-- Two texts have one canonical form: the form itself, and that behind a separator. -/
theorem Path.canonical_eq_iff {key q : String} (hkey : canonical key = key) :
    canonical q = key ↔ q = key ∨ q = rooted key := by
  constructor
  · rintro rfl
    exact (eq_or_eq_rooted q).imp Eq.symm id
  · rintro (rfl | rfl)
    · exact hkey
    · exact canonical_rooted key

/-! ## One registration -/

namespace Catalog

variable {c c' : Catalog} {path : String} {l : Library}

/-- A registration that is accepted puts the library under the canonical form of its path. -/
structure Enters (c : Catalog) (path : String) (l : Library) (c' : Catalog) : Prop where
  libraries : c'.libraries = c.libraries.insert (Path.canonical path) l
  hooks : c'.hooks = c.hooks

/-- **A registration.** All that it can come to. -/
theorem register_cases (c : Catalog) (path : String) (l : Library) :
    (¬ Path.Fit path ∧ (c.register path l = .error (.missingSeparator path) ∨
      c.register path l = .error (.emptySegment path))) ∨
    (Path.Fit path ∧ (c.library? path).isSome = true ∧
      c.register path l = .error (.duplicate path)) ∨
    (Path.Fit path ∧ c.library? path = none ∧
      ∃ c', c.register path l = .ok c' ∧ c.Enters path l c') := by
  unfold register
  split
  · next e he =>
    have hunfit : ¬ Path.Fit path := fun hfit => by
      rw [hfit.key?] at he
      cases he
    refine .inl ⟨hunfit, ?_⟩
    rcases exists_error_of_unfit hunfit with h | h
    · rw [h] at he
      cases he
      exact .inl rfl
    · rw [h] at he
      cases he
      exact .inr rfl
  · next key hkey =>
    obtain ⟨hfit, rfl⟩ := key?_eq_ok_iff.mp hkey
    right
    split
    · next htaken => exact .inl ⟨hfit, htaken, rfl⟩
    · next hfree =>
      have hnone : c.library? path = none := by
        rw [Table.contains, Bool.not_eq_true, Option.isSome_eq_false_iff,
          Option.isNone_iff_eq_none] at hfree
        exact hfree
      exact .inr ⟨hfit, hnone, _, rfl, rfl, rfl⟩

theorem register_eq_ok (h : c.register path l = .ok c') :
    Path.Fit path ∧ c.library? path = none ∧ c.Enters path l c' := by
  rcases c.register_cases path l with ⟨-, hbad | hbad⟩ | ⟨-, -, hbad⟩ | ⟨hfit, hfree, d, hd, hin⟩
  · cases h.symm.trans hbad
  · cases h.symm.trans hbad
  · cases h.symm.trans hbad
  · obtain rfl : c' = d := Except.ok.inj (h.symm.trans hd)
    exact ⟨hfit, hfree, hin⟩

theorem register_ok_iff :
    (∃ c', c.register path l = .ok c') ↔ Path.Fit path ∧ c.library? path = none := by
  constructor
  · rintro ⟨c', h⟩
    obtain ⟨hfit, hfree, -⟩ := register_eq_ok h
    exact ⟨hfit, hfree⟩
  · rintro ⟨hfit, hfree⟩
    rcases c.register_cases path l with ⟨hunfit, -⟩ | ⟨-, htaken, -⟩ | ⟨-, -, c', hc', -⟩
    · exact absurd hfit hunfit
    · rw [hfree] at htaken
      cases htaken
    · exact ⟨c', hc'⟩

theorem register_of_unfit (h : ¬ Path.Fit path) :
    c.register path l = .error (.missingSeparator path) ∨
      c.register path l = .error (.emptySegment path) := by
  rcases c.register_cases path l with ⟨-, hbad⟩ | ⟨hfit, -⟩ | ⟨hfit, -⟩
  · exact hbad
  · exact absurd hfit h
  · exact absurd hfit h

theorem register_of_taken (h : Path.Fit path) (htaken : c.library? path ≠ none) :
    c.register path l = .error (.duplicate path) := by
  rcases c.register_cases path l with ⟨hunfit, -⟩ | ⟨-, -, hbad⟩ | ⟨-, hfree, -⟩
  · exact absurd h hunfit
  · exact hbad
  · exact absurd hfree htaken

theorem Enters.library? (h : c.Enters path l c') (q : String) :
    c'.library? q = if Path.canonical path = Path.canonical q then some l else c.library? q := by
  rw [Catalog.library?, h.libraries, Table.get?_insert]
  rfl

end Catalog

/-! ## Many registrations -/

/-- One step in setting up a catalog. -/
inductive Setup where
  /-- Register a library; if that fails, go on without it. -/
  | register (path : String) (l : Library)
  /-- Register a library; if that fails, give up. -/
  | withLibrary (path : String) (l : Library)
  | hook (owner : String) (h : History → Hook)

/-- What a registration has to offer: a library for the canonical form of its path, if that
can be registered. -/
def Library.offer? (l : Library) (path : String) : Option (String × Library) :=
  if Path.Fit path then some (Path.canonical path, l) else none

def Setup.offer? : Setup → Option (String × Library)
  | register path l => l.offer? path
  | withLibrary path l => l.offer? path
  | hook _ _ => none

namespace Catalog

def setUp (c : Catalog) : Setup → Except RegistrationError Catalog
  | .register path l =>
    match c.register path l with
    | .ok c' => .ok c'
    | .error _ => .ok c
  | .withLibrary path l => c.register path l
  | .hook owner h => .ok (c.setRememberingHook owner h)

def setUpAll (c : Catalog) (steps : List Setup) : Except RegistrationError Catalog :=
  steps.foldlM setUp c

theorem setUpAll_cons {c c' : Catalog} {step : Setup} {steps : List Setup} :
    c.setUpAll (step :: steps) = .ok c' ↔
      ∃ d, c.setUp step = .ok d ∧ d.setUpAll steps = .ok c' := by
  rw [setUpAll, List.foldlM_cons]
  cases c.setUp step with
  | error e => simp [bind, Except.bind]
  | ok d => simp [bind, Except.bind, setUpAll]

section Lookups

variable {c c' : Catalog} {path : String} {l : Library} {e : RegistrationError}

/-- What is registered is found, where nothing was found before. -/
theorem library?_of_register (h : c.register path l = .ok c') (q : String) :
    c'.library? q =
      (c.library? q).or (Entries.get? (Path.canonical q) (l.offer? path).toList) := by
  obtain ⟨hfit, hfree, hin⟩ := register_eq_ok h
  rw [hin.library?, Library.offer?, if_pos hfit, Option.toList_some, Entries.get?]
  split
  · next hsame =>
    have hnone : c.library? q = none := by
      rw [Catalog.library?, ← hsame]
      exact hfree
    rw [hnone, Option.none_or]
  · rw [Entries.get?, Option.or_none]

/-- A registration that fails had nothing to add. -/
theorem library?_of_rejected (h : c.register path l = .error e) (q : String) :
    c.library? q = (c.library? q).or (Entries.get? (Path.canonical q) (l.offer? path).toList) := by
  rcases c.register_cases path l with ⟨hunfit, -⟩ | ⟨hfit, htaken, -⟩ | ⟨-, -, d, hd, -⟩
  · rw [Library.offer?, if_neg hunfit]
    exact Option.or_none.symm
  · obtain ⟨held, hheld⟩ := Option.isSome_iff_exists.mp htaken
    rw [Library.offer?, if_pos hfit, Option.toList_some, Entries.get?]
    split
    · next hsame =>
      have hfound : c.library? q = some held := by
        rw [Catalog.library?, ← hsame]
        exact hheld
      rw [hfound, Option.some_or]
    · rw [Entries.get?, Option.or_none]
  · cases h.symm.trans hd

end Lookups

variable {c c' : Catalog} {steps : List Setup}

/-- A step adds what it offers, where nothing was found before. -/
theorem library?_setUp {step : Setup} (h : c.setUp step = .ok c') (q : String) :
    c'.library? q =
      (c.library? q).or (Entries.get? (Path.canonical q) step.offer?.toList) := by
  cases step with
  | register path l =>
    dsimp only [setUp] at h
    split at h
    · next d hd =>
      cases h
      exact library?_of_register hd q
    · next e he =>
      cases h
      exact library?_of_rejected he q
  | withLibrary path l => exact library?_of_register h q
  | hook owner hk =>
    cases h
    exact Option.or_none.symm

/-- **First come, first served.** After any steps, what is found for a path is what was
found before, and else the first that the steps offer for it. -/
theorem library?_setUpAll (h : c.setUpAll steps = .ok c') (q : String) :
    c'.library? q = (c.library? q).or
      (Entries.get? (Path.canonical q) (steps.filterMap Setup.offer?)) := by
  induction steps generalizing c with
  | nil =>
    cases h
    exact Option.or_none.symm
  | cons step steps ih =>
    obtain ⟨d, hstep, hrest⟩ := setUpAll_cons.mp h
    rw [ih hrest, library?_setUp hstep, Option.or_assoc, ← Entries.get?_append,
      List.filterMap_eq_flatMap_toList, List.filterMap_eq_flatMap_toList, List.flatMap_cons]

theorem library?_of_setUp_empty (h : empty.setUpAll steps = .ok c) (q : String) :
    c.library? q = Entries.get? (Path.canonical q) (steps.filterMap Setup.offer?) := by
  rw [library?_setUpAll h]
  exact Option.none_or

/-- A path that is free is one that no step has offered anything for. -/
theorem library?_eq_none_iff (h : empty.setUpAll steps = .ok c) (q : String) :
    c.library? q = none ↔
      Path.canonical q ∉ (steps.filterMap Setup.offer?).map Prod.fst := by
  rw [library?_of_setUp_empty h, Entries.get?_eq_none_iff]

/-- What is found once a registration was accepted: its library, by both spellings of the
path, and what the other steps have brought, by any other text. -/
theorem library?_of_accepted {before after : List Setup} {path : String} {l : Library}
    {c'' : Catalog} (hbefore : empty.setUpAll before = .ok c)
    (haccepted : c.register path l = .ok c') (hafter : c'.setUpAll after = .ok c'') (q : String) :
    c''.library? q =
      if q = Path.canonical path ∨ q = Path.rooted (Path.canonical path) then some l
      else Entries.get? (Path.canonical q) ((before ++ after).filterMap Setup.offer?) := by
  obtain ⟨hfit, -, hin⟩ := register_eq_ok haccepted
  have hspelled := Path.canonical_eq_iff (q := q) hfit.canonical_canonical
  rw [library?_setUpAll hafter, hin.library?]
  by_cases hsame : Path.canonical q = Path.canonical path
  · rw [if_pos hsame.symm, if_pos (hspelled.mp hsame), Option.some_or]
  · rw [if_neg (Ne.symm hsame), if_neg (mt hspelled.mpr hsame), library?_of_setUp_empty hbefore,
      List.filterMap_append, Entries.get?_append]

/-- **A registration and what follows.** It is accepted just if its path can be registered
and no step before it has offered anything for that; it fails for the shape of the path or
because the path is taken, in either spelling, and then it is as if it had not been tried.
One that is accepted stands: whatever steps follow, both spellings of the path find its
library and, if no other step has brought the same library, nothing else does. And a request
asks for the path in either spelling, in the module of its first segment. -/
theorem first_registration_stands {before : List Setup} {c : Catalog}
    (hbefore : empty.setUpAll before = .ok c) (path : String) (l : Library) :
    ((∃ c', c.register path l = .ok c') ↔
      Path.Fit path ∧ Path.canonical path ∉ (before.filterMap Setup.offer?).map Prod.fst) ∧
    (¬ Path.Fit path → c.register path l = .error (.missingSeparator path) ∨
      c.register path l = .error (.emptySegment path)) ∧
    (Path.Fit path → Path.canonical path ∈ (before.filterMap Setup.offer?).map Prod.fst →
      c.register path l = .error (.duplicate path)) ∧
    (∀ e, c.register path l = .error e → ∀ after,
      c.setUpAll (.register path l :: after) = c.setUpAll after ∧
        c.setUpAll (.withLibrary path l :: after) = .error e) ∧
    (∀ c', c.register path l = .ok c' → ∀ after c'', c'.setUpAll after = .ok c'' → ∀ q,
      c''.library? q =
        (if q = Path.canonical path ∨ q = Path.rooted (Path.canonical path) then some l
        else Entries.get? (Path.canonical q) ((before ++ after).filterMap Setup.offer?)) ∧
      ((∀ key, (key, l) ∉ (before ++ after).filterMap Setup.offer?) →
        (c''.library? q = some l ↔
          q = Path.canonical path ∨ q = Path.rooted (Path.canonical path)))) ∧
    (Path.Fit path → ∃ first, (Path.segments (Path.canonical path)).head? = some first ∧
      Token.ofString? (Path.canonical path) = some (.library first (Path.canonical path)) ∧
      Token.ofString? (Path.rooted (Path.canonical path)) =
        some (.library first (Path.rooted (Path.canonical path)))) := by
  have hfree := library?_eq_none_iff hbefore path
  refine ⟨?_, register_of_unfit, fun hfit htaken => ?_, fun e herror after => ⟨?_, ?_⟩, ?_,
    Path.Fit.ofString?⟩
  · rw [register_ok_iff, hfree]
  · exact register_of_taken hfit fun hnone => hfree.mp hnone htaken
  · rw [setUpAll, List.foldlM_cons, setUp, herror]
    rfl
  · rw [setUpAll, List.foldlM_cons, setUp, herror]
    rfl
  · intro c' haccepted after c'' hafter q
    have hfound := library?_of_accepted hbefore haccepted hafter q
    refine ⟨hfound, fun hown => ⟨fun hl => ?_, fun hq => by rw [hfound, if_pos hq]⟩⟩
    by_contra hq
    rw [hfound, if_neg hq] at hl
    exact hown _ (Entries.mem_of_get? hl)

namespace Registered

def library (name : String) : Library := ⟨[name], none, fun _ _ _ => .value .null⟩

/-- Of the registrations, the first is accepted, one comes late and one has no separator. -/
def before : List Setup :=
  [.register "m\\l" (library "first"), .hook "m" fun _ => .result (.ok ()),
    .register "\\m\\l" (library "late"), .register "m" (library "short")]

def after : List Setup :=
  [.register "n\\k" (library "later"), .withLibrary "a\\b\\c" (library "last")]

theorem runs_through : (do
    let c ← empty.setUpAll before
    let c' ← c.register "\\n\\k" (library "own")
    c'.setUpAll after).isOk = true := by decide +kernel

theorem own_not_offered (key : String) :
    (key, library "own") ∉ (before ++ after).filterMap Setup.offer? := by
  intro hmem
  have hmethods : ((before ++ after).filterMap Setup.offer?).map (fun e => e.2.methods) =
      [["first"], ["late"], ["later"], ["last"]] := by decide +kernel
  have hown : (library "own").methods ∈
      ((before ++ after).filterMap Setup.offer?).map (fun e => e.2.methods) :=
    List.mem_map_of_mem hmem
  rw [hmethods] at hown
  revert hown
  decide

end Registered

/-- A library that is registered between others is found by its own two spellings. -/
theorem own_library_stands :
    ∃ c c' c'', empty.setUpAll Registered.before = .ok c ∧
      c.register "\\n\\k" (Registered.library "own") = .ok c' ∧
      c'.setUpAll Registered.after = .ok c'' ∧
      (∀ q, c''.library? q = some (Registered.library "own") ↔
        q = Path.canonical "\\n\\k" ∨ q = Path.rooted (Path.canonical "\\n\\k")) ∧
      c.register "m\\l" (Registered.library "own") = .error (.duplicate "m\\l") := by
  have hthrough := Registered.runs_through
  rcases hbefore : empty.setUpAll Registered.before with e | c
  · rw [hbefore] at hthrough
    cases hthrough
  rcases hown : c.register "\\n\\k" (Registered.library "own") with e | c'
  · simp [hbefore, hown, bind, Except.bind, Except.isOk, Except.toBool] at hthrough
  rcases hafter : c'.setUpAll Registered.after with e | c''
  · simp [hbefore, hown, hafter, bind, Except.bind, Except.isOk, Except.toBool] at hthrough
  obtain ⟨-, -, htaken, -, -, -⟩ :=
    first_registration_stands hbefore "m\\l" (Registered.library "own")
  obtain ⟨-, -, -, -, hstands, -⟩ :=
    first_registration_stands hbefore "\\n\\k" (Registered.library "own")
  exact ⟨c, c', c'', rfl, hown, hafter,
    fun q => (hstands c' hown _ c'' hafter q).2 Registered.own_not_offered,
    htaken (by decide +kernel) (by decide +kernel)⟩

end Catalog

end Switchboard
