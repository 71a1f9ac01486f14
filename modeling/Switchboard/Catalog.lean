import Switchboard.Library
import Switchboard.Path

/-! The libraries that can be called, by path, and the hooks that make modules
ready. A path and the same path behind one separator name the same library. -/

namespace Switchboard

/-- Why a library was not registered. -/
inductive RegistrationError where
  | missingSeparator (path : String)
  | emptySegment (path : String)
  | duplicate (path : String)
  deriving DecidableEq, Repr

def RegistrationError.message : RegistrationError → String
  | missingSeparator path => "invalid library path '" ++ path ++ "': missing module separator"
  | emptySegment path => "invalid library path '" ++ path ++ "': empty path segment"
  | duplicate path => "library '" ++ path ++ "' is already registered"

/-- What running the hook of a module ends in. -/
inductive Hook where
  /-- The hook came to its end, with success or with a fault. -/
  | result (r : Except Fault Unit)
  /-- The hook broke off. -/
  | panic

/-- What a hook hands back, if it comes to its end. -/
def Hook.result? : Hook → Option (Except Fault Unit)
  | result r => some r
  | panic => none

namespace Catalog

/-- The canonical form of a path that can name a library: two segments or more,
none of them empty. -/
def key? (path : String) : Except RegistrationError String :=
  let key := Path.canonical path
  match Text.cut? Path.separator key.toList with
  | none => .error (.missingSeparator path)
  | some (name, _) =>
    if (Path.moduleAt? key (Text.byteSize name)).isNone ∨ "" ∈ Path.segments key then
      .error (.emptySegment path)
    else .ok key

theorem key?_eq_ok {path key : String} (h : key? path = .ok key) :
    key = Path.canonical path ∧ (∃ name rest owner,
      Text.cut? Path.separator key.toList = some (name, rest) ∧
        Path.moduleAt? key (Text.byteSize name) = some owner) ∧ "" ∉ Path.segments key := by
  unfold key? at h
  dsimp only at h
  split at h
  · cases h
  · next name rest hcut =>
    split at h
    · cases h
    · next hfit =>
      cases h
      obtain ⟨hm, hs⟩ := not_or.mp hfit
      rw [Option.isNone_iff_eq_none] at hm
      obtain ⟨owner, ho⟩ := Option.ne_none_iff_exists'.mp hm
      exact ⟨rfl, ⟨name, rest, owner, hcut, ho⟩, hs⟩

/-- A canonical form can be registered as it stands. -/
theorem key?_idem {path key : String} (h : key? path = .ok key) : key? key = .ok key := by
  obtain ⟨-, ⟨name, rest, owner, hcut, ho⟩, hs⟩ := key?_eq_ok h
  have hkey : Path.canonical key = key := Path.canonical_of_segments hs
  unfold key?
  simp [hkey, hcut, ho, hs]

end Catalog

/-- Libraries and hooks. No library stands under a path that it cannot be
registered under. -/
structure Catalog where
  /-- Libraries by canonical path. -/
  libraries : Table Library
  /-- How each hook ends, after what ran before it. -/
  hooks : Table (History → Hook)
  addressable : ∀ path ∈ libraries.keys, Catalog.key? path = .ok path

namespace Catalog

def empty : Catalog := ⟨.empty, .empty, fun _ h => (nomatch h)⟩

instance : Inhabited Catalog := ⟨empty⟩

/-- Enters a library, unless its path does not fit or is taken. -/
def register (c : Catalog) (path : String) (l : Library) : Except RegistrationError Catalog :=
  match h : key? path with
  | .error e => .error e
  | .ok key =>
    if c.libraries.contains key then .error (.duplicate path)
    else .ok
      { c with
        libraries := c.libraries.insert key l
        addressable := fun k hk => by
          rcases Entries.mem_keys_put.mp hk with rfl | hk
          · exact key?_idem h
          · exact c.addressable k hk }

def library? (c : Catalog) (path : String) : Option Library :=
  c.libraries.get? (Path.canonical path)

/-- Sets the hook of a module in place of the one it had. -/
def setRememberingHook (c : Catalog) (owner : String) (h : History → Hook) : Catalog :=
  { c with hooks := c.hooks.insert owner h }

/-- Sets a hook that hands back the same result every time. -/
def setHook (c : Catalog) (owner : String) (r : Except Fault Unit) : Catalog :=
  c.setRememberingHook owner fun _ => .result r

/-- How the hook of a module ends if it is run after `past`; `none` if it has no hook. -/
def runHook? (c : Catalog) (owner : String) (past : History) : Option Hook :=
  (c.hooks.get? owner).map (· past)

/-- What the hook of a module hands back, if it has one that comes to its end. -/
def hook? (c : Catalog) (owner : String) (past : History := []) : Option (Except Fault Unit) :=
  (c.runHook? owner past).bind Hook.result?

def size (c : Catalog) : Nat := c.libraries.size

def isEmpty (c : Catalog) : Bool := c.libraries.isEmpty

end Catalog

end Switchboard
