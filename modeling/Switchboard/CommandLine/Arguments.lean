/-! The arguments of the command line. An option that takes a value takes the rest
of its own argument or the next one, and the next one only if it does not look like
an option. Options that stand for one thing may be given once. -/

namespace Switchboard.CommandLine

structure Arguments where
  cmd : String
  map : Option String := none
  format : Option String := none
  /-- Body parameters, as given. -/
  params : List String := []
  /-- Query parameters, as given. -/
  query : List String := []
  /-- File parameters, as given. -/
  files : List String := []
  config : String := "cmdmap.toml"
  noSafeZone : Bool := false
  bodyOnly : Bool := false
  trace : Bool := false
  deriving DecidableEq, Repr

/-- What a list of arguments asks for. -/
inductive Invocation where
  | pass (a : Arguments)
  | version
  | help
  /-- The arguments do not fit. -/
  | misuse
  deriving DecidableEq, Repr

/-! ## Options -/

/-- Options that take a value. -/
inductive Field where
  | cmd
  | map
  | format
  | config
  | param
  | query
  | file
  deriving DecidableEq, Repr

/-- Options that take none. -/
inductive Switch where
  | noSafeZone
  | bodyOnly
  | trace
  | version
  | help
  deriving DecidableEq, Repr

inductive Flag where
  | field (f : Field)
  | switch (s : Switch)
  deriving DecidableEq, Repr

def long? : String → Option Flag
  | "cmd" => some (.field .cmd)
  | "map" => some (.field .map)
  | "format" => some (.field .format)
  | "config" => some (.field .config)
  | "param" => some (.field .param)
  | "query" => some (.field .query)
  | "file" => some (.field .file)
  | "no-safe-zone" => some (.switch .noSafeZone)
  | "body-only" => some (.switch .bodyOnly)
  | "trace" => some (.switch .trace)
  | "version" => some (.switch .version)
  | "help" => some (.switch .help)
  | _ => none

def short? : Char → Option Flag
  | 'p' => some (.field .param)
  | 'q' => some (.field .query)
  | 'V' => some (.switch .version)
  | 'h' => some (.switch .help)
  | _ => none

/-! ## Reading -/

/-- What has been given so far. -/
structure Given where
  cmd : Option String := none
  map : Option String := none
  format : Option String := none
  config : Option String := none
  params : List String := []
  query : List String := []
  files : List String := []
  noSafeZone : Bool := false
  bodyOnly : Bool := false
  trace : Bool := false

namespace Given

/-- Gives an option its value; `none` if it has one or cannot have this one. -/
def field? (g : Given) (value : String) : Field → Option Given
  | .cmd => if g.cmd.isSome then none else some { g with cmd := value }
  | .map => if g.map.isSome then none else some { g with map := value }
  | .format => if g.format.isSome then none else some { g with format := value }
  | .config =>
    if g.config.isSome ∨ value = "" then none else some { g with config := value }
  | .param => some { g with params := g.params ++ [value] }
  | .query => some { g with query := g.query ++ [value] }
  | .file => some { g with files := g.files ++ [value] }

/-- Turns a switch on; at once the answer, if it ends the reading. -/
def switch (g : Given) : Switch → Except Invocation Given
  | .noSafeZone => if g.noSafeZone then .error .misuse else .ok { g with noSafeZone := true }
  | .bodyOnly => if g.bodyOnly then .error .misuse else .ok { g with bodyOnly := true }
  | .trace => if g.trace then .error .misuse else .ok { g with trace := true }
  | .version => .error .version
  | .help => .error .help

/-- The end of the arguments; `cmd` has to be there. -/
def finish (g : Given) : Invocation :=
  match g.cmd with
  | none => .misuse
  | some cmd =>
    .pass { cmd, map := g.map, format := g.format, params := g.params, query := g.query,
            files := g.files, config := g.config.getD "cmdmap.toml",
            noSafeZone := g.noSafeZone, bodyOnly := g.bodyOnly, trace := g.trace }

end Given

/-- What one argument is. -/
inductive Word where
  /-- A value, or something out of place. -/
  | plain
  /-- Two dashes alone: no options follow. -/
  | fence
  | long (name : List Char) (value : Option (List Char))
  | cluster (flags : List Char)

def Word.of (arg : String) : Word :=
  match arg.toList with
  | ['-', '-'] => .fence
  | '-' :: '-' :: cs =>
    .long (cs.takeWhile (· ≠ '=')) (match cs.dropWhile (· ≠ '=') with
      | _ :: value => some value
      | [] => none)
  | '-' :: c :: cs => .cluster (c :: cs)
  | _ => .plain

def isPlain (arg : String) : Bool :=
  match Word.of arg with
  | .plain => true
  | _ => false

/-- A value attached to a short option, with one equals sign before it left out. -/
def attached : List Char → String
  | '=' :: cs => String.ofList cs
  | cs => String.ofList cs

/-- What reading one argument comes to. -/
inductive Step where
  | done (i : Invocation)
  | next (g : Given)
  /-- The next argument has to be the value. -/
  | wants (g : Given) (f : Field)

def Step.ofField (g : Given) (f : Field) (value : String) : Step :=
  match g.field? value f with
  | some g => .next g
  | none => .done .misuse

def Step.ofSwitch (g : Given) (s : Switch) : Step :=
  match g.switch s with
  | .ok g => .next g
  | .error i => .done i

def longStep (g : Given) (name : List Char) (value : Option (List Char)) : Step :=
  match long? (String.ofList name), value with
  | some (.field f), some v => .ofField g f (String.ofList v)
  | some (.field f), none => .wants g f
  | some (.switch s), none => .ofSwitch g s
  | some (.switch _), some _ => .done .misuse
  | none, _ => .done .misuse

/-- Short options one after the other, up to the first that takes a value. -/
def clusterStep (g : Given) : List Char → Step
  | [] => .next g
  | c :: cs =>
    match short? c with
    | some (.field f) => if cs = [] then .wants g f else .ofField g f (attached cs)
    | some (.switch s) =>
      match g.switch s with
      | .ok g => clusterStep g cs
      | .error i => .done i
    | none => .done .misuse

/-- Reads one argument; the flag says whether it is the last. -/
def wordStep (g : Given) (last : Bool) : Word → Step
  | .plain => .done .misuse
  | .fence => if last then .next g else .done .misuse
  | .long name value => longStep g name value
  | .cluster flags => clusterStep g flags

def parseFrom (g : Given) : List String → Invocation
  | [] => g.finish
  | arg :: args =>
    match wordStep g args.isEmpty (Word.of arg) with
    | .done i => i
    | .next g => parseFrom g args
    | .wants g f =>
      match args with
      | [] => .misuse
      | value :: args =>
        if isPlain value then
          match g.field? value f with
          | some g => parseFrom g args
          | none => .misuse
        else .misuse

def parse (args : List String) : Invocation := parseFrom {} args

end Switchboard.CommandLine
