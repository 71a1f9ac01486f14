import Switchboard.CommandLine.Arguments
import Switchboard.CommandLine.Parameter
import Switchboard.CommandLine.Rendering
import Switchboard.Demo
import Switchboard.Settings.File

/-! One run of the command line: arguments, settings, format, query, body and file
parameters are looked at in this order, and the first that does not fit ends the
run. Then one pass is made over the built-in libraries. -/

namespace Switchboard.CommandLine

inductive RunError where
  | settings (e : SettingsError)
  | unknownFormat (format : String)
  | parameter (e : ParameterError)
  | registration (e : RegistrationError)

def RunError.message : RunError → String
  | settings e => e.message
  | unknownFormat f => "unknown format '" ++ f ++ "': expected json or raw"
  | parameter e => e.message
  | registration e => e.message

/-- The settings of the file, with the switches of the command line on top. -/
def settings (files : Files) (a : Arguments) : Except SettingsError Settings :=
  (Settings.loadOrDefault files a.config).map fun s =>
    { safeZone := s.safeZone && !a.noSafeZone
      acceptQuery := s.acceptQuery && !a.bodyOnly }

/-! ## The request -/

/-- Adds parameters one after the other. -/
def addAll (read : String → Except ParameterError (String × Json))
    (add : Request → String → Json → Request) (r : Request) (raws : List String) :
    Except ParameterError Request :=
  raws.foldlM (fun r raw => (read raw).map fun p => add r p.1 p.2) r

/-- The directives of the arguments as body parameters. -/
def directives (a : Arguments) : Except RunError Request :=
  let r := Request.empty.addBody Request.cmdKey (.str a.cmd)
  let r := match a.map with
    | some map => r.addBody Request.mapKey (.str map)
    | none => r
  match a.format with
  | none => .ok r
  | some f =>
    if (Format.ofString? f).isNone then .error (.unknownFormat f)
    else .ok (r.addBody Request.formatKey (.str f))

/-- The request that the arguments make. Body parameters come after the directives
and may take their place. -/
def request (files : Files) (a : Arguments) : Except RunError Request := do
  let r ← directives a
  let r ← (addAll parameter Request.addQuery r a.query).mapError .parameter
  let r ← (addAll parameter Request.addBody r a.params).mapError .parameter
  (addAll (fileParameter files) Request.addFile r a.files).mapError .parameter

/-! ## Runs -/

/-- What a run leaves behind. -/
inductive Ending where
  /-- What is printed, and the trace if it was asked for. -/
  | done (out : String) (trace : Option Trace)
  | failed (e : RunError)
  | misused

def pass (files : Files) (a : Arguments) : Except RunError Ending := do
  let s ← (settings files a).mapError .settings
  let r ← request files a
  let c ← Demo.catalog.mapError .registration
  let report := (Dispatcher.mk s c).handle r
  .ok (.done (render report.format report.results)
    (if a.trace then some report.trace else none))

def versionText : String := "cmdmap 0.1.0\n"

def usageText : String := "Usage: cmdmap [OPTIONS] --cmd <CMD>\n"

/-- The options as the help names them, each with its description. -/
def options : List (String × String) :=
  [("    --cmd <CMD>", "Libraries and bare methods to call (comma-separated)"),
   ("    --map <MAP>", "Result routing rules (comma-separated `library\\method\\key:target`)"),
   ("    --format <FORMAT>", "Output format: json or raw"),
   ("-p, --param <KEY=VALUE>", "Body parameter as key=value (value parsed as JSON when possible)"),
   ("-q, --query <KEY=VALUE>", "Query parameter as key=value (ignored with --body-only)"),
   ("    --file <KEY=PATH>", "File parameter as key=path"),
   ("    --config <CONFIG>",
    "Config file (defaults to ./cmdmap.toml when present) [default: cmdmap.toml]"),
   ("    --no-safe-zone", "Run without safe-zone contract checks"),
   ("    --body-only", "Only body parameters count as input"),
   ("    --trace", "Print the pass trace to stderr"),
   ("-h, --help", "Print help"),
   ("-V, --version", "Print version")]

/-- A line of the help. All descriptions begin in one column. -/
def optionLine (option description : String) : String :=
  ("  " ++ option).pushn ' ' (25 - option.length) ++ description ++ "\n"

def helpText : String :=
  "Directive-driven method dispatcher\n\n" ++ usageText ++ "\nOptions:\n" ++
  String.join (options.map fun o => optionLine o.1 o.2)

/-- What stands under the complaint about arguments that do not fit. -/
def misuseText : String := usageText ++ "\nFor more information, try '--help'.\n"

def run (files : Files) (args : List String) : Ending :=
  match parse args with
  | .misuse => .misused
  | .version => .done versionText none
  | .help => .done helpText none
  | .pass a =>
    match pass files a with
    | .ok e => e
    | .error e => .failed e

/-- The paths that a run with these arguments looks at. -/
def paths (args : List String) : List String :=
  match parse args with
  | .pass a => a.config :: a.files.filterMap fun raw => (equation? raw).map Prod.snd
  | _ => []

/-- The exit code of a run. -/
def Ending.code : Ending → Nat
  | done _ _ => 0
  | failed _ => 1
  | misused => 2

end Switchboard.CommandLine
