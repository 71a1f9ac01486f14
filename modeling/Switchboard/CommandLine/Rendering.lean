import Switchboard.Dispatcher

/-! The results as the command line prints them. -/

namespace Switchboard.CommandLine

/-- A value on a line of its own: strings as they are, anything else as JSON. -/
def plainText : Json → String
  | .str s => s
  | v => v.compact

def line (entry : String × Json) : String := entry.1 ++ ": " ++ plainText entry.2 ++ "\n"

def render (format : Format) (results : Results) : String :=
  match format with
  | .json => results.toJson.pretty ++ "\n"
  | .raw => String.join (results.toList.map line)

end Switchboard.CommandLine
