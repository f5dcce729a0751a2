import PaneTiling.Settings.Basic

/-!
What a command line asks for: a report on a saved session, either where its panes would lie or which
of its pane trees would come back.
-/

namespace PaneTiling

def version : String := "0.1.0"

inductive Command
  | layout (width height : Float) (gap : Option Float)
  | check
deriving BEq, Repr

structure Invocation where
  command : Command
  /-- The file of the session, unless the settings name it. -/
  session : Option String
  /-- The file of the settings, unless it is the usual one. -/
  config : Option String
  logLevel : Option LogLevel
deriving BEq, Repr

inductive UsageError
  | help
  /-- Nothing was asked for. -/
  | helpInstead
  | version
  | unknownArgument
  | unknownSubcommand
  | missingSubcommand
  | missingValue
  | unexpectedValue
  | repeatedOption
  | invalidValue
deriving DecidableEq, Repr, Inhabited

namespace UsageError

/-- Help and the version are printed on request; everything else is a failure. -/
def exitCode : UsageError → Nat
  | help | version => 0
  | _ => 2

def usage : String :=
  "Usage: tilepane [--log-level LEVEL] [--config FILE] COMMAND\n\n"
    ++ "Commands:\n"
    ++ "  layout [--session FILE] [--width PIXELS] [--height PIXELS] [--gap PIXELS]\n"
    ++ "         Print pane and divider rectangles for every saved workspace\n"
    ++ "  check  [--session FILE]\n"
    ++ "         Report whether each saved pane tree would be restored\n"
    ++ "  help   Print this message\n"

def text : UsageError → String
  | help | helpInstead => usage
  | version => "tilepane " ++ PaneTiling.version ++ "\n"
  | unknownArgument => "error: unexpected argument\n\n" ++ usage
  | unknownSubcommand => "error: unrecognized subcommand\n\n" ++ usage
  | missingSubcommand => "error: a subcommand is required\n\n" ++ usage
  | missingValue => "error: an option lacks its value\n\n" ++ usage
  | unexpectedValue => "error: a flag takes no value\n\n" ++ usage
  | repeatedOption => "error: an option is given twice\n\n" ++ usage
  | invalidValue => "error: an option has an invalid value\n\n" ++ usage

end UsageError

def LogLevel.ofNameInAnyCase? (name : String) : Option LogLevel :=
  LogLevel.ofName? (String.ofList (name.toList.map Char.toLower))

end PaneTiling
