import ChangeContext.CommandLine.Level
import ChangeContext.Failure

/-!
# Messages of the command line

What is said when a command line asks for help or cannot be carried out.
-/

set_option autoImplicit false

namespace ChangeContext

namespace CommandLine

/-- How the commands are used. -/
def usage : String :=
  "Usage: change-context [OPTIONS] <COMMAND>\n\n" ++
  "Commands:\n" ++
  "  context <INTENT>             Put together the context of an intent\n" ++
  "  refs <TEXT>                  List the files that a text mentions\n" ++
  "  diff <OLD> <NEW>             Compare two versions of a file\n" ++
  "  cache <ACTION>               stats, clear, cleanup, export <PATH> or import <PATH>\n" ++
  "  help                         Print this text\n\n" ++
  "Options:\n" ++
  "  -c, --config <CONFIG>  Settings file\n" ++
  "  -r, --root <ROOT>      Root of the project, the current directory at first\n" ++
  "  -v, --verbose          Accepted, without effect on what is printed\n" ++
  "  -f, --file <FILE>      With context: a further file, any number of times\n" ++
  "      --json             With context and diff: print JSON\n" ++
  "  -h, --help             Print this text\n" ++
  "  -V, --version          Print the version\n"

/-- What is printed when the version is asked for. -/
def version : String :=
  "change-context 0.1.0\n"

/-- What is said about a command line that is not carried out. -/
def UsageError.message : UsageError → String
  | unknownArgument => "error: unexpected argument\n"
  | missingArgument => "error: a required argument was not given\n"
  | unknownCommand => "error: unknown command\n"
  | missingCommand => "error: a command is required\n"
  | conflict => "error: an argument was given more than once\n"
  | invalidValue => "error: an argument has no value or an invalid one\n"
  | surplusValue => "error: a value was given to an argument that takes none\n"
  | helpWanted => usage
  | versionWanted => version
  | nothingGiven => usage

/-- The command line asked for no more than what is said. -/
def UsageError.isAnswer : UsageError → Bool
  | helpWanted | versionWanted => true
  | _ => false

end CommandLine

/-- What is said about a command that has no result. -/
def Failure.message : Failure → String
  | settings => "Error: the settings are not valid\n"
  | file => "Error: a file could not be read or written\n"

end ChangeContext
