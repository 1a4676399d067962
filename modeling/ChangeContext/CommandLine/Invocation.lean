import ChangeContext.CommandLine.Level
import ChangeContext.Engine

/-!
# Invocations

An invocation says what a command line asks for: a command, where the settings are, and which
project it is about.  The root of the project may be named on every level; the innermost counts.
-/

set_option autoImplicit false

namespace ChangeContext

/-- What an engine can be asked to do. -/
inductive Command where
  | context (intent : String) (files : List Path) (json : Bool)
  | references (text : String)
  | diff (old new : Path) (json : Bool)
  | cache (action : CacheAction)
deriving DecidableEq, Inhabited

/-- What a command line asks for. -/
structure Invocation where
  settings : Option Path
  root : Option Path
  command : Command
deriving DecidableEq, Inhabited

namespace CommandLine

/-- An argument that asks for help. -/
def helpFlag : Argument := ⟨"help", some 'h', .help⟩

/-- The root of the project, which may be named on every level. -/
def rootOption : Argument := ⟨"root", some 'r', .path⟩

/-- The arguments by name that every level has. -/
def everywhere : List Argument := [rootOption, helpFlag]

/-- The switch to JSON. -/
def jsonFlag : Argument := ⟨"json", none, .flag⟩

/-- A positional argument. -/
def place (name : String) (role : Role) : Argument := ⟨name, none, role⟩

/-- A command that has no commands under it. -/
def leaf (name : String) (named positional : List Argument) : Level :=
  ⟨name, named ++ everywhere, positional, []⟩

/-- The commands that look after the cache. -/
def cacheLevel : Level :=
  ⟨"cache", everywhere, [],
    [leaf "stats" [] [], leaf "clear" [] [], leaf "cleanup" [] [],
      leaf "export" [] [place "path" .path], leaf "import" [] [place "path" .path]]⟩

/-- All commands. -/
def topLevel : Level :=
  ⟨"", [⟨"config", some 'c', .path⟩, ⟨"verbose", some 'v', .flag⟩,
      ⟨"version", some 'V', .version⟩] ++ everywhere, [],
    [leaf "context" [⟨"file", some 'f', .paths⟩, jsonFlag] [place "intent" .text],
      leaf "refs" [] [place "text" .text],
      leaf "diff" [jsonFlag] [place "old" .path, place "new" .path],
      cacheLevel]⟩

/-- The last value given for an argument. -/
def last? (given : Given) (name : String) : Option String :=
  given.reverse.lookup name

/-- All values given for an argument. -/
def all (given : Given) (name : String) : List String :=
  (given.filter (·.1 == name)).map (·.2)

/-- The command that a reading stands for. -/
def commandOf? (r : Reading) : Option Command := do
  let json := (last? r.given "json").isSome
  match r.commands with
  | ["context"] =>
    return .context (← last? r.given "intent") ((all r.given "file").map Path.mk) json
  | ["refs"] => return .references (← last? r.given "text")
  | ["diff"] => return .diff ⟨← last? r.given "old"⟩ ⟨← last? r.given "new"⟩ json
  | ["cache", "stats"] => return .cache .stats
  | ["cache", "clear"] => return .cache .clear
  | ["cache", "cleanup"] => return .cache .cleanUp
  | ["cache", "export"] => return .cache (.exportTo ⟨← last? r.given "path"⟩)
  | ["cache", "import"] => return .cache (.importFrom ⟨← last? r.given "path"⟩)
  | _ => none

end CommandLine

namespace Invocation

/-- What these words ask for. -/
def ofWords (words : List String) : Except CommandLine.UsageError Invocation := do
  let r ← CommandLine.read CommandLine.topLevel {} words
  match CommandLine.commandOf? r with
  | some command =>
    return ⟨(CommandLine.last? r.given "config").map Path.mk,
      (CommandLine.last? r.given "root").map Path.mk, command⟩
  | none => throw .missingCommand

/-- Carry out a command; the answer is the text that is printed. -/
def execute (e : Engine) (t : FileTree) (clock : Clock) : Command → Except Failure String × FileTree
  | .context intent files json =>
    let (text, _, t) := e.context t clock intent files json
    (.ok text, t)
  | .references text => (.ok (e.references t text), t)
  | .diff old new json => (.ok (Engine.diff t old new json), t)
  | .cache action =>
    let (answer, _, t) := e.cacheCommand t clock action
    (answer, t)

/-- Open an engine and carry out what is asked for. -/
def run (i : Invocation) (t : FileTree) (clock : Clock) : Except Failure String × FileTree :=
  match Engine.launch t i.settings i.root with
  | .error e => (.error e, t)
  | .ok e => execute e t clock i.command

/-! ## What an invocation is about -/

/-- The paths that a command names. -/
def Command.paths : Command → List Path
  | .context intent files _ =>
    files ++ (Mention.candidates intent).map fun c ↦ ⟨c.text⟩
  | .references text => (Mention.candidates text).map fun c ↦ ⟨c.text⟩
  | .diff old new _ => [old, new]
  | .cache (.exportTo path) => [path]
  | .cache (.importFrom path) => [path]
  | .cache _ => []

/-- The paths that an invocation names, as they stand and as they are seen from the root. -/
def paths (i : Invocation) : List Path :=
  let named := Command.paths i.command
  i.settings.toList ++ named ++ (i.root.elim [] fun r ↦ named.map r.join)

end Invocation

end ChangeContext
