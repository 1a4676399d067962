/-!
# Reading command lines

A command line is read from left to right on a level of commands.  A level has named arguments,
which may stand anywhere, and either places for positional arguments or commands of its own; a
command leads down to its own level.  A named argument is written `--name` or `-n`; its value
follows behind `=`, directly behind the letter, or as the next word.  Letters may be joined behind
one dash.  After `--` every word is positional.

The value of an argument is settled only when the next argument comes or the words end.  So a
mistake in a value is noticed late, and one in a later word that fits nowhere is reported instead.
-/

set_option autoImplicit false

namespace ChangeContext

namespace CommandLine

/-- Why a command line cannot be carried out. -/
inductive UsageError where
  | unknownArgument
  | missingArgument
  | unknownCommand
  | missingCommand
  /-- The same argument is given twice. -/
  | conflict
  | invalidValue
  /-- An argument without a value is given one. -/
  | surplusValue
  | helpWanted
  | versionWanted
  /-- Nothing is given where a command is needed. -/
  | nothingGiven
deriving DecidableEq, Inhabited

/-- What an argument is for. -/
inductive Role where
  /-- It is there or not. -/
  | flag
  /-- It has a value. -/
  | text
  /-- It has a value that is not empty. -/
  | path
  /-- It has a value that is not empty, and may be given several times. -/
  | paths
  | help
  | version
deriving DecidableEq, Inhabited

/-- The argument has a value. -/
def Role.takesValue : Role → Bool
  | text | path | paths => true
  | flag | help | version => false

/-- An argument; a positional one needs no letter. -/
structure Argument where
  name : String
  letter : Option Char
  role : Role
deriving DecidableEq, Inhabited

/-- A command with its arguments and the commands under it. -/
structure Level where
  name : String
  named : List Argument
  positional : List Argument
  commands : List Level

/-- Arguments with their values; a flag has the empty one. -/
abbrev Given := List (String × String)

/-- Where the reading of a level stands. -/
structure State where
  /-- What has been settled. -/
  given : Given := []
  /-- The last argument that takes a value, and the value if it has come. -/
  pending : Option (Argument × Option String) := none
  /-- The number of positional arguments met. -/
  placed : Nat := 0
  /-- Every further word is positional. -/
  onlyPositional : Bool := false

namespace State

/-- The last argument waits for its value. -/
def awaitsValue (s : State) : Bool :=
  match s.pending with
  | some (_, none) => true
  | _ => false

/-- Note an argument with its value. -/
def note (s : State) (a : Argument) (value : String) : Except UsageError State :=
  match a.role with
  | .help => .error .helpWanted
  | .version => .error .versionWanted
  | .flag | .text | .path | .paths =>
    if a.role ≠ .paths && s.given.any (·.1 == a.name) then .error .conflict
    else if (a.role = .path || a.role = .paths) && value = "" then .error .invalidValue
    else .ok { s with given := s.given ++ [(a.name, value)] }

/-- Settle the last argument. -/
def settle (s : State) : Except UsageError State :=
  match s.pending with
  | none => .ok s
  | some (_, none) => .error .invalidValue
  | some (a, some value) => { s with pending := none }.note a value

/-- Take an argument whose value, if it has one, is given with it. -/
def take (s : State) (a : Argument) (value : String) : Except UsageError State := do
  (← s.settle).note a value

/-- Take an argument whose value may still come. -/
def await (s : State) (a : Argument) (value : Option String) : Except UsageError State := do
  return { ← s.settle with pending := some (a, value) }

end State

/-- A word that is text behind two dashes, and what follows its first `=`. -/
def takeLong (level : Level) (s : State) (name : List Char) (value : Option String) :
    Except UsageError State :=
  match level.named.find? (·.name == String.ofList name) with
  | none => .error .unknownArgument
  | some a =>
    match value, a.role.takesValue with
    | some _, false => .error .surplusValue
    | some value, true => s.take a value
    | none, false => s.take a ""
    | none, true => s.await a none

/-- Letters behind one dash; the rest of the word is the value of the first that takes one. -/
def takeLetters (level : Level) (s : State) : List Char → Except UsageError State
  | [] => .ok s
  | c :: rest =>
    match level.named.find? (·.letter == some c) with
    | none => .error .unknownArgument
    | some a =>
      if a.role.takesValue then
        match rest with
        | [] => s.await a none
        | '=' :: value => s.take a (String.ofList value)
        | value => s.take a (String.ofList value)
      else
        match s.take a "" with
        | .ok s => takeLetters level s rest
        | .error e => .error e

/-- The word that asks for help on a command. -/
def helpCommand : String := "help"

/-- The word is a command on this level. -/
def Level.hasCommand (level : Level) (word : String) : Bool :=
  level.commands.any (·.name == word) || (!level.commands.isEmpty && word == helpCommand)

/-- A word that is not an argument by name. -/
def takePositional (level : Level) (s : State) (word : String) : Except UsageError State :=
  match level.positional[s.placed]? with
  | some a => { s with placed := s.placed + 1 }.await a (some word)
  | none =>
    if level.commands.isEmpty || (s.onlyPositional && level.hasCommand word) then
      .error .unknownArgument
    else .error .unknownCommand

/-- A word on a level, other than a command. -/
def takeWord (level : Level) (s : State) (word : String) : Except UsageError State :=
  if s.onlyPositional then takePositional level s word
  else
    match word.toList with
    | ['-', '-'] => .ok { s with onlyPositional := true }
    | '-' :: '-' :: cs =>
      takeLong level s (cs.takeWhile (· ≠ '='))
        (if cs.contains '=' then some (String.ofList ((cs.dropWhile (· ≠ '=')).drop 1)) else none)
    | '-' :: c :: cs => takeLetters level s (c :: cs)
    | _ =>
      match s.pending with
      | some (a, none) => .ok { s with pending := some (a, some word) }
      | _ => takePositional level s word

/-- A request for help on the command to which these words lead. -/
def helpOn (level : Level) : List String → UsageError
  | [] => .helpWanted
  | word :: rest =>
    match level.commands.find? (·.name == word) with
    | some next => helpOn next rest
    | none => if level.hasCommand word && rest.isEmpty then .helpWanted else .unknownCommand

/-- The commands that lead to the last level, and the arguments of all levels, the last one's
last. -/
structure Reading where
  commands : List String
  given : Given
deriving DecidableEq

/-- The words end on this level. -/
def finish (level : Level) (s : State) : Except UsageError Reading := do
  let s ← s.settle
  if !level.commands.isEmpty then
    if s.given.isEmpty then throw .nothingGiven else throw .missingCommand
  else if s.placed < level.positional.length then throw .missingArgument
  else return ⟨[], s.given⟩

/-- Read words on a level. -/
def read (level : Level) (s : State) : List String → Except UsageError Reading
  | [] => finish level s
  | word :: rest =>
    let mayCommand := !s.onlyPositional && !s.awaitsValue
    if mayCommand && level.hasCommand word then
      match level.commands.find? (·.name == word) with
      | some next => do
        let r ← read next {} rest
        let s ← s.settle
        return ⟨next.name :: r.commands, s.given ++ r.given⟩
      | none => .error (helpOn level rest)
    else do
      read level (← takeWord level s word) rest

end CommandLine

end ChangeContext
