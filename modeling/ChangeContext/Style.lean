import ChangeContext.Pattern.Search
import ChangeContext.Text.Lines

/-!
# Style of a code base

The habits of a code base are found by vote.  Every file that is not empty adds to a set of totals —
indented lines, quotes, words, letter transitions — and each habit is decided by comparing two of
them.  A habit departs from its default only when the other side has strictly more votes.  The
semicolon habit alone is voted on file by file: a file has it when it holds more than three
semicolons to ten lines, and it stands while at least half of the files have it.

Nothing here parses code; words inside strings and comments count like all others.
-/

set_option autoImplicit false

namespace ChangeContext

/-- What lines are indented with. -/
inductive Indentation where
  | spaces
  | tabs
deriving DecidableEq, Inhabited

/-- The quotation marks around texts. -/
inductive Quotes where
  | single
  | double
deriving DecidableEq, Inhabited

/-- How waiting is written. -/
inductive AsyncStyle where
  | asyncAwait
  | promises
deriving DecidableEq, Inhabited

/-- How the words of a name are joined. -/
inductive Naming where
  | camelCase
  | snakeCase
deriving DecidableEq, Inhabited

/-- The habits of a code base. -/
structure Style where
  indentation : Indentation
  indentSize : Nat
  quotes : Quotes
  semicolons : Bool
  asyncStyle : AsyncStyle
  naming : Naming
deriving DecidableEq, Inhabited

namespace Style

/-- The habits assumed where there is nothing to vote on. -/
def standard : Style where
  indentation := .spaces
  indentSize := 2
  quotes := .double
  semicolons := true
  asyncStyle := .asyncAwait
  naming := .camelCase

/-- The totals that are voted on. -/
structure Votes where
  spaceRuns : Nat
  tabRuns : Nat
  twoSpaceRuns : Nat
  fourSpaceRuns : Nat
  singleQuotes : Nat
  doubleQuotes : Nat
  semicolonFiles : Nat
  plainFiles : Nat
  asyncWords : Nat
  promiseWords : Nat
  camelTransitions : Nat
  snakeTransitions : Nat
deriving DecidableEq, Inhabited

/-- No votes. -/
def Votes.none : Votes := ⟨0, 0, 0, 0, 0, 0, 0, 0, 0, 0, 0, 0⟩

/-- Add up votes. -/
def Votes.add (v w : Votes) : Votes where
  spaceRuns := v.spaceRuns + w.spaceRuns
  tabRuns := v.tabRuns + w.tabRuns
  twoSpaceRuns := v.twoSpaceRuns + w.twoSpaceRuns
  fourSpaceRuns := v.fourSpaceRuns + w.fourSpaceRuns
  singleQuotes := v.singleQuotes + w.singleQuotes
  doubleQuotes := v.doubleQuotes + w.doubleQuotes
  semicolonFiles := v.semicolonFiles + w.semicolonFiles
  plainFiles := v.plainFiles + w.plainFiles
  asyncWords := v.asyncWords + w.asyncWords
  promiseWords := v.promiseWords + w.promiseWords
  camelTransitions := v.camelTransitions + w.camelTransitions
  snakeTransitions := v.snakeTransitions + w.snakeTransitions

open Pattern

/-- A new line that begins with two spaces or more; the spaces are marked 1. -/
def spaceIndent : Pattern :=
  seq [char '\n', mark 1 (both (char ' ') (run1 (· == ' ')))]

/-- A new line that begins with tabs. -/
def tabIndent : Pattern :=
  both (char '\n') (run1 (· == '\t'))

/-- A word of the waiting style. -/
def asyncWord : Pattern :=
  seq [wordEdge, either (word "async") (word "await"), wordEdge]

/-- A word of the promise style. -/
def promiseWord : Pattern :=
  oneOf [word ".then(", word ".catch(", seq [wordEdge, word "new Promise", wordEdge]]

/-- A small letter of ASCII. -/
def isSmall (c : Char) : Bool := 'a' ≤ c && c ≤ 'z'

/-- A capital letter of ASCII. -/
def isCapital (c : Char) : Bool := 'A' ≤ c && c ≤ 'Z'

/-- A small letter and a capital behind it. -/
def camelTransition : Pattern :=
  both (one isSmall) (one isCapital)

/-- Two small letters and an underscore between them. -/
def snakeTransition : Pattern :=
  seq [one isSmall, char '_', one isSmall]

/-- More than three semicolons to ten lines. -/
def usesSemicolons (content : List Char) : Bool :=
  3 * (Text.lines content).length < 10 * content.count ';'

/-- The votes of one file. -/
def Votes.ofContent (content : List Char) : Votes :=
  let indents := (spaceIndent.findAll content).filterMap fun m ↦
    (m.group? 1).map fun s ↦ s.stop - s.start
  let semicolons := usesSemicolons content
  { spaceRuns := indents.length
    tabRuns := tabIndent.count content
    twoSpaceRuns := indents.count 2
    fourSpaceRuns := indents.count 4
    singleQuotes := content.count '\''
    doubleQuotes := content.count '"'
    semicolonFiles := if semicolons then 1 else 0
    plainFiles := if semicolons then 0 else 1
    asyncWords := asyncWord.count content
    promiseWords := promiseWord.count content
    camelTransitions := camelTransition.count content
    snakeTransitions := snakeTransition.count content }

/-- The habits that a vote decides. -/
def ofVotes (v : Votes) : Style where
  indentation := if v.spaceRuns < v.tabRuns then .tabs else .spaces
  indentSize := if v.twoSpaceRuns < v.fourSpaceRuns then 4 else 2
  quotes := if v.doubleQuotes < v.singleQuotes then .single else .double
  semicolons := v.plainFiles ≤ v.semicolonFiles
  asyncStyle := if v.asyncWords < v.promiseWords then .promises else .asyncAwait
  naming := if v.camelTransitions < v.snakeTransitions then .snakeCase else .camelCase

/-- The habits of the files with these contents. -/
def detect (contents : List String) : Style :=
  let sampled := contents.filter (· ≠ "")
  if sampled.isEmpty then standard
  else ofVotes (sampled.foldl (fun v c ↦ v.add (.ofContent c.toList)) .none)

end Style

end ChangeContext
