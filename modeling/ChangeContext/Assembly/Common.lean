import ChangeContext.Assembly.Ranking
import ChangeContext.Outline.Tier
import ChangeContext.Pattern.Search

/-!
# What files have in common

Two tallies are taken of the files that a bundle samples.  A module counts once for every file that
imports it, as the outline of the file tells.  An idiom counts every time that it occurs in a text;
idioms are recognised by patterns, in files of any language.
-/

set_option autoImplicit false

namespace ChangeContext

namespace Common

/-! ## Idioms -/

/-- The word `export` and blanks behind it. -/
def exported : Pattern :=
  .seq [.wordEdge, .word "export", .blanks1]

/-- A word and blanks behind it, or nothing. -/
def perhaps (s : String) : Pattern :=
  .optional (.both (.word s) .blanks1)

/-- One of these words, which ends there. -/
def oneWord (words : List Pattern) : Pattern :=
  .both (.oneOf words) .wordEdge

/-- A capital letter of the Latin alphabet. -/
def isCapital (c : Char) : Bool :=
  'A' ≤ c && c ≤ 'Z'

/-- The idioms with their patterns. -/
def idioms : List (String × Pattern) :=
  [("default export", .both exported (oneWord [.word "default"])),
    ("class export", .seq [exported, perhaps "default", perhaps "abstract",
      oneWord [.word "class"]]),
    ("interface export", .both exported (oneWord [.word "interface"])),
    ("type export", .both exported (oneWord [.word "type"])),
    ("named export", .both exported (oneWord [.word "const", .word "let", .word "var",
      .word "function", .seq [.word "async", .blanks1, .word "function"]])),
    ("async function", .seq [.wordEdge, .word "async", .blanks1,
      .oneOf [oneWord [.word "function"], oneWord [.word "fn"], oneWord [.word "def"],
        .char '(']]),
    ("arrow function", .word "=>"),
    ("class declaration", .seq [.wordEdge, .word "class", .blanks1, .one isCapital,
      .run Text.isWordChar])]

/-- How often each idiom occurs in a text. -/
def idiomCounts (content : String) : List (String × Nat) :=
  let cs := content.toList
  idioms.map fun i ↦ (i.1, i.2.count cs)

/-- The tally of the idioms in files. -/
def patterns (files : List FileRecord) : Tally :=
  Tally.ofCounts (files.flatMap fun f ↦ idiomCounts f.content)

/-! ## Imports -/

/-- The modules that a file imports, each once; an empty file imports none. -/
def importsOf (f : FileRecord) : List String :=
  if f.content = "" then [] else (Outline.ofSource f.content f.language).imports.keys

/-- The tally of the modules that files import. -/
def imports (files : List FileRecord) : Tally :=
  Tally.ofCounts ((files.flatMap importsOf).map fun name ↦ (name, 1))

end Common

end ChangeContext
