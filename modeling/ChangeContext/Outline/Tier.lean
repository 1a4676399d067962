import ChangeContext.Outline.Heuristic
import ChangeContext.Outline.Structural

/-!
# Choosing a tier

There are two ways to outline a file: by its syntax tree, which is exact but needs a grammar for the
language, and by patterns, which have an answer for any text.  The syntax tree is used for the
language that has a grammar here, and patterns for all others.

A text of that language with a syntax error has no tree here, and it falls back to the patterns.  In
this it differs from a parser that recovers from errors, which has a tree for any text and goes on
reading the outline off what it could make out; the patterns may find other names there.
-/

set_option autoImplicit false

namespace ChangeContext

namespace Outline

/-- A way of outlining.  What decides is the language alone; a script with a syntax error is of the
structural tier, although its outline comes from the patterns then. -/
inductive Tier where
  | structural
  | heuristic
deriving DecidableEq, Inhabited

/-- The tier for a language. -/
def Tier.ofLanguage (language : String) : Tier :=
  if language = "javascript" then .structural else .heuristic

/-- The outline of a text by the tier for its language.  The structural tier falls back to the
patterns where the text has no tree, that is, where it has a syntax error. -/
def ofSource (source language : String) : Outline :=
  match Tier.ofLanguage language with
  | .structural => (structural? source).getD (Outline.heuristic source language)
  | .heuristic => Outline.heuristic source language

end Outline

end ChangeContext
