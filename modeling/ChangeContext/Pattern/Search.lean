import ChangeContext.Pattern.Basic

/-!
# Searching a text for a pattern

A search tries a pattern at one place after the other and stops at the first where it fits.  To find
all matches the search goes on where the last match ended, so matches never overlap; what lies
before that place is still seen, which matters for the edges of words and lines.
-/

set_option autoImplicit false

namespace ChangeContext

/-- A place where a pattern fitted, with the stretches it remembered. -/
structure Match where
  /-- What the whole pattern covers. -/
  whole : Span
  /-- What the marked parts cover, the latest first. -/
  marks : List (Nat × Span)

/-- What the marked part of this number covers. -/
def Match.group? (m : Match) (group : Nat) : Option Span :=
  m.marks.lookup group

/-- What the first of these marked parts covers that took part in the match. -/
def Match.firstGroup? (m : Match) (groups : List Nat) : Option Span :=
  groups.findSome? m.group?

namespace Pattern

/-- The match of a pattern at one place, with the place where it ends. -/
def matchAt? (p : Pattern) (place : Place) : Option (Match × Place) :=
  p.fits ⟨place, []⟩ fun r ↦ some (⟨place.until r.place, r.marks⟩, r.place)

/-- All matches from a place on, each beginning where the one before it ended or later. -/
def matchesFrom (p : Pattern) : (bound : Nat) → Place → List Match → List Match
  | 0, _, found => found.reverse
  | bound + 1, place, found =>
    match p.matchAt? place with
    | some (m, stop) =>
      if place.offset < stop.offset then matchesFrom p bound stop (m :: found)
      else if place.ahead.isEmpty then (m :: found).reverse
      else matchesFrom p bound place.next (m :: found)
    | none =>
      if place.ahead.isEmpty then found.reverse else matchesFrom p bound place.next found

/-- All matches in a text, from left to right. -/
def findAll (p : Pattern) (text : List Char) : List Match :=
  matchesFrom p (text.length + 1) (Place.start text) []

/-- The number of matches in a text. -/
def count (p : Pattern) (text : List Char) : Nat :=
  (p.findAll text).length

end Pattern

end ChangeContext
