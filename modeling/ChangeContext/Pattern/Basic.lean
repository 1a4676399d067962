import ChangeContext.Text.Blank
import ChangeContext.Text.WordChar

/-!
# Patterns

The textual rules of this library — what a path looks like in a sentence, what a declaration looks
like in a source file — are patterns: single characters and runs of them, put in sequence, offered
as alternatives, repeated and marked.  A pattern is tried at a place in a text and may fit there in
several ways.  The ways have an order of preference: an earlier alternative before a later one, a
longer run before a shorter one, or the reverse for a run that is marked reluctant.  The way that
is taken is the first in this order that lets everything after it fit too.

`Pattern.fits` says this directly.  It is given what has to happen after the pattern, and returns
the answer of the first way for which that succeeds.  Nothing is looked up or compiled, so the
definition is also the thing to reason about.
-/

set_option autoImplicit false

namespace ChangeContext

/-- A place in a text: what lies before it, nearest character first, and what lies ahead. -/
structure Place where
  before : List Char
  ahead : List Char
  /-- The number of characters before the place. -/
  offset : Nat
  /-- The number of characters ahead. -/
  left : Nat

namespace Place

/-- The start of a text. -/
def start (text : List Char) : Place where
  before := []
  ahead := text
  offset := 0
  left := text.length

/-- One character further; the end of the text stays where it is. -/
def next (p : Place) : Place :=
  match p.ahead with
  | [] => p
  | c :: rest => ⟨c :: p.before, rest, p.offset + 1, p.left - 1⟩

/-- One character back; the start of the text stays where it is. -/
def back (p : Place) : Place :=
  match p.before with
  | [] => p
  | c :: rest => ⟨rest, c :: p.ahead, p.offset - 1, p.left + 1⟩

/-- Just one side of the place touches a word character. -/
def atWordEdge (p : Place) : Bool :=
  p.before.head?.any Text.isWordChar != p.ahead.head?.any Text.isWordChar

/-- Nothing, or a line feed, lies before the place. -/
def atLineStart (p : Place) : Bool :=
  p.before.head?.all (· == '\n')

/-- Go past characters for which `accepts` holds, and return how many there were. -/
def pass (accepts : Char → Bool) : (bound : Nat) → (count : Nat) → Place → Nat × Place
  | 0, count, p => (count, p)
  | bound + 1, count, p =>
    match p.ahead with
    | [] => (count, p)
    | c :: _ => if accepts c then pass accepts bound (count + 1) p.next else (count, p)

end Place

/-- A stretch of a text, from one place to a later one. -/
structure Span where
  start : Nat
  stop : Nat
  /-- The text from the start of the stretch on. -/
  ahead : List Char

/-- The characters of a stretch. -/
def Span.chars (s : Span) : List Char :=
  s.ahead.take (s.stop - s.start)

/-- The text of a stretch. -/
def Span.text (s : Span) : String :=
  String.ofList s.chars

/-- The stretch between two places. -/
def Place.until (p q : Place) : Span where
  start := p.offset
  stop := q.offset
  ahead := p.ahead

/-- What can be looked for in a text. -/
inductive Pattern where
  /-- Nothing; it fits everywhere. -/
  | nothing
  /-- One character of a class. -/
  | one (accepts : Char → Bool)
  /-- Any number of characters of a class, the more the better. -/
  | run (accepts : Char → Bool)
  /-- Any number of characters of a class, the fewer the better. -/
  | fewest (accepts : Char → Bool)
  /-- The first, then the second. -/
  | both (p q : Pattern)
  /-- The first, or else the second. -/
  | either (p q : Pattern)
  /-- Any number of times, the more the better. -/
  | many (p : Pattern)
  /-- The pattern, and what it fits is remembered under a number. -/
  | mark (group : Nat) (p : Pattern)
  /-- The edge of a word. -/
  | wordEdge
  /-- The start of a line. -/
  | lineStart
  /-- The start of the text. -/
  | textStart

/-- A place reached by a pattern, with the stretches remembered on the way, the latest first. -/
structure Reached where
  place : Place
  marks : List (Nat × Span)

namespace Pattern

/-- Take characters back, one at a time, until what follows succeeds; at most `count` of them. -/
def retreat {α : Type} (marks : List (Nat × Span)) (after : Reached → Option α) :
    (count : Nat) → Place → Option α
  | 0, p => after ⟨p, marks⟩
  | count + 1, p =>
    match after ⟨p, marks⟩ with
    | some a => some a
    | none => retreat marks after count p.back

/-- Take characters on, one at a time, until what follows succeeds. -/
def advance {α : Type} (accepts : Char → Bool) (marks : List (Nat × Span))
    (after : Reached → Option α) : (bound : Nat) → Place → Option α
  | 0, p => after ⟨p, marks⟩
  | bound + 1, p =>
    match after ⟨p, marks⟩ with
    | some a => some a
    | none =>
      match p.ahead with
      | [] => none
      | c :: _ => if accepts c then advance accepts marks after bound p.next else none

/-- Repeat a step as long as it makes headway and lets what follows succeed. -/
def repeated {α : Type} (step : Reached → (Reached → Option α) → Option α)
    (after : Reached → Option α) : (bound : Nat) → Reached → Option α
  | 0, r => after r
  | bound + 1, r =>
    match step r fun r' ↦
        if r.place.offset < r'.place.offset then repeated step after bound r' else none with
    | some a => some a
    | none => after r

/-- Fit a pattern at a place, in the first way that lets `after` succeed. -/
def fits {α : Type} : Pattern → Reached → (after : Reached → Option α) → Option α
  | nothing, r, after => after r
  | one accepts, r, after =>
    match r.place.ahead with
    | [] => none
    | c :: _ => if accepts c then after ⟨r.place.next, r.marks⟩ else none
  | run accepts, r, after =>
    let passed := r.place.pass accepts r.place.left 0
    retreat r.marks after passed.1 passed.2
  | fewest accepts, r, after => advance accepts r.marks after r.place.left r.place
  | both p q, r, after => p.fits r fun r' ↦ q.fits r' after
  | either p q, r, after =>
    match p.fits r after with
    | some a => some a
    | none => q.fits r after
  | many p, r, after => repeated p.fits after r.place.left r
  | mark group p, r, after =>
    p.fits r fun r' ↦ after ⟨r'.place, (group, r.place.until r'.place) :: r'.marks⟩
  | wordEdge, r, after => if r.place.atWordEdge then after r else none
  | lineStart, r, after => if r.place.atLineStart then after r else none
  | textStart, r, after => if r.place.before.isEmpty then after r else none

/-! ## Common forms -/

/-- The character `c`. -/
def char (c : Char) : Pattern :=
  one (· == c)

/-- These patterns one after the other. -/
def seq : List Pattern → Pattern
  | [] => nothing
  | [p] => p
  | p :: rest => both p (seq rest)

/-- The first of these patterns that will do. -/
def oneOf : List Pattern → Pattern
  | [] => nothing
  | [p] => p
  | p :: rest => either p (oneOf rest)

/-- This very text. -/
def word (s : String) : Pattern :=
  seq (s.toList.map char)

/-- The pattern, or nothing. -/
def optional (p : Pattern) : Pattern :=
  either p nothing

/-- At least one character of a class, the more the better. -/
def run1 (accepts : Char → Bool) : Pattern :=
  both (one accepts) (run accepts)

/-- At least one character of a class, the fewer the better. -/
def fewest1 (accepts : Char → Bool) : Pattern :=
  both (one accepts) (fewest accepts)

/-- The pattern once or more, the more the better. -/
def many1 (p : Pattern) : Pattern :=
  both p (many p)

/-- The pattern at most `n` times, the more the better. -/
def upTo : Nat → Pattern → Pattern
  | 0, _ => nothing
  | n + 1, p => optional (both p (upTo n p))

/-- White space, or none. -/
def blanks : Pattern :=
  run Text.isBlank

/-- White space. -/
def blanks1 : Pattern :=
  run1 Text.isBlank

end Pattern

end ChangeContext
