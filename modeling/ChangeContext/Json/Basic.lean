import ChangeContext.Decimal

/-!
# JSON values

Snapshots are written and read as JSON, project manifests are read, and bundles and analyses are
shown as JSON.  The members of an object are kept in the order in which they stand, repetitions
included: what a repetition means is for the reader of the object to say.

A text may contain an escape for half of a surrogate pair.  Such a text names no characters, so a
value has `none` in its place; a reader that skips the value never notices.
-/

set_option autoImplicit false

namespace ChangeContext

/-- A JSON value. -/
inductive Json where
  | null
  | bool (value : Bool)
  /-- A numeral of digits alone, perhaps with a minus sign, other than `-0`. -/
  | integer (value : Int)
  /-- Any other numeral. -/
  | decimal (value : Decimal)
  | string (text : Option String)
  | array (items : List Json)
  | object (members : List (Option String × Json))

namespace Json

/-- A string of these characters. -/
def text (s : String) : Json :=
  string (some s)

/-- A natural number. -/
def nat (n : Nat) : Json :=
  integer n

/-- An object with these members. -/
def record (members : List (String × Json)) : Json :=
  object (members.map fun m ↦ (some m.1, m.2))

/-- The value, or null. -/
def ofOption {α : Type} (f : α → Json) : Option α → Json
  | none => null
  | some a => f a

/-- The values in order. -/
def ofList {α : Type} (f : α → Json) (l : List α) : Json :=
  array (l.map f)

end Json

end ChangeContext
