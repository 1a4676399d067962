import ChangeContext.Json.Basic

/-!
# Records in JSON

A record of known fields is read from an object by name, or from an array by position.  By name, a
field that appears twice is refused, a field that is not known is passed over, and a field that is
missing is refused unless it may be absent.  By position, every field must be there and nothing
else.  A choice among names is read from the name itself, or from an object whose one member has
that name and the value null.
-/

set_option autoImplicit false

namespace ChangeContext

namespace Json

/-- The number of members of this name. -/
def occurrences (name : String) (members : List (Option String × Json)) : Nat :=
  (members.filter fun m ↦ m.1 == some name).length

/-- The values of the named fields in order, `none` for one that is absent. -/
def fields? (names : List String) : Json → Option (List (Option Json))
  | object members =>
    if members.all (fun m ↦ m.1.isSome) && names.all (fun n ↦ occurrences n members ≤ 1) then
      some (names.map fun n ↦ (members.find? fun m ↦ m.1 == some n).map (·.2))
    else none
  | array items => if items.length = names.length then some (items.map some) else none
  | _ => none

/-- A text. -/
def asText? : Json → Option String
  | string s => s
  | _ => none

/-- A truth value. -/
def asBool? : Json → Option Bool
  | bool b => some b
  | _ => none

/-- A natural number below the bound. -/
def asNatBelow? (bound : Nat) : Json → Option Nat
  | integer (.ofNat n) => if n < bound then some n else none
  | _ => none

/-- A natural number of 64 bits. -/
def asNat? : Json → Option Nat :=
  asNatBelow? 18446744073709551616

/-- Null, or a value read by `read`. -/
def asOption? {α : Type} (read : Json → Option α) : Json → Option (Option α)
  | null => some none
  | v => (read v).map some

/-- A list whose items are read by `read`. -/
def asList? {α : Type} (read : Json → Option α) : Json → Option (List α)
  | array items => items.mapM read
  | _ => none

/-- A field that must be there. -/
def required? {α : Type} (read : Json → Option α) (v : Option Json) : Option α :=
  v.bind read

/-- A field that may be absent or null. -/
def absent? {α : Type} (read : Json → Option α) : Option Json → Option (Option α)
  | none => some none
  | some v => asOption? read v

/-- One of these names. -/
def asChoice? {α : Type} (choices : List (String × α)) : Json → Option α
  | string (some s) => choices.lookup s
  | object [(some s, null)] => choices.lookup s
  | _ => none

/-- The members of an object, each value read by `read`. -/
def asMembers? {α : Type} (read : Json → Option α) : Json → Option (List (String × α))
  | object members => members.mapM fun m ↦ do return (← m.1, ← read m.2)
  | _ => none

end Json

end ChangeContext
