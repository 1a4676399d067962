import ChangeContext.Decimal

/-!
# TOML values

Settings are kept in TOML, and some project manifests are written in it.  A document is a table; the
keys of a table stand in the order in which they were first mentioned, each once.  Nothing here
computes with fractions or with dates, so a float keeps no more than that it is one, and so does a
date or time.
-/

set_option autoImplicit false

namespace ChangeContext

/-- A TOML value. -/
inductive Toml where
  | string (text : String)
  | integer (value : Int)
  | float
  | boolean (value : Bool)
  | dateTime
  | array (items : List Toml)
  | table (entries : List (String × Toml))

namespace Toml

/-- The value under a key of a table. -/
def get? (key : String) : Toml → Option Toml
  | table entries => entries.lookup key
  | _ => none

/-- The keys of a table. -/
def keys? : Toml → Option (List String)
  | table entries => some (entries.map (·.1))
  | _ => none

/-- The integers that a document can hold. -/
def integerInRange (n : Int) : Bool :=
  -9223372036854775808 ≤ n && n < 9223372036854775808

end Toml

end ChangeContext
