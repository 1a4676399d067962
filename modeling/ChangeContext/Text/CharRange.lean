/-!
# Ranges of characters

A property of characters that is data of the Unicode standard is kept as a list of ranges of code
points, in ascending order.  A property module holds its own list and asks here whether a character
lies in a range.
-/

set_option autoImplicit false

namespace ChangeContext

namespace Text

/-- A range of code points, both ends included. -/
abbrev CharRange := Nat × Nat

/-- The character lies in the range. -/
def CharRange.has (r : CharRange) (c : Char) : Bool :=
  r.1 ≤ c.toNat && c.toNat ≤ r.2

end Text

end ChangeContext
