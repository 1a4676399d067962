/-!
# Blank characters

What counts as blank between the words of a text: the ASCII spaces and controls that move the
cursor, the no-break space, and the typographic spaces and separators of other scripts.  Trimming
and the patterns' notion of white space both come from here, so they cannot drift apart.
-/

set_option autoImplicit false

namespace ChangeContext

namespace Text

/-- White space in every script. -/
def isBlank (c : Char) : Bool :=
  let n := c.toNat
  (9 ≤ n && n ≤ 13) || n == 0x20 || n == 0x85 || n == 0xA0 || n == 0x1680
    || (0x2000 ≤ n && n ≤ 0x200A) || n == 0x2028 || n == 0x2029 || n == 0x202F || n == 0x205F
    || n == 0x3000

/-- Drop the characters at the end for which `drops` holds. -/
def trimEndWhile (drops : Char → Bool) (cs : List Char) : List Char :=
  (cs.reverse.dropWhile drops).reverse

/-- Drop the characters at both ends for which `drops` holds. -/
def trimWhile (drops : Char → Bool) (cs : List Char) : List Char :=
  trimEndWhile drops (cs.dropWhile drops)

/-- Drop the blanks at both ends. -/
def trim (cs : List Char) : List Char :=
  trimWhile isBlank cs

end Text

end ChangeContext
