import ChangeContext.Mention.Basic

/-!
# Mentions for reading

Mentions are printed one to a line, with the file that each stands for and whether it exists.  A
star marks the one that the text is most likely about.
-/

set_option autoImplicit false

namespace ChangeContext

namespace Mention

/-- A mention in one line. -/
def line (primary : Option Mention) (m : Mention) : String :=
  let marker := if primary = some m then "*" else " "
  let state := if m.existing then "exists" else "missing"
  s!"{marker} {m.wording} -> {m.resolved.text} ({state})\n"

/-- Mentions as they are printed. -/
def report (mentions : List Mention) : String :=
  if mentions.isEmpty then "No file references found\n"
  else String.join (mentions.map (line (primary? mentions)))

end Mention

end ChangeContext
