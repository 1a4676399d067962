/-!
# Failures

Most of what can go wrong leaves a result that is merely poorer: a file that cannot be read is left
out, a manifest that cannot be understood names nothing, a snapshot that is not one is not taken
over.  What remains are the two causes for which a command has no result.
-/

set_option autoImplicit false

namespace ChangeContext

/-- Why a command could not be carried out. -/
inductive Failure where
  /-- Settings cannot be understood or written down. -/
  | settings
  /-- A file cannot be read or written. -/
  | file
deriving DecidableEq, Inhabited

end ChangeContext
