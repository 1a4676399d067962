import ChangeContext.Instant.Basic

/-!
# Reading the clock

A command reads the clock several times while it runs.  The readings are given to it beforehand,
each under the name of the step that takes it, so that what a command does is a function of them.
-/

set_option autoImplicit false

namespace ChangeContext

/-- What the clock shows at the steps of a command. -/
structure Clock where
  /-- When the ages of entries are looked at. -/
  asked : Instant
  /-- When a bundle has been put together. -/
  assembled : Instant
  /-- When an entry is stored. -/
  stored : Instant
  /-- When a snapshot is written. -/
  written : Instant
deriving DecidableEq, Inhabited

/-- A clock that stands still. -/
def Clock.still (now : Instant) : Clock :=
  ⟨now, now, now, now⟩

end ChangeContext
