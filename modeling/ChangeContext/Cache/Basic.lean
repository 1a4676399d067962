import ChangeContext.Bundle.Basic
import ChangeContext.Cache.Key

/-!
# The cache of bundles

The cache remembers bundles by the keys of their file sets.  Nothing is removed in the background:
an entry is checked when it is asked for, and is given up as soon as it proves to be too old or its
files to have changed.  The state of the files was recorded when the entry was stored, so a file set
that could not be read then is not stored at all.

The cache holds a limited number of entries.  When a new one would exceed it, the oldest makes room.
-/

set_option autoImplicit false

namespace ChangeContext

/-- A remembered bundle. -/
structure Cache.Entry where
  key : String
  /-- The file set in its canonical form. -/
  files : List Path
  /-- The state of the files when the bundle was stored. -/
  state : String
  bundle : Bundle
  createdAt : Instant
deriving DecidableEq

/-- How many requests were answered and how many were not. -/
structure Cache.Counters where
  hits : Nat
  misses : Nat
deriving DecidableEq, Inhabited

/-- How long entries are good for, and how many there may be. -/
structure Cache.Limits where
  /-- The age in seconds at which an entry is too old. -/
  maxAge : Nat
  maxEntries : Nat
deriving DecidableEq, Inhabited

/-- Remembered bundles, each under the key of its file set. -/
structure Cache where
  limits : Cache.Limits
  entries : NameMap Cache.Entry
  counters : Cache.Counters
deriving DecidableEq

namespace Cache

/-- No request has been made. -/
def Counters.zero : Counters := ⟨0, 0⟩

/-- Counters are kept in 64 bits, so that they begin anew here. -/
def Counters.limit : Nat := 18446744073709551616

/-- One more request was answered. -/
def Counters.hit (c : Counters) : Counters :=
  { c with hits := (c.hits + 1) % limit }

/-- One more request was not answered. -/
def Counters.miss (c : Counters) : Counters :=
  { c with misses := (c.misses + 1) % limit }

/-- A cache without entries. -/
def ofLimits (limits : Limits) : Cache where
  limits := limits
  entries := ∅
  counters := Counters.zero

/-- The number of entries there may be; there is always room for one. -/
def Limits.capacity (l : Limits) : Nat :=
  max l.maxEntries 1

/-- The greatest age that can be asked for, in seconds. -/
def ageLimit : Nat := 9223372036854775

/-- The entry is too old. -/
def Limits.expires (l : Limits) (e : Entry) (now : Instant) : Bool :=
  e.createdAt.hasAged now (min l.maxAge ageLimit)

/-- The entry may be served: it is young enough, and its files are as they were. -/
def serves (c : Cache) (t : FileTree) (now : Instant) (e : Entry) : Bool :=
  !c.limits.expires e now && state? t e.files == some e.state

/-- Ask for the bundle of a file set; an entry that may not be served is dropped. -/
def get (c : Cache) (t : FileTree) (now : Instant) (files : List Path) : Option Bundle × Cache :=
  let k := key (Path.canonicalSet files)
  match c.entries.get? k with
  | none => (none, { c with counters := c.counters.miss })
  | some e =>
    if c.serves t now e then (some e.bundle, { c with counters := c.counters.hit })
    else (none, { c with entries := c.entries.erase k, counters := c.counters.miss })

/-- The key of the first among the oldest of these entries. -/
def oldest? : List (String × Entry) → Option String
  | [] => none
  | e :: rest =>
    some (rest.foldl (fun (best : String × Entry) e ↦
      if best.2.createdAt.le e.2.createdAt then best else e) e).1

/-- Drop the oldest entry if the cache is full and has no entry under the key `k`. -/
def makeRoom (c : Cache) (k : String) : NameMap Entry :=
  if !c.entries.contains k && c.limits.capacity ≤ c.entries.size then
    match oldest? c.entries.toList with
    | some old => c.entries.erase old
    | none => c.entries
  else c.entries

/-- Remember the bundle of a file set, if all its files can be read. -/
def set (c : Cache) (t : FileTree) (now : Instant) (files : List Path) (bundle : Bundle) : Cache :=
  let files := Path.canonicalSet files
  let k := key files
  match state? t files with
  | none => c
  | some state => { c with entries := (c.makeRoom k).insert k ⟨k, files, state, bundle, now⟩ }

/-- Drop the entry of a file set, and say whether there was one. -/
def invalidate (c : Cache) (files : List Path) : Bool × Cache :=
  let k := key (Path.canonicalSet files)
  (c.entries.contains k, { c with entries := c.entries.erase k })

/-- Drop all entries and count anew. -/
def clear (c : Cache) : Cache :=
  ofLimits c.limits

/-- Drop the entries that are too old, and say how many there were. -/
def cleanUp (c : Cache) (now : Instant) : Nat × Cache :=
  let kept := c.entries.filter fun e ↦ !c.limits.expires e.2 now
  (c.entries.size - kept.size, { c with entries := kept })

end Cache

end ChangeContext
