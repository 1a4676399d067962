import ChangeContext.Bundle.Codec
import ChangeContext.Cache.Basic
import ChangeContext.FileTree.Edit
import ChangeContext.Json.Reader
import ChangeContext.Json.Writer

/-!
# Snapshots of the cache

A snapshot is a JSON file that holds the entries and counters of a cache, the oldest entry first, so
that a later run can go on where an earlier one stopped.  Taking a snapshot over replaces everything
the cache holds.  A file that is not a snapshot in every part is not taken over at all.
-/

set_option autoImplicit false

namespace ChangeContext

namespace Cache

/-- The content of a snapshot. -/
structure Snapshot where
  exportedAt : Instant
  counters : Counters
  entries : List Entry
deriving DecidableEq

/-- The version of the format of snapshots. -/
def snapshotVersion : Nat := 1

/-- The snapshot of a cache. -/
def snapshot (c : Cache) (now : Instant) : Snapshot where
  exportedAt := now
  counters := c.counters
  entries := c.entries.values.mergeSort fun a b ↦ a.createdAt.le b.createdAt

/-- Take a snapshot over; of several entries under one key the last is kept. -/
def restore (c : Cache) (s : Snapshot) : Cache where
  limits := c.limits
  entries := NameMap.ofList (s.entries.map fun e ↦ (e.key, e))
  counters := s.counters

/-! ## The format -/

/-- An entry as JSON. -/
def Entry.toJson (e : Entry) : Json :=
  .record [("key", .text e.key), ("files", .ofList Path.toJson e.files),
    ("staleness_hash", .text e.state), ("bundle", e.bundle.toJson),
    ("created_at", e.createdAt.toJson)]

/-- Read an entry. -/
def Entry.ofJson? (v : Json) : Option Entry := do
  match ← v.fields? ["key", "files", "staleness_hash", "bundle", "created_at"] with
  | [key, files, state, bundle, createdAt] =>
    return {
      key := ← Json.required? Json.asText? key
      files := ← Json.required? (Json.asList? Path.ofJson?) files
      state := ← Json.required? Json.asText? state
      bundle := ← Json.required? Bundle.ofJson? bundle
      createdAt := ← Json.required? Instant.ofJson? createdAt }
  | _ => none

/-- The counters as JSON. -/
def Counters.toJson (c : Counters) : Json :=
  .record [("hits", .nat c.hits), ("misses", .nat c.misses)]

/-- Read the counters. -/
def Counters.ofJson? (v : Json) : Option Counters := do
  match ← v.fields? ["hits", "misses"] with
  | [hits, misses] =>
    return {
      hits := ← Json.required? Json.asNat? hits
      misses := ← Json.required? Json.asNat? misses }
  | _ => none

/-- A snapshot as JSON. -/
def Snapshot.toJson (s : Snapshot) : Json :=
  .record [("version", .nat snapshotVersion), ("exported_at", s.exportedAt.toJson),
    ("stats", s.counters.toJson), ("entries", .ofList Entry.toJson s.entries)]

/-- Read a snapshot of this version. -/
def Snapshot.ofJson? (v : Json) : Option Snapshot := do
  match ← v.fields? ["version", "exported_at", "stats", "entries"] with
  | [version, exportedAt, counters, entries] =>
    let version ← Json.required? (Json.asNatBelow? 4294967296) version
    let exportedAt ← Json.required? Instant.ofJson? exportedAt
    let counters ← Json.required? Counters.ofJson? counters
    let entries ← Json.required? (Json.asList? Entry.ofJson?) entries
    if version = snapshotVersion then return ⟨exportedAt, counters, entries⟩ else none
  | _ => none

/-- The text of a snapshot. -/
def Snapshot.toText (s : Snapshot) : String :=
  s.toJson.indented

/-- Read the text of a snapshot. -/
def Snapshot.ofText? (text : String) : Option Snapshot :=
  (Json.read? text).bind Snapshot.ofJson?

/-! ## Sizes and files -/

/-- The bytes that the entries take up in their compact form. -/
def byteSize (c : Cache) : Nat :=
  c.entries.values.foldl (fun n e ↦ n + e.toJson.compact.utf8ByteSize) 0

/-- Make the directory that a path is in, and say whether it is there. -/
def makeParent (t : FileTree) (path : Path) : FileTree × Bool :=
  match path.parent? with
  | none => (t, true)
  | some parent => if parent.text = "" then (t, true) else t.makeDirs parent

/-- Write a snapshot to a file, making the directories that lead to it, and say whether it could be
written. -/
def exportTo (c : Cache) (t : FileTree) (now : Instant) (path : Path) : FileTree × Bool :=
  let (t, made) := makeParent t path
  if made then
    match t.writeFile? path (c.snapshot now).toText.toUTF8 now with
    | some t => (t, true)
    | none => (t, false)
  else (t, false)

/-- Take over the snapshot in a file, if there is one. -/
def importFrom? (c : Cache) (t : FileTree) (path : Path) : Option Cache :=
  ((t.readText? path).bind Snapshot.ofText?).map c.restore

end Cache

end ChangeContext
