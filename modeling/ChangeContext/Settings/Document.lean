import ChangeContext.Failure
import ChangeContext.FileTree.Edit
import ChangeContext.Settings.Basic
import ChangeContext.Toml.Reader
import ChangeContext.Toml.Writer

/-!
# Settings files

Settings are kept in a TOML document with a table for each part.  In reading, a setting that is
missing has its first value, one that is not known is passed over, and one of the wrong kind spoils
the document.  A table may also be given as an array of its values in order, in which case those
behind the end of the array are missing and surplus ones are passed over; and a date, which has no
settings in it, is as good as an empty table.

A document cannot hold integers from two to the sixty-third on, so settings with such an integer
cannot be written.
-/

set_option autoImplicit false

namespace ChangeContext

namespace Settings

/-! ## Reading -/

/-- The values of the named settings of a table in order, `none` for one that is missing. -/
def values? (names : List String) : Toml → Option (List (Option Toml))
  | .table entries => some (names.map fun name ↦ entries.lookup name)
  | .array items =>
    some ((items.take names.length).map some ++ List.replicate (names.length - items.length) none)
  | .dateTime => some (names.map fun _ ↦ none)
  | _ => none

/-- A truth value. -/
def asBool? : Toml → Option Bool
  | .boolean b => some b
  | _ => none

/-- A natural number. -/
def asNat? : Toml → Option Nat
  | .integer (.ofNat n) => some n
  | _ => none

/-- A text. -/
def asText? : Toml → Option String
  | .string s => some s
  | _ => none

/-- A list of texts. -/
def asTexts? : Toml → Option (List String)
  | .array items => items.mapM asText?
  | _ => none

/-- A setting that has the value `first` when it is missing. -/
def orFirst? {α : Type} (first : α) (read : Toml → Option α) : Option Toml → Option α
  | none => some first
  | some v => read v

/-- Read the settings for the whole project. -/
def readProject? (v : Toml) : Option ProjectSettings := do
  let first : ProjectSettings := {}
  match ← values? ["ignore_dirs"] v with
  | [ignoreDirs] => return { ignoreDirs := ← orFirst? first.ignoreDirs asTexts? ignoreDirs }
  | _ => none

/-- Read the bounds on what is gathered. -/
def readContext? (v : Toml) : Option ContextSettings := do
  let first : ContextSettings := {}
  match ← values? ["scan_depth", "similar_files_limit", "similar_search_depth", "top_k",
    "max_file_size"] v with
  | [scanDepth, similarFilesLimit, similarSearchDepth, topK, maxFileSize] =>
    return {
      scanDepth := ← orFirst? first.scanDepth asNat? scanDepth
      similarFilesLimit := ← orFirst? first.similarFilesLimit asNat? similarFilesLimit
      similarSearchDepth := ← orFirst? first.similarSearchDepth asNat? similarSearchDepth
      topK := ← orFirst? first.topK asNat? topK
      maxFileSize := ← orFirst? first.maxFileSize asNat? maxFileSize }
  | _ => none

/-- Read the settings of the cache. -/
def readCache? (v : Toml) : Option CacheSettings := do
  let first : CacheSettings := {}
  match ← values? ["enabled", "max_age_secs", "max_entries", "persist", "snapshot_path"] v with
  | [enabled, maxAgeSecs, maxEntries, persist, snapshotPath] =>
    return {
      enabled := ← orFirst? first.enabled asBool? enabled
      maxAgeSecs := ← orFirst? first.maxAgeSecs asNat? maxAgeSecs
      maxEntries := ← orFirst? first.maxEntries asNat? maxEntries
      persist := ← orFirst? first.persist asBool? persist
      snapshotPath := ← orFirst? first.snapshotPath (fun v ↦ (asText? v).map Path.mk)
        snapshotPath }
  | _ => none

/-- Read settings from a document. -/
def ofToml? (v : Toml) : Option Settings := do
  match ← values? ["project", "context", "cache"] v with
  | [project, context, cache] =>
    return {
      project := ← orFirst? {} readProject? project
      context := ← orFirst? {} readContext? context
      cache := ← orFirst? {} readCache? cache }
  | _ => none

/-- Read the text of a settings file. -/
def ofText? (text : String) : Option Settings :=
  (Toml.read? text).bind ofToml?

/-! ## Writing -/

/-- The tables of a settings file. -/
def tables (s : Settings) : List (String × List (String × Toml.Field)) :=
  [("project", [("ignore_dirs", .strings s.project.ignoreDirs)]),
    ("context", [("scan_depth", .natural s.context.scanDepth),
      ("similar_files_limit", .natural s.context.similarFilesLimit),
      ("similar_search_depth", .natural s.context.similarSearchDepth),
      ("top_k", .natural s.context.topK),
      ("max_file_size", .natural s.context.maxFileSize)]),
    ("cache", [("enabled", .boolean s.cache.enabled),
      ("max_age_secs", .natural s.cache.maxAgeSecs),
      ("max_entries", .natural s.cache.maxEntries),
      ("persist", .boolean s.cache.persist),
      ("snapshot_path", .string s.cache.snapshotPath.text)])]

/-- The text of a settings file, if the settings can be written. -/
def toText? (s : Settings) : Option String :=
  Toml.write? s.tables

/-! ## Files -/

/-- Load the settings in a file. -/
def load (t : FileTree) (path : Path) : Except Failure Settings :=
  match t.readText? path with
  | none => .error .file
  | some text =>
    match ofText? text with
    | none => .error .settings
    | some s => .ok s

/-- The places where a settings file is looked for when none is named. -/
def usualPlaces : List Path :=
  [⟨"Patchwright.toml"⟩, ⟨"patchwright.toml"⟩, ⟨".patchwright.toml"⟩]

/-- Load the settings in the file that is named, or in the first file at the usual places; where
there is no file, nothing is changed. -/
def loadOrFirst (t : FileTree) (path : Option Path) : Except Failure Settings :=
  match path.elim usualPlaces (fun p ↦ [p]) |>.find? t.pathExists with
  | some p => load t p
  | none => .ok {}

/-- Save settings to a file. -/
def save (s : Settings) (t : FileTree) (now : Instant) (path : Path) : Except Failure FileTree :=
  match s.toText? with
  | none => .error .settings
  | some text =>
    match t.writeFile? path text.toUTF8 now with
    | none => .error .file
    | some t => .ok t

end Settings

end ChangeContext
