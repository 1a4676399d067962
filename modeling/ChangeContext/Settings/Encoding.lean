import ChangeContext.Bundle.Codec
import ChangeContext.Settings.Basic

/-!
# Settings as JSON

How settings are shown to programs: an object for each part, under the names that a settings file
uses.
-/

set_option autoImplicit false

namespace ChangeContext

/-- Settings for the whole project. -/
def ProjectSettings.toJson (s : ProjectSettings) : Json :=
  .record [("ignore_dirs", .ofList .text s.ignoreDirs)]

/-- The bounds on what is gathered. -/
def ContextSettings.toJson (s : ContextSettings) : Json :=
  .record [("scan_depth", .nat s.scanDepth), ("similar_files_limit", .nat s.similarFilesLimit),
    ("similar_search_depth", .nat s.similarSearchDepth), ("top_k", .nat s.topK),
    ("max_file_size", .nat s.maxFileSize)]

/-- The settings of the cache. -/
def CacheSettings.toJson (s : CacheSettings) : Json :=
  .record [("enabled", .bool s.enabled), ("max_age_secs", .nat s.maxAgeSecs),
    ("max_entries", .nat s.maxEntries), ("persist", .bool s.persist),
    ("snapshot_path", s.snapshotPath.toJson)]

/-- All settings. -/
def Settings.toJson (s : Settings) : Json :=
  .record [("project", s.project.toJson), ("context", s.context.toJson), ("cache", s.cache.toJson)]

end ChangeContext
