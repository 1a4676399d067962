import ChangeContext.Path.Basic
import ChangeContext.Text.LowerCase

/-!
# Languages by extension

The language of a file decides how it is outlined, and is shown with the file.  It is read off the
extension of the path, in lower case; a file without a known extension has the language `unknown`.
-/

set_option autoImplicit false

namespace ChangeContext

namespace Language

/-- The known languages, each with the extensions of its files. -/
def table : List (String × List String) :=
  [("javascript", ["js", "jsx", "mjs", "cjs"]),
   ("typescript", ["ts", "tsx", "mts", "cts"]),
   ("python", ["py", "pyi"]),
   ("rust", ["rs"]),
   ("go", ["go"]),
   ("java", ["java"]),
   ("kotlin", ["kt", "kts"]),
   ("csharp", ["cs"]),
   ("ruby", ["rb"]),
   ("php", ["php"]),
   ("swift", ["swift"]),
   ("c", ["c", "h"]),
   ("cpp", ["cpp", "cc", "cxx", "hpp"]),
   ("vue", ["vue"]),
   ("svelte", ["svelte"]),
   ("css", ["css", "scss", "sass", "less"]),
   ("html", ["html", "htm"]),
   ("json", ["json"]),
   ("markdown", ["md", "markdown"]),
   ("toml", ["toml"]),
   ("yaml", ["yml", "yaml"])]

/-- The name for files whose language is not known. -/
def unknown : String := "unknown"

/-- The language of files with this extension. -/
def ofExtension (extension : String) : String :=
  let lower := Text.lowercase extension
  ((table.find? fun row ↦ row.2.contains lower).map (·.1)).getD unknown

/-- The language of the file at a path. -/
def ofPath (p : Path) : String :=
  ofExtension (p.extension?.getD "")

end Language

end ChangeContext
