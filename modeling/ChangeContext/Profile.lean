import ChangeContext.Bundle.Basic
import ChangeContext.FileTree.Basic
import ChangeContext.Json.Reader
import ChangeContext.Text.Alphanumeric
import ChangeContext.Text.Blank
import ChangeContext.Text.Lines
import ChangeContext.Text.LowerCase
import ChangeContext.Toml.Reader

/-!
# Profile of a project

What kind of project this is shows in well-known files at its root: a configuration of a linter, the
lock file of a package manager, a compiler told to be strict.  The frameworks in use are read off
the dependencies that a manifest names.  A manifest that is missing or cannot be read names none; it
never gets in the way of the others.
-/

set_option autoImplicit false

namespace ChangeContext

namespace ProjectFlags

/-- The files that configure a linter or a formatter. -/
def lintConfigs : List String :=
  [".eslintrc", ".eslintrc.js", ".eslintrc.cjs", ".eslintrc.json", ".eslintrc.yml",
    ".eslintrc.yaml", "eslint.config.js", "eslint.config.mjs", "eslint.config.ts", ".prettierrc",
    ".prettierrc.json", "prettier.config.js", "biome.json", ".flake8", "ruff.toml", ".pylintrc",
    "clippy.toml", "rustfmt.toml", ".golangci.yml"]

/-- The files that tell a package manager; the first that is there decides. -/
def packageManagers : List (String × String) :=
  [("pnpm-lock.yaml", "pnpm"), ("yarn.lock", "yarn"), ("bun.lockb", "bun"),
    ("package-lock.json", "npm"), ("Cargo.toml", "cargo"), ("poetry.lock", "poetry"),
    ("uv.lock", "uv"), ("requirements.txt", "pip"), ("go.mod", "go"), ("package.json", "npm")]

/-- The files whose presence alone means strict typing. -/
def strictTypingFiles : List String :=
  ["mypy.ini", "pyrightconfig.json", "Cargo.toml"]

/-! ## Dependencies -/

/-- The frameworks among the dependencies in `package.json`. -/
def scriptFrameworks : List (String × String) :=
  [("next", "Next.js"), ("react", "React"), ("vue", "Vue"), ("svelte", "Svelte"),
    ("@angular/core", "Angular"), ("express", "Express"), ("@nestjs/core", "NestJS"),
    ("fastify", "Fastify"), ("vite", "Vite"), ("jest", "Jest"), ("vitest", "Vitest"),
    ("tailwindcss", "Tailwind CSS")]

/-- The frameworks among the dependencies in `Cargo.toml`. -/
def cargoFrameworks : List (String × String) :=
  [("axum", "Axum"), ("actix-web", "Actix Web"), ("rocket", "Rocket"), ("warp", "Warp"),
    ("tokio", "Tokio"), ("clap", "Clap")]

/-- The frameworks among the requirements in `requirements.txt`. -/
def requirementFrameworks : List (String × String) :=
  [("django", "Django"), ("flask", "Flask"), ("fastapi", "FastAPI"), ("pytest", "pytest")]

/-- The names of the members of an object. -/
def memberNames : Json → List String
  | .object members => members.filterMap (·.1)
  | _ => []

/-- The dependencies that a `package.json` names. -/
def packageDependencies (manifest : Json) : List String :=
  ["dependencies", "devDependencies", "peerDependencies"].flatMap fun table ↦
    ((manifest.member? table).map memberNames).getD []

/-- The names in a table of dependencies. -/
def tableNames (table : Option Toml) : List String :=
  (table.bind Toml.keys?).getD []

/-- The dependencies that a `Cargo.toml` names. -/
def cargoDependencies (manifest : Toml) : List String :=
  tableNames (manifest.get? "dependencies") ++ tableNames (manifest.get? "dev-dependencies")
    ++ tableNames ((manifest.get? "workspace").bind (·.get? "dependencies"))

/-- A character of the name of a requirement. -/
def isRequirementChar (c : Char) : Bool :=
  Text.isAlphanumeric c || c == '-' || c == '_'

/-- The requirement that a line names; blank lines and comments name none. -/
def requirementOf? (line : List Char) : Option String :=
  match Text.trim line with
  | [] | '#' :: _ => Option.none
  | cs => some (Text.lowercase (String.ofList (cs.takeWhile isRequirementChar)))

/-- The requirements that a `requirements.txt` names. -/
def requirements (text : String) : List String :=
  (Text.lines text.toList).filterMap requirementOf?

/-- The frameworks that go with the dependencies. -/
def frameworksAmong (known : List (String × String)) (dependencies : List String) : List String :=
  known.filterMap fun f ↦ if dependencies.contains f.1 then some f.2 else Option.none

/-! ## The profile -/

/-- The text of the file of this name at the root of a project. -/
def wellKnown? (t : FileTree) (root : Path) (name : String) : Option String :=
  t.readText? (root.child name)

/-- The root of a project has a regular file of this name. -/
def hasFile (t : FileTree) (root : Path) (name : String) : Bool :=
  t.isFile (root.child name)

/-- The compiler options in `tsconfig.json` ask for strictness. -/
def strictOption (config : Json) : Bool :=
  match (config.member? "compilerOptions").bind (Json.member? "strict") with
  | some (.bool strict) => strict
  | _ => false

/-- The names of the frameworks that the manifests of a project name. -/
def frameworkNames (t : FileTree) (root : Path) : NameSet :=
  NameSet.ofNames (
    frameworksAmong scriptFrameworks
      (((wellKnown? t root "package.json").bind Json.readPlain?).elim [] packageDependencies)
    ++ frameworksAmong cargoFrameworks
      (((wellKnown? t root "Cargo.toml").bind Toml.read?).elim [] cargoDependencies)
    ++ frameworksAmong requirementFrameworks
      ((wellKnown? t root "requirements.txt").elim [] requirements))

/-- The profile of the project at `root`. -/
def ofTree (t : FileTree) (root : Path) : ProjectFlags where
  hasStrictTyping :=
    ((wellKnown? t root "tsconfig.json").bind Json.readPlain?).any strictOption
      || strictTypingFiles.any (hasFile t root)
  hasLintConfig := lintConfigs.any (hasFile t root)
  packageManager := (packageManagers.find? fun m ↦ hasFile t root m.1).map (·.2)
  frameworks := (frameworkNames t root).keys

end ProjectFlags

end ChangeContext
