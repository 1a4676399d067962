import ChangeContext.Toml.Basic

/-!
# Tables under construction

A document may come back to a table it has left, but only in certain ways, and which ways depends on
how the table came about: by a header of its own, by being on the way of another header, or by a
dotted key.  A draft remembers this for every table.

* A header defines a table once; it may fill in a table that was only on the way before.
* A header in double brackets adds a table to a list of tables.
* A key with dots goes through tables that came about by dotted keys, makes those that are missing,
  and never reaches into a table with a header of its own.
-/

set_option autoImplicit false

namespace ChangeContext

namespace Toml

/-- How a table came about. -/
inductive Origin where
  /-- By a header of its own. -/
  | header
  /-- On the way of a header. -/
  | passing
  /-- By a dotted key. -/
  | dotted
deriving DecidableEq

/-- What a key stands for while the document is being read. -/
inductive Draft where
  | value (v : Toml)
  | table (origin : Origin) (entries : List (String × Draft))
  /-- A list of tables; the last one can still grow. -/
  | tables (elements : List (List (String × Draft)))

/-- The entries of a table under construction. -/
abbrev Entries := List (String × Draft)

namespace Entries

/-- Put a draft under a key, in the place the key has already or at the end. -/
def set (key : String) (d : Draft) : Entries → Entries
  | [] => [(key, d)]
  | (k, old) :: rest => if k = key then (k, d) :: rest else (k, old) :: set key d rest

/-- Replace what stands under a key; there is no result when the change refuses. -/
def change? (key : String) (f : Option Draft → Option Draft) (es : Entries) : Option Entries :=
  (f (es.lookup key)).map fun d ↦ set key d es

/-- Change the last table of a list of tables. -/
def changeLast? (f : Entries → Option Entries) : List Entries → Option (List Entries)
  | [] => none
  | [es] => (f es).map fun es ↦ [es]
  | es :: rest => (changeLast? f rest).map (es :: ·)

/-- Change the table to which the keys of a header lead, making tables on the way. -/
def under? (f : Entries → Option Entries) : (path : List String) → Entries → Option Entries
  | [], es => f es
  | key :: path, es => es.change? key fun
    | none => (under? f path []).map (.table .passing)
    | some (.table origin inside) => (under? f path inside).map (.table origin)
    | some (.tables elements) => (changeLast? (under? f path) elements).map .tables
    | some (.value _) => none

/-- Define the table of a header, the last key of which is `key`. -/
def define? (key : String) (es : Entries) : Option Entries :=
  es.change? key fun
    | none => some (.table .header [])
    | some (.table .passing inside) => some (.table .header inside)
    | _ => none

/-- Add a table to the list of tables under `key`. -/
def extend? (key : String) (es : Entries) : Option Entries :=
  es.change? key fun
    | none => some (.tables [[]])
    | some (.tables elements) => some (.tables (elements ++ [[]]))
    | _ => none

/-- A table that a dotted key may pass on its way; at its end it has to come from dotted keys. -/
def admits (origin : Origin) (last : Bool) : Bool :=
  origin = .dotted || (origin = .passing && !last)

/-- Put a value under a key that has dots. -/
def assign? (key : String) (v : Toml) : (path : List String) → Entries → Option Entries
  | [], es => if (es.lookup key).isSome then none else some (es ++ [(key, .value v)])
  | k :: path, es => es.change? k fun
    | none => (assign? key v path []).map (.table .dotted)
    | some (.table origin inside) =>
      if admits origin path.isEmpty then (assign? key v path inside).map (.table origin) else none
    | some (.tables elements) =>
      if path.isEmpty then none else (changeLast? (assign? key v path) elements).map .tables
    | some (.value _) => none

end Entries

mutual

/-- The finished value. -/
def Draft.finish : Draft → Toml
  | .value v => v
  | .table _ entries => .table (finishEntries entries)
  | .tables elements => .array (finishTables elements)

/-- The finished entries of a table. -/
def finishEntries : List (String × Draft) → List (String × Toml)
  | [] => []
  | (k, d) :: rest => (k, d.finish) :: finishEntries rest

/-- The finished tables of a list. -/
def finishTables : List (List (String × Draft)) → List Toml
  | [] => []
  | es :: rest => .table (finishEntries es) :: finishTables rest

end

end Toml

end ChangeContext
