import ChangeContext.Inventory
import ChangeContext.Proofs.Loop

/-!
# Taking the inventory from a worklist

`itemsIn` goes down level by level.  The scan of this module keeps a list of the directories that wait,
each with the depth of its entries, takes the last one off, lists what is in it, and puts its folders on
behind, the last of them first.  It comes to an end, with the same inventory (`eval_turn`).

A directory is dealt with before anything that waited already, with all that is put on for it: whatever
else waits, the scan comes to what it comes to without this directory and with its items listed already
(`eval_turn_concat`).  This is shown by induction on the levels that are left.
-/

set_option autoImplicit false

namespace ChangeContext

namespace Inventory

open StateTransition (eval)

/-- A directory that waits to be listed. -/
structure Pending where
  dir : Path
  /-- Its path from the root of the scan. -/
  relative : Path
  /-- The depth of its entries. -/
  depth : Nat

/-- What is held during a scan. -/
structure Progress where
  /-- The directories that wait, the next one last. -/
  waiting : List Pending
  listed : Inventory

section Worklist

variable (t : FileTree) (ignored : List String) (limit : Nat)

/-- List an entry of a directory, and note it if it is a folder to go into. -/
def meet (p : Pending) (found : Inventory × List Pending) (name : String) :
    Inventory × List Pending :=
  let path := p.dir.child name
  let relative := p.relative.child name
  match t.at? path with
  | some .directory =>
    if ignored.contains name then found
    else
      (found.1.add (.folder relative),
        if p.depth < limit then found.2 ++ [⟨path, relative, p.depth + 1⟩] else found.2)
  | some (.file _ _) => (found.1.add (.file (extensionKey name) relative), found.2)
  | _ => found

/-- List the directory that is next, unless it cannot be read.  Its folders wait behind all others, the
first of them last. -/
def turn (s : Progress) : Option Progress :=
  s.waiting.getLast?.map fun p ↦
    match t.list? p.dir with
    | none => ⟨s.waiting.dropLast, s.listed⟩
    | some names =>
      let found := names.foldl (meet t ignored limit p) (s.listed, [])
      ⟨s.waiting.dropLast ++ found.2.reverse, found.1⟩

/-! ## One directory -/

/-- What the entries of a directory are listed as, with their names. -/
def itemsOf (p : Pending) (names : List String) : List (String × Item) :=
  names.filterMap fun name ↦
    (itemOf? t ignored (p.dir.child name) (p.relative.child name) name).map fun i ↦ (name, i)

/-- A listed folder as a directory that waits. -/
def pending? (p : Pending) (entry : String × Item) : Option Pending :=
  match entry.2 with
  | .folder path => some ⟨p.dir.child entry.1, path, p.depth + 1⟩
  | .file _ _ => none

/-- The folders of a directory that the scan goes into. -/
def foldersOf (p : Pending) (names : List String) : List Pending :=
  if p.depth < limit then (itemsOf t ignored p names).filterMap (pending? p) else []

/-- The items of a directory that waits. -/
def itemsBelow (levels : Nat) (p : Pending) : List Item :=
  itemsIn t ignored levels p.dir p.relative

variable {t ignored limit} {p : Pending}

theorem meet_eq (found : Inventory × List Pending) (name : String) :
    meet t ignored limit p found name =
      match itemOf? t ignored (p.dir.child name) (p.relative.child name) name with
      | none => found
      | some item => (found.1.add item,
          if p.depth < limit then found.2 ++ (pending? p (name, item)).toList else found.2) := by
  rw [meet, itemOf?]
  cases t.at? (p.dir.child name) with
  | none => rfl
  | some node =>
    cases node with
    | directory =>
      cases ignored.contains name <;> simp [pending?]
    | file bytes modified => simp [pending?]
    | link target => rfl

/-- **All entries of a directory together**: its items are listed, and its folders are noted. -/
theorem foldl_meet (names : List String) (found : Inventory × List Pending) :
    names.foldl (meet t ignored limit p) found =
      (((itemsOf t ignored p names).map (·.2)).foldl add found.1,
        found.2 ++ foldersOf t ignored limit p names) := by
  induction names generalizing found with
  | nil => simp [itemsOf, foldersOf]
  | cons name names ih =>
    have hitems : itemsOf t ignored p (name :: names) =
        ((itemOf? t ignored (p.dir.child name) (p.relative.child name) name).map
          fun i ↦ (name, i)).toList ++ itemsOf t ignored p names := by
      rw [itemsOf, List.filterMap_cons]
      cases itemOf? t ignored (p.dir.child name) (p.relative.child name) name <;> rfl
    rw [List.foldl_cons, ih, meet_eq, foldersOf, foldersOf, hitems]
    cases itemOf? t ignored (p.dir.child name) (p.relative.child name) name with
    | none => rfl
    | some item =>
      by_cases hdepth : p.depth < limit
      · cases hpending : pending? p (name, item) <;> simp [hdepth, hpending]
      · simp [hdepth]

theorem depth_of_mem_foldersOf {names : List String} {q : Pending}
    (h : q ∈ foldersOf t ignored limit p names) : q.depth = p.depth + 1 ∧ p.depth < limit := by
  rw [foldersOf] at h
  split at h
  next hdepth =>
    obtain ⟨⟨name, item⟩, -, hq⟩ := List.mem_filterMap.1 h
    cases item with
    | folder path => exact ⟨(congrArg Pending.depth (Option.some_inj.1 hq)).symm, hdepth⟩
    | file extension path => cases hq
  next => cases h

theorem itemsBelow_zero (p : Pending) :
    itemsBelow t ignored 0 p = (itemsOf t ignored p ((t.list? p.dir).getD [])).map (·.2) := by
  rw [itemsBelow, itemsIn]
  exact List.append_nil _

/-- Below a directory are its items, and what is below the folders that the scan goes into. -/
theorem itemsBelow_succ (levels : Nat) (hdepth : p.depth < limit) :
    itemsBelow t ignored (levels + 1) p =
      (itemsOf t ignored p ((t.list? p.dir).getD [])).map (·.2) ++
        (foldersOf t ignored limit p ((t.list? p.dir).getD [])).flatMap
          (itemsBelow t ignored levels) := by
  have hfolders (entries : List (String × Item)) :
      (entries.filterMap (pending? p)).flatMap (itemsBelow t ignored levels) =
        entries.flatMap fun i ↦
          match i.2 with
          | .folder path => itemsIn t ignored levels (p.dir.child i.1) path
          | .file _ _ => [] := by
    rw [List.filterMap_eq_flatMap_toList, List.flatMap_assoc]
    refine List.flatMap_congr fun entry _ ↦ ?_
    obtain ⟨name, item⟩ := entry
    cases item with
    | folder path => exact List.append_nil _
    | file extension path => rfl
  rw [itemsBelow, itemsIn, foldersOf, if_pos hdepth, hfolders]
  rfl

/-! ## The whole scan -/

/-- What one turn does to the directory that is next. -/
theorem turn_concat (waiting : List Pending) (p : Pending) (listed : Inventory) :
    turn t ignored limit ⟨waiting ++ [p], listed⟩ =
      some ⟨waiting ++ (foldersOf t ignored limit p ((t.list? p.dir).getD [])).reverse,
        ((itemsOf t ignored p ((t.list? p.dir).getD [])).map (·.2)).foldl add listed⟩ := by
  rw [turn]
  simp only [List.getLast?_concat, Option.map_some, List.dropLast_concat, foldl_meet, List.nil_append]
  cases t.list? p.dir with
  | none => simp [itemsOf, foldersOf]
  | some names => rfl

/-- Directories that were put on together are scanned from the first to the last. -/
theorem eval_turn_reverse {below : Pending → List Item} (folders waiting : List Pending)
    (h : ∀ q ∈ folders, ∀ waiting listed, eval (turn t ignored limit) ⟨waiting ++ [q], listed⟩ =
      eval (turn t ignored limit) ⟨waiting, (below q).foldl add listed⟩) (listed : Inventory) :
    eval (turn t ignored limit) ⟨waiting ++ folders.reverse, listed⟩ =
      eval (turn t ignored limit) ⟨waiting, (folders.flatMap below).foldl add listed⟩ := by
  induction folders generalizing listed with
  | nil => rw [List.reverse_nil, List.append_nil, List.flatMap_nil, List.foldl_nil]
  | cons q folders ih =>
    obtain ⟨hfirst, hrest⟩ := List.forall_mem_cons.1 h
    rw [List.reverse_cons, ← List.append_assoc, hfirst, ih hrest, List.flatMap_cons,
      List.foldl_append]

/-- **A directory that waits is scanned with everything below it**, before what waits longer. -/
theorem eval_turn_concat (levels : Nat) (h : p.depth + levels = limit) (waiting : List Pending)
    (listed : Inventory) :
    eval (turn t ignored limit) ⟨waiting ++ [p], listed⟩ =
      eval (turn t ignored limit) ⟨waiting, (itemsBelow t ignored levels p).foldl add listed⟩ := by
  rw [Loop.eval_eq_of_turn (turn_concat waiting p listed)]
  induction levels generalizing waiting p listed with
  | zero =>
    have hnone : foldersOf t ignored limit p ((t.list? p.dir).getD []) = [] :=
      List.eq_nil_iff_forall_not_mem.2 fun q hq ↦ by
        have hdepth := (depth_of_mem_foldersOf hq).2
        omega
    rw [hnone, List.reverse_nil, List.append_nil, itemsBelow_zero]
  | succ levels ih =>
    have hdepth : p.depth < limit := by omega
    rw [itemsBelow_succ levels hdepth, List.foldl_append]
    refine eval_turn_reverse _ _ (fun q hq waiting listed ↦ ?_) _
    have hnext : q.depth = p.depth + 1 := (depth_of_mem_foldersOf hq).1
    rw [Loop.eval_eq_of_turn (turn_concat waiting q listed)]
    exact ih (by omega) waiting listed

/-- **The inventory is that of a scan with a worklist**, which comes to an end. -/
theorem eval_turn (t : FileTree) (ignored : List String) (levels : Nat) (root : Path) :
    eval (turn t ignored levels) ⟨[⟨root, ⟨""⟩, 0⟩], empty⟩ =
      Part.some ⟨[], scan t ignored levels root⟩ := by
  have hscan := @eval_turn_concat t ignored levels ⟨root, ⟨""⟩, 0⟩ levels (Nat.zero_add levels) []
    empty
  exact hscan.trans (Loop.eval_eq_of_end rfl)

end Worklist

end Inventory

end ChangeContext
