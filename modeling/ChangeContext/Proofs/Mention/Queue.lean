import ChangeContext.Proofs.Loop
import ChangeContext.Proofs.Mention.Nearest

/-!
# Looking for a file with a queue

`searchBelow` keeps the directories of one level.  The search of this module keeps a queue of directories
with their depths, takes the first one off, looks through its entries, and puts the directories to go
into at the end.  It ends when a file of the name is met or when the queue is empty, with the same answer
(`eval_turn`).

In the queue there is what is left of one level, and behind it what has been put on of the next
(`eval_turn_append`).  So when a level has been gone through, the queue is the next level
(`eval_turn_map`), and the search goes down as many levels as are left (`eval_turn_level`).
-/

set_option autoImplicit false

namespace ChangeContext

namespace Mention

open StateTransition (eval)

/-- What is held while a file is looked for. -/
structure Search where
  /-- The directories that wait, each with the depth of its entries. -/
  queue : List (Path × Nat)
  found? : Option Path

namespace Search

section Queue

variable (t : FileTree) (ignored : List String) (name : String)

/-- Look at an entry of a directory, unless the file has been found. -/
def meet (dir : Path × Nat) (s : Search) (entry : String) : Search :=
  if s.found?.isSome then s
  else
    let path := dir.1.child entry
    if t.isDir path then
      if dir.2 < searchLevels && !ignored.contains entry then
        { s with queue := s.queue ++ [(path, dir.2 + 1)] }
      else s
    else if entry = name then { s with found? := some path }
    else s

/-- Look through the first directory of the queue, unless it cannot be read. -/
def turn (s : Search) : Option Search :=
  match s.found?, s.queue with
  | some _, _ => none
  | none, [] => none
  | none, dir :: rest =>
    match t.list? dir.1 with
    | none => some ⟨rest, none⟩
    | some names => some (names.foldl (meet t ignored name dir) ⟨rest, none⟩)

/-! ## One directory -/

/-- The directories among these entries, as they are put into the queue. -/
def opened (t : FileTree) (ignored : List String) (dir : Path × Nat) (names : List String) :
    List (Path × Nat) :=
  if dir.2 < searchLevels then
    (names.filterMap fun name ↦
      if t.isDir (dir.1.child name) && !ignored.contains name then some (dir.1.child name)
      else none).map (·, dir.2 + 1)
  else []

variable {t ignored name} {dir : Path × Nat}

theorem foldl_meet_of_found (names : List String) {s : Search} (h : s.found?.isSome = true) :
    names.foldl (meet t ignored name dir) s = s := by
  induction names with
  | nil => rfl
  | cons entry names ih =>
    rw [List.foldl_cons, meet, if_pos h, ih]

/-- A directory among the entries is put into the queue if the search goes into it. -/
theorem meet_of_isDir {entry : String} (h : t.isDir (dir.1.child entry) = true)
    (queue : List (Path × Nat)) :
    meet t ignored name dir ⟨queue, none⟩ entry = ⟨queue ++ opened t ignored dir [entry], none⟩ := by
  by_cases hdepth : dir.2 < searchLevels <;> by_cases hignored : entry ∈ ignored <;>
    simp [meet, opened, h, hdepth, hignored]

theorem meet_of_not_isDir {entry : String} (h : t.isDir (dir.1.child entry) = false)
    (queue : List (Path × Nat)) :
    meet t ignored name dir ⟨queue, none⟩ entry =
      ⟨queue, if entry = name then some (dir.1.child entry) else none⟩ := by
  simp only [meet, Option.isSome_none, h, Bool.false_eq_true, if_false]
  split <;> rfl

theorem opened_cons (entry : String) (names : List String) :
    opened t ignored dir (entry :: names) =
      opened t ignored dir [entry] ++ opened t ignored dir names := by
  by_cases hdepth : dir.2 < searchLevels
  · simp only [opened, if_pos hdepth, ← List.map_append, ← List.filterMap_append,
      List.singleton_append]
  · simp only [opened, if_neg hdepth, List.append_nil]

/-- An entry of the name that is no directory is found. -/
theorem found?_foldl_meet {names : List String} (hname : name ∈ names)
    (hdir : t.isDir (dir.1.child name) = false) (queue : List (Path × Nat)) :
    (names.foldl (meet t ignored name dir) ⟨queue, none⟩).found? = some (dir.1.child name) := by
  induction names generalizing queue with
  | nil => cases hname
  | cons entry names ih =>
    rw [List.foldl_cons]
    by_cases hentry : entry = name
    · rw [hentry, meet_of_not_isDir hdir, if_pos rfl, foldl_meet_of_found names rfl]
    · have hrest : name ∈ names := (List.mem_cons.1 hname).resolve_left (Ne.symm hentry)
      cases h : t.isDir (dir.1.child entry) with
      | true => rw [meet_of_isDir h, ih hrest]
      | false => rw [meet_of_not_isDir h, if_neg hentry, ih hrest]

/-- Where there is no such entry, the directories are put into the queue. -/
theorem foldl_meet {names : List String}
    (h : name ∈ names → t.isDir (dir.1.child name) = true) (queue : List (Path × Nat)) :
    names.foldl (meet t ignored name dir) ⟨queue, none⟩ =
      ⟨queue ++ opened t ignored dir names, none⟩ := by
  induction names generalizing queue with
  | nil => simp [opened]
  | cons entry names ih =>
    have hrest := ih fun hname ↦ h (List.mem_cons_of_mem _ hname)
    rw [List.foldl_cons, opened_cons]
    cases hdir : t.isDir (dir.1.child entry) with
    | true => rw [meet_of_isDir hdir, hrest, List.append_assoc]
    | false =>
      have hentry : entry ≠ name := by
        rintro rfl
        rw [h List.mem_cons_self] at hdir
        cases hdir
      have hnone : opened t ignored dir [entry] = [] := by simp [opened, hdir]
      rw [meet_of_not_isDir hdir, if_neg hentry, hrest, hnone, List.nil_append]

/-! ## One turn -/

variable (rest : List (Path × Nat))

/-- The entries of a directory that cannot be read are none. -/
theorem turn_cons : turn t ignored name ⟨dir :: rest, none⟩ =
    some (((t.list? dir.1).getD []).foldl (meet t ignored name dir) ⟨rest, none⟩) := by
  rw [turn]
  dsimp only
  cases t.list? dir.1 <;> rfl

/-- A directory that has the file is the last one looked through. -/
theorem exists_turn_cons_of_some {p : Path} (h : entryIn? t name dir.1 = some p) :
    ∃ s, turn t ignored name ⟨dir :: rest, none⟩ = some s ∧ s.found? = some p := by
  obtain ⟨⟨hname, hdir⟩, rfl⟩ := entryIn?_eq_some_iff.1 h
  exact ⟨_, turn_cons rest, found?_foldl_meet hname hdir rest⟩

/-- The directories in one that does not have it come last in the queue. -/
theorem turn_cons_of_none (h : entryIn? t name dir.1 = none) :
    turn t ignored name ⟨dir :: rest, none⟩ =
      some ⟨rest ++ opened t ignored dir ((t.list? dir.1).getD []), none⟩ := by
  rw [turn_cons, foldl_meet fun hname ↦ ?_]
  by_contra hdir
  exact entryIn?_eq_none_iff.1 h ⟨hname, eq_false_of_ne_true hdir⟩

/-! ## The whole search -/

/-- **A level is gone through before the directories behind it**, and what it puts into the queue comes
after them. -/
theorem eval_turn_append (dirs : List (Path × Nat)) :
    (eval (turn t ignored name) ⟨dirs ++ rest, none⟩).map found? =
      match dirs.findSome? fun dir ↦ entryIn? t name dir.1 with
      | some p => Part.some (some p)
      | none => (eval (turn t ignored name) ⟨rest ++ dirs.flatMap fun dir ↦
          opened t ignored dir ((t.list? dir.1).getD []), none⟩).map found? := by
  induction dirs generalizing rest with
  | nil => simp
  | cons dir dirs ih =>
    rw [List.cons_append, List.findSome?_cons]
    cases h : entryIn? t name dir.1 with
    | some p =>
      obtain ⟨s, hturn, hs⟩ := exists_turn_cons_of_some (dirs ++ rest) h
      have hend : turn t ignored name s = none := by rw [turn, hs]
      rw [Loop.eval_eq_of_turn hturn, Loop.eval_eq_of_end hend, Part.map_some, hs]
    | none =>
      rw [Loop.eval_eq_of_turn (turn_cons_of_none _ h), List.append_assoc, ih, List.append_assoc,
        List.flatMap_cons]

/-- The directories that a level puts into the queue are those of the next level, and none on the last
level. -/
theorem flatMap_opened (depth : Nat) (dirs : List Path) :
    ((dirs.map (·, depth)).flatMap fun dir ↦ opened t ignored dir ((t.list? dir.1).getD [])) =
      if depth < searchLevels then (dirs.flatMap (openDirs t ignored)).map (·, depth + 1) else [] := by
  rw [List.flatMap_map]
  by_cases hdepth : depth < searchLevels
  · simp only [opened, if_pos hdepth, List.map_flatMap]
    rfl
  · rw [if_neg hdepth, List.flatMap_eq_nil_iff]
    exact fun dir _ ↦ if_neg hdepth

/-- A queue that holds a level comes to hold the next one, if the file is not on this. -/
theorem eval_turn_map (depth : Nat) (dirs : List Path) :
    (eval (turn t ignored name) ⟨dirs.map (·, depth), none⟩).map found? =
      match dirs.findSome? (entryIn? t name) with
      | some p => Part.some (some p)
      | none => (eval (turn t ignored name) ⟨if depth < searchLevels then
          (dirs.flatMap (openDirs t ignored)).map (·, depth + 1) else [], none⟩).map found? := by
  have hlevel := @eval_turn_append t ignored name [] (dirs.map (·, depth))
  rw [List.append_nil, List.nil_append, List.findSome?_map, flatMap_opened] at hlevel
  exact hlevel

/-- **The levels that are left** are those that the search goes down from a level in the queue. -/
theorem eval_turn_level (levels depth : Nat) (h : depth + levels = searchLevels)
    (dirs : List Path) :
    (eval (turn t ignored name) ⟨dirs.map (·, depth), none⟩).map found? =
      Part.some (searchBelow t ignored name levels dirs) := by
  induction levels generalizing depth dirs with
  | zero =>
    have hend : eval (turn t ignored name) ⟨[], none⟩ = Part.some ⟨[], none⟩ :=
      Loop.eval_eq_of_end rfl
    rw [eval_turn_map, if_neg (by omega), hend, searchBelow]
    cases dirs.findSome? (entryIn? t name) with
    | none => exact Part.map_some _ _
    | some p => rfl
  | succ levels ih =>
    rw [eval_turn_map, if_pos (by omega), searchBelow]
    cases dirs.findSome? (entryIn? t name) with
    | none => exact ih (depth + 1) (by omega) _
    | some p => rfl

/-- **The nearest file below a directory is what a search with a queue finds**, which comes to an end. -/
theorem eval_turn (t : FileTree) (ignored : List String) (name : String) (dir : Path) :
    (eval (turn t ignored name) ⟨[(dir, 0)], none⟩).map found? =
      Part.some (searchBelow t ignored name searchLevels [dir]) :=
  eval_turn_level searchLevels 0 (Nat.zero_add _) [dir]

end Queue

end Search

end Mention

end ChangeContext
