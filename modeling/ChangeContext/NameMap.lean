/-!
# Maps and sets of names

Outlines, inventories and counts are keyed by names, and every answer lists names in ascending
order.  So the order is part of the type: the entries of a `NameMap` stand in strictly ascending
order of their names.  A map with given contents is then one value only, and two maps are equal
when they hold the same entries.

All changes go through `alter`, which says what becomes of one name and leaves the others alone.
-/

set_option autoImplicit false

namespace ChangeContext

/-- Entries in strictly ascending order of their names. -/
@[ext] structure NameMap (β : Type) where
  toList : List (String × β)
  sorted : toList.Pairwise (fun a b ↦ a.1 < b.1) := by exact List.Pairwise.nil
deriving DecidableEq

namespace NameMap

variable {β γ : Type}

/-- No entry. -/
def empty : NameMap β where
  toList := []

instance : EmptyCollection (NameMap β) := ⟨empty⟩

instance : Inhabited (NameMap β) := ⟨empty⟩

/-- The names in ascending order. -/
def keys (m : NameMap β) : List String :=
  m.toList.map (·.1)

/-- The values in the order of their names. -/
def values (m : NameMap β) : List β :=
  m.toList.map (·.2)

/-- The value filed under `k`. -/
def get? (m : NameMap β) (k : String) : Option β :=
  (m.toList.find? (·.1 == k)).map (·.2)

/-- Some value is filed under `k`. -/
def contains (m : NameMap β) (k : String) : Bool :=
  m.toList.any (·.1 == k)

/-- The number of entries. -/
def size (m : NameMap β) : Nat :=
  m.toList.length

/-- In an ascending list of entries, replace the value under `k` by what `f` makes of it. -/
def alterList (k : String) (f : Option β → Option β) : List (String × β) → List (String × β)
  | [] => match f none with
    | none => []
    | some v => [(k, v)]
  | (k', v') :: rest =>
    if k < k' then
      match f none with
      | none => (k', v') :: rest
      | some v => (k, v) :: (k', v') :: rest
    else if k = k' then
      match f (some v') with
      | none => rest
      | some v => (k, v) :: rest
    else (k', v') :: alterList k f rest

/-- After a change at `k`, a name is `k` or one that was there. -/
theorem fst_of_mem_alterList {k : String} {f : Option β → Option β} {l : List (String × β)}
    {e : String × β} (h : e ∈ alterList k f l) : e.1 = k ∨ e ∈ l := by
  induction l with
  | nil => grind [alterList]
  | cons a rest ih => grind [alterList]

theorem lt_of_not_lt_of_ne {a b : String} (h : ¬ a < b) (hne : a ≠ b) : b < a := by
  by_cases hba : b < a
  · exact hba
  · exact absurd (String.le_antisymm (String.not_lt.1 hba) (String.not_lt.1 h)) hne

theorem sorted_alterList (k : String) (f : Option β → Option β) {l : List (String × β)}
    (h : l.Pairwise (fun a b ↦ a.1 < b.1)) :
    (alterList k f l).Pairwise (fun a b ↦ a.1 < b.1) := by
  induction l with
  | nil => unfold alterList; split <;> simp
  | cons a rest ih =>
    obtain ⟨k', v'⟩ := a
    have ⟨hhead, htail⟩ := List.pairwise_cons.1 h
    unfold alterList
    split
    next hlt =>
      split
      · exact h
      · refine List.pairwise_cons.2 ⟨fun b hb ↦ ?_, h⟩
        rcases List.mem_cons.1 hb with rfl | hb
        · exact hlt
        · exact String.lt_trans hlt (hhead b hb)
    next hlt =>
      split
      next heq =>
        subst heq
        split
        · exact htail
        · exact List.pairwise_cons.2 ⟨fun b hb ↦ hhead b hb, htail⟩
      next hne =>
        refine List.pairwise_cons.2 ⟨fun b hb ↦ ?_, ih htail⟩
        rcases fst_of_mem_alterList hb with rfl | hb
        · exact lt_of_not_lt_of_ne hlt hne
        · exact hhead b hb

/-- Replace the value under `k` by what `f` makes of it. -/
def alter (m : NameMap β) (k : String) (f : Option β → Option β) : NameMap β where
  toList := alterList k f m.toList
  sorted := sorted_alterList k f m.sorted

/-- File `v` under `k`, in place of what was there. -/
def insert (m : NameMap β) (k : String) (v : β) : NameMap β :=
  m.alter k fun _ ↦ some v

/-- File `v` under `k` unless something is filed there. -/
def insertIfNew (m : NameMap β) (k : String) (v : β) : NameMap β :=
  m.alter k fun old ↦ some (old.getD v)

/-- Drop what is filed under `k`. -/
def erase (m : NameMap β) (k : String) : NameMap β :=
  m.alter k fun _ ↦ none

/-- Keep the entries that satisfy `p`. -/
def filter (m : NameMap β) (p : String × β → Bool) : NameMap β where
  toList := m.toList.filter p
  sorted := m.sorted.sublist List.filter_sublist

/-- Change every value. -/
def map (m : NameMap β) (f : β → γ) : NameMap γ where
  toList := m.toList.map fun e ↦ (e.1, f e.2)
  sorted := List.pairwise_map.2 m.sorted

/-- File the entries one after the other; of two under one name the later stays. -/
def ofList (l : List (String × β)) : NameMap β :=
  l.foldl (fun m e ↦ m.insert e.1 e.2) empty

end NameMap

/-- A set of names in ascending order. -/
abbrev NameSet := NameMap Unit

namespace NameSet

/-- Take a name in. -/
def add (s : NameSet) (name : String) : NameSet :=
  s.insert name ()

/-- The set of the names in a list. -/
def ofNames (l : List String) : NameSet :=
  l.foldl add NameMap.empty

end NameSet

end ChangeContext
