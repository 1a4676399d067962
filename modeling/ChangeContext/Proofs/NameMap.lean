import ChangeContext.NameMap
import Mathlib.Data.List.Induction
import Mathlib.Data.List.Nodup
import Mathlib.Data.List.Perm.Basic
import Mathlib.Data.List.Perm.Subperm

/-!
# Looking up names

A `NameMap` is a sorted list, but nothing that follows wants to see the list.  Here each operation
gets the one equation that says what `get?` finds after it, and `ext_get?` says that this is all
there is to know about a map.  `get?_eq_some_iff` is the way down to the list where one is needed.
-/

set_option autoImplicit false

namespace ChangeContext

namespace NameMap

variable {β γ : Type}

theorem keys_nodup (m : NameMap β) : m.keys.Nodup := by
  rw [keys, List.nodup_iff_pairwise_ne, List.pairwise_map]
  exact m.sorted.imp fun h ↦ (String.ne_of_lt h)

/-- No two entries stand under one name. -/
theorem eq_of_mem_of_mem {m : NameMap β} {k : String} {v w : β} (hv : (k, v) ∈ m.toList)
    (hw : (k, w) ∈ m.toList) : v = w := by
  have := List.inj_on_of_nodup_map m.keys_nodup hv hw rfl
  exact congrArg Prod.snd this

theorem get?_eq_some_iff {m : NameMap β} {k : String} {v : β} :
    m.get? k = some v ↔ (k, v) ∈ m.toList := by
  rw [get?, Option.map_eq_some_iff]
  constructor
  · rintro ⟨⟨k', v'⟩, hfind, rfl⟩
    obtain rfl : k' = k := by simpa using List.find?_some hfind
    exact List.mem_of_find?_eq_some hfind
  · intro hmem
    cases hfind : m.toList.find? (·.1 == k) with
    | none =>
      rw [List.find?_eq_none] at hfind
      exact absurd (hfind _ hmem) (by simp)
    | some e =>
      obtain ⟨k', v'⟩ := e
      obtain rfl : k' = k := by simpa using List.find?_some hfind
      exact ⟨_, rfl, eq_of_mem_of_mem (List.mem_of_find?_eq_some hfind) hmem⟩

theorem get?_eq_none_iff {m : NameMap β} {k : String} : m.get? k = none ↔ k ∉ m.keys := by
  rw [get?, Option.map_eq_none_iff, List.find?_eq_none, keys, List.mem_map]
  constructor
  · rintro h ⟨e, he, rfl⟩
    exact h e he (by simp)
  · intro h e he hek
    exact h ⟨e, he, by simpa using hek⟩

/-- There is one entry under a name where there is any. -/
theorem filter_key (m : NameMap β) (k : String) :
    m.toList.filter (·.1 == k) = ((m.get? k).map fun v ↦ (k, v)).toList := by
  cases hk : m.get? k with
  | none =>
    refine List.filter_eq_nil_iff.2 fun e he hek ↦ get?_eq_none_iff.1 hk ?_
    exact List.mem_map.2 ⟨e, he, by simpa using hek⟩
  | some v =>
    have hmem : (k, v) ∈ m.toList.filter (·.1 == k) :=
      List.mem_filter.2 ⟨get?_eq_some_iff.1 hk, by simp⟩
    have hnodup : (m.toList.filter (·.1 == k)).Nodup := (List.Nodup.of_map _ m.keys_nodup).filter _
    refine List.perm_singleton.1 ((List.perm_ext_iff_of_nodup hnodup (List.nodup_singleton _)).2 ?_)
    rintro ⟨k', w⟩
    rw [List.mem_singleton]
    refine ⟨fun he ↦ ?_, fun he ↦ he ▸ hmem⟩
    obtain ⟨hentry, hek⟩ := List.mem_filter.1 he
    obtain rfl : k' = k := by simpa using hek
    rw [eq_of_mem_of_mem hentry (get?_eq_some_iff.1 hk)]

theorem mem_keys_iff {m : NameMap β} {k : String} : k ∈ m.keys ↔ ∃ v, m.get? k = some v := by
  rw [← not_iff_not, ← get?_eq_none_iff, ← Option.isSome_iff_exists, Option.not_isSome_iff_eq_none]

theorem contains_eq_isSome (m : NameMap β) (k : String) : m.contains k = (m.get? k).isSome := by
  rw [contains, get?, Option.isSome_map, Bool.eq_iff_iff, List.find?_isSome, List.any_eq_true]

theorem contains_iff {m : NameMap β} {k : String} : m.contains k = true ↔ k ∈ m.keys := by
  rw [contains_eq_isSome, Option.isSome_iff_exists, mem_keys_iff]

@[simp] theorem length_keys (m : NameMap β) : m.keys.length = m.size := List.length_map _

@[simp] theorem get?_empty (k : String) : (∅ : NameMap β).get? k = none := rfl

/-- **A map is what is found in it.** -/
theorem ext_get? {m m' : NameMap β} (h : ∀ k, m.get? k = m'.get? k) : m = m' := by
  have hperm : m.toList.Perm m'.toList := by
    refine (List.perm_ext_iff_of_nodup m.keys_nodup.of_map m'.keys_nodup.of_map).2 fun e ↦ ?_
    obtain ⟨k, v⟩ := e
    rw [← get?_eq_some_iff, ← get?_eq_some_iff, h]
  refine NameMap.ext (hperm.eq_of_pairwise (fun a b _ _ hab hba ↦ ?_) m.sorted m'.sorted)
  exact absurd (String.lt_trans hab hba) (String.lt_irrefl _)

/-! ## Sizes -/

/-- A map that has all names of another is at least as large. -/
theorem size_le_of_keys_subset {m m' : NameMap β} (h : m.keys ⊆ m'.keys) : m.size ≤ m'.size := by
  rw [← length_keys, ← length_keys]
  exact (m.keys_nodup.subperm h).length_le

/-- A map that has a name in addition is larger. -/
theorem size_lt_of_keys_subset {m m' : NameMap β} {k : String} (h : m.keys ⊆ m'.keys)
    (hk : k ∈ m'.keys) (hnew : k ∉ m.keys) : m.size < m'.size := by
  have hnodup : (k :: m.keys).Nodup := List.nodup_cons.2 ⟨hnew, m.keys_nodup⟩
  have hle := (hnodup.subperm (List.cons_subset.2 ⟨hk, h⟩)).length_le
  rwa [List.length_cons, length_keys, length_keys] at hle

/-! ## After a change -/

/-- What `get?` finds in a list of entries. -/
def find (l : List (String × β)) (k : String) : Option β :=
  (l.find? (·.1 == k)).map (·.2)

theorem find_cons (e : String × β) (l : List (String × β)) (k : String) :
    find (e :: l) k = if k = e.1 then some e.2 else find l k := by
  rw [find, List.find?_cons]
  by_cases h : k = e.1
  · simp [h]
  · have h' : (e.1 == k) = false := by simpa using Ne.symm h
    rw [h', if_neg h, find]

/-- What comes before all entries has none. -/
theorem find_eq_none_of_lt {k : String} {l : List (String × β)} (h : ∀ e ∈ l, k < e.1) :
    find l k = none := by
  rw [find, Option.map_eq_none_iff, List.find?_eq_none]
  intro e he
  simpa using (String.ne_of_lt (h e he)).symm

theorem find_alterList {k : String} {f : Option β → Option β} {l : List (String × β)}
    (hl : l.Pairwise (fun a b ↦ a.1 < b.1)) (j : String) :
    find (alterList k f l) j = if j = k then f (find l k) else find l j := by
  induction l with
  | nil =>
    have hnil (i : String) : find ([] : List (String × β)) i = none := rfl
    rw [alterList, hnil, hnil]
    cases hf : f none with
    | none => simp only [hnil, ite_self]
    | some v => simp only [find_cons, hnil]
  | cons e rest ih =>
    obtain ⟨k', v'⟩ := e
    obtain ⟨hfirst, hrest⟩ := List.pairwise_cons.1 hl
    rw [alterList]
    split
    next hlt =>
      -- `k` belongs before the whole list, so nothing was filed under it
      have hnone : find ((k', v') :: rest) k = none := by
        refine find_eq_none_of_lt fun e he ↦ ?_
        rcases List.mem_cons.1 he with rfl | he
        · exact hlt
        · exact String.lt_trans hlt (hfirst e he)
      rw [hnone]
      cases hf : f none with
      | none =>
        by_cases hj : j = k
        · rw [if_pos hj, hj, hnone]
        · rw [if_neg hj]
      | some v => exact find_cons _ _ _
    next hlt =>
      split
      next heq =>
        subst heq
        have hnone : find rest k = none := find_eq_none_of_lt hfirst
        rw [find_cons, if_pos rfl]
        cases hf : f (some v') with
        | none =>
          by_cases hj : j = k
          · rw [if_pos hj, hj, hnone]
          · rw [if_neg hj, find_cons, if_neg hj]
        | some v =>
          simp only [find_cons]
          by_cases hj : j = k
          · rw [if_pos hj, if_pos hj]
          · rw [if_neg hj, if_neg hj, if_neg hj]
      next hne =>
        rw [find_cons, find_cons, find_cons, if_neg hne, ih hrest]
        split
        next hj => rw [if_neg fun h ↦ hne (h.symm.trans hj)]
        next => rfl

/-- After a change at `k` only what is found under `k` is different. -/
theorem get?_alter (m : NameMap β) (k j : String) (f : Option β → Option β) :
    (m.alter k f).get? j = if j = k then f (m.get? k) else m.get? j :=
  find_alterList m.sorted j

@[simp] theorem get?_insert (m : NameMap β) (k j : String) (v : β) :
    (m.insert k v).get? j = if j = k then some v else m.get? j :=
  get?_alter m k j _

theorem get?_insertIfNew (m : NameMap β) (k j : String) (v : β) :
    (m.insertIfNew k v).get? j = if j = k then some ((m.get? k).getD v) else m.get? j :=
  get?_alter m k j _

@[simp] theorem get?_erase (m : NameMap β) (k j : String) :
    (m.erase k).get? j = if j = k then none else m.get? j :=
  get?_alter m k j _

theorem mem_keys_insert {m : NameMap β} {k j : String} {v : β} :
    j ∈ (m.insert k v).keys ↔ j = k ∨ j ∈ m.keys := by
  rw [mem_keys_iff, mem_keys_iff]
  simp only [get?_insert]
  by_cases hj : j = k <;> simp [hj]

theorem mem_keys_erase {m : NameMap β} {k j : String} :
    j ∈ (m.erase k).keys ↔ j ≠ k ∧ j ∈ m.keys := by
  rw [mem_keys_iff, mem_keys_iff]
  simp only [get?_erase]
  by_cases hj : j = k <;> simp [hj]

/-- Filing something under a new name makes a map larger by one. -/
theorem size_insert_of_notMem {m : NameMap β} {k : String} (v : β) (h : k ∉ m.keys) :
    (m.insert k v).size = m.size + 1 := by
  refine Nat.le_antisymm ?_ ?_
  · have hsub : (m.insert k v).keys ⊆ k :: m.keys := fun j hj ↦
      List.mem_cons.2 (mem_keys_insert.1 hj)
    have hle := ((m.insert k v).keys_nodup.subperm hsub).length_le
    rwa [List.length_cons, length_keys, length_keys] at hle
  · exact size_lt_of_keys_subset (fun j hj ↦ mem_keys_insert.2 (.inr hj))
      (mem_keys_insert.2 (.inl rfl)) h

/-- Filing something under a name that is there leaves a map as large as it was. -/
theorem size_insert_of_mem {m : NameMap β} {k : String} (v : β) (h : k ∈ m.keys) :
    (m.insert k v).size = m.size := by
  refine Nat.le_antisymm ?_ ?_
  · refine size_le_of_keys_subset fun j hj ↦ ?_
    rcases mem_keys_insert.1 hj with rfl | hj
    · exact h
    · exact hj
  · exact size_le_of_keys_subset fun j hj ↦ mem_keys_insert.2 (.inr hj)

theorem size_erase_le (m : NameMap β) (k : String) : (m.erase k).size ≤ m.size :=
  size_le_of_keys_subset fun _ hj ↦ (mem_keys_erase.1 hj).2

/-- Dropping what is there makes a map smaller by one. -/
theorem size_erase_of_mem {m : NameMap β} {k : String} (h : k ∈ m.keys) :
    (m.erase k).size + 1 = m.size := by
  refine Nat.le_antisymm ?_ ?_
  · exact size_lt_of_keys_subset (fun _ hj ↦ (mem_keys_erase.1 hj).2) h fun hk ↦
      (mem_keys_erase.1 hk).1 rfl
  · have hsub : m.keys ⊆ k :: (m.erase k).keys := by
      intro j hj
      by_cases hjk : j = k
      · exact List.mem_cons.2 (.inl hjk)
      · exact List.mem_cons.2 (.inr (mem_keys_erase.2 ⟨hjk, hj⟩))
    have hle := (m.keys_nodup.subperm hsub).length_le
    rwa [List.length_cons, length_keys, length_keys] at hle

theorem get?_filter (m : NameMap β) (p : String × β → Bool) (k : String) :
    (m.filter p).get? k = (m.get? k).filter fun v ↦ p (k, v) := by
  refine Option.ext fun v ↦ ?_
  rw [get?_eq_some_iff, Option.filter_eq_some_iff, get?_eq_some_iff]
  exact List.mem_filter

theorem ofList_append_singleton (l : List (String × β)) (e : String × β) :
    ofList (l ++ [e]) = (ofList l).insert e.1 e.2 := by
  rw [ofList, List.foldl_append]
  rfl

/-- Only what is in the list is filed. -/
theorem mem_of_get?_ofList {l : List (String × β)} {k : String} {v : β}
    (h : (ofList l).get? k = some v) : (k, v) ∈ l := by
  induction l using List.reverseRecOn with
  | nil => simp [ofList, empty, get?] at h
  | append_singleton l e ih =>
    rw [ofList_append_singleton, get?_insert] at h
    split at h
    next hk =>
      obtain rfl : e.2 = v := Option.some_inj.1 h
      rw [hk]
      simp
    next => exact List.mem_append_left _ (ih h)

/-- A list in which no name stands twice is filed as it is. -/
theorem get?_ofList_of_nodup {l : List (String × β)} (hl : (l.map (·.1)).Nodup) {k : String}
    {v : β} : (ofList l).get? k = some v ↔ (k, v) ∈ l := by
  refine ⟨mem_of_get?_ofList, fun h ↦ ?_⟩
  induction l using List.reverseRecOn with
  | nil => simp at h
  | append_singleton l e ih =>
    rw [List.map_append, List.nodup_append] at hl
    rw [ofList_append_singleton, get?_insert]
    rcases List.mem_append.1 h with h | h
    · have hne : k ≠ e.1 := hl.2.2 k (List.mem_map_of_mem h) e.1 (by simp)
      rw [if_neg hne]
      exact ih hl.1 h
    · rw [if_pos (congrArg Prod.fst (List.mem_singleton.1 h)), ← List.mem_singleton.1 h]

/-- A map is the map of its entries, in whatever order they are filed. -/
theorem ofList_of_perm {l : List (String × β)} {m : NameMap β} (h : l.Perm m.toList) :
    ofList l = m := by
  have hl : (l.map (·.1)).Nodup := (h.map _).nodup_iff.2 m.keys_nodup
  refine ext_get? fun k ↦ Option.ext fun v ↦ ?_
  rw [get?_ofList_of_nodup hl, h.mem_iff, get?_eq_some_iff]

/-- Where only what is new is filed, what came first stays. -/
theorem get?_foldl_insertIfNew (l : List (String × β)) (m : NameMap β) (k : String) :
    (l.foldl (fun m e ↦ m.insertIfNew e.1 e.2) m).get? k = (m.get? k).or (l.lookup k) := by
  induction l generalizing m with
  | nil => simp
  | cons e l ih =>
    rw [List.foldl_cons, ih, get?_insertIfNew, List.lookup_cons]
    by_cases hk : k = e.1
    · subst hk
      cases m.get? e.1 <;> simp
    · have hne : (k == e.1) = false := beq_eq_false_iff_ne.2 hk
      rw [if_neg hk, hne]

end NameMap

namespace NameSet

theorem get?_foldl_add (names : List String) (s : NameSet) (k : String) :
    (names.foldl add s).get? k = if k ∈ names then some () else s.get? k := by
  induction names generalizing s with
  | nil => simp
  | cons name names ih =>
    rw [List.foldl_cons, ih, add, NameMap.get?_insert]
    by_cases hk : k ∈ names
    · simp [hk]
    · simp [hk, List.mem_cons]

theorem get?_ofNames (names : List String) (k : String) :
    (ofNames names).get? k = if k ∈ names then some () else none :=
  get?_foldl_add names NameMap.empty k

theorem mem_keys_ofNames {names : List String} {name : String} :
    name ∈ (ofNames names).keys ↔ name ∈ names := by
  rw [NameMap.mem_keys_iff, get?_ofNames]
  by_cases h : name ∈ names <;> simp [h]

/-- Sets of names are equal if the same names are taken in. -/
theorem ofNames_eq_iff {l l' : List String} : ofNames l = ofNames l' ↔ ∀ name, name ∈ l ↔ name ∈ l' := by
  constructor
  · intro h name
    rw [← mem_keys_ofNames, h, mem_keys_ofNames]
  · intro h
    refine NameMap.ext_get? fun k ↦ ?_
    rw [get?_ofNames, get?_ofNames, if_congr (h k) rfl rfl]

end NameSet

end ChangeContext
