import ChangeContext.Cache.Basic
import ChangeContext.Proofs.Instant.Order
import ChangeContext.Proofs.NameMap

/-!
# Making room

A full cache gives up its oldest entry for a new key.  `mem_of_oldest?` says which entry that is,
and `get?_makeRoom_of_younger` what this comes to for all others: an entry stays as long as some
entry is older.  One entry less is enough for the new one to fit in, so a cache that stores something
under a new key either has room for it or stays as large as it is (`size_insert_makeRoom`).
-/

set_option autoImplicit false

namespace ChangeContext

namespace Cache

/-- The older of two entries, the first one when they are of the same age. -/
def older (a b : String × Entry) : String × Entry :=
  if a.2.createdAt.le b.2.createdAt then a else b

theorem oldest?_cons (a : String × Entry) (l : List (String × Entry)) :
    oldest? (a :: l) = some (l.foldl older a).1 := rfl

theorem older_le (a b : String × Entry) :
    (older a b).2.createdAt.le a.2.createdAt = true ∧
      (older a b).2.createdAt.le b.2.createdAt = true := by
  rw [older]
  split
  next h => exact ⟨Instant.le_refl _, h⟩
  next h => exact ⟨(Instant.le_total _ _).resolve_left h, Instant.le_refl _⟩

theorem foldl_older_mem (l : List (String × Entry)) (a : String × Entry) :
    l.foldl older a ∈ a :: l := by
  induction l generalizing a with
  | nil => simp
  | cons b rest ih =>
    rw [List.foldl_cons]
    rcases List.mem_cons.1 (ih (older a b)) with h | h
    · rw [h, older]
      split <;> simp
    · exact List.mem_cons_of_mem _ (List.mem_cons_of_mem _ h)

theorem foldl_older_le (l : List (String × Entry)) (a : String × Entry) :
    ∀ b ∈ a :: l, (l.foldl older a).2.createdAt.le b.2.createdAt = true := by
  induction l generalizing a with
  | nil => simp [Instant.le_refl]
  | cons c rest ih =>
    intro b hb
    have hfirst := ih (older a c) _ (List.mem_cons_self ..)
    rw [List.foldl_cons]
    rcases List.mem_cons.1 hb with rfl | hb
    · exact Instant.le_trans hfirst (older_le b c).1
    · rcases List.mem_cons.1 hb with rfl | hb
      · exact Instant.le_trans hfirst (older_le a b).2
      · exact ih _ _ (List.mem_cons_of_mem _ hb)

/-- The entry that makes room is one of the entries, and none is older. -/
theorem mem_of_oldest? {l : List (String × Entry)} {k : String} (h : oldest? l = some k) :
    ∃ e, (k, e) ∈ l ∧ ∀ b ∈ l, e.createdAt.le b.2.createdAt = true := by
  cases l with
  | nil => simp [oldest?] at h
  | cons a l =>
    rw [oldest?_cons, Option.some_inj] at h
    exact ⟨(l.foldl older a).2, h ▸ foldl_older_mem l a, foldl_older_le l a⟩

/-- Making room stores nothing. -/
theorem get?_of_get?_makeRoom {c : Cache} {new k : String} {e : Entry}
    (h : (c.makeRoom new).get? k = some e) : c.entries.get? k = some e := by
  rw [makeRoom] at h
  split at h
  · split at h
    · rw [NameMap.get?_erase] at h
      split at h
      · simp at h
      · exact h
    · exact h
  · exact h

/-- **An entry stays as long as some entry is older, or there is room anyway.** -/
theorem get?_makeRoom_of_younger {c : Cache} {new k : String} {e : Entry}
    (hk : c.entries.get? k = some e)
    (h : c.entries.contains new = false → c.limits.capacity ≤ c.entries.size →
      ∃ b ∈ c.entries.toList, e.createdAt.le b.2.createdAt = false) :
    (c.makeRoom new).get? k = some e := by
  rw [makeRoom]
  split
  next hfull =>
    rw [Bool.and_eq_true, Bool.not_eq_true', decide_eq_true_iff] at hfull
    split
    next old hold =>
      obtain ⟨e', he', hle⟩ := mem_of_oldest? hold
      obtain ⟨b, hb, hlt⟩ := h hfull.1 hfull.2
      rw [NameMap.get?_erase, if_neg, hk]
      rintro rfl
      obtain rfl : e' = e := NameMap.eq_of_mem_of_mem he' (NameMap.get?_eq_some_iff.1 hk)
      exact absurd (hle b hb) (by simp [hlt])
    next => exact hk
  next => exact hk

/-! ## How many entries there are -/

section Size

variable {c : Cache} {k : String}

/-- No room has to be made for a key that is there. -/
theorem makeRoom_of_mem (h : k ∈ c.entries.keys) : c.makeRoom k = c.entries := by
  rw [makeRoom, NameMap.contains_iff.2 h]
  rfl

/-- No room has to be made where there is some. -/
theorem makeRoom_of_lt (h : c.entries.size < c.limits.capacity) : c.makeRoom k = c.entries := by
  rw [makeRoom, decide_eq_false (Nat.not_le.2 h), Bool.and_false]
  rfl

/-- Otherwise an entry makes room than which none is older. -/
theorem exists_makeRoom_eq_erase (hk : k ∉ c.entries.keys)
    (hfull : c.limits.capacity ≤ c.entries.size) :
    ∃ old oldest, c.entries.get? old = some oldest ∧
      (∀ b ∈ c.entries.toList, oldest.createdAt.le b.2.createdAt = true) ∧
      c.makeRoom k = c.entries.erase old := by
  have hnew : c.entries.contains k = false := by
    rw [← Bool.not_eq_true, NameMap.contains_iff]
    exact hk
  have hpos : 1 ≤ c.limits.capacity := Nat.le_max_right ..
  rw [makeRoom, hnew, decide_eq_true hfull]
  cases hentries : c.entries.toList with
  | nil =>
    have hsize : c.entries.size = 0 := by rw [NameMap.size, hentries, List.length_nil]
    omega
  | cons a l =>
    obtain ⟨e, hmem, hle⟩ := mem_of_oldest? (oldest?_cons a l)
    rw [← hentries, ← NameMap.get?_eq_some_iff] at hmem
    exact ⟨_, e, hmem, hle, rfl⟩

/-- **Storing adds an entry only under a new key and only where there is room**; otherwise the new
entry takes the place of another. -/
theorem size_insert_makeRoom (c : Cache) (k : String) (e : Entry) :
    ((c.makeRoom k).insert k e).size =
      if k ∈ c.entries.keys ∨ c.limits.capacity ≤ c.entries.size then c.entries.size
      else c.entries.size + 1 := by
  by_cases hk : k ∈ c.entries.keys
  · rw [makeRoom_of_mem hk, NameMap.size_insert_of_mem e hk, if_pos (.inl hk)]
  · by_cases hfull : c.limits.capacity ≤ c.entries.size
    · obtain ⟨old, oldest, hold, -, hroom⟩ := exists_makeRoom_eq_erase hk hfull
      have hk' : k ∉ (c.entries.erase old).keys := fun h ↦ hk (NameMap.mem_keys_erase.1 h).2
      rw [hroom, NameMap.size_insert_of_notMem e hk',
        NameMap.size_erase_of_mem (NameMap.mem_keys_iff.2 ⟨oldest, hold⟩), if_pos (.inr hfull)]
    · rw [makeRoom_of_lt (Nat.lt_of_not_le hfull), NameMap.size_insert_of_notMem e hk,
        if_neg (not_or.2 ⟨hk, hfull⟩)]

/-- Storing does not make a cache exceed its capacity, nor a size that it has already. -/
theorem size_insert_makeRoom_le {n : Nat} (hn : c.limits.capacity ≤ n) (h : c.entries.size ≤ n)
    (k : String) (e : Entry) : ((c.makeRoom k).insert k e).size ≤ n := by
  rw [size_insert_makeRoom]
  split
  · exact h
  next hroom =>
    rw [not_or] at hroom
    omega

end Size

end Cache

end ChangeContext
