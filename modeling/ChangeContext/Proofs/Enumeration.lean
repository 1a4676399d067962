import Mathlib.Data.List.Basic

/-!
# Lists that enumerate

A search is specified by what it looks for and by the order in which that is to be found.  A list
enumerates the things with a property when it has all of them and nothing else, each with the place
where it is found, and the places are in ascending order.  So there is one list at most that
enumerates them, and each place has at most one of them.

A search that goes from place to place and picks at most one thing at each enumerates what it can
pick (`enumerates_filterMap`).
-/

set_option autoImplicit false

namespace ChangeContext

universe u v w

/-- The list has exactly the things with the property, by their places. -/
structure Enumerates {ι : Type u} {α : Type v} [LT ι] (found : List (ι × α)) (P : ι → α → Prop) :
    Prop where
  mem_iff : ∀ i a, (i, a) ∈ found ↔ P i a
  ascending : (found.map (·.1)).Pairwise (· < ·)

variable {ι : Type u} {α : Type v} {β : Type w}

/-- **Picking from places in ascending order enumerates** what can be picked. -/
theorem enumerates_filterMap [LT ι] {met : List (ι × α)} (pick : ι × α → Option β)
    {P : ι → β → Prop} (hmet : (met.map (·.1)).Pairwise (· < ·))
    (h : ∀ i b, (∃ a, (i, a) ∈ met ∧ pick (i, a) = some b) ↔ P i b) :
    Enumerates (met.filterMap fun m ↦ (pick m).map (m.1, ·)) P where
  mem_iff i b := by
    rw [← h, List.mem_filterMap]
    constructor
    · rintro ⟨⟨i', a⟩, hmem, hpick⟩
      obtain ⟨b', hpicked, heq⟩ := Option.map_eq_some_iff.1 hpick
      obtain ⟨rfl, rfl⟩ := Prod.mk.inj heq
      exact ⟨a, hmem, hpicked⟩
    · rintro ⟨a, hmem, hpick⟩
      exact ⟨(i, a), hmem, by simp [hpick]⟩
  ascending := by
    rw [List.pairwise_map] at hmet ⊢
    rw [List.pairwise_filterMap]
    refine hmet.imp fun {m m'} hlt b hb b' hb' ↦ ?_
    obtain ⟨-, -, rfl⟩ := Option.map_eq_some_iff.1 hb
    obtain ⟨-, -, rfl⟩ := Option.map_eq_some_iff.1 hb'
    exact hlt

/-- What is picked, without the places. -/
theorem map_snd_filterMap (met : List (ι × α)) (pick : ι × α → Option β) :
    (met.filterMap fun m ↦ (pick m).map (m.1, ·)).map (·.2) = met.filterMap pick := by
  rw [List.map_filterMap]
  refine List.filterMap_congr fun m _ ↦ ?_
  rw [Option.map_map]
  exact Option.map_id'

end ChangeContext
