import ChangeContext.Json.Decode

/-!
# Writers and readers that fit

A value is written as JSON by one function and read by another.  The two fit (`Json.Codec`) when every
value that can be written is read back as it was, and only such values are ever read.  Texts, truth
values and numbers of 64 bits fit, and so do lists and records of what fits.

A record is read field by field, each found by its name, so all that is asked of its writer is that
no name is written twice (`fields?_record`).
-/

set_option autoImplicit false

namespace ChangeContext

namespace Json

/-- Whatever satisfies `P` is read back from what is written for it, and whatever is read satisfies
`P`. -/
structure Codec {α : Type} (P : α → Prop) (write : α → Json) (read : Json → Option α) : Prop where
  reads : ∀ a, P a → read (write a) = some a
  yields : ∀ v a, read v = some a → P a

/-! ## Single values -/

/-- The number has 64 bits. -/
def FitsWord (n : Nat) : Prop :=
  n < 18446744073709551616

instance (n : Nat) : Decidable (FitsWord n) :=
  inferInstanceAs (Decidable (n < 18446744073709551616))

theorem codec_text : Codec (fun _ ↦ True) text asText? where
  reads _ _ := rfl
  yields _ _ _ := trivial

theorem codec_bool : Codec (fun _ ↦ True) bool asBool? where
  reads _ _ := rfl
  yields _ _ _ := trivial

theorem codec_nat : Codec FitsWord nat asNat? where
  reads n hn := if_pos hn
  yields v n h := by
    rw [asNat?, asNatBelow?.eq_def] at h
    split at h
    · split at h
      next hlt => exact Option.some_inj.1 h ▸ hlt
      · simp at h
    · simp at h

/-! ## Lists and options -/

section Combinators

variable {α : Type} {P : α → Prop} {write : α → Json} {read : Json → Option α}

theorem Codec.mapM_reads (h : Codec P write read) {l : List α} (hl : ∀ a ∈ l, P a) :
    (l.map write).mapM read = some l := by
  induction l with
  | nil => rfl
  | cons a l ih =>
    rw [List.map_cons, List.mapM_cons, h.reads a (hl a (List.mem_cons_self ..)),
      ih fun b hb ↦ hl b (List.mem_cons_of_mem _ hb)]
    rfl

theorem Codec.mapM_yields (h : Codec P write read) {items : List Json} {l : List α}
    (hl : items.mapM read = some l) : ∀ a ∈ l, P a := by
  induction items generalizing l with
  | nil =>
    obtain rfl : [] = l := Option.some_inj.1 hl
    simp
  | cons v items ih =>
    rw [List.mapM_cons] at hl
    obtain ⟨a, ha, hl⟩ := Option.bind_eq_some_iff.1 hl
    obtain ⟨rest, hrest, hl⟩ := Option.bind_eq_some_iff.1 hl
    obtain rfl : a :: rest = l := Option.some_inj.1 hl
    intro b hb
    rcases List.mem_cons.1 hb with rfl | hb
    · exact h.yields v b ha
    · exact ih hrest b hb

theorem Codec.list (h : Codec P write read) :
    Codec (fun l ↦ ∀ a ∈ l, P a) (ofList write) (asList? read) where
  reads _ hl := h.mapM_reads hl
  yields v l hl := by
    rw [asList?.eq_def] at hl
    split at hl
    · exact h.mapM_yields hl
    · simp at hl

/-- A field that was written is read back. -/
theorem Codec.required (h : Codec P write read) {a : α} (ha : P a) :
    required? read (some (write a)) = some a :=
  h.reads a ha

theorem Codec.of_required (h : Codec P write read) {v : Option Json} {a : α}
    (ha : required? read v = some a) : P a := by
  obtain ⟨v, -, hread⟩ := Option.bind_eq_some_iff.1 ha
  exact h.yields v a hread

/-- A field that may be absent is read back, as long as null is written for nothing else. -/
theorem Codec.absent (h : Codec P write read) (hnull : ∀ a, write a ≠ null) {o : Option α}
    (ho : ∀ a ∈ o, P a) : absent? read (some (ofOption write o)) = some o := by
  cases o with
  | none => rfl
  | some a =>
    rw [absent?, ofOption, asOption?]
    · rw [h.reads a (ho a rfl), Option.map_some]
    · exact hnull a

theorem Codec.of_absent (h : Codec P write read) {v : Option Json} {o : Option α}
    (ho : absent? read v = some o) : ∀ a ∈ o, P a := by
  intro a ha
  rw [Option.mem_def] at ha
  subst ha
  cases v with
  | none => simp [absent?] at ho
  | some v =>
    rw [absent?, asOption?.eq_def] at ho
    split at ho
    · simp at ho
    · obtain ⟨b, hread, hb⟩ := Option.map_eq_some_iff.1 ho
      exact Option.some_inj.1 hb ▸ h.yields _ b hread

end Combinators

/-! ## Records -/

theorem occurrences_record (members : List (String × Json)) (name : String) :
    occurrences name (members.map fun m ↦ (some m.1, m.2)) = (members.map (·.1)).count name := by
  rw [occurrences, ← List.countP_eq_length_filter, List.countP_map, List.count, List.countP_map]
  exact List.countP_congr fun m _ ↦ by simp

theorem find?_record {members : List (String × Json)} (h : (members.map (·.1)).Nodup)
    {m : String × Json} (hm : m ∈ members) :
    (members.map fun m ↦ (some m.1, m.2)).find? (fun n ↦ n.1 == some m.1) =
      some (some m.1, m.2) := by
  induction members with
  | nil => simp at hm
  | cons n members ih =>
    obtain ⟨hn, hrest⟩ := List.nodup_cons.1 h
    rcases List.mem_cons.1 hm with rfl | hm
    · simp
    · have hne : n.1 ≠ m.1 := by
        intro heq
        exact hn (List.mem_map.2 ⟨m, hm, heq.symm⟩)
      rw [List.map_cons, List.find?_cons_of_neg (by simpa using hne)]
      exact ih hrest hm

/-- **The fields of a record are found by their names.** -/
theorem fields?_record (members : List (String × Json)) (h : (members.map (·.1)).Nodup) :
    (record members).fields? (members.map (·.1)) = some (members.map fun m ↦ some m.2) := by
  rw [record, fields?, if_pos]
  · refine congrArg some ?_
    rw [List.map_map]
    refine List.map_congr_left fun m hm ↦ ?_
    rw [Function.comp_apply, find?_record h hm, Option.map_some]
  · rw [Bool.and_eq_true, List.all_eq_true, List.all_eq_true]
    constructor
    · intro m hm
      obtain ⟨_, -, rfl⟩ := List.mem_map.1 hm
      rfl
    · intro name _
      rw [occurrences_record]
      exact decide_eq_true (List.nodup_iff_count.1 h name)

end Json

end ChangeContext
