import ChangeContext.Proofs.Script.Construct

/-!
# What names are read

A name begins with a character that no mark, no number and no blank begins with.  So where a name
stands, the grammar finds none of the other things that it asks for, and an operand that begins with a
name is what the name says (`IsName.primary_eq`).
-/

set_option autoImplicit false

namespace ChangeContext

namespace Script

/-! ## What a name begins with -/

section Start

variable {d : Char}

theorem ne_of_isNameStart {mark : Char} (hmark : isNameStart mark = false)
    (hd : isNameStart d = true) : d ≠ mark := by
  rintro rfl
  rw [hmark] at hd
  exact absurd hd Bool.false_ne_true

theorem solid_of_isNameStart (hd : isNameStart d = true) (cs : List Char) : Solid (d :: cs) := by
  have hslash : d ≠ '/' := ne_of_isNameStart (by decide +kernel) hd
  simp only [isNameStart, Bool.and_eq_true, Bool.not_eq_true'] at hd
  exact Text.stops_cons (by simp [hd.1.1.2, hslash])

theorem isDigit_of_isNameStart (hd : isNameStart d = true) : d.isDigit = false := by
  simp only [isNameStart, Bool.and_eq_true, Bool.not_eq_true'] at hd
  exact hd.1.1.1.2

/-- No blank belongs to a name. -/
theorem isNameRest_of_isBlank (hd : isBlank d = true) : isNameRest d = false := by
  have hdigit : d.isDigit = false := by
    refine Bool.eq_false_iff.2 fun hdigit ↦ ?_
    obtain ⟨hle, hge⟩ : 48 ≤ d.toNat ∧ d.toNat ≤ 57 := Char.isDigit_iff_toNat.1 hdigit
    simp only [isBlank, Text.isBlank, Bool.or_eq_true, Bool.and_eq_true, decide_eq_true_eq,
      beq_iff_eq] at hd
    rcases hd with ((hblank | rfl) | rfl) | rfl
    · omega
    all_goals exact absurd hge (by decide)
  simp [isNameRest, isNameStart, hd, hdigit]

/-- A blank ends a name. -/
theorem nameEnds_of_isBlank (hd : isBlank d = true) (cs : List Char) : NameEnds (d :: cs) := by
  have hne : (d == '\\') = false :=
    beq_eq_false_iff_ne.2 fun heq ↦ absurd (heq ▸ hd) (by decide +kernel)
  exact Text.stops_cons (by rw [isNameRest_of_isBlank hd, hne]; rfl)

end Start

/-! ## Names -/

/-- The characters are those of a name, written out. -/
structure IsName (cs : List Char) : Prop where
  head : cs.head?.any isNameStart = true
  all : ∀ c ∈ cs, isNameRest c = true

namespace IsName

variable {c : Cursor} {cs rest : List Char} {n : Nat}

theorem exists_eq_cons (h : IsName cs) : ∃ d ds, cs = d :: ds ∧ isNameStart d = true := by
  cases cs with
  | nil => exact absurd h.head (by decide)
  | cons d ds => exact ⟨d, ds, rfl, by simpa using h.head⟩

theorem exists_append_eq (h : IsName cs) (rest : List Char) :
    ∃ d ds, cs ++ rest = d :: ds ∧ isNameStart d = true := by
  obtain ⟨d, ds, rfl, hd⟩ := h.exists_eq_cons
  exact ⟨d, ds ++ rest, rfl, hd⟩

theorem solid (h : IsName cs) (rest : List Char) : Solid (cs ++ rest) := by
  obtain ⟨d, ds, heq, hd⟩ := h.exists_append_eq rest
  rw [heq]
  exact solid_of_isNameStart hd ds

theorem name? (h : IsName cs) (hc : c.trimmed = ⟨cs ++ rest, n⟩) (hrest : NameEnds rest) :
    c.name? = some (String.ofList cs, ⟨rest, n + cs.length⟩) := by
  obtain ⟨d, ds, rfl, hd⟩ := h.exists_eq_cons
  exact Cursor.name?_eq_some hc hd (fun c hc ↦ h.all c (List.mem_cons_of_mem d hc)) hrest

/-- No mark stands where a name does. -/
theorem mark?_eq_none (h : IsName cs) (hc : c.trimmed = ⟨cs ++ rest, n⟩) {s : String}
    (hs : (s.toList.head?.any fun d ↦ !isNameStart d) = true) : c.mark? s = none := by
  obtain ⟨d, ds, heq, hd⟩ := h.exists_append_eq rest
  rw [heq] at hc
  refine Cursor.mark?_eq_none hc ?_
  obtain ⟨y, hy, hmark⟩ := (Option.any_eq_true _ _).1 hs
  have hmark : isNameStart y = false := by simpa using hmark
  rw [hy]
  exact bne_iff_ne.2 (ne_of_isNameStart hmark hd).symm

theorem string?_eq_none (h : IsName cs) (hc : c.Faces (cs ++ rest) n) : c.string? = none := by
  obtain ⟨d, ds, heq, hd⟩ := h.exists_append_eq rest
  rw [heq] at hc
  have hdouble : d ≠ '"' := ne_of_isNameStart (by decide +kernel) hd
  have hsingle : d ≠ '\'' := ne_of_isNameStart (by decide +kernel) hd
  exact hc.string?_eq_none (by simp [hdouble, hsingle])

/-- A name is no sign. -/
theorem signLength_eq (h : IsName cs) (rest : List Char) (n : Nat) :
    signLength ⟨cs ++ rest, n⟩ = 0 := by
  obtain ⟨d, ds, heq, hd⟩ := h.exists_append_eq rest
  have hplus : d ≠ '+' := ne_of_isNameStart (by decide +kernel) hd
  have hminus : d ≠ '-' := ne_of_isNameStart (by decide +kernel) hd
  have hnot : d ≠ '!' := ne_of_isNameStart (by decide +kernel) hd
  have htilde : d ≠ '~' := ne_of_isNameStart (by decide +kernel) hd
  rw [heq, signLength, sees_cons_of_ne (by simpa using hplus.symm),
    sees_cons_of_ne (by simpa using hminus.symm)]
  simp [Cursor.seesChar, hplus, hminus, hnot, htilde]

theorem primary_eq (h : IsName cs) (inner : Reader) (hrest : NameEnds rest) (n : Nat) :
    primary inner ⟨cs ++ rest, n⟩ =
      namedPrimary inner (String.ofList cs) ⟨rest, n + cs.length⟩ := by
  have hc := faces_of_solid (h.solid rest) n
  have hname := h.name? hc.trimmed_eq hrest
  have hstring := h.string?_eq_none hc
  obtain ⟨d, ds, rfl, hd⟩ := h.exists_eq_cons
  have hmarks : ∀ mark ∈ "([\x7b\x60/<@#.".toList, d ≠ mark := fun mark hmark ↦
    ne_of_isNameStart ((by decide +kernel : ∀ mark ∈ "([\x7b\x60/<@#.".toList,
      isNameStart mark = false) mark hmark) hd
  have hdigit := isDigit_of_isNameStart hd
  have htext : d :: ds ++ rest = d :: (ds ++ rest) := rfl
  rw [htext] at hc hname hstring ⊢
  unfold primary
  simp only [hc.trimmed_eq]
  split <;> simp_all

end IsName

end Script

end ChangeContext
