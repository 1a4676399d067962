import ChangeContext.Instant.Basic

/-!
# The order of time

Instants are compared by their seconds first and by their nanoseconds where these agree, while the
time between two instants is taken in nanoseconds.  The two ways of comparing fall apart only at a
leap second, whose nanoseconds go on counting.  A clock shows no leap seconds, so of two of its
readings the later one is later both ways: that is `Precedes`.
-/

set_option autoImplicit false

namespace ChangeContext

namespace Instant

theorem le_iff {t u : Instant} :
    t.le u = true ↔ t.seconds < u.seconds ∨ t.seconds = u.seconds ∧ t.nanos ≤ u.nanos := by
  simp [le]

theorem le_refl (t : Instant) : t.le t = true :=
  le_iff.2 (.inr ⟨rfl, Nat.le_refl _⟩)

theorem le_trans {t u v : Instant} (htu : t.le u = true) (huv : u.le v = true) :
    t.le v = true := by
  rw [le_iff] at htu huv ⊢
  omega

theorem le_total (t u : Instant) : t.le u = true ∨ u.le t = true := by
  rw [le_iff, le_iff]
  omega

/-- The instant is not in a leap second. -/
def Plain (t : Instant) : Prop :=
  t.nanos < 1000000000

instance (t : Instant) : Decidable t.Plain :=
  inferInstanceAs (Decidable (t.nanos < 1000000000))

/-- Outside leap seconds, both ways of comparing agree. -/
theorem le_iff_toNanos_le {t u : Instant} (ht : t.Plain) (hu : u.Plain) :
    t.le u = true ↔ t.toNanos ≤ u.toNanos := by
  rw [Plain] at ht hu
  rw [le_iff, toNanos, toNanos]
  omega

/-- Outside leap seconds, no two instants are the same moment. -/
theorem toNanos_inj {t u : Instant} (ht : t.Plain) (hu : u.Plain) :
    t.toNanos = u.toNanos ↔ t = u := by
  refine ⟨fun h ↦ ?_, fun h ↦ h ▸ rfl⟩
  obtain ⟨seconds, nanos⟩ := t
  obtain ⟨seconds', nanos'⟩ := u
  simp only [Plain] at ht hu
  simp only [toNanos] at h
  obtain rfl : seconds = seconds' := by omega
  obtain rfl : nanos = nanos' := by omega
  rfl

/-- `u` is a later reading of the clock than `t`. -/
def Precedes (t u : Instant) : Prop :=
  u.le t = false ∧ t.toNanos < u.toNanos

instance (t u : Instant) : Decidable (t.Precedes u) :=
  inferInstanceAs (Decidable (_ ∧ _))

end Instant

end ChangeContext
