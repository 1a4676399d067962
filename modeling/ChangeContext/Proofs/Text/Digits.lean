import Mathlib.Data.List.Basic
import Mathlib.Tactic.IntervalCases

/-!
# Numbers in digits

Every format writes numbers by `Nat.toDigits` and reads them by taking digits as long as there are
any and adding them up.  What is read is what was written as long as something other than a digit
follows, and zeros in front change nothing.

What holds of the few characters that a format marks something by is decided along their list.
-/

set_option autoImplicit false

namespace ChangeContext

namespace Text

/-! ## The characters of a list

There are finitely many characters at all, so a statement about all of them is decidable by trying
each.  These instances are found first, and try those of the list only. -/

section Decide

variable {p : Char → Prop} [DecidablePred p]

instance decidableForallMem (cs : List Char) : Decidable (∀ c ∈ cs, p c) :=
  List.decidableBAll p cs

instance decidableExistsMem (cs : List Char) : Decidable (∃ c ∈ cs, p c) :=
  List.decidableBEx p cs

end Decide

/-! ## Where a stretch ends -/

/-- The characters do not begin with one of this kind. -/
def Stops (p : Char → Bool) (cs : List Char) : Prop :=
  ∀ c, cs.head? = some c → p c = false

section Stops

variable {p : Char → Bool} {cs rest : List Char}

theorem stops_nil : Stops p [] := by
  intro c hc
  simp at hc

theorem stops_cons {c : Char} (h : p c = false) : Stops p (c :: rest) := by
  intro d hd
  obtain rfl : c = d := by simpa using hd
  exact h

theorem stops_iff : Stops p cs ↔ cs.head?.any p = false := by
  cases cs <;> simp [Stops]

theorem takeWhile_append_of_stops (hcs : ∀ c ∈ cs, p c = true) (hrest : Stops p rest) :
    (cs ++ rest).takeWhile p = cs := by
  rw [List.takeWhile_append_of_pos hcs]
  cases rest with
  | nil => simp
  | cons c rest => simp [hrest c rfl]

theorem dropWhile_append_of_stops (hcs : ∀ c ∈ cs, p c = true) (hrest : Stops p rest) :
    (cs ++ rest).dropWhile p = rest := by
  rw [List.dropWhile_append_of_pos hcs]
  cases rest with
  | nil => rfl
  | cons c rest => simp [hrest c rfl]

/-- Where characters of a class end is known from the text. -/
theorem append_cons_inj (accepts : Char → Bool) {cs cs' rest rest' : List Char} {c c' : Char}
    (hcs : ∀ x ∈ cs, accepts x = true) (hc : accepts c = false)
    (hcs' : ∀ x ∈ cs', accepts x = true) (hc' : accepts c' = false)
    (h : cs ++ c :: rest = cs' ++ c' :: rest') : cs = cs' ∧ c = c' ∧ rest = rest' := by
  have hfront : cs = cs' := by
    have htake := congrArg (List.takeWhile accepts) h
    rwa [takeWhile_append_of_stops hcs (stops_cons hc),
      takeWhile_append_of_stops hcs' (stops_cons hc')] at htake
  subst hfront
  obtain ⟨hhead, htail⟩ := List.cons.inj (List.append_cancel_left h)
  exact ⟨rfl, hhead, htail⟩

end Stops

/-! ## Digits -/

theorem isDigit_of_mem_toDigits {n : Nat} {c : Char} (h : c ∈ Nat.toDigits 10 n) :
    c.isDigit = true :=
  Nat.isDigit_of_mem_toDigits (by decide) (by decide) h

theorem ne_of_isDigit {c d : Char} (hc : c.isDigit = true) (hd : d.isDigit = false) : c ≠ d := by
  rintro rfl
  rw [hc] at hd
  exact Bool.noConfusion hd

/-- A number begins with a digit. -/
theorem toDigits_eq_cons (n : Nat) : ∃ c cs, Nat.toDigits 10 n = c :: cs ∧ c.isDigit = true := by
  cases hcs : Nat.toDigits 10 n with
  | nil => exact absurd hcs Nat.toDigits_ne_nil
  | cons c cs => exact ⟨c, cs, rfl, isDigit_of_mem_toDigits (hcs ▸ List.mem_cons_self ..)⟩

/-- Digits add up to the number that they spell, whatever zeros stand in front. -/
theorem foldl_toDigits (zeros n : Nat) :
    (List.replicate zeros '0' ++ Nat.toDigits 10 n).foldl (fun n c ↦ n * 10 + (c.toNat - 48)) 0 =
      n := by
  have hfold : ∀ (cs : List Char) (init : Nat),
      cs.foldl (fun n c ↦ n * 10 + (c.toNat - 48)) init = Nat.ofDigitChars 10 cs init := by
    intro cs init
    rw [Nat.ofDigitChars_eq_foldl]
    simp only [Nat.mul_comm]
    rfl
  rw [hfold, Nat.ofDigitChars_append, Nat.ofDigitChars_replicate_zero, Nat.mul_zero,
    Nat.ofDigitChars_ten_toDigits]

/-- A number and what follows it can be told apart where something other than a digit follows. -/
theorem toDigits_append_inj {m n : Nat} {rest rest' : List Char} (hrest : Stops Char.isDigit rest)
    (hrest' : Stops Char.isDigit rest')
    (h : Nat.toDigits 10 m ++ rest = Nat.toDigits 10 n ++ rest') : m = n ∧ rest = rest' := by
  have hdigits : Nat.toDigits 10 m = Nat.toDigits 10 n := by
    have htake := congrArg (List.takeWhile Char.isDigit) h
    rwa [takeWhile_append_of_stops (fun _ ↦ isDigit_of_mem_toDigits) hrest,
      takeWhile_append_of_stops (fun _ ↦ isDigit_of_mem_toDigits) hrest'] at htake
  constructor
  · rw [← foldl_toDigits 0 m, ← foldl_toDigits 0 n, hdigits]
  · rw [hdigits] at h
    exact List.append_cancel_left h

/-- So many digits spell no greater number than there is room for. -/
theorem foldl_digits_lt {cs : List Char} (h : ∀ c ∈ cs, c.isDigit = true) (init : Nat) :
    cs.foldl (fun n c ↦ n * 10 + (c.toNat - 48)) init < (init + 1) * 10 ^ cs.length := by
  induction cs generalizing init with
  | nil => simp
  | cons c cs ih =>
    have hdigit : 48 ≤ c.toNat ∧ c.toNat ≤ 57 :=
      Char.isDigit_iff_toNat.1 (h c (List.mem_cons_self ..))
    have hcs := ih (fun d hd ↦ h d (List.mem_cons_of_mem _ hd)) (init * 10 + (c.toNat - 48))
    calc (c :: cs).foldl (fun n c ↦ n * 10 + (c.toNat - 48)) init
        < (init * 10 + (c.toNat - 48) + 1) * 10 ^ cs.length := hcs
      _ ≤ ((init + 1) * 10) * 10 ^ cs.length := Nat.mul_le_mul_right _ (by omega)
      _ = (init + 1) * 10 ^ (c :: cs).length := by
        rw [List.length_cons, Nat.pow_succ']
        exact Nat.mul_assoc ..

/-- Only zero begins with a zero. -/
theorem head?_toDigits {n : Nat} (h : 0 < n) : (Nat.toDigits 10 n).head? ≠ some '0' := by
  induction n using Nat.strong_induction_on with
  | _ n ih =>
    rw [Nat.toDigits_eq_if (by decide)]
    split
    next hlt =>
      interval_cases n <;> decide
    next hle =>
      rw [List.head?_append_of_ne_nil _ Nat.toDigits_ne_nil]
      exact ih (n / 10) (by omega) (by omega)

end Text

end ChangeContext
