import ChangeContext.Instant.Text
import ChangeContext.Proofs.Instant.Calendar
import ChangeContext.Proofs.Text.Digits

/-!
# Written instants are read back

An instant that has a place in the calendar is read back from its text to the nanosecond
(`read?_toText`), and whatever is read has a place in the calendar (`valid_of_read?`).  A leap second
counts on from the last second of a minute, because it was read as the sixtieth.
-/

set_option autoImplicit false

namespace ChangeContext

namespace Instant

/-- The instant has a place in the calendar: it lies within the years of the calendar, and if it is
a leap second, at the end of a minute. -/
structure Valid (t : Instant) : Prop where
  nanos : t.nanos < 2000000000
  leap : 1000000000 ≤ t.nanos → t.seconds % 60 = 59
  inCalendar : inCalendar t.seconds = true

instance (t : Instant) : Decidable t.Valid :=
  decidable_of_iff (t.nanos < 2000000000 ∧ (1000000000 ≤ t.nanos → t.seconds % 60 = 59) ∧
    Instant.inCalendar t.seconds = true)
    ⟨fun h ↦ ⟨h.1, h.2.1, h.2.2⟩, fun h ↦ ⟨h.nanos, h.leap, h.inCalendar⟩⟩

/-! ## Numbers -/

section Numbers

variable {n width most : Nat} {rest : List Char}

theorem isDigit_of_mem_padded {c : Char} (h : c ∈ padded width n) : c.isDigit = true := by
  rcases List.mem_append.1 h with h | h
  · rw [List.eq_of_mem_replicate h]
    decide
  · exact Text.isDigit_of_mem_toDigits h

theorem padded_ne_nil (width n : Nat) : padded width n ≠ [] := by
  simp [padded]

theorem padded_eq_cons (width n : Nat) : ∃ c cs, padded width n = c :: cs ∧ c.isDigit = true := by
  cases hcs : padded width n with
  | nil => exact absurd hcs (padded_ne_nil width n)
  | cons c cs => exact ⟨c, cs, rfl, isDigit_of_mem_padded (hcs ▸ List.mem_cons_self ..)⟩

/-- A number that has the room is written in exactly this many digits. -/
theorem length_padded (hwidth : 0 < width) (h : n < 10 ^ width) : (padded width n).length = width := by
  have hle := (Nat.length_toDigits_le_iff (by decide : 1 < 10) hwidth).2 h
  rw [padded, List.length_append, List.length_replicate]
  omega

/-- The digits that are taken are those that were written. -/
theorem takeWhile_take_padded (hmost : (padded width n).length ≤ most)
    (hrest : Text.Stops Char.isDigit rest) :
    ((padded width n ++ rest).take most).takeWhile Char.isDigit = padded width n := by
  have hstops : Text.Stops Char.isDigit (rest.take (most - (padded width n).length)) := by
    intro c hc
    cases rest with
    | nil => simp at hc
    | cons d rest =>
      cases hk : most - (padded width n).length with
      | zero => simp [hk] at hc
      | succ k => exact hrest c (by simpa [hk] using hc)
  rw [List.take_append, List.take_of_length_le hmost]
  exact Text.takeWhile_append_of_stops (fun _ ↦ isDigit_of_mem_padded) hstops

theorem foldl_padded (width n : Nat) :
    (padded width n).foldl (fun n c ↦ n * 10 + (c.toNat - 48)) 0 = n :=
  Text.foldl_toDigits _ n

/-- **A number is read back up to where its digits end.** -/
theorem readNumber_padded (hmost : (padded width n).length ≤ most)
    (hrest : Text.Stops Char.isDigit rest) :
    readNumber most (padded width n ++ rest) = some (n, rest) := by
  rw [readNumber, takeWhile_take_padded hmost hrest]
  simp [padded_ne_nil, foldl_padded]

theorem not_isBlank_of_isDigit {c : Char} (h : c.isDigit = true) : Text.isBlank c = false := by
  have hrange : 48 ≤ c.toNat ∧ c.toNat ≤ 57 := Char.isDigit_iff_toNat.1 h
  simp only [Text.isBlank, Bool.or_eq_false_iff, Bool.and_eq_false_iff, decide_eq_false_iff_not,
    beq_eq_false_iff_ne]
  omega

/-- A number is not mistaken for blanks. -/
theorem skipBlanks_padded (width n : Nat) (rest : List Char) :
    skipBlanks (padded width n ++ rest) = padded width n ++ rest := by
  obtain ⟨c, cs, hcs, hdigit⟩ := padded_eq_cons width n
  simp [hcs, skipBlanks, not_isBlank_of_isDigit hdigit]

/-- Two digits are read back. -/
theorem readField_padded (h : n < 100) (hrest : Text.Stops Char.isDigit rest) :
    readField (padded 2 n ++ rest) = some (n, rest) := by
  rw [readField, skipBlanks_padded, readNumber_padded (length_padded (by decide) h).le hrest]

end Numbers

/-! ## The parts of an instant -/

theorem skipBlanks_cons {c : Char} (h : Text.isBlank c = false) (rest : List Char) :
    skipBlanks (c :: rest) = c :: rest := by
  simp [skipBlanks, h]

theorem readMark_cons {c : Char} (h : Text.isBlank c = false) (rest : List Char) :
    readMark c (c :: rest) = some rest := by
  rw [readMark, skipBlanks_cons h]
  simp

/-- A number without a sign is read as a year of four digits. -/
theorem readYear_padded (width n : Nat) (rest : List Char) :
    readYear (padded width n ++ rest) =
      (readNumber 4 (padded width n ++ rest)).map fun r ↦ ((r.1 : Int), r.2) := by
  obtain ⟨c, cs, hcs, hdigit⟩ := padded_eq_cons width n
  have hne : ∀ d : Char, d.isDigit = false → c ≠ d := by
    rintro d hd rfl
    rw [hdigit] at hd
    exact Bool.noConfusion hd
  rw [readYear, skipBlanks_padded, hcs, List.cons_append]
  split
  next heq => exact absurd (List.cons.inj heq).1 (hne '-' (by decide))
  next heq => exact absurd (List.cons.inj heq).1 (hne '+' (by decide))
  · rfl

/-- A year is read back up to the mark behind it. -/
theorem readYear_yearChars (year : Int) (rest : List Char) :
    readYear (yearChars year ++ '-' :: rest) = some (year, '-' :: rest) := by
  have hstops : Text.Stops Char.isDigit ('-' :: rest) := Text.stops_cons (by decide)
  have hsigned : readNumber (padded 4 year.natAbs ++ '-' :: rest).length
      (padded 4 year.natAbs ++ '-' :: rest) = some (year.natAbs, '-' :: rest) :=
    readNumber_padded (by simp) hstops
  rw [yearChars]
  split
  next h =>
    rw [Bool.and_eq_true, decide_eq_true_iff, decide_eq_true_iff] at h
    rw [readYear_padded, readNumber_padded (length_padded (by decide) (by omega)).le hstops,
      Option.map_some, Int.toNat_of_nonneg h.1]
  next h =>
    split
    next hneg =>
      rw [List.cons_append, readYear, skipBlanks_cons (by decide)]
      simp only [hsigned, Option.map_some]
      rw [Int.ofNat_natAbs_of_nonpos (by omega), Int.neg_neg]
    next hpos =>
      rw [List.cons_append, readYear, skipBlanks_cons (by decide)]
      simp only [hsigned, Option.map_some]
      rw [Int.natAbs_of_nonneg (by omega)]

/-- Digits behind a point are read as a fraction. -/
theorem readNanos_padded {width n : Nat} (hpos : 0 < width) (hwidth : width ≤ 9)
    (h : n < 10 ^ width) :
    readNanos ('.' :: padded width n ++ ['Z']) = some (n * 10 ^ (9 - width), ['Z']) := by
  have hlength := length_padded hpos h
  have hstops : Text.Stops Char.isDigit ['Z'] := Text.stops_cons (by decide)
  have htake : ((padded width n ++ ['Z']).take 9).takeWhile Char.isDigit = padded width n :=
    takeWhile_take_padded (hlength.le.trans hwidth) hstops
  have hdrop : (padded width n ++ ['Z']).dropWhile Char.isDigit = ['Z'] :=
    Text.dropWhile_append_of_stops (fun _ ↦ isDigit_of_mem_padded) hstops
  rw [List.cons_append, readNanos, htake, hdrop]
  simp [padded_ne_nil, foldl_padded, hlength]

/-- A fraction is read back. -/
theorem readNanos_fractionChars {nanos : Nat} (h : nanos < 1000000000) :
    readNanos (fractionChars nanos ++ ['Z']) = some (nanos, ['Z']) := by
  rw [fractionChars]
  split
  next hzero => rw [hzero]; rfl
  split
  next hmilli =>
    rw [readNanos_padded (by decide) (by decide) (by omega)]
    congr 2
    omega
  split
  next hmicro =>
    rw [readNanos_padded (by decide) (by decide) (by omega)]
    congr 2
    omega
  next =>
    rw [readNanos_padded (by decide) (by decide) (by omega)]
    congr 2
    omega

/-- The months and days of a date have two digits. -/
theorem lt_of_isValid {d : Date} (h : d.isValid = true) : d.month < 100 ∧ d.day < 100 := by
  have hdays : Date.daysInMonth d.year d.month ≤ 31 := by
    rw [Date.daysInMonth]
    split
    · split <;> omega
    · split <;> omega
  simp only [Date.isValid, Bool.and_eq_true, decide_eq_true_eq] at h
  omega

theorem stops_fractionChars (nanos : Nat) :
    Text.Stops Char.isDigit (fractionChars nanos ++ ['Z']) := by
  rw [fractionChars]
  split
  · exact Text.stops_cons (by decide)
  split
  · exact Text.stops_cons (by decide)
  split
  · exact Text.stops_cons (by decide)
  · exact Text.stops_cons (by decide)

theorem readDate_append {date : Date} (hdate : date.isValid = true) {rest : List Char}
    (hrest : Text.Stops Char.isDigit rest) :
    readDate (yearChars date.year ++ '-' :: (padded 2 date.month ++ '-' ::
      (padded 2 date.day ++ rest))) = some (date, rest) := by
  obtain ⟨hmonth, hday⟩ := lt_of_isValid hdate
  have hdash : Text.isBlank '-' = false := by decide
  refine Option.bind_eq_some_iff.2 ⟨_, readYear_yearChars _ _, ?_⟩
  refine Option.bind_eq_some_iff.2 ⟨_, readMark_cons hdash _, ?_⟩
  refine Option.bind_eq_some_iff.2 ⟨_, readField_padded hmonth (Text.stops_cons (by decide)), ?_⟩
  refine Option.bind_eq_some_iff.2 ⟨_, readMark_cons hdash _, ?_⟩
  exact Option.bind_eq_some_iff.2 ⟨_, readField_padded hday hrest, rfl⟩

/-- The reader finds the parts of an instant in universal time. -/
theorem read?_eq_ofParts? {date : Date} {hour minute second nanos : Nat}
    (hdate : date.isValid = true) (hhour : hour < 24) (hminute : minute < 60)
    (hsecond : second ≤ 60) (hnanos : nanos < 1000000000) {s : String} {t : Instant}
    (hs : s.toList = yearChars date.year ++ '-' :: (padded 2 date.month ++ '-' ::
      (padded 2 date.day ++ 'T' :: (padded 2 hour ++ ':' :: (padded 2 minute ++ ':' ::
        (padded 2 second ++ (fractionChars nanos ++ ['Z'])))))))
    (ht : ofParts? date hour minute second nanos 0 = some t) : read? s = some t := by
  have hcolon : Text.isBlank ':' = false := by decide
  rw [read?, hs]
  refine Option.bind_eq_some_iff.2 ⟨_, readDate_append hdate (Text.stops_cons (by decide)), ?_⟩
  refine Option.bind_eq_some_iff.2 ⟨_, rfl, ?_⟩
  refine Option.bind_eq_some_iff.2
    ⟨_, readField_padded (hhour.trans (by decide)) (Text.stops_cons (by decide)), ?_⟩
  refine Option.bind_eq_some_iff.2 ⟨_, readMark_cons hcolon _, ?_⟩
  refine Option.bind_eq_some_iff.2
    ⟨_, readField_padded (hminute.trans (by decide)) (Text.stops_cons (by decide)), ?_⟩
  refine Option.bind_eq_some_iff.2 ⟨_, readMark_cons hcolon _, ?_⟩
  refine Option.bind_eq_some_iff.2
    ⟨_, readField_padded (hsecond.trans_lt (by decide)) (stops_fractionChars nanos), ?_⟩
  refine Option.bind_eq_some_iff.2 ⟨_, readNanos_fractionChars hnanos, ?_⟩
  refine Option.bind_eq_some_iff.2 ⟨(0, []), rfl, ?_⟩
  exact ht

/-- **An instant of the calendar is read back.** -/
theorem read?_toText {t : Instant} (h : t.Valid) : read? t.toText = some t := by
  obtain ⟨seconds, nanos⟩ := t
  have hnanos : nanos < 2000000000 := h.nanos
  have hleap : 1000000000 ≤ nanos → seconds % 60 = 59 := h.leap
  have hdays : Int.fdiv seconds 86400 = seconds / 86400 :=
    Int.fdiv_eq_ediv_of_nonneg _ (by decide)
  generalize hsecond : (seconds - Int.fdiv seconds 86400 * 86400).toNat = second
  have hlt : second < 86400 := by omega
  have hminute : seconds % 60 = (second % 60 : Nat) := by omega
  have hvalid := Date.isValid_ofDays (Int.fdiv seconds 86400)
  refine read?_eq_ofParts? hvalid (show second / 3600 < 24 by omega)
    (show second / 60 % 60 < 60 by omega) (show second % 60 + nanos / 1000000000 ≤ 60 by omega)
    (show nanos % 1000000000 < 1000000000 by omega) (by simp [toText, hsecond]) ?_
  have hyear : yearInRange (Date.ofDays (Int.fdiv seconds 86400)).year = true := h.inCalendar
  have hone : (if second % 60 + nanos / 1000000000 = 60 then 1 else 0) = nanos / 1000000000 := by
    split <;> omega
  have hseconds : Int.fdiv seconds 86400 * 86400 + (second / 3600 * 3600 + second / 60 % 60 * 60 +
      (second % 60 + nanos / 1000000000 - nanos / 1000000000) : Nat) - 0 = seconds := by
    omega
  rw [ofParts?, if_pos]
  · simp only [hone, Date.toDays_ofDays, hseconds]
    rw [if_pos h.inCalendar, Nat.mod_add_div']
  · simp only [hyear, hvalid, Bool.true_and, Bool.and_eq_true, decide_eq_true_eq]
    omega

/-! ## What is read -/

theorem readNanos_lt {cs rest : List Char} {nanos : Nat} (h : readNanos cs = some (nanos, rest)) :
    nanos < 1000000000 := by
  rw [readNanos.eq_def] at h
  split at h
  next cs =>
    generalize hdigits : (cs.take 9).takeWhile Char.isDigit = digits at h
    have hall : ∀ c ∈ digits, c.isDigit = true := by
      rw [← hdigits]
      exact List.all_eq_true.1 List.all_takeWhile
    have hlength : digits.length ≤ 9 := by
      rw [← hdigits]
      exact (List.takeWhile_sublist _).length_le.trans (List.length_take_le ..)
    have hlt := Text.foldl_digits_lt hall 0
    simp only at h
    split at h
    · simp at h
    · rw [Option.some_inj, Prod.mk.injEq] at h
      rw [← h.1]
      calc digits.foldl (fun n c ↦ n * 10 + (c.toNat - 48)) 0 * Nat.pow 10 (9 - digits.length)
          < 10 ^ digits.length * 10 ^ (9 - digits.length) :=
            Nat.mul_lt_mul_of_pos_right (by omega) (Nat.pow_pos (by decide))
        _ = 1000000000 := by
            rw [← Nat.pow_add, Nat.add_sub_cancel' hlength]
  next =>
    rw [Option.some_inj, Prod.mk.injEq] at h
    omega

/-- Hours and minutes are whole minutes. -/
theorem readClock_mod {cs rest : List Char} {n : Nat} (h : readClock cs = some (n, rest)) :
    n % 60 = 0 := by
  rw [readClock] at h
  obtain ⟨⟨hours, cs⟩, -, h⟩ := Option.bind_eq_some_iff.1 h
  obtain ⟨⟨minutes, cs⟩, -, h⟩ := Option.bind_eq_some_iff.1 h
  simp only at h
  split at h
  · obtain ⟨rfl, -⟩ : hours * 3600 + minutes * 60 = n ∧ cs = rest := by simpa using h
    omega
  · simp at h

/-- An offset is in whole minutes. -/
theorem readOffset_mod {cs rest : List Char} {offset : Int}
    (h : readOffset cs = some (offset, rest)) : offset % 60 = 0 := by
  have hclock : ∀ (f : Nat → Int) {cs : List Char}, (∀ n, n % 60 = 0 → f n % 60 = 0) →
      (readClock cs).map (fun r ↦ (f r.1, r.2)) = some (offset, rest) → offset % 60 = 0 := by
    intro f cs hf h
    obtain ⟨⟨n, rest'⟩, hread, heq⟩ := Option.map_eq_some_iff.1 h
    rw [Prod.mk.injEq] at heq
    rw [← heq.1]
    exact hf n (readClock_mod hread)
  rw [readOffset.eq_def] at h
  split at h
  · simp at h
    omega
  · simp at h
    omega
  · exact hclock (fun n ↦ n) (by omega) h
  · exact hclock (fun n ↦ -n) (by omega) h
  · exact hclock (fun n ↦ -n) (by omega) h
  · split at h
    · simp at h
      omega
    · simp at h

/-- The seconds of a time of day in whole minutes, and the nanoseconds of a leap second. -/
theorem valid_of_ofParts? {date : Date} {hour minute second nanos : Nat} {offset : Int}
    (hnanos : nanos < 1000000000) (hoffset : offset % 60 = 0) {t : Instant}
    (h : ofParts? date hour minute second nanos offset = some t) : t.Valid := by
  rw [ofParts?] at h
  split at h
  · generalize hleap : (if second = 60 then 1 else 0) = leap at h
    simp only at h
    split at h
    next hcalendar =>
      rw [Option.some_inj] at h
      subst h
      refine ⟨?_, fun hge ↦ ?_, hcalendar⟩
      · have hle : leap ≤ 1 := by rw [← hleap]; split <;> omega
        simp only
        omega
      · simp only at hge ⊢
        split at hleap <;> omega
    next => simp at h
  · simp at h

/-- **What is read has a place in the calendar.** -/
theorem valid_of_read? {s : String} {t : Instant} (h : read? s = some t) : t.Valid := by
  rw [read?] at h
  obtain ⟨⟨date, cs⟩, -, h⟩ := Option.bind_eq_some_iff.1 h
  obtain ⟨cs, -, h⟩ := Option.bind_eq_some_iff.1 h
  obtain ⟨⟨hour, cs⟩, -, h⟩ := Option.bind_eq_some_iff.1 h
  obtain ⟨cs, -, h⟩ := Option.bind_eq_some_iff.1 h
  obtain ⟨⟨minute, cs⟩, -, h⟩ := Option.bind_eq_some_iff.1 h
  obtain ⟨cs, -, h⟩ := Option.bind_eq_some_iff.1 h
  obtain ⟨⟨second, cs⟩, -, h⟩ := Option.bind_eq_some_iff.1 h
  obtain ⟨⟨nanos, cs⟩, hnanos, h⟩ := Option.bind_eq_some_iff.1 h
  obtain ⟨⟨offset, cs⟩, hoffset, h⟩ := Option.bind_eq_some_iff.1 h
  simp only at h
  split at h
  · exact valid_of_ofParts? (readNanos_lt hnanos) (readOffset_mod hoffset) h
  · simp at h

end Instant

end ChangeContext
