import ChangeContext.Proofs.Script.Lexeme

/-!
# What constructs are read

`read` ties the layers of the grammar together, one layer to a unit of its bound.  `Reads` says that
a construct is read whatever larger bound is given, so that the constructs inside a construct can be
read first and each by itself.  An operand is where most of the grammar is asked for something that
is not there: `Cursor.Ends` says what may stand there instead.
-/

set_option autoImplicit false

namespace ChangeContext

namespace Script

/-- The construct is read with this bound and with any larger one. -/
def Reads (bound : Nat) (rule : Rule) (c : Cursor) (r : List Tree × Cursor) : Prop :=
  ∀ m, bound ≤ m → read m rule c = some r

section Reads

variable {bound : Nat} {rule : Rule} {c d : Cursor} {r : List Tree × Cursor} {t : Tree}

theorem Reads.mono {bound' : Nat} (h : Reads bound rule c r) (hbound : bound ≤ bound') :
    Reads bound' rule c r :=
  fun m hm ↦ h m (Nat.le_trans hbound hm)

/-- A construct is read where its layer reads it, given what is inside. -/
theorem reads_succ (h : ∀ m, bound ≤ m → layer (read m) rule c = some r) :
    Reads (bound + 1) rule c r := by
  intro m hm
  obtain ⟨m, rfl⟩ := Nat.exists_eq_add_of_le' (Nat.one_le_of_lt hm)
  exact h m (Nat.le_of_succ_le_succ hm)

/-! ## Where operands end -/

/-- A mark that closes a list or a statement stands right here. -/
theorem faces_closing {x : Char} (hx : x ∈ "),;".toList) (cs : List Char) (n : Nat) :
    (Cursor.mk (x :: cs) n).Faces (x :: cs) n :=
  faces_of_solid (Text.stops_cons
    ((by decide : ∀ x ∈ "),;".toList, (isBlank x || x == '/') = false) x hx)) n

theorem closes_of_mark {x : Char} (hx : x ∈ "),;".toList) (cs : List Char) (n : Nat) :
    (Cursor.mk (x :: cs) n).Closes :=
  closes_of_trimmed_cons (faces_closing hx cs n).trimmed_eq
    ((by decide : ∀ x ∈ "),;".toList, x ∈ "),;\x7b".toList) x hx)

/-- Nothing behind the gap goes on with an operand: the text ends, or a mark stands there that closes
a list or a statement, opens a body, or adds something up. -/
structure Cursor.Ends (c : Cursor) : Prop where
  mark : ∀ x, c.trimmed.ahead.head? = some x → x ∈ "),;\x7b+".toList
  single : c.trimmed.sees "++" = false

theorem Cursor.Closes.ends (h : c.Closes) : c.Ends where
  mark x hx := (by decide : ∀ x ∈ "),;\x7b".toList, x ∈ "),;\x7b+".toList) x (h x hx)
  single := sees_eq_false h (by decide)

theorem ends_of_plus {cs : List Char} {n : Nat} (h : c.trimmed = ⟨'+' :: ' ' :: cs, n⟩) : c.Ends where
  mark x hx := by
    rw [h] at hx
    exact Option.some_inj.1 hx ▸ (by decide : '+' ∈ "),;\x7b+".toList)
  single := by rw [h]; rfl

namespace Cursor.Ends

theorem attachment_eq_none (h : c.Ends) (inner : Reader) (base : Tree) (calls : Bool) :
    attachment inner base calls c = none := by
  have hmarks : ∀ x ∈ "),;\x7b+".toList, x ≠ '(' ∧ x ≠ '[' ∧ x ≠ '\x60' ∧ x ≠ '.' ∧ x ≠ '?' := by
    decide
  have hmark := h.mark
  rw [attachment]
  simp only
  split <;> simp_all

theorem stepped_eq (h : c.Ends) (base : List Tree) : stepped base c = some (base, c) := by
  have hminus : c.trimmed.sees "--" = false := sees_eq_false h.mark (by decide)
  have hplus := h.single
  simp only [Cursor.trimmed] at hplus hminus
  simp [stepped, hplus, hminus]

theorem reads_attached (h : c.Ends) (base : Tree) (calls : Bool) :
    Reads 1 (.attached base calls) c ([base], c) :=
  reads_succ fun m _ ↦ by
    change attached (read m) base calls c = _
    rw [attached, h.attachment_eq_none]

theorem mark?_eq_none (h : c.Ends) {s : String}
    (hs : (s.toList.head?.any fun y ↦ "),;\x7b+".toList.all (y != ·)) = true) : c.mark? s = none := by
  rw [Cursor.mark?, sees_eq_false h.mark hs]
  rfl

theorem atArrow_eq_false (h : c.Ends) : c.atArrow = false :=
  sees_eq_false h.mark (by decide)

theorem name?_eq_none (h : c.Ends) : c.name? = none := by
  rcases htrimmed : c.trimmed with ⟨_ | ⟨x, cs⟩, n⟩
  · rw [Cursor.name?, htrimmed]
    rfl
  · have hx : x ∈ "),;\x7b+".toList := h.mark x (by rw [htrimmed]; rfl)
    exact Cursor.name?_eq_none htrimmed ((by decide +kernel : ∀ x ∈ "),;\x7b+".toList,
      (isNameRest x || x == '\\') = false) x hx)

end Cursor.Ends

/-! ## Operands -/

/-- An operand before which no sign and no word stands. -/
theorem reads_operand {x : Char} {cs : List Char} {n : Nat} {t' : Tree} {d' : Cursor}
    (hc : c.trimmed = ⟨x :: cs, n⟩) (hsign : signLength ⟨x :: cs, n⟩ = 0)
    (hprefixed : prefixWord? ⟨x :: cs, n⟩ = none)
    (hyield : (Cursor.mk (x :: cs) n).keyword? "yield" = none)
    (hprimary : Reads bound .primary ⟨x :: cs, n⟩ ([t], d))
    (hattached : Reads bound (.attached t true) d ([t'], d')) (hends : d'.Ends) :
    Reads (bound + 1) .operand c ([t'], d') :=
  reads_succ fun m hm ↦ by
    change operand (read m) c = _
    have hsome := hprimary m hm
    have hmore := hattached m hm
    simp only [operand, hc, hsign, hprefixed, hyield]
    simp [hsome, hmore, hends.stepped_eq]

theorem Cursor.Closes.operands_eq (h : c.Closes) (inner : Reader) (latest : List Tree) :
    operands inner latest c =
      match latest with
      | [t] => some ([t], c)
      | _ => some ([Tree.group latest.reverse], c) := by
  have hquestion : seesQuestion c.trimmed = false := by
    have hne : ∀ x ∈ "),;\x7b".toList, x ≠ '?' := by decide
    have hmark := h
    rw [Cursor.Closes] at hmark
    unfold seesQuestion
    split <;> simp_all
  have hjoiner := h.joiner?_eq_none
  rcases latest with _ | ⟨t, _ | ⟨t', latest⟩⟩ <;> simp [operands, hquestion, hjoiner]

/-- An operand by itself, where a list or a statement closes. -/
theorem reads_operands_single (h : c.Closes) (t : Tree) : Reads 1 (.operands [t]) c ([t], c) :=
  reads_succ fun m _ ↦ h.operands_eq (read m) [t]

/-- Several operands, where a list or a statement closes. -/
theorem reads_operands_group (h : c.Closes) (t t' : Tree) (latest : List Tree) :
    Reads 1 (.operands (t :: t' :: latest)) c ([Tree.group (t :: t' :: latest).reverse], c) :=
  reads_succ fun m _ ↦ h.operands_eq (read m) (t :: t' :: latest)

/-- A further operand behind a plus sign. -/
theorem reads_operands_plus {rest : List Char} {n : Nat} {latest : List Tree}
    (hc : c.Faces ('+' :: ' ' :: rest) n) (hoperand : Reads bound .operand ⟨' ' :: rest, n + 1⟩ ([t], d))
    (hmore : Reads bound (.operands (t :: latest)) d r) :
    Reads (bound + 1) (.operands latest) c r :=
  reads_succ fun m hm ↦ by
    change operands (read m) latest c = _
    have hquestion : seesQuestion ⟨'+' :: ' ' :: rest, n⟩ = false := rfl
    have hsome := hoperand m hm
    have hrest := hmore m hm
    unfold operands
    simp only [hc.trimmed_eq]
    rw [hquestion, if_neg Bool.false_ne_true, hc.joiner?_plus]
    simp [hsome, hrest]

theorem reads_assignment (hoperand : Reads bound .operand c ([t], d))
    (hmore : Reads bound (.operands [t]) d r) : Reads (bound + 1) .assignment c r :=
  reads_succ fun m hm ↦ by
    change assignment (read m) c = _
    have hsome := hoperand m hm
    have hrest := hmore m hm
    simp [assignment, hsome, hrest]

/-- An operand by itself is an assignment. -/
theorem reads_assignment_single (hoperand : Reads bound .operand c ([t], d)) (hd : d.Closes) :
    Reads (bound + 2) .assignment c ([t], d) :=
  reads_assignment (hoperand.mono (Nat.le_succ _))
    ((reads_operands_single hd t).mono (Nat.le_add_left 1 _))

end Reads

end Script

end ChangeContext
