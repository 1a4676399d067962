import ChangeContext.FileTree.Edit
import ChangeContext.Proofs.FileTree.Entry

/-!
# What a change leaves alone

A command that writes files changes the tree in one place at a time: it puts a regular file where
there was one or where there was nothing, or a directory where there was nothing.  Such a change can
only make paths lead further than before.  `follow_put` follows a path through the tree before and
after, and everything else is read off it: a path that led somewhere leads there still, and a path
that does not lead to the file just written reads as it did (`file?_of_writeFile?`).
-/

set_option autoImplicit false

namespace ChangeContext

namespace FileTree

variable {t t' : FileTree} {l : Location} {n : Node}

/-! ## Putting a node -/

theorem lookup_replace (nodes : List (Location × Node)) (l m : Location) (n : Node) :
    (nodes.map fun e ↦ if e.1 == l then (l, n) else e).lookup m =
      if m = l then (nodes.lookup l).map fun _ ↦ n else nodes.lookup m := by
  induction nodes with
  | nil => simp
  | cons e nodes ih =>
    obtain ⟨k, v⟩ := e
    rw [List.map_cons, List.lookup_cons, List.lookup_cons, ih]
    by_cases hk : k = l
    · subst hk
      by_cases hm : m = k
      · simp [hm]
      · have hm' : (m == k) = false := by simpa using hm
        simp [hm, hm', List.lookup_cons]
    · have hl : (l == k) = false := by simpa using Ne.symm hk
      by_cases hm : m = l
      · subst hm
        simp [hk, hl]
      · simp [hk, hm, List.lookup_cons]

/-- Only what a location other than the root holds is ever changed. -/
theorem node?_put (hl : l ≠ []) (m : Location) :
    (t.put l n).node? m = if m = l then some n else t.node? m := by
  by_cases hm : m = []
  · subst hm
    rw [if_neg hl.symm]
    rfl
  · have hnode (t : FileTree) : t.node? m = t.nodes.lookup m := if_neg (by simpa using hm)
    rw [hnode, hnode, put]
    split
    next hany =>
      have hsome : (t.nodes.lookup l).isSome := by
        obtain ⟨e, he, hel⟩ := List.any_eq_true.1 hany
        exact List.lookup_isSome_iff.2 ⟨e, he, by simpa using (eq_of_beq hel).symm⟩
      obtain ⟨old, hold⟩ := Option.isSome_iff_exists.1 hsome
      rw [lookup_replace, hold, Option.map_some]
    next hany =>
      rw [List.lookup_append]
      by_cases hml : m = l
      · subst hml
        have hnone : t.nodes.lookup m = none := by
          refine List.lookup_eq_none_iff.2 fun e he ↦ ?_
          rw [Bool.not_eq_true, List.any_eq_false] at hany
          simpa using Ne.symm (by simpa using hany e he)
        simp [hnone]
      · have hml' : (m == l) = false := by simpa using hml
        simp [hml, hml', List.lookup_cons]

@[simp] theorem here_put : (t.put l n).here = t.here := by
  rw [put]
  split <;> rfl

theorem ne_nil_of_node? (h : t.node? l ≠ some .directory) : l ≠ [] := by
  rintro rfl
  exact h rfl

/-! ## Following a path before and after -/

/-- The node `n` may be put at `l`: a regular file in place of a regular file, or a regular file or a
directory where there is nothing. -/
def Takes (t : FileTree) (l : Location) : Node → Prop
  | .file _ _ => t.node? l = none ∨ ∃ bytes modified, t.node? l = some (.file bytes modified)
  | .directory => t.node? l = none
  | .link _ => False

theorem Takes.node? (h : t.Takes l n) :
    t.node? l = none ∨
      (∃ bytes modified, t.node? l = some (.file bytes modified)) ∧
        ∃ bytes modified, n = .file bytes modified := by
  cases n with
  | directory => exact .inl h
  | file bytes modified => exact h.imp_right fun h ↦ ⟨h, bytes, modified, rfl⟩
  | link => exact h.elim

theorem Takes.ne_nil (h : t.Takes l n) : l ≠ [] := by
  refine ne_nil_of_node? (t := t) ?_
  rcases h.node? with h | ⟨⟨_, _, h⟩, -⟩ <;> simp [h]

/-- No step leads on from a regular file. -/
theorem advance_of_file {bytes : ByteArray} {modified : Instant}
    (h : t.node? l = some (.file bytes modified)) (followLast : Bool) (step : String)
    (rest : List String) : t.advance followLast l (step :: rest) = .stuck := by
  rw [advance, h]

/-- **Steps lead where they led**, except that steps to the new node arrive there now, and steps
through a new directory may lead somewhere. -/
theorem advance_put (h : t.Takes l n) (followLast : Bool) (start : Location) (steps : List String) :
    (t.put l n).advance followLast start steps = t.advance followLast start steps ∨
      (t.advance followLast start steps = .absent l ∧
        (t.put l n).advance followLast start steps = .arrived l) ∨
      (t.advance followLast start steps = .stuck ∧ n = .directory) := by
  induction steps generalizing start with
  | nil => exact .inl rfl
  | cons step rest ih =>
    rw [advance, advance]
    by_cases hstart : start = l
    · -- no step leads on from where the node is put, before or after
      subst hstart
      rw [node?_put h.ne_nil, if_pos rfl]
      rcases h.node? with hnone | ⟨⟨_, _, hfile⟩, _, _, rfl⟩
      · cases n <;> simp [hnone]
      · simp [hfile]
    · rw [node?_put h.ne_nil, if_neg hstart]
      split
      next hdir =>
        split
        next => exact ih start
        next =>
          split
          next => exact ih start.dropLast
          next =>
            by_cases hnext : start ++ [step] = l
            · rw [hnext, node?_put h.ne_nil, if_pos rfl]
              rcases h.node? with hnone | ⟨⟨_, _, hfile⟩, _, _, rfl⟩
              · rw [hnone]
                cases n with
                | link => exact h.elim
                | directory =>
                  cases rest with
                  | nil => exact .inr (.inl ⟨rfl, rfl⟩)
                  | cons => exact .inr (.inr ⟨rfl, rfl⟩)
                | file bytes modified =>
                  cases rest with
                  | nil => exact .inr (.inl ⟨rfl, rfl⟩)
                  | cons next rest =>
                    have hnode := (node?_put (t := t) (n := .file bytes modified) h.ne_nil l).trans
                      (if_pos rfl)
                    exact .inl (advance_of_file hnode followLast next rest)
              · rw [hfile]
                exact ih l
            · rw [node?_put h.ne_nil, if_neg hnext]
              split
              next => exact .inl rfl
              next => exact .inl rfl
              next => exact ih _
      next => exact .inl rfl

/-- **A path leads where it led**, except that a path to the new node leads to it now, and a path
through a new directory may lead somewhere. -/
theorem follow_put (h : t.Takes l n) (followLast : Bool) (links : Nat) (start : Location)
    (steps : List String) :
    (t.put l n).follow followLast links start steps = t.follow followLast links start steps ∨
      (t.follow followLast links start steps = .missing l ∧
        (t.put l n).follow followLast links start steps = .found l) ∨
      (t.follow followLast links start steps = .unreachable ∧ n = .directory) := by
  induction links generalizing start steps with
  | zero =>
    rw [follow, follow]
    rcases advance_put h followLast start steps with heq | ⟨habsent, harrived⟩ | ⟨hstuck, hn⟩
    · exact .inl (by rw [heq])
    · exact .inr (.inl ⟨by rw [habsent], by rw [harrived]⟩)
    · exact .inr (.inr ⟨by rw [hstuck], hn⟩)
  | succ links ih =>
    rw [follow, follow]
    rcases advance_put h followLast start steps with heq | ⟨habsent, harrived⟩ | ⟨hstuck, hn⟩
    · rw [heq]
      split
      next => exact .inl rfl
      next => exact .inl rfl
      next => exact .inl rfl
      next => exact ih _ _
    · exact .inr (.inl ⟨by rw [habsent], by rw [harrived]⟩)
    · exact .inr (.inr ⟨by rw [hstuck], hn⟩)

theorem resolve_put (h : t.Takes l n) (p : Path) (followLast : Bool) :
    (t.put l n).resolve p followLast = t.resolve p followLast ∨
      (t.resolve p followLast = .missing l ∧ (t.put l n).resolve p followLast = .found l) ∨
      (t.resolve p followLast = .unreachable ∧ n = .directory) := by
  rw [resolve, resolve, here_put]
  split
  next => exact .inl rfl
  next => exact follow_put h followLast linkLimit _ _

/-! ## Where there is nothing -/

theorem node?_of_advance_absent {followLast : Bool} {start : Location} {steps : List String}
    (h : t.advance followLast start steps = .absent l) : t.node? l = none := by
  induction steps generalizing start with
  | nil => simp [advance] at h
  | cons step rest ih =>
    rw [advance] at h
    split at h
    next =>
      split at h
      next => exact ih h
      next =>
        split at h
        next => exact ih h
        next =>
          split at h
          next hnone =>
            split at h
            next =>
              injection h with h
              rwa [← h]
            next => simp at h
          next => split at h <;> simp at h
          next => exact ih h
    next => simp at h

theorem node?_of_follow_missing {followLast : Bool} {links : Nat} {start : Location}
    {steps : List String} (h : t.follow followLast links start steps = .missing l) :
    t.node? l = none := by
  induction links generalizing start steps with
  | zero =>
    rw [follow] at h
    split at h
    next => simp at h
    next habsent =>
      injection h with h
      exact h ▸ node?_of_advance_absent habsent
    next => simp at h
    next => simp at h
  | succ links ih =>
    rw [follow] at h
    split at h
    next => simp at h
    next habsent =>
      injection h with h
      exact h ▸ node?_of_advance_absent habsent
    next => simp at h
    next => exact ih h

theorem node?_of_resolve_missing {p : Path} {followLast : Bool}
    (h : t.resolve p followLast = .missing l) : t.node? l = none := by
  rw [resolve] at h
  split at h
  next => simp at h
  next => exact node?_of_follow_missing h

/-! ## Writing a file -/

/-- A path that leads somewhere leads there still. -/
theorem resolve_put_of_found (h : t.Takes l n) {p : Path} {followLast : Bool} {m : Location}
    (hp : t.resolve p followLast = .found m) : (t.put l n).resolve p followLast = .found m := by
  rcases resolve_put h p followLast with heq | ⟨hmissing, -⟩ | ⟨hnowhere, -⟩
  · exact heq.trans hp
  · simp [hp] at hmissing
  · simp [hp] at hnowhere

section Write

variable {p : Path} {bytes : ByteArray} {now : Instant}

/-- A file is written by putting it where its path leads. -/
theorem put_of_writeFile? (h : t.writeFile? p bytes now = some t') :
    ∃ l, t.Takes l (.file bytes now) ∧ t' = t.put l (.file bytes now) ∧
      t'.resolve p true = .found l := by
  rw [writeFile?] at h
  split at h
  next l hl =>
    split at h
    next old modified hfile =>
      have htakes : t.Takes l (.file bytes now) := .inr ⟨old, modified, hfile⟩
      obtain rfl := Option.some_inj.1 h
      exact ⟨l, htakes, rfl, resolve_put_of_found htakes hl⟩
    next => simp at h
  next l hl =>
    have htakes : t.Takes l (.file bytes now) := .inl (node?_of_resolve_missing hl)
    obtain rfl := Option.some_inj.1 h
    refine ⟨l, htakes, rfl, ?_⟩
    rcases resolve_put htakes p true with heq | ⟨-, hfound⟩ | ⟨-, hn⟩
    · -- the node is there now, so nothing can be missing at its place
      have hnone := node?_of_resolve_missing (heq.trans hl)
      rw [node?_put htakes.ne_nil, if_pos rfl] at hnone
      simp at hnone
    · exact hfound
    · simp at hn
  next => simp at h

/-- Whether a file can be written does not depend on what is written. -/
theorem writeFile?_eq_none_congr (h : t.writeFile? p bytes now = none) (bytes' : ByteArray) :
    t.writeFile? p bytes' now = none := by
  unfold writeFile? at h ⊢
  split at h
  next l hl =>
    split at h
    next => exact absurd h (Option.some_ne_none _)
    next => rfl
  next => exact absurd h (Option.some_ne_none _)
  next => rfl

/-- **A file that was written is read back.** -/
theorem file?_writeFile? (h : t.writeFile? p bytes now = some t') :
    t'.file? p = some (bytes, now) := by
  obtain ⟨l, htakes, rfl, hl⟩ := put_of_writeFile? h
  rw [file?, at?, hl]
  simp only [node?_put htakes.ne_nil, if_pos]

theorem fromUTF8?_toUTF8 (s : String) : String.fromUTF8? s.toUTF8 = some s :=
  dif_pos s.isValidUTF8

theorem readText?_of_file? {text : String} (h : t.file? p = some (text.toUTF8, now)) :
    t.readText? p = some text := by
  rw [readText?, h, Option.bind_some, fromUTF8?_toUTF8]

/-- **A path reads what it read before a file was written, or it reads that file.** -/
theorem file?_of_writeFile? (h : t.writeFile? p bytes now = some t') (q : Path) :
    t'.file? q = t.file? q ∨ t'.file? q = some (bytes, now) := by
  obtain ⟨l, htakes, rfl, -⟩ := put_of_writeFile? h
  have hnew : (t.put l (.file bytes now)).node? l = some (.file bytes now) := by
    rw [node?_put htakes.ne_nil, if_pos rfl]
  rcases resolve_put htakes q true with heq | ⟨-, hfound⟩ | ⟨-, hn⟩
  · cases hq : t.resolve q true with
    | found m =>
      by_cases hm : m = l
      · refine .inr ?_
        rw [file?, at?, heq, hq]
        simp only [hm, hnew]
      · refine .inl ?_
        rw [file?, at?, heq, hq, file?, at?, hq]
        simp only [node?_put htakes.ne_nil, if_neg hm]
    | missing m => exact .inl (by rw [file?, at?, heq, hq, file?, at?, hq])
    | unreachable => exact .inl (by rw [file?, at?, heq, hq, file?, at?, hq])
  · refine .inr ?_
    rw [file?, at?, hfound]
    simp only [hnew]
  · simp at hn

end Write

/-! ## Making directories -/

/-- Paths that lead somewhere lead there still, and what is there has not changed. -/
structure Grows (t t' : FileTree) : Prop where
  found : ∀ p followLast l, t.resolve p followLast = .found l → t'.resolve p followLast = .found l
  node : ∀ l n, t.node? l = some n → t'.node? l = some n

namespace Grows

theorem refl (t : FileTree) : t.Grows t where
  found _ _ _ h := h
  node _ _ h := h

theorem trans {t'' : FileTree} (h : t.Grows t') (h' : t'.Grows t'') : t.Grows t'' where
  found p followLast l hl := h'.found p followLast l (h.found p followLast l hl)
  node l n hn := h'.node l n (h.node l n hn)

/-- A file stays readable as it is. -/
theorem file? (h : t.Grows t') {p : Path} {f : ByteArray × Instant} (hp : t.file? p = some f) :
    t'.file? p = some f := by
  have hat := file?_eq_some_iff.1 hp
  rw [at?] at hat
  split at hat
  next l hl =>
    rw [file?_eq_some_iff, at?, h.found p true l hl]
    exact h.node l _ hat
  next => simp at hat

end Grows

theorem grows_makeDir? {p : Path} (h : t.makeDir? p = some t') : t.Grows t' := by
  rw [makeDir?] at h
  split at h
  next l hl =>
    have htakes : t.Takes l .directory := node?_of_resolve_missing hl
    obtain rfl := Option.some_inj.1 h
    refine ⟨fun _ _ _ hfound ↦ resolve_put_of_found htakes hfound, fun m n hm ↦ ?_⟩
    rw [node?_put htakes.ne_nil, if_neg, hm]
    rintro rfl
    simp [node?_of_resolve_missing hl] at hm
  next =>
    split at h
    next =>
      obtain rfl := Option.some_inj.1 h
      exact Grows.refl t
    next => simp at h
  next => simp at h

theorem grows_makeEach (t : FileTree) (paths : List Path) : t.Grows (t.makeEach paths).1 := by
  induction paths generalizing t with
  | nil => exact Grows.refl t
  | cons p rest ih =>
    rw [makeEach]
    split
    next t' h => exact (grows_makeDir? h).trans (ih t')
    next => exact Grows.refl t

/-- **Making directories takes nothing away.** -/
theorem grows_makeDirs (t : FileTree) (p : Path) : t.Grows (t.makeDirs p).1 := by
  rw [makeDirs]
  split
  next => exact Grows.refl t
  next => exact grows_makeEach t _

end FileTree

end ChangeContext
