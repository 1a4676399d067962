import ChangeContext.Proofs.Cache.Bookkeeping
import ChangeContext.Proofs.Cache.Key
import ChangeContext.Proofs.Engine.Snapshot

/-!
# Under which keys entries are filed

Whatever is stored in a cache is filed under the key of its own files, so a request is answered with
what was stored for the requested files.  A snapshot comes from outside, and there each entry has a
key and a list of files that need not have anything to do with each other.  Taking a snapshot over
files each entry under the key that it notes, and of several with the same key the last; what its
files are is not looked at.  So the cache is as well keyed as the snapshot is (`get_run_importFrom?`).
If it is well keyed, it stays so, and if it is not, a request can be answered with what belongs to
other files (`get_misfiled`).
-/

set_option autoImplicit false

namespace ChangeContext

namespace Cache

/-- The last entry of a snapshot that notes this key. -/
def Snapshot.last? (s : Snapshot) (k : String) : Option Entry :=
  s.entries.reverse.find? fun e ↦ e.key == k

/-- Every entry that counts belongs under the key that it notes. -/
def Snapshot.Keyed (s : Snapshot) : Prop :=
  ∀ k e, s.last? k = some e → e.BelongsUnder k

/-- Every entry belongs under the key that it is filed under. -/
def Keyed (c : Cache) : Prop :=
  ∀ k e, c.entries.get? k = some e → e.BelongsUnder k

variable {c c' : Cache} {s : Snapshot} {t : FileTree} {path : Path} {k : String} {e : Entry}

/-- **Of entries that note the same key the last is filed**, whatever their files are. -/
theorem get?_restore (c : Cache) (s : Snapshot) (k : String) :
    (c.restore s).entries.get? k = s.last? k := by
  obtain ⟨exportedAt, counters, entries⟩ := s
  rw [restore, Snapshot.last?]
  induction entries using List.reverseRecOn with
  | nil => rfl
  | append_singleton entries e ih =>
    simp only at ih ⊢
    rw [List.map_append, List.map_singleton, NameMap.ofList_append_singleton, NameMap.get?_insert,
      List.reverse_append, List.reverse_singleton, List.singleton_append]
    by_cases hk : e.key = k
    · rw [List.find?_cons_of_pos (by simpa using hk), if_pos hk.symm]
    · rw [List.find?_cons_of_neg (by simpa using hk), if_neg (Ne.symm hk)]
      exact ih

theorem Snapshot.key_of_last? (h : s.last? k = some e) : e.key = k := by
  simpa using List.find?_some h

/-- A cache is as well keyed as the snapshot that it takes over. -/
theorem keyed_restore_iff : (c.restore s).Keyed ↔ s.Keyed := by
  simp only [Keyed, Snapshot.Keyed, get?_restore]

theorem Keyed.step (h : c.Keyed) (ev : Event) : (c.step ev).Keyed := by
  intro k e he
  rcases get?_step_cases he with ⟨hstored, hkey⟩ | ⟨hbefore, -, -⟩
  · exact hkey ▸ belongsUnder_of_stored? hstored
  · exact h k e hbefore

/-- **A cache stays well keyed**, whatever is done with it. -/
theorem Keyed.run (h : c.Keyed) (events : List Event) : (c.run events).Keyed := by
  induction events generalizing c with
  | nil => exact h
  | cons ev rest ih => exact ih (h.step ev)

/-- What belongs under the key of requested files is for these files. -/
theorem files_eq_of_belongsUnder {request : List Path} (h : e.BelongsUnder (keyOf request))
    (hdigest : Digest.Tells (keyText e.files) (keyText (Path.canonicalSet request)))
    (hlines : ∀ p ∈ e.files ++ request, OnOneLine p) (hne : e.files ≠ []) (hne' : request ≠ []) :
    e.files = Path.canonicalSet request := by
  have hset : Path.canonicalSet request ≠ [] := by
    rwa [Ne, Path.canonicalSet_eq_nil_iff]
  refine eq_of_keyText_eq hne hset (fun p hp ↦ hlines p (List.mem_append_left _ hp))
    (fun p hp ↦ ?_) (hdigest h.derived)
  exact hlines p (List.mem_append_right _ (Path.mem_of_mem_canonicalSet hp))

/-- **What a cache that has taken a snapshot over answers.**  Under each key the last entry of the
snapshot is filed that notes it.  So all entries belong where they are filed just if those of the
snapshot do, and then this remains so in any use of the cache.  Whatever is answered comes from an
entry that was stored since, or from that one; and it is for the requested files if the snapshot is
well keyed or the entry was stored since, provided that the digest tells the keys apart, every path is
on one line, and there are files at all. -/
theorem get_run_importFrom? (himport : c.importFrom? t path = some c') :
    ∃ s, (t.readText? path).bind Snapshot.ofText? = some s ∧
      (∀ k, c'.entries.get? k = s.last? k) ∧
      (c'.Keyed ↔ s.Keyed) ∧
      (s.Keyed → ∀ events, (c'.run events).Keyed) ∧
      ∀ events t' now request b, ((c'.run events).get t' now request).1 = some b →
        ∃ e, e.bundle = b ∧ e.Good c.limits t' now ∧
          ((∃ ev ∈ events, ev.stored? = some e ∧ e.key = keyOf request) ∨
            s.last? (keyOf request) = some e) ∧
          (s.Keyed ∨ (∃ ev ∈ events, ev.stored? = some e) →
            Digest.Tells (keyText e.files) (keyText (Path.canonicalSet request)) →
            (∀ p ∈ e.files ++ request, OnOneLine p) → e.files ≠ [] → request ≠ [] →
            e.files = Path.canonicalSet request) := by
  obtain ⟨s, hs, rfl⟩ := Option.map_eq_some_iff.1 himport
  refine ⟨s, hs, get?_restore c s, keyed_restore_iff,
    fun h events ↦ (keyed_restore_iff.2 h).run events, ?_⟩
  intro events t' now request b hb
  obtain ⟨e, he, hgood, hbundle⟩ := get_fst_eq_some_iff.1 hb
  rw [limits_run] at hgood
  have hsource : (∃ ev ∈ events, ev.stored? = some e ∧ e.key = keyOf request) ∨
      s.last? (keyOf request) = some e := by
    rcases get?_run_cases he with hbefore | hstored
    · exact .inr ((get?_restore c s _).symm.trans hbefore)
    · exact .inl hstored
  refine ⟨e, hbundle, hgood, hsource, fun h hdigest hlines hne hne' ↦ ?_⟩
  have hkey : e.key = keyOf request := by
    rcases hsource with ⟨-, -, -, hkey⟩ | hlast
    · exact hkey
    · exact Snapshot.key_of_last? hlast
  have hbelongs : e.BelongsUnder (keyOf request) := by
    rcases h with h | ⟨ev, -, hstored⟩
    · exact (keyed_restore_iff.2 h).run events _ e he
    · exact hkey ▸ belongsUnder_of_stored? hstored
  exact files_eq_of_belongsUnder hbelongs hdigest hlines hne hne'

/-- The state of a file that was last changed at the beginning of 1970 and holds one byte. -/
def stateOfByte (p : Path) : String :=
  Digest.ofText (String.join [stateLine p ⟨0, 0⟩ 1 1])

/-- A snapshot of one entry, which notes the key of the file `a`. -/
def ofA (files : List Path) (state : String) : Snapshot :=
  ⟨⟨2, 0⟩, Counters.zero, [⟨keyOf [⟨"a"⟩], files, state, default, ⟨1, 0⟩⟩]⟩

theorem fits_ofA (files : List Path) (state : String) : (ofA files state).Fits where
  exportedAt := (by decide : Instant.Valid ⟨2, 0⟩)
  counters := Counters.fits_zero
  entries e he := by
    obtain rfl := List.mem_singleton.1 he
    exact ⟨Bundle.fits_default, (by decide : Instant.Valid ⟨1, 0⟩)⟩

theorem last?_ofA (files : List Path) (state : String) :
    (ofA files state).last? (keyOf [⟨"a"⟩]) =
      some ⟨keyOf [⟨"a"⟩], files, state, default, ⟨1, 0⟩⟩ :=
  List.find?_cons_of_pos (by simp)

theorem keyed_ofA (state : String) : (ofA [⟨"a"⟩] state).Keyed := by
  intro k e h
  obtain rfl := Snapshot.key_of_last? h
  obtain rfl := List.mem_singleton.1 (List.mem_reverse.1 (List.mem_of_find?_eq_some h))
  refine ⟨rfl, ?_, List.pairwise_singleton _ _⟩
  rw [keyOf, Path.canonicalSet_singleton]

/-- A tree with a file of one byte and with this snapshot for it. -/
def beside (name : String) : FileTree where
  nodes := [([name], .file "x".toUTF8 ⟨0, 0⟩),
    (["s"], .file (ofA [⟨name⟩] (stateOfByte ⟨name⟩)).toText.toUTF8 ⟨2, 0⟩)]
  here := []

/-- The file beside the snapshot is in the state that the snapshot may note. -/
theorem state?_beside {name : String}
    (h : (beside name).file? ⟨name⟩ = some ("x".toUTF8, ⟨0, 0⟩)) :
    state? (beside name) [⟨name⟩] = some (stateOfByte ⟨name⟩) := by
  rw [state?, List.mapM_cons, stateLine?, h]
  rfl

/-- What is noted under the key of its own files remains where it belongs.  After old entries have been
cleaned away, who asks for `a` is answered from the snapshot, with what was noted for `a`. -/
theorem get_run_importFrom?_beside :
    ∃ c', (ofLimits ⟨60, 1⟩).importFrom? (beside "a") ⟨"s"⟩ = some c' ∧
      (∀ events, (c'.run events).Keyed) ∧
      ((c'.run [⟨beside "a", ⟨3, 0⟩, .cleanUp⟩]).get (beside "a") ⟨4, 0⟩ [⟨"a"⟩]).1 = some default ∧
      ∃ e : Entry, e.bundle = default ∧ e.Good ⟨60, 1⟩ (beside "a") ⟨4, 0⟩ ∧
        e.files = Path.canonicalSet [⟨"a"⟩] := by
  have himport := importFrom?_of_file? (ofLimits ⟨60, 1⟩) (fits_ofA [⟨"a"⟩] (stateOfByte ⟨"a"⟩))
    (rfl : (beside "a").file? ⟨"s"⟩ = some (_, ⟨2, 0⟩))
  obtain ⟨s, -, hfiled, hkeyed, hrun, hanswer⟩ := get_run_importFrom? himport
  have hkeyed : s.Keyed := hkeyed.1 (keyed_restore_iff.2 (keyed_ofA _))
  have hentry := (get?_restore (ofLimits ⟨60, 1⟩) (ofA [⟨"a"⟩] (stateOfByte ⟨"a"⟩))
    (keyOf [⟨"a"⟩])).trans (last?_ofA _ _)
  have hkept := (get?_cleanUp_snd _ ⟨3, 0⟩ _).trans
    ((congrArg _ hentry).trans (Option.filter_some.trans (if_pos (by decide))))
  have hyoung : (⟨keyOf [⟨"a"⟩], [⟨"a"⟩], stateOfByte ⟨"a"⟩, default, ⟨1, 0⟩⟩ : Entry).Good ⟨60, 1⟩
      (beside "a") ⟨4, 0⟩ :=
    ⟨by decide, state?_beside rfl⟩
  have hget := get_fst_eq_some_iff.2 ⟨_, hkept, hyoung, rfl⟩
  obtain ⟨e, hbundle, hgood, hsource, hfiles⟩ :=
    hanswer [⟨beside "a", ⟨3, 0⟩, .cleanUp⟩] _ ⟨4, 0⟩ [⟨"a"⟩] _ hget
  have he : e = ⟨keyOf [⟨"a"⟩], [⟨"a"⟩], stateOfByte ⟨"a"⟩, default, ⟨1, 0⟩⟩ := by
    rcases hsource with ⟨ev, hev, hstored, -⟩ | hlast
    · obtain rfl := List.mem_singleton.1 hev
      cases hstored
    · exact Option.some_inj.1 (((hfiled _).trans hlast).symm.trans hentry)
  refine ⟨_, himport, hrun hkeyed, hget, e, hbundle, hgood, hfiles (.inl hkeyed) ?_ ?_ ?_ ?_⟩
  · rw [he, Path.canonicalSet_singleton]
    exact fun _ ↦ rfl
  · rw [he]
    decide
  · rw [he]
    simp
  · simp

/-- The file `b` is noted under the key of the file `a`.  The snapshot is taken over, and who asks for
`a` is answered, although there is no such file. -/
theorem get_misfiled :
    ∃ c', (ofLimits ⟨60, 1⟩).importFrom? (beside "b") ⟨"s"⟩ = some c' ∧
      (c'.get (beside "b") ⟨3, 0⟩ [⟨"a"⟩]).1 = some default ∧
      (beside "b").pathExists ⟨"a"⟩ = false ∧
      ∀ e, c'.entries.get? (keyOf [⟨"a"⟩]) = some e → e.files ≠ Path.canonicalSet [⟨"a"⟩] := by
  have himport := importFrom?_of_file? (ofLimits ⟨60, 1⟩) (fits_ofA [⟨"b"⟩] (stateOfByte ⟨"b"⟩))
    (rfl : (beside "b").file? ⟨"s"⟩ = some (_, ⟨2, 0⟩))
  have hfiled := (get?_restore (ofLimits ⟨60, 1⟩) (ofA [⟨"b"⟩] (stateOfByte ⟨"b"⟩))
    (keyOf [⟨"a"⟩])).trans (last?_ofA _ _)
  refine ⟨_, himport, ?_, rfl, fun e he ↦ ?_⟩
  · exact get_fst_eq_some_iff.2 ⟨_, hfiled, ⟨by decide, state?_beside rfl⟩, rfl⟩
  · obtain rfl := Option.some_inj.1 (hfiled.symm.trans he)
    rw [Path.canonicalSet_singleton]
    simp

end Cache

end ChangeContext
