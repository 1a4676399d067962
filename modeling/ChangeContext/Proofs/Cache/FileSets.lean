import ChangeContext.Proofs.Cache.History
import ChangeContext.Proofs.Cache.Key
import ChangeContext.Proofs.Path.Order

/-!
# Which file sets have one key

A key should be the same for every list of a set of files, and different for different sets.  Both
holds with exceptions, and here they are told exactly.

A key is the digest of the paths of the canonical set, one to a line, so what it tells of a set are
the lines on which the paths are written (`keyOf_eq_iff`).  A path that takes up several lines looks
like several paths, and the empty path looks like no path.  Where neither occurs, different sets have
different keys, and a request is never answered with what was set for another set of files
(`keyOf_separates`).

A canonical set holds the paths in the order of their components, but as they are spelt, and of
several spellings of one path the one that came first.  So the order of a list does not matter as
long as no path is spelt in two ways, and it does matter otherwise (`keyOf_perm`).
-/

set_option autoImplicit false

namespace ChangeContext

namespace Cache

open ChangeContext.Path (SameSet SpeltOnce canonicalSet first?)

/-! ## Different sets -/

/-- There is no path in the list, except perhaps the empty one. -/
def NamesNone (files : List Path) : Prop :=
  ∀ p ∈ files, p.text = ""

/-- The digest tells the keys of the two lists apart. -/
def DigestTells (files files' : List Path) : Prop :=
  Digest.Tells (keyText (canonicalSet files)) (keyText (canonicalSet files'))

section Separation

variable {files files' : List Path}

/-- **A key tells the lines of the paths**, and nothing else. -/
theorem keyOf_eq_iff (h : DigestTells files files') :
    keyOf files = keyOf files' ↔ linesOf (canonicalSet files) = linesOf (canonicalSet files') := by
  rw [← keyText_eq_iff]
  constructor
  · exact fun hkey ↦ h hkey
  · intro htext
    rw [keyOf, keyOf, key, key, htext]

/-- Nothing is written down for a list that names none. -/
theorem keyText_of_namesNone (h : NamesNone files) : keyText (canonicalSet files) = "" := by
  have hempty : ∀ p ∈ canonicalSet files, p = ⟨""⟩ := fun p hp ↦
    congrArg Path.mk (h p (Path.mem_of_mem_canonicalSet hp))
  have hnodup := Path.nodup_canonicalSet files
  cases hset : canonicalSet files with
  | nil => rfl
  | cons p rest =>
    rw [hset] at hempty hnodup
    obtain ⟨hp, hrest⟩ := List.forall_mem_cons.1 hempty
    have hnil : rest = [] := by
      refine List.eq_nil_iff_forall_not_mem.2 fun q hq ↦ ?_
      rw [hp, ← hrest q hq] at hnodup
      exact (List.nodup_cons.1 hnodup).1 hq
    rw [hnil, hp, keyText_singleton]

/-- Among lists with paths on one line each, only those that name none have nothing written down. -/
theorem namesNone_of_keyText (hlines : ∀ p ∈ files, OnOneLine p)
    (h : keyText (canonicalSet files) = "") : NamesNone files := by
  intro p hp
  have hlines' : ∀ q ∈ canonicalSet files, OnOneLine q := fun q hq ↦
    hlines q (Path.mem_of_mem_canonicalSet hq)
  have hne : canonicalSet files ≠ [] := by
    rw [Ne, Path.canonicalSet_eq_nil_iff]
    exact List.ne_nil_of_mem hp
  have hset : canonicalSet files = [⟨""⟩] :=
    eq_of_keyText_eq hne (List.cons_ne_nil _ _) hlines' (by decide) (h.trans (keyText_singleton _).symm)
  obtain ⟨q, hq, hsame⟩ := Path.exists_same_mem_canonicalSet hp
  rw [hset] at hq
  obtain rfl := List.mem_singleton.1 hq
  have hnil : Path.components ⟨""⟩ = [] := Path.components_eq_nil_iff.2 rfl
  exact Path.components_eq_nil_iff.1 (Eq.trans hsame hnil)

/-- Different sets of paths on one line each have one key only if they name none. -/
theorem keyOf_eq_iff_of_not_sameSet (hlines : ∀ p ∈ files ++ files', OnOneLine p)
    (hdigest : DigestTells files files') (hdifferent : ¬ SameSet files files') :
    keyOf files = keyOf files' ↔ NamesNone files ∧ NamesNone files' := by
  have hfiles : ∀ p ∈ files, OnOneLine p := fun p hp ↦ hlines p (List.mem_append_left _ hp)
  have hfiles' : ∀ p ∈ files', OnOneLine p := fun p hp ↦ hlines p (List.mem_append_right _ hp)
  have hsets : canonicalSet files ≠ canonicalSet files' := fun h ↦
    hdifferent (Path.sameSet_of_canonicalSet_eq h)
  constructor
  · intro hkey
    have htext : keyText (canonicalSet files) = keyText (canonicalSet files') := hdigest hkey
    have hempty : keyText (canonicalSet files) = "" := by
      by_cases hne : canonicalSet files = []
      · rw [hne]
        rfl
      · by_cases hne' : canonicalSet files' = []
        · rw [htext, hne']
          rfl
        · exact absurd (eq_of_keyText_eq hne hne'
            (fun p hp ↦ hfiles p (Path.mem_of_mem_canonicalSet hp))
            (fun p hp ↦ hfiles' p (Path.mem_of_mem_canonicalSet hp)) htext) hsets
    exact ⟨namesNone_of_keyText hfiles hempty, namesNone_of_keyText hfiles' (htext ▸ hempty)⟩
  · rintro ⟨hnone, hnone'⟩
    rw [keyOf, keyOf, key, key, keyText_of_namesNone hnone, keyText_of_namesNone hnone']

end Separation

/-- **Keys keep file sets apart, as far as lines do.**  Two lists have one key just if their paths are
written on the same lines.  So if every path is written on one line, different sets have different
keys, unless both of them name none.

In any use of a cache, a request is answered with what was set last under its key.  This was set for
the same set of files, again if every path is on one line and unless no file is named. -/
theorem keyOf_separates (limits : Limits) (events : List Event) (t : FileTree) (now : Instant)
    (files request : List Path) :
    (DigestTells files request → (keyOf files = keyOf request ↔
      linesOf (canonicalSet files) = linesOf (canonicalSet request))) ∧
    (DigestTells files request → (∀ p ∈ files ++ request, OnOneLine p) → ¬ SameSet files request →
      (keyOf files = keyOf request ↔ NamesNone files ∧ NamesNone request)) ∧
    (∀ b, (∀ ev ∈ events, ∀ files bundle, ev.operation = .set files bundle →
        DigestTells files request ∧ ∀ p ∈ files ++ request, OnOneLine p) →
      (((ofLimits limits).run events).get t now request).1 = some b →
      ∃ ev after files state, LastSet events (keyOf request) ev after files b state ∧
        (SameSet files request ∨ NamesNone files ∧ NamesNone request)) := by
  refine ⟨keyOf_eq_iff, fun hdigest hlines ↦ keyOf_eq_iff_of_not_sameSet hlines hdigest, ?_⟩
  intro b hevents hb
  obtain ⟨e, hthere, -, hbundle⟩ := get_fst_eq_some_iff.1 hb
  obtain ⟨before, ev, after, rfl, hlatest⟩ := latest_of_get?_run hthere
  obtain ⟨files, hset, -, -⟩ := hlatest.lastSet before
  refine ⟨ev, after, files, e.state, hbundle ▸ hset, ?_⟩
  by_cases hsame : SameSet files request
  · exact .inl hsame
  · obtain ⟨hdigest, hlines⟩ := hevents ev (by simp) files e.bundle hset.operation
    exact .inr ((keyOf_eq_iff_of_not_sameSet hlines hdigest hsame).1 hset.key)

/-- Two files that lie side by side have different keys. -/
theorem keyOf_separates_twoNames : keyOf [⟨"a"⟩] ≠ keyOf [⟨"b"⟩] := by
  have hdigest : DigestTells [⟨"a"⟩] [⟨"b"⟩] := by
    have hne : Digest.ofText "a" ≠ Digest.ofText "b" := by
      have hdigests := Digest.nodup_ofText_letters
      simp only [List.map_cons, List.nodup_cons, List.mem_cons, not_or] at hdigests
      exact hdigests.2.1.1
    rw [DigestTells, Path.canonicalSet_singleton, Path.canonicalSet_singleton, keyText_singleton,
      keyText_singleton]
    exact fun h ↦ absurd h hne
  have hdifferent : ¬ SameSet [⟨"a"⟩] [⟨"b"⟩] := fun h ↦ absurd (h ⟨"a"⟩) (by decide)
  intro hkey
  have hnone := ((keyOf_separates ⟨60, 1⟩ [] (.bare []) ⟨0, 0⟩ [⟨"a"⟩] [⟨"b"⟩]).2.1 hdigest
    (by decide) hdifferent).1 hkey
  exact absurd (hnone.1 ⟨"a"⟩ (by simp)) (by decide)

/-- A tree with a single file, whose name has a line break in it. -/
def brokenName : FileTree where
  nodes := [(["a\nb"], .file "x".toUTF8 ⟨0, 0⟩)]
  here := []

/-- What was set for a file with a line break in its name is the answer for two files that are not
even there. -/
theorem get_of_set_brokenName :
    ¬ SameSet [⟨"a\nb"⟩] [⟨"a"⟩, ⟨"b"⟩] ∧ keyOf [⟨"a\nb"⟩] = keyOf [⟨"a"⟩, ⟨"b"⟩] ∧
      brokenName.pathExists ⟨"a"⟩ = false ∧ brokenName.pathExists ⟨"b"⟩ = false ∧
      (((ofLimits ⟨60, 1⟩).set brokenName ⟨1, 0⟩ [⟨"a\nb"⟩] default).get brokenName ⟨2, 0⟩
        [⟨"a"⟩, ⟨"b"⟩]).1 = some default := by
  have hdifferent : ¬ SameSet [⟨"a\nb"⟩] [⟨"a"⟩, ⟨"b"⟩] := fun h ↦ absurd (h ⟨"a"⟩) (by decide)
  have hkey : keyOf [⟨"a"⟩, ⟨"b"⟩] = keyOf [⟨"a\nb"⟩] := by
    have hset : canonicalSet [⟨"a"⟩, ⟨"b"⟩] = [⟨"a"⟩, ⟨"b"⟩] :=
      (Path.canonicalSet_of_pairwise (by decide)).trans (by decide)
    rw [keyOf, keyOf, hset, Path.canonicalSet_singleton]
    rfl
  have hread : ∀ p ∈ canonicalSet [⟨"a\nb"⟩], (brokenName.file? p).isSome = true := by
    intro p hp
    obtain rfl := List.mem_singleton.1 (Path.mem_of_mem_canonicalSet hp)
    decide +kernel
  obtain ⟨state, hstate⟩ := exists_state? hread
  refine ⟨hdifferent, hkey.symm, by decide +kernel, by decide +kernel, ?_⟩
  exact get_set_eq_some _ default hkey hstate ⟨by decide, hstate⟩

/-! ## Lists of one set -/

section Order

variable {l m : List Path} {p q : Path}

theorem keyOf_perm_of_speltOnce (hspelt : SpeltOnce l) (h : m.Perm l) : keyOf m = keyOf l := by
  rw [keyOf, keyOf, Path.canonicalSet_perm h.symm hspelt]

/-- What comes first decides how a path is spelt in the key. -/
theorem keyOf_ne_of_respelt (hsame : p.Same q) (hne : p ≠ q)
    (hdigest : DigestTells (p :: l.erase p) (q :: l.erase q)) :
    keyOf (p :: l.erase p) ≠ keyOf (q :: l.erase q) := by
  intro hkey
  have hfirst : first? (p :: l.erase p) p = some p := by
    rw [Path.first?_cons, if_pos (Path.Same.refl p)]
  have hfirst' : first? (q :: l.erase q) p = some q := by
    rw [Path.first?_cons, if_pos hsame]
  have hother (r : Path) (hr : ¬ r.Same p) :
      first? (p :: l.erase p) r = first? (q :: l.erase q) r := by
    have hr' : ¬ r.Same q := fun h ↦ hr (h.trans hsame.symm)
    rw [Path.first?_cons, if_neg hr, Path.first?_cons, if_neg hr', Path.first?_erase hr,
      Path.first?_erase hr']
  obtain ⟨before, after, hl, hm⟩ := Path.canonicalSet_respell hsame hfirst hfirst' hother
  have htext := hdigest hkey
  rw [hl, hm] at htext
  exact hne (eq_of_keyText_respell htext)

/-- A list in which a path is spelt in two ways has another order with another key. -/
theorem exists_perm_keyOf_ne (hdigest : ∀ m m', m.Perm l → m'.Perm l → DigestTells m m')
    (hspelt : ¬ SpeltOnce l) : ∃ m, m.Perm l ∧ keyOf m ≠ keyOf l := by
  rw [SpeltOnce] at hspelt
  push Not at hspelt
  obtain ⟨p, hp, q, hq, hsame, hne⟩ := hspelt
  have hperm : (p :: l.erase p).Perm l := (List.perm_cons_erase hp).symm
  have hperm' : (q :: l.erase q).Perm l := (List.perm_cons_erase hq).symm
  have hkeys := keyOf_ne_of_respelt hsame hne (hdigest _ _ hperm hperm')
  by_cases hkey : keyOf (p :: l.erase p) = keyOf l
  · exact ⟨_, hperm', fun h ↦ hkeys (hkey.trans h.symm)⟩
  · exact ⟨_, hperm, hkey⟩

end Order

/-- **The order of a list does not matter to its key, just if no path in it is spelt in two ways.**
If so, what was set for the list is the answer for it in any other order, as long as it is young
enough and the files can be read and are as they were. -/
theorem keyOf_perm (l : List Path) :
    (SpeltOnce l → ∀ m, m.Perm l → keyOf m = keyOf l ∧
      ∀ (c : Cache) (t t' : FileTree) (now now' : Instant) (bundle : Bundle),
        (∀ p ∈ l, (t.file? p).isSome = true) → (∀ p ∈ l, t'.file? p = t.file? p) →
        now'.toNanos - now.toNanos < (c.limits.age : Int) * 1000000000 →
        ((c.set t now l bundle).get t' now' m).1 = some bundle) ∧
    ((∀ m m', m.Perm l → m'.Perm l → DigestTells m m') → ¬ SpeltOnce l →
      ∃ m, m.Perm l ∧ keyOf m ≠ keyOf l) := by
  refine ⟨fun hspelt m hm ↦ ⟨keyOf_perm_of_speltOnce hspelt hm, ?_⟩, exists_perm_keyOf_ne⟩
  intro c t t' now now' bundle hread hsame hyoung
  have hread' : ∀ p ∈ canonicalSet l, (t.file? p).isSome = true := fun p hp ↦
    hread p (Path.mem_of_mem_canonicalSet hp)
  obtain ⟨state, hstate⟩ := exists_state? hread'
  have hstate' : state? t' (canonicalSet l) = some state := by
    rw [state?_congr fun p hp ↦ hsame p (Path.mem_of_mem_canonicalSet hp), hstate]
  exact get_set_eq_some c bundle (keyOf_perm_of_speltOnce hspelt hm) hstate ⟨hyoung, hstate'⟩

/-- What was set for two paths is the answer for them in the other order. -/
theorem get_of_set_otherOrder :
    (((ofLimits ⟨60, 1⟩).set oneFile ⟨1, 0⟩ [⟨"a"⟩, ⟨"/a"⟩] default).get oneFile ⟨2, 0⟩
      [⟨"/a"⟩, ⟨"a"⟩]).1 = some default :=
  ((keyOf_perm [⟨"a"⟩, ⟨"/a"⟩]).1 (by decide) _ (List.Perm.swap ..)).2 _ oneFile oneFile _ _ default
    (by decide +kernel) (fun _ _ ↦ rfl) (by decide)

/-- A tree with a file `b` in a directory `a`. -/
def inDirectory : FileTree where
  nodes := [(["a"], .directory), (["a", "b"], .file "x".toUTF8 ⟨0, 0⟩)]
  here := []

/-- A list that spells a path in two ways is not found again in the other order. -/
theorem get_of_set_respelt :
    [⟨"a//b"⟩, ⟨"a/b"⟩].Perm [⟨"a/b"⟩, (⟨"a//b"⟩ : Path)] ∧
      keyOf [⟨"a//b"⟩, ⟨"a/b"⟩] ≠ keyOf [⟨"a/b"⟩, ⟨"a//b"⟩] ∧
      (((ofLimits ⟨60, 1⟩).set inDirectory ⟨1, 0⟩ [⟨"a/b"⟩, ⟨"a//b"⟩] default).get inDirectory
        ⟨2, 0⟩ [⟨"a//b"⟩, ⟨"a/b"⟩]).1 = none := by
  have hkey : keyOf [⟨"a//b"⟩, ⟨"a/b"⟩] ≠ keyOf [⟨"a/b"⟩, ⟨"a//b"⟩] := by
    have hset : canonicalSet [⟨"a//b"⟩, ⟨"a/b"⟩] = [⟨"a//b"⟩] :=
      (Path.canonicalSet_of_pairwise (by decide)).trans (by decide)
    have hset' : canonicalSet [⟨"a/b"⟩, ⟨"a//b"⟩] = [⟨"a/b"⟩] :=
      (Path.canonicalSet_of_pairwise (by decide)).trans (by decide)
    rw [keyOf, keyOf, hset, hset']
    decide +kernel
  refine ⟨List.Perm.swap .., hkey, Option.eq_none_iff_forall_ne_some.2 fun b hb ↦ ?_⟩
  obtain ⟨e, he, -, -⟩ := get_fst_eq_some_iff.1 hb
  have hrun : ((ofLimits ⟨60, 1⟩).run
      [⟨inDirectory, ⟨1, 0⟩, .set [⟨"a/b"⟩, ⟨"a//b"⟩] default⟩]).entries.get?
        (keyOf [⟨"a//b"⟩, ⟨"a/b"⟩]) = some e := he
  rcases get?_run_cases hrun with hbefore | ⟨ev, hev, hstored, hk⟩
  · simp [ofLimits] at hbefore
  · obtain rfl := List.mem_singleton.1 hev
    obtain ⟨state, -, rfl⟩ := (stored?_eq_some_iff rfl).1 hstored
    exact hkey hk.symm

end Cache

end ChangeContext
