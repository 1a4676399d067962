import ChangeContext.Proofs.Cache.CleanUp
import ChangeContext.Proofs.Engine.Snapshot

/-!
# Carrying a cache over

A cache is carried over from one place to another in a snapshot.  Everything it holds arrives, to the
last nanosecond and whatever characters its texts are made of, and so do its counters.  What it may
hold and for how long is not written down, since that is for the cache that takes the snapshot over to
say; what that cache held before is gone.

This is so in every state that a cache can get into (`Reachable`), be it by being used or by taking
over a snapshot itself, even one that somebody else has written.  A value of the program cannot hold
numbers of more than 64 bits or instants that the calendar does not have, so nothing of that kind is
ever stored (`Entry.Fits`).
-/

set_option autoImplicit false

namespace ChangeContext

namespace Cache

/-- A state that a cache can get into. -/
inductive Reachable : Cache → Prop
  | ofLimits (limits : Limits) : Reachable (ofLimits limits)
  /-- The cache is used; what is stored has no number and no instant that is out of range. -/
  | step {c : Cache} (ev : Event) (h : Reachable c) (hfits : ∀ e, ev.stored? = some e → e.Fits) :
    Reachable (c.step ev)
  /-- A snapshot is taken over, whoever has written it. -/
  | importFrom {c c' : Cache} {t : FileTree} {path : Path} (h : Reachable c)
    (himport : c.importFrom? t path = some c') : Reachable c'

theorem Reachable.sound {c : Cache} (h : c.Reachable) : c.Sound := by
  induction h with
  | ofLimits limits => exact sound_ofLimits limits
  | step ev _ hfits ih => exact ih.step hfits
  | importFrom _ himport _ => exact sound_importFrom? himport

/-- **A snapshot carries all of a cache over.**  Once a snapshot was written, any cache that takes it
over has the entries and the counters of the cache that has written it, whatever it held before, and
keeps its own limits.  If these are the same, the two caches are alike from then on. -/
theorem importFrom?_exportTo {c : Cache} (hc : c.Reachable) {t : FileTree} {now : Instant}
    {path : Path} (hnow : now.Valid) (hwritten : (c.exportTo t now path).2 = true) (d : Cache) :
    ∃ d', d.importFrom? (c.exportTo t now path).1 path = some d' ∧ d'.entries = c.entries ∧
      d'.counters = c.counters ∧ d'.limits = d.limits ∧
      (d.limits = c.limits → ∀ events, d'.answers events = c.answers events ∧
        d'.run events = c.run events) := by
  refine ⟨_, hc.sound.importFrom? d hnow (readText?_exportTo hwritten), rfl, rfl, rfl, ?_⟩
  intro hlimits events
  rw [hlimits]
  exact ⟨rfl, rfl⟩

/-- A bundle with an intent in several scripts and with signs that have to be escaped, and with a file
that was last changed in a leap second. -/
def motley : Bundle :=
  { Bundle.bare "größer\n\t\"\\\u0001 数 🦀" ⟨1, 5⟩ with
    relatedFiles := [⟨⟨"ä/\"b\""⟩, "\r\n\u007f", "", 4, some ⟨1483228799, 1500000000⟩, false⟩] }

theorem fits_motley : motley.Fits := by decide

/-- A cache that holds this bundle. -/
def holdingMotley : Cache :=
  (ofLimits ⟨60, 1⟩).step ⟨oneFile, ⟨1, 999999999⟩, .set [⟨"a"⟩] motley⟩

theorem reachable_holdingMotley : holdingMotley.Reachable := by
  refine .step _ (.ofLimits _) fun e he ↦ ?_
  obtain ⟨state, -, rfl⟩ := (stored?_eq_some_iff rfl).1 he
  exact ⟨fits_motley, (by decide : Instant.Valid ⟨1, 999999999⟩)⟩

/-- Its snapshot is taken over by a cache that has counted a miss and has other limits. -/
theorem importFrom?_exportTo_motley :
    ∃ d', ((ofLimits ⟨5, 7⟩).step ⟨oneFile, ⟨1, 0⟩, .get [⟨"a"⟩]⟩).importFrom?
        (holdingMotley.exportTo oneFile ⟨2, 5⟩ ⟨"s"⟩).1 ⟨"s"⟩ = some d' ∧
      d'.entries = holdingMotley.entries ∧ d'.counters = holdingMotley.counters ∧
      d'.limits = ⟨5, 7⟩ := by
  have hwritten : (holdingMotley.exportTo oneFile ⟨2, 5⟩ ⟨"s"⟩).2 = true := by decide +kernel
  obtain ⟨d', himport, hentries, hcounters, hlimits, -⟩ := importFrom?_exportTo reachable_holdingMotley
    (by decide) hwritten ((ofLimits ⟨5, 7⟩).step ⟨oneFile, ⟨1, 0⟩, .get [⟨"a"⟩]⟩)
  exact ⟨d', himport, hentries, hcounters, hlimits⟩

end Cache

end ChangeContext
