import ChangeContext.Proofs.Assembly.Lookup
import ChangeContext.Proofs.Cache.FileState
import ChangeContext.Proofs.Instant.Order

/-!
# Related files are as they are now

Files may change in any way between one call for a bundle and the next.  Still the related files of a
bundle that is answered are as they are at the time of the call: a record of a file has its size and
the time of its last change, and a file that is to be created is not there.  So it makes no difference
whether the bundle was put together just now or remembered from long ago.

What carries this through a run is `Project.Recalls`.  The bundle of an entry has the records that were
loaded at an earlier call, and the state of the entry was taken of the same files at that call.  An
entry is served only if its state is that of the files now, and then the records are up to date as
well.  Records of files to be created never come out of the cache, because a set of files that are not
all there has no state.

The state tells the time of a change only from 1970 on.  Besides, the digests of different keys and of
different states have to be different, and every path has to be on one line.
-/

set_option autoImplicit false

namespace ChangeContext

/-! ## Records -/

/-- The record tells what is at its path: a file of this size that was last changed at this time, or
nothing if the file is to be created. -/
structure FileRecord.Current (t : FileTree) (r : FileRecord) : Prop where
  loaded : r.isNew = false →
    ∃ f, t.file? r.path = some f ∧ r.size = f.1.size ∧ r.modified = some f.2
  missing : r.isNew = true → t.pathExists r.path = false

/-- The time is one that a file can have, and not before 1970. -/
def Instant.SinceEpoch (time : Instant) : Prop :=
  time.Plain ∧ 0 ≤ time.seconds

instance (time : Instant) : Decidable time.SinceEpoch :=
  inferInstanceAs (Decidable (_ ∧ _))

section Records

variable {t t' : FileTree} {p : Path} {r : FileRecord}

theorem FileRecord.isNew_of_load? (h : load? t p = some r) : r.isNew = false := by
  obtain ⟨bytes, modified, content, -, -, rfl⟩ := load?_eq_some_iff.1 h
  rfl

theorem FileRecord.current_of_load? (h : load? t p = some r) : r.Current t := by
  obtain ⟨bytes, modified, content, hat, -, rfl⟩ := load?_eq_some_iff.1 h
  have hfile : t.file? p = some (bytes, modified) := FileTree.file?_eq_some_iff.2 hat
  exact ⟨fun _ ↦ ⟨_, hfile, rfl, rfl⟩, fun h ↦ absurd h (by simp [ofFile])⟩

/-- The records of requests that tell the truth are up to date. -/
theorem Request.current_of_mem_records {requests : List Request}
    (hhonest : ∀ request ∈ requests, Honest t request) (h : r ∈ records t requests) :
    r.Current t := by
  obtain ⟨request, hrequest, hr⟩ := List.mem_filterMap.1 h
  rw [record?] at hr
  split at hr
  next => exact FileRecord.current_of_load? hr
  next hexisting =>
    obtain rfl := Option.some_inj.1 hr
    refine ⟨fun h ↦ absurd h (by simp [FileRecord.placeholder]), fun _ ↦ ?_⟩
    exact hhonest request (mem_of_mem_distinctAfter hrequest) (by simpa using hexisting)

/-- A record that was loaded once is up to date wherever the file is alike. -/
theorem FileRecord.current_of_alike (h : load? t p = some r) (halike : Cache.Alike t t' p)
    (htime : ∀ f, t.file? p = some f → f.2.SinceEpoch)
    (htime' : ∀ f, t'.file? p = some f → f.2.SinceEpoch) : r.Current t' := by
  have hpath := path_of_load? h
  have hnew := isNew_of_load? h
  obtain ⟨f, hf, hsize, hmodified⟩ := (current_of_load? h).loaded hnew
  obtain ⟨g, f', hg, hf', hsame, hmoment⟩ := halike
  rw [hpath, hg] at hf
  obtain rfl := Option.some_inj.1 hf
  obtain ⟨hplain, hepoch⟩ := htime g hg
  obtain ⟨hplain', hepoch'⟩ := htime' f' hf'
  have hnanos : g.2.toNanos = f'.2.toNanos := by
    rw [Instant.toNanos, Instant.toNanos] at hmoment ⊢
    omega
  have htimes : g.2 = f'.2 := (Instant.toNanos_inj hplain hplain').1 hnanos
  refine ⟨fun _ ↦ ⟨f', hpath ▸ hf', hsize.trans hsame, htimes ▸ hmodified⟩, fun h ↦ ?_⟩
  rw [hnew] at h
  exact absurd h Bool.false_ne_true

end Records

namespace Project

/-! ## Calls at different times -/

/-- A call for a bundle: what the files are like at that time and what the clock shows, the intent, the
text in which the explicit files are mentioned, if there is one, with the directory it is about and
the directories in which none is looked for, and the further targets.  Before the call the cache may
have been looked after. -/
structure Occasion where
  upkeep : List Cache.Event
  tree : FileTree
  clock : Clock
  intent : String
  explicit : Option (Path × List String × String)
  targets : List Path

namespace Occasion

/-- The files that are mentioned. -/
def mentions (o : Occasion) : List Mention :=
  match o.explicit with
  | none => []
  | some (root, ignored, text) => Mention.ofText o.tree root ignored text

/-- What is requested. -/
def requests (o : Occasion) (p : Project) : List Request :=
  p.requests o.tree o.mentions o.targets

/-- The files under which the bundle is remembered. -/
def files (o : Occasion) (p : Project) : List Path :=
  Path.canonicalSet (Request.paths (o.requests p))

/-- The bundle and what becomes of the cache. -/
def answer (o : Occasion) (p : Project) (c : Cache) : Bundle × Cache :=
  p.collect o.tree (c.run o.upkeep) o.clock o.intent o.mentions o.targets

theorem honest {o : Occasion} {p : Project} {r : Request} (hr : r ∈ o.requests p) :
    Request.Honest o.tree r := by
  refine Request.honest_of_mem_requests (fun m hm ↦ ?_) hr
  rw [mentions] at hm
  split at hm
  · simp at hm
  · exact Request.honest_of_mention hm

end Occasion

/-- The bundles of one call after the other. -/
def answersAt (p : Project) : Cache → List Occasion → List Bundle
  | _, [] => []
  | c, o :: rest => (o.answer p c).1 :: answersAt p (o.answer p c).2 rest

/-- What the calls have to respect. -/
structure Orderly (p : Project) (occasions : List Occasion) : Prop where
  /-- Nothing but the calls stores a bundle. -/
  upkeep : ∀ o ∈ occasions, ∀ ev ∈ o.upkeep, ev.stored? = none
  /-- Every path is on one line. -/
  lines : ∀ o ∈ occasions, ∀ r ∈ o.requests p, Cache.OnOneLine r.path
  /-- No file was last changed before 1970. -/
  times : ∀ o ∈ occasions, ∀ r ∈ o.requests p, ∀ f, o.tree.file? r.path = some f → f.2.SinceEpoch
  /-- The digest tells different keys apart. -/
  keys : ∀ o ∈ occasions, ∀ o' ∈ occasions,
    Digest.Tells (Cache.keyText (o.files p)) (Cache.keyText (o'.files p))
  /-- The digest tells different states apart. -/
  states : ∀ o ∈ occasions, ∀ o' ∈ occasions, ∀ text text',
    Cache.stateText? o.tree (o.files p) = some text →
    Cache.stateText? o'.tree (o'.files p) = some text' → Digest.Tells text text'

/-! ## The invariant -/

/-- The entry was stored at that call: it holds the records that were loaded then, and the state in
which their files were. -/
structure StoredAt (p : Project) (o : Occasion) (k : String) (e : Cache.Entry) : Prop where
  nonempty : o.requests p ≠ []
  key : Cache.keyOf (Request.paths (o.requests p)) = k
  files : e.files = o.files p
  state : Cache.state? o.tree (o.files p) = some e.state
  related : e.bundle.relatedFiles = Request.records o.tree (o.requests p)

/-- Every entry was stored at one of the calls. -/
def Recalls (p : Project) (occasions : List Occasion) (c : Cache) : Prop :=
  ∀ k e, c.entries.get? k = some e → ∃ o ∈ occasions, StoredAt p o k e

section Invariant

variable {p : Project} {occasions : List Occasion} {c : Cache} {o : Occasion}

theorem recalls_ofLimits (limits : Cache.Limits) : Recalls p occasions (.ofLimits limits) := by
  intro k e he
  simp [Cache.ofLimits] at he

/-- Whatever stores nothing leaves only entries that were there. -/
theorem Recalls.run (h : Recalls p occasions c) {events : List Cache.Event}
    (hevents : ∀ ev ∈ events, ev.stored? = none) : Recalls p occasions (c.run events) := by
  intro k e he
  rcases Cache.get?_run_cases he with hbefore | ⟨ev, hev, hstored, -⟩
  · exact h k e hbefore
  · rw [hevents ev hev] at hstored
    exact absurd hstored.symm (Option.some_ne_none e)

/-- Storing the bundle of a call adds an entry of that call. -/
theorem Recalls.set (h : Recalls p occasions c) (ho : o ∈ occasions) (hne : o.requests p ≠ [])
    (stored now : Instant) : Recalls p occasions (c.set o.tree stored
      (Request.paths (o.requests p)) (p.assemble o.tree now o.intent (o.requests p))) := by
  intro k e he
  have hstep := @Cache.get?_step_cases c ⟨o.tree, stored, .set (Request.paths (o.requests p))
    (p.assemble o.tree now o.intent (o.requests p))⟩ k e he
  rcases hstep with ⟨hstored, hkey⟩ | ⟨hbefore, -, -⟩
  · obtain ⟨state, hstate, rfl⟩ := (Cache.stored?_eq_some_iff rfl).1 hstored
    exact ⟨o, ho, hne, hkey, rfl, hstate, rfl⟩
  · exact h k e hbefore

/-! ## One call -/

/-- **What the cache has for a call is up to date.** -/
theorem current_of_get (h : Orderly p occasions) (hc : Recalls p occasions c) (ho : o ∈ occasions)
    (hne : o.requests p ≠ []) {now : Instant} {b : Bundle}
    (hb : (c.get o.tree now (Request.paths (o.requests p))).1 = some b) :
    ∀ r ∈ b.relatedFiles, r.Current o.tree := by
  obtain ⟨e, he, hgood, rfl⟩ := Cache.get_fst_eq_some_iff.1 hb
  obtain ⟨o', ho', hstored⟩ := hc _ e he
  have hfiles : o'.files p = o.files p :=
    Request.files_eq_of_key_eq hstored.nonempty hne (h.lines o' ho') (h.lines o ho)
      (h.keys o' ho' o ho) hstored.key
  have hnow : Cache.state? o.tree (o'.files p) = some e.state := hstored.files ▸ hgood.same
  have halike : ∀ q ∈ o'.files p, Cache.Alike o'.tree o.tree q :=
    Cache.alike_of_state? hstored.state hnow (by rw [hfiles]; exact hfiles ▸ h.states o' ho' o ho)
  intro r hr
  rw [hstored.related, Request.records_eq_of_state? (fun _ ↦ Occasion.honest) hstored.state] at hr
  obtain ⟨q, hq, hload⟩ := List.mem_filterMap.1 hr
  have hmem : q ∈ o'.files p := (Request.perm_paths_distinct _).subset hq
  have htimes {o : Occasion} (ho : o ∈ occasions) (hmem : q ∈ o.files p) :
      ∀ f, o.tree.file? q = some f → f.2.SinceEpoch := by
    obtain ⟨request, hrequest, rfl⟩ := List.mem_map.1 (Path.mem_of_mem_canonicalSet hmem)
    exact h.times o ho request hrequest
  exact FileRecord.current_of_alike hload (halike q hmem) (htimes ho' hmem)
    (htimes ho (hfiles ▸ hmem))

/-- **One call**: the related files are up to date, and every entry goes on to be one of the calls. -/
theorem current_answer (h : Orderly p occasions) (hc : Recalls p occasions c) (ho : o ∈ occasions) :
    (∀ r ∈ (o.answer p c).1.relatedFiles, r.Current o.tree) ∧
      Recalls p occasions (o.answer p c).2 := by
  have hanswer : o.answer p c =
      p.bundleFor o.tree (c.run o.upkeep) o.clock o.intent (o.requests p) := rfl
  have hupkeep : Recalls p occasions (c.run o.upkeep) := hc.run (h.upkeep o ho)
  let asking : Cache.Event := ⟨o.tree, o.clock.asked, .get (Request.paths (o.requests p))⟩
  have hget : Recalls p occasions ((c.run o.upkeep).run [asking]) :=
    hupkeep.run (by simp [asking, Cache.Event.stored?])
  have hfresh : ∀ r ∈ Request.records o.tree (o.requests p), r.Current o.tree := fun r ↦
    Request.current_of_mem_records fun _ ↦ Occasion.honest
  rcases bundleFor_cases p o.tree (c.run o.upkeep) o.clock o.intent (o.requests p) with
    ⟨-, heq⟩ | ⟨hne, b, hb, heq⟩ | ⟨hne, -, heq⟩
  · rw [hanswer, heq]
    exact ⟨hfresh, hupkeep⟩
  · have hcurrent : ∀ r ∈ b.relatedFiles, r.Current o.tree := current_of_get h hupkeep ho hne hb
    rw [hanswer, heq]
    exact ⟨hcurrent, hget⟩
  · rw [hanswer, heq]
    exact ⟨hfresh, hget.set ho hne _ _⟩

/-! ## A run -/

theorem forall₂_current_answersAt (h : Orderly p occasions) (hc : Recalls p occasions c)
    {rest : List Occasion} (hrest : ∀ o ∈ rest, o ∈ occasions) :
    List.Forall₂ (fun o b ↦ ∀ r ∈ b.relatedFiles, r.Current o.tree) rest (p.answersAt c rest) := by
  induction rest generalizing c with
  | nil => exact .nil
  | cons o rest ih =>
    have hanswer := current_answer h hc (hrest o (List.mem_cons_self ..))
    exact .cons hanswer.1 (ih hanswer.2 fun o' ho' ↦ hrest o' (List.mem_cons_of_mem _ ho'))

end Invariant

/-- **The related files of every answer are as they are at the time of the call**, for any project, any
calls one after the other with any changes to the files in between, whatever the clock shows, and a
cache of any limits, which may be used otherwise as long as nothing else is stored in it. -/
theorem current_answersAt (p : Project) (limits : Cache.Limits) (occasions : List Occasion)
    (h : Orderly p occasions) :
    List.Forall₂ (fun o b ↦ ∀ r ∈ b.relatedFiles, r.Current o.tree) occasions
      (p.answersAt (.ofLimits limits) occasions) :=
  forall₂_current_answersAt h (recalls_ofLimits limits) fun _ ho ↦ ho

/-- The file `a` is asked for three times: it is there, it is still the same after the cache was
cleaned up, and it was touched. -/
def touched : List Occasion :=
  [⟨[], Cache.changedAt ⟨10, 0⟩, .still ⟨20, 0⟩, "rename x", none, [⟨"a"⟩]⟩,
    ⟨[⟨Cache.changedAt ⟨10, 0⟩, ⟨30, 0⟩, .cleanUp⟩], Cache.changedAt ⟨10, 0⟩, .still ⟨30, 0⟩,
      "rename y", none, [⟨"a"⟩]⟩,
    ⟨[], Cache.changedAt ⟨40, 0⟩, .still ⟨50, 0⟩, "rename z", none, [⟨"a"⟩]⟩]

theorem paths_touched : ∀ o ∈ touched, Request.paths (o.requests ⟨⟨"/"⟩, {}⟩) = [⟨"/a"⟩] := by
  decide +kernel

theorem orderly_touched : Orderly ⟨⟨"/"⟩, {}⟩ touched where
  upkeep := by decide
  lines := by decide +kernel
  times := by
    have htimes : ∀ o ∈ touched, ∀ r ∈ o.requests ⟨⟨"/"⟩, {}⟩,
        ((o.tree.file? r.path).all fun f ↦ decide f.2.SinceEpoch) = true := by decide +kernel
    intro o ho r hr f hf
    simpa [hf] using htimes o ho r hr
  keys := by
    intro o ho o' ho' _
    rw [Occasion.files, Occasion.files, paths_touched o ho, paths_touched o' ho']
  states := by
    have htexts : ∀ o ∈ touched, ∀ o' ∈ touched,
        ((Cache.stateText? o.tree [⟨"/a"⟩]).all fun text ↦
          (Cache.stateText? o'.tree [⟨"/a"⟩]).all fun text' ↦
            decide (Digest.ofText text ≠ Digest.ofText text' ∨ text = text')) = true := by
      decide +kernel
    intro o ho o' ho' text text' htext htext'
    rw [Occasion.files, paths_touched _ ‹_›, Path.canonicalSet_singleton] at htext htext'
    have htells : Digest.ofText text ≠ Digest.ofText text' ∨ text = text' := by
      simpa [htext, htext'] using htexts o ho o' ho'
    exact fun hsame ↦ htells.resolve_left (not_not_intro hsame)

/-- The third answer tells when the file was touched. -/
theorem current_answersAt_touched :
    List.Forall₂ (fun o b ↦ ∀ r ∈ b.relatedFiles, r.Current o.tree) touched
      (answersAt ⟨⟨"/"⟩, {}⟩ (.ofLimits ⟨60, 1⟩) touched) :=
  current_answersAt ⟨⟨"/"⟩, {}⟩ ⟨60, 1⟩ touched orderly_touched

end Project

end ChangeContext
