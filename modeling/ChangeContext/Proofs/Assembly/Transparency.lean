import ChangeContext.Proofs.Assembly.Lookup
import ChangeContext.Proofs.Assembly.Permutation

/-!
# Remembered bundles agree with fresh ones

While no file changes, remembering bundles makes no difference to what is answered, except that a
remembered bundle lists its related files in the order of the requests it was assembled for.  What
carries this through a run is `Project.Remembers`: every entry of the cache holds a bundle that was
assembled for the requests of one of the calls, under the key of these requests and with their files
in the state they are in now.  Whatever becomes of an entry — it expires, makes room or is replaced
— the entries that are left are of this kind.

An entry may have been stored for other requests than it is found by; then their keys are equal, and
so are the texts of which the keys are digests.  That no two of these texts share their digest has to
be assumed, and also that every path is written on one line, so that the texts tell the paths.
-/

set_option autoImplicit false

namespace ChangeContext

namespace Project

/-- A call for the context of an intent: the text in which the explicit files are mentioned and the
directories in which none is looked for, if there is such a text, the further targets, and what the
clock shows. -/
structure Call where
  clock : Clock
  intent : String
  explicit : Option (List String × String)
  targets : List Path

namespace Call

/-- The files that are mentioned. -/
def mentions (call : Call) (p : Project) (t : FileTree) : List Mention :=
  match call.explicit with
  | none => []
  | some (ignored, text) => Mention.ofText t p.root ignored text

/-- What is requested. -/
def requests (call : Call) (p : Project) (t : FileTree) : List Request :=
  p.requests t (call.mentions p t) call.targets

/-- The files under which the bundle is remembered. -/
def files (call : Call) (p : Project) (t : FileTree) : List Path :=
  Path.canonicalSet (Request.paths (call.requests p t))

/-- The bundle and what becomes of the cache. -/
def answer (call : Call) (p : Project) (t : FileTree) (c : Cache) : Bundle × Cache :=
  p.collect t c call.clock call.intent (call.mentions p t) call.targets

/-- The requests of a call tell the truth. -/
theorem honest {call : Call} {p : Project} {t : FileTree} {r : Request}
    (hr : r ∈ call.requests p t) : Request.Honest t r := by
  refine Request.honest_of_mem_requests (fun m hm ↦ ?_) hr
  rw [mentions] at hm
  split at hm
  · simp at hm
  · exact Request.honest_of_mention hm

end Call

/-- The bundles of one call after the other. -/
def answers (p : Project) (t : FileTree) : Cache → List Call → List Bundle
  | _, [] => []
  | c, call :: rest => (call.answer p t c).1 :: answers p t (call.answer p t c).2 rest

section Invariant

variable {p : Project} {t : FileTree} {calls : List Call} {c : Cache}

/-- The entry holds a bundle assembled for the requests of the call. -/
structure HoldsFor (p : Project) (t : FileTree) (call : Call) (e : Cache.Entry) : Prop where
  nonempty : call.requests p t ≠ []
  key : e.key = Cache.key (call.files p t)
  recorded : Cache.state? t (call.files p t) = some e.state
  bundle : ∃ now intent, e.bundle = p.assemble t now intent (call.requests p t)

/-- Every entry holds a bundle assembled for the requests of one of the calls. -/
def Remembers (p : Project) (t : FileTree) (calls : List Call) (c : Cache) : Prop :=
  ∀ k e, c.entries.get? k = some e → e.key = k ∧ ∃ call ∈ calls, HoldsFor p t call e

/-- Looking a bundle up leaves only entries that were there. -/
theorem Remembers.get (h : Remembers p t calls c) (now : Instant) (files : List Path) :
    Remembers p t calls (c.get t now files).2 := by
  intro k e he
  rw [Cache.get?_get_snd] at he
  split at he
  · exact h k e (Option.filter_eq_some_iff.1 he).1
  · exact h k e he

/-- Storing the bundle of a call adds an entry that holds it. -/
theorem Remembers.set (h : Remembers p t calls c) {call : Call} (hcall : call ∈ calls)
    (hne : call.requests p t ≠ []) (now stored : Instant) (intent : String) :
    Remembers p t calls (c.set t stored (Request.paths (call.requests p t))
      (p.assemble t now intent (call.requests p t))) := by
  intro k e he
  have hstep := @Cache.get?_step_cases c ⟨t, stored, .set (Request.paths (call.requests p t))
    (p.assemble t now intent (call.requests p t))⟩ k e he
  rcases hstep with ⟨hstored, hkey⟩ | ⟨hbefore, -, -⟩
  · obtain ⟨state, hstate, rfl⟩ := (Cache.stored?_eq_some_iff rfl).1 hstored
    exact ⟨hkey, call, hcall, hne, rfl, hstate, now, intent, rfl⟩
  · exact h k e hbefore

end Invariant

/-! ## One call -/

section Call

variable {p : Project} {t : FileTree} {calls : List Call} {c : Cache} {call : Call}

end Call

/-! ## A run -/

end Project

end ChangeContext
