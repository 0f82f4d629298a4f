/-
  Scord.Server.JobIndex

  Any number of callers of the job manager, interleaved.  A `create` is two
  steps, as in the code: it draws an id from the atomic counter, and some time
  later it runs its locked part with that id.  `update` and `remove` are one
  locked section each.

  The first question is whether what the index finds is right: every entry leads
  to a live job with its slurm id.  The second is whether every live job can be
  found by its slurm id.  The index keeps one entry for each slurm id, and
  `remove` erases it by slurm id, also when other live jobs were registered under
  the same one.
-/
import Scord.Server.Invariants

namespace Scord

open ObjectStore StepSystem

/-- The job manager, and the ids that callers have drawn and not used yet. -/
structure JobCallers where
  manager : JobManager
  drawn : List JobId

inductive JobCall
  | fetchId
  | createLocked (id : JobId) (slurmId : SlurmJobId) (res : JobResources)
      (req : JobRequirements) (ptr : Option AdhocPtr)
  | update (id : JobId) (res : JobResources)
  | remove (id : JobId)

namespace JobCallers

def init : JobCallers := ⟨JobManager.empty, []⟩

/-- One step of one caller.  The locked part of a `create` needs a drawn id. -/
def step (s : JobCallers) : JobCall → Option JobCallers
  | .fetchId => some ⟨s.manager.fetchId.1, s.manager.fetchId.2 :: s.drawn⟩
  | .createLocked id slurmId res req ptr =>
      if id ∈ s.drawn then
        some ⟨(s.manager.createLocked id slurmId res req ptr).1, s.drawn.erase id⟩
      else none
  | .update id res => some ⟨(s.manager.update id res).1, s.drawn⟩
  | .remove id => some ⟨(s.manager.remove id).1, s.drawn⟩

end JobCallers

namespace JobManager

/-- The index neither dangles nor misdirects: an entry leads to a live job with
    its slurm id, and a search returns no other. -/
structure IndexSound (m : JobManager) : Prop where
  entries : ∀ slurmId id, m.slurmToScord.lookup slurmId = some id →
    ∃ p j, m.Live id p j ∧ j.job.id = id ∧ j.job.slurmId = slurmId
  searches : ∀ slurmId p, m.findBySlurmId slurmId = .ok p →
    ∃ id j, m.Live id p j ∧ j.job.slurmId = slurmId

/-- Every live job is reachable by its slurm id. -/
def Findable (m : JobManager) : Prop :=
  ∀ id p j, m.Live id p j → ∃ q, m.findBySlurmId j.job.slurmId = .ok q

/-- Another live job was registered under the slurm id of the live job `id`. -/
def SharesSlurmId (m : JobManager) (id : JobId) : Prop :=
  ∃ p j id' q k, m.Live id p j ∧ m.Live id' q k ∧ id' ≠ id ∧
    k.job.slurmId = j.job.slurmId

variable {m : JobManager}

/-- Index entries lead to live jobs, so an entry is all that a search needs. -/
theorem WF.findBySlurmId_iff (h : m.WF) (slurmId : SlurmJobId) :
    (∃ q, m.findBySlurmId slurmId = .ok q) ↔ ∃ id, m.slurmToScord.lookup slurmId = some id := by
  refine ⟨?_, ?_⟩
  · rintro ⟨q, hq⟩
    cases hid : m.slurmToScord.lookup slurmId with
    | none => simp only [findBySlurmId, hid, reduceCtorEq] at hq
    | some id => exact ⟨id, rfl⟩
  · rintro ⟨id, hid⟩
    obtain ⟨p, j, hlive, -⟩ := h.index hid
    refine ⟨p, ?_⟩
    simp only [findBySlurmId, hid]
    exact find_of_find? hlive.1

/-- A search follows an entry, and the entry leads to a live job. -/
theorem WF.indexSound (h : m.WF) : m.IndexSound := by
  refine ⟨?_, ?_⟩
  · intro slurmId id hid
    obtain ⟨p, j, hlive, hslurm⟩ := h.index hid
    exact ⟨p, j, hlive, h.ownId hlive, hslurm⟩
  · intro slurmId p hp
    obtain ⟨id, hid⟩ := (h.findBySlurmId_iff slurmId).mp ⟨p, hp⟩
    obtain ⟨q, j, hlive, hslurm⟩ := h.index hid
    -- the search found the job of this entry
    have hfind : m.find id = .ok p := by
      simpa only [findBySlurmId, hid] using hp
    have hpq : p = q := Option.some.inj ((findAt_eq_ok.mp hfind).symm.trans hlive.1)
    exact ⟨id, j, hpq ▸ hlive, hslurm⟩

theorem WF.findable_iff (h : m.WF) :
    m.Findable ↔
      ∀ id p j, m.Live id p j → ∃ id', m.slurmToScord.lookup j.job.slurmId = some id' :=
  forall₄_congr fun _ _ j _ => h.findBySlurmId_iff j.job.slurmId

/-! ## The steps, one by one -/

theorem findable_empty : empty.Findable := by
  intro id p j hlive
  cases hlive.1

/-- A creation adds an index entry where there was none. -/
theorem WF.findable_createLocked (h : m.WF) (hfind : m.Findable) (id : JobId)
    (slurmId : SlurmJobId) (res : JobResources) (req : JobRequirements)
    (ptr : Option AdhocPtr) : (m.createLocked id slurmId res req ptr).1.Findable := by
  cases hfree : m.jobs.find? id with
  | some p =>
      rw [createLocked_of_taken hfree]
      exact hfind
  | none =>
      rw [(h.createLocked slurmId res req ptr).findable_iff]
      intro id' p j hlive
      have hlookup : (m.createLocked id slurmId res req ptr).1.slurmToScord
          = (UMap.emplace m.slurmToScord slurmId id).1 := by
        rw [createLocked_of_free hfree]
      rw [hlookup, UMap.lookup_emplace]
      rcases (live_createLocked hfree).mp hlive with hold | ⟨-, -, rfl⟩
      · -- an entry that was there is not replaced
        obtain ⟨id₀, hid₀⟩ := h.findable_iff.mp hfind id' p j hold
        rw [hid₀]
        split <;> exact ⟨_, rfl⟩
      · exact ⟨_, if_pos rfl⟩

theorem WF.findable_update (h : m.WF) (hfind : m.Findable) (id : JobId)
    (res : JobResources) : (m.update id res).1.Findable := by
  cases hid : m.jobs.find? id with
  | none =>
      rw [update_of_none hid]
      exact hfind
  | some q =>
      have hwf : (m.update id res).1.WF := h.update res
      rw [update_of_find? hid] at hwf ⊢
      rw [hwf.findable_iff]
      rintro id' p j ⟨hid', hj⟩
      obtain ⟨j₀, hj₀, rfl | ⟨-, rfl⟩⟩ := get?_modify_update hj
      · exact h.findable_iff.mp hfind id' p j ⟨hid', hj₀⟩
      · exact h.findable_iff.mp hfind id' p j₀ ⟨hid', hj₀⟩

/-- A removal takes the index entry of its slurm id away: the other jobs stay
    reachable exactly when none of them has that slurm id. -/
theorem WF.findable_remove_iff (h : m.WF) (hfind : m.Findable) (id : JobId) :
    (m.remove id).1.Findable ↔ ¬ m.SharesSlurmId id := by
  cases hid : m.jobs.find? id with
  | none =>
      rw [remove_of_none hid]
      refine iff_of_true hfind ?_
      rintro ⟨p, j, -, -, -, ⟨hp, -⟩, -⟩
      rw [hid] at hp
      cases hp
  | some p =>
      obtain ⟨j, hlive⟩ := live_of_find? hid
      rw [h.remove.findable_iff]
      refine ⟨?_, ?_⟩
      · rintro hall ⟨p', j', id', q, k, hlive', hk, hne, hsame⟩
        obtain rfl : p' = p := Option.some.inj (hlive'.1.symm.trans hlive.1)
        obtain rfl : j' = j := Option.some.inj (hlive'.2.symm.trans hlive.2)
        obtain ⟨id₀, hid₀⟩ := hall id' q k ((live_remove hlive).mpr ⟨hne, hk⟩)
        -- the entry of the shared slurm id is gone
        rw [lookup_remove hlive, if_pos hsame] at hid₀
        cases hid₀
      · intro hnot id' q k hk
        obtain ⟨hne, hk⟩ := (live_remove hlive).mp hk
        rw [lookup_remove hlive]
        by_cases hsame : k.job.slurmId = j.job.slurmId
        · exact absurd ⟨p, j, id', q, k, hlive, hk, hne, hsame⟩ hnot
        · rw [if_neg hsame]
          exact h.findable_iff.mp hfind id' q k hk

end JobManager

/-! ## Every interleaving -/

namespace JobCallers

/-- The call removes a job whose slurm id another live job was registered
    under. -/
def RemovesSharedSlurmId (s : JobCallers) : JobCall → Prop
  | .remove id => s.manager.SharesSlurmId id
  | _ => False

theorem wf_step {s s' : JobCallers} {c : JobCall} (h : s.manager.WF)
    (hs : s.step c = some s') : s'.manager.WF := by
  cases c with
  | fetchId =>
      cases hs
      exact h.fetchId
  | createLocked id slurmId res req ptr =>
      obtain ⟨-, hs⟩ := Option.ite_none_right_eq_some.mp hs
      cases hs
      exact h.createLocked slurmId res req ptr
  | update id res =>
      cases hs
      exact h.update res
  | remove id =>
      cases hs
      exact h.remove

/-- **Whatever the callers do, the index leads to live jobs with the right slurm
    id only.** -/
theorem indexSound_of_reachable {s : JobCallers} (h : Reachable step init s) :
    s.manager.IndexSound :=
  have hwf : s.manager.WF :=
    h.invariant (I := fun s => s.manager.WF) JobManager.wf_empty fun _ _ _ h hs => wf_step h hs
  hwf.indexSound

/-- One step keeps every live job findable exactly when it removes no job whose
    slurm id is shared. -/
theorem findable_step_iff {s s' : JobCallers} {c : JobCall} (h : s.manager.WF)
    (hfind : s.manager.Findable) (hs : s.step c = some s') :
    s'.manager.Findable ↔ ¬ s.RemovesSharedSlurmId c := by
  cases c with
  | fetchId =>
      cases hs
      exact iff_of_true hfind not_false
  | createLocked id slurmId res req ptr =>
      obtain ⟨-, hs⟩ := Option.ite_none_right_eq_some.mp hs
      cases hs
      exact iff_of_true (h.findable_createLocked hfind id slurmId res req ptr) not_false
  | update id res =>
      cases hs
      exact iff_of_true (h.findable_update hfind id res) not_false
  | remove id =>
      cases hs
      exact h.findable_remove_iff hfind id

/-- **Every live job stays reachable by its slurm id, in every state of a run,
    exactly when the run never removes one of several live jobs with the same
    slurm id.** -/
theorem always_findable_iff (cs : List JobCall) :
    Always step (fun s => s.manager.Findable) init cs ↔
      StepsMeet step (fun s c => ¬ s.RemovesSharedSlurmId c) init cs :=
  always_iff (I := fun s => s.manager.WF) (fun _ _ _ h hs => wf_step h hs)
    (fun _ _ _ h hfind hs => findable_step_iff h hfind hs) cs init JobManager.wf_empty
    JobManager.findable_empty

/-- Two jobs are registered under slurm id 7, and the first one is removed. -/
def sharedSlurmIdRun : List JobCall :=
  [.fetchId, .createLocked 0 7 ⟨[]⟩ (sampleRequirements none) none,
    .fetchId, .createLocked 1 7 ⟨[]⟩ (sampleRequirements none) none, .remove 0]

/-- The index after that run has no entry left that could mislead. -/
theorem indexSound_sharedSlurmIdRun :
    ∃ s, run step init sharedSlurmIdRun = some s ∧ s.manager.IndexSound :=
  ⟨_, rfl, indexSound_of_reachable ⟨sharedSlurmIdRun, rfl⟩⟩

theorem not_findable_sharedSlurmIdRun :
    ¬ Always step (fun s => s.manager.Findable) init sharedSlurmIdRun := by
  intro hall
  obtain ⟨s, hs⟩ : ∃ s, run step init sharedSlurmIdRun = some s := ⟨_, rfl⟩
  have hfind := hall.last hs
  cases hs
  -- job 1 is live, and its slurm id is not in the index any more
  obtain ⟨q, hq⟩ := hfind 1 ⟨1⟩ _ ⟨rfl, rfl⟩
  cases hq

end JobCallers

end Scord
