/-
  Scord.Server.ClientSlots

  The client slot of a registered adhoc storage.  `register_job` fills it
  through a pointer that it looked up in the same request; `remove_job` empties
  it through the id that the requirements of the removed job name.  In between,
  storages may be unregistered and others registered.

  The slot never refers to a dead or to a foreign job.  But `remove_job` looks
  the storage up after the job is gone, so it may report an error for a removal
  that it has carried out.
-/
import Scord.Server.Invariants

namespace Scord

open ObjectStore StepSystem

/-- The id of the adhoc storage that the requirements of a job name. -/
def JobMetadata.requiredId (j : JobMetadata) : Option AdhocId :=
  (j.requirements.bind (·.adhocStorage)).map (·.id)

@[simp] theorem JobMetadata.requiredId_update (j : JobMetadata) (res : JobResources) :
    (j.update res).requiredId = j.requiredId := rfl

theorem JobMetadata.requiredId_make (job : Job) (res : JobResources) (req : JobRequirements)
    (ptr : Option AdhocPtr) :
    (JobMetadata.make job res req ptr).requiredId = req.adhocStorage.map (·.id) := rfl

namespace Server

variable {H : Type} {s s' : Server H}

/-! ## Adhoc storages carry their own id -/

/-- Every registered adhoc storage carries the id it is registered under. -/
def AdhocsOwnId (s : Server H) : Prop :=
  ∀ id ap a, s.adhocManager.find? id = some ap → s.adhocManager.get? ap = some a →
    a.adhocStorage.id = id

theorem Effect.adhocsOwnId {env : Env H} {r : Request} (h : Effect env r s s')
    (hown : s.AdhocsOwnId) : s'.AdhocsOwnId := by
  intro id ap a' hfind ha'
  rcases h.registered_origin hfind with hold | ⟨-, -, name, type, ctx, res, -, hnew⟩
  · have hget := Registry.get?_eq_deref hold
    obtain ⟨b, hb, hsame⟩ := h.adhoc_identity hget
    obtain rfl : b = a' := Option.some.inj (hb.symm.trans ha')
    rw [hsame.id]
    exact hown id ap _ hold hget
  · obtain rfl := Option.some.inj (hnew.symm.trans ha')
    rfl

theorem adhocsOwnId_of_reachable {redis : Bool} (h : Reachable step (init redis) s) :
    s.AdhocsOwnId :=
  h.invariant (I := AdhocsOwnId) (fun _ _ _ hfind => by cases hfind)
    fun _ _ _ hown hs => (step_effect hs).adhocsOwnId hown

/-! ## Slots refer to live jobs -/

/-- The client of a registered adhoc storage is a live job, and its requirements
    name that storage. -/
def SlotsLive (s : Server H) : Prop :=
  ∀ id ap a p, s.adhocManager.find? id = some ap → s.adhocManager.get? ap = some a →
    a.clientInfo = some p →
    ∃ jobId j, s.jobManager.Live jobId p j ∧ j.requiredId = some id

/-- A request that fills no slot and ends no job keeps the slots right. -/
theorem SlotsLive.of_kept (h : s.SlotsLive)
    (hslot : ∀ {id ap a' p}, s'.adhocManager.find? id = some ap →
      s'.adhocManager.get? ap = some a' → a'.clientInfo = some p →
      ∃ a, s.adhocManager.find? id = some ap ∧ s.adhocManager.get? ap = some a ∧
        a.clientInfo = some p)
    (hjob : ∀ {jobId p j}, s.jobManager.Live jobId p j →
      ∃ j', s'.jobManager.Live jobId p j' ∧ j'.requiredId = j.requiredId) : s'.SlotsLive := by
  intro id ap a' p hfind ha' hp
  obtain ⟨a, hfind, ha, hp⟩ := hslot hfind ha' hp
  obtain ⟨jobId, j, hlive, hid⟩ := h id ap a p hfind ha hp
  obtain ⟨j', hlive', hid'⟩ := hjob hlive
  exact ⟨jobId, j', hlive', hid'.trans hid⟩

/-- The same where the jobs do not change at all. -/
theorem SlotsLive.of_jobs (h : s.SlotsLive) (jm : s'.jobManager = s.jobManager)
    (hslot : ∀ {id ap a' p}, s'.adhocManager.find? id = some ap →
      s'.adhocManager.get? ap = some a' → a'.clientInfo = some p →
      ∃ a, s.adhocManager.find? id = some ap ∧ s.adhocManager.get? ap = some a ∧
        a.clientInfo = some p) : s'.SlotsLive :=
  h.of_kept hslot fun {_ _ j} hlive => ⟨j, jm ▸ hlive, rfl⟩

/-- The same where the storages do not change at all. -/
theorem SlotsLive.of_adhocs (h : s.SlotsLive) (am : s'.adhocManager = s.adhocManager)
    (hjob : ∀ {jobId p j}, s.jobManager.Live jobId p j →
      ∃ j', s'.jobManager.Live jobId p j' ∧ j'.requiredId = j.requiredId) : s'.SlotsLive :=
  h.of_kept (fun {_ _ a' _} hfind ha' hp => ⟨a', am ▸ hfind, am ▸ ha', hp⟩) hjob

/-- `register_job` puts a job into the slot of the storage that the job names,
    and leaves a client that is there alone. -/
theorem SlotsLive.jobCreated (h : s.SlotsLive) (hown : s.AdhocsOwnId)
    {slurmId : SlurmJobId} {res : JobResources} {req : JobRequirements} {ptr : Option AdhocPtr}
    (free : s.jobManager.jobs.find? s.jobManager.jobs.currentId = none)
    (required : s.requiredAdhoc req = .ok ptr)
    (jm : s'.jobManager = (s.jobManager.create slurmId res req ptr).1)
    (am : s'.adhocManager = bindClient s.adhocManager ptr s.jobManager.jobs.next) :
    s'.SlotsLive := by
  intro id ap a' p hfind ha' hp
  rw [am] at hfind ha'
  rw [find?_bindClient] at hfind
  have hlive' : ∀ {jobId q j}, s'.jobManager.Live jobId q j ↔
      s.jobManager.Live jobId q j ∨ (jobId = s.jobManager.jobs.currentId ∧
        q = s.jobManager.jobs.next ∧ j = JobMetadata.make ⟨jobId, slurmId⟩ res req ptr) := by
    intro jobId q j
    rw [jm]
    refine (JobManager.live_createLocked (m := s.jobManager.fetchId.1) free).trans ?_
    refine or_congr_right (and_congr_right ?_)
    rintro rfl
    rfl
  -- a client that was there before is still live
  have hold : ∀ a, s.adhocManager.get? ap = some a → a.clientInfo = some p →
      ∃ jobId j, s'.jobManager.Live jobId p j ∧ j.requiredId = some id := by
    intro a ha hp
    obtain ⟨jobId, j, hlive, hid⟩ := h id ap a p hfind ha hp
    exact ⟨jobId, j, hlive'.mpr (.inl hlive), hid⟩
  rw [get?_bindClient] at ha'
  split at ha'
  case isFalse => exact hold a' ha' hp
  case isTrue hptr =>
    obtain ⟨a, ha, rfl⟩ := Option.map_eq_some_iff.mp ha'
    rw [AdhocStorageMetadata.addClientInfo_clientInfo, Option.some.injEq] at hp
    cases hc : a.clientInfo with
    | some q =>
        rw [hc, Option.getD_some] at hp
        exact hold a ha (hp ▸ hc)
    | none =>
        rw [hc, Option.getD_none] at hp
        subst hp
        refine ⟨_, _, hlive'.mpr (.inr ⟨rfl, rfl, rfl⟩), ?_⟩
        -- the storage was found under the id that the new job names
        rcases requiredAdhoc_eq_ok.mp required with ⟨-, hnone⟩ | ⟨r, q, hr, hq, hsome⟩
        · rw [hnone] at hptr
          cases hptr
        · obtain rfl : q = ap := Option.some.inj (hsome.symm.trans hptr)
          rw [JobMetadata.requiredId_make, hr, Option.map_some]
          exact congrArg some ((hown r.id q a hq ha).symm.trans (hown id q a hfind ha))

/-- `remove_job` empties the slot that the removed job may be in. -/
theorem SlotsLive.jobRemoved (h : s.SlotsLive) {jobId : JobId} {p : JobPtr}
    {j : JobMetadata} (live : s.jobManager.Live jobId p j)
    (jm : s'.jobManager = (s.jobManager.remove jobId).1)
    (am : s'.adhocManager
      = releaseClient s.adhocManager (j.requirements.bind (·.adhocStorage))) :
    s'.SlotsLive := by
  intro id ap a' q hfind ha' hq
  rw [am] at hfind ha'
  rw [find?_releaseClient] at hfind
  rw [get?_releaseClient] at ha'
  split at ha'
  case isTrue =>
    obtain ⟨a, -, rfl⟩ := Option.map_eq_some_iff.mp ha'
    cases hq
  case isFalse hnamed =>
    obtain ⟨jobId', k, hk, hid⟩ := h id ap a' q hfind ha' hq
    refine ⟨jobId', k, ?_, hid⟩
    rw [jm]
    refine (JobManager.live_remove live).mpr ⟨?_, hk⟩
    -- the removed job names another storage than this one
    rintro rfl
    obtain rfl : q = p := Option.some.inj (hk.1.symm.trans live.1)
    obtain rfl : k = j := Option.some.inj (hk.2.symm.trans live.2)
    obtain ⟨r, hr, rfl⟩ := Option.map_eq_some_iff.mp hid
    apply hnamed
    rw [hr, Option.bind_some]
    exact hfind

theorem Effect.slotsLive {env : Env H} {r : Request} (h : Effect env r s s')
    (hown : s.AdhocsOwnId) (hlive : s.SlotsLive) : s'.SlotsLive := by
  cases h with
  | unchanged jm am _ =>
      exact hlive.of_adhocs am fun {_ _ j} hj => ⟨j, jm ▸ hj, rfl⟩
  | jobIdSpent jm am _ =>
      refine hlive.of_adhocs am fun {_ _ j} hj => ⟨j, ?_, rfl⟩
      rw [jm]
      exact hj
  | jobCreated slurmId res req ptr _ free required jm am _ =>
      exact hlive.jobCreated hown free required jm am
  | jobUpdated id q res _ _ jm am _ =>
      refine hlive.of_adhocs am fun {jobId p j} hj => ?_
      obtain ⟨j', hj', hsame⟩ := JobManager.get?_modify_of_get? q res hj.2
      refine ⟨j', ?_, ?_⟩
      · rw [jm]
        exact ⟨hj.1, hj'⟩
      · rcases hsame with rfl | rfl <;> rfl
  | jobRemoved id p j _ live jm am _ => exact hlive.jobRemoved live jm am
  | adhocIdSpent jm am _ =>
      refine hlive.of_jobs jm fun {_ _ a' _} hfind ha' hp => ?_
      rw [am] at hfind ha'
      exact ⟨a', hfind, ha', hp⟩
  | adhocCreated name type ctx res _ free jm am _ =>
      refine hlive.of_jobs jm fun {id ap a' p} hfind ha' hp => ?_
      rw [am, Registry.get?_emplace] at ha'
      split at ha'
      case isTrue =>
        -- a new storage has no client
        cases ha'
        cases hp
      case isFalse hne =>
        rw [am, Registry.find?_emplace, Registry.find?_fetchId, free, Option.getD_none] at hfind
        split at hfind
        · exact absurd (Option.some.inj hfind).symm hne
        · exact ⟨a', hfind, ha', hp⟩
  | adhocUpdated id q res _ _ jm am _ =>
      refine hlive.of_jobs jm fun {id ap a' p} hfind ha' hp => ?_
      rw [am] at hfind ha'
      rw [Registry.get?_modify] at ha'
      split at ha'
      · obtain ⟨a, ha, rfl⟩ := Option.map_eq_some_iff.mp ha'
        exact ⟨a, hfind, ha, hp⟩
      · exact ⟨a', hfind, ha', hp⟩
  | adhocRemoved id _ jm am _ =>
      refine hlive.of_jobs jm fun {id ap a' p} hfind ha' hp => ?_
      rw [am] at hfind ha'
      rw [Registry.find?_erase] at hfind
      exact ⟨a', (Option.ite_none_left_eq_some.mp hfind).2, ha', hp⟩
  | transferIdSpent jm am _ =>
      exact hlive.of_adhocs am fun {_ _ j} hj => ⟨j, jm ▸ hj, rfl⟩
  | transferCreated _ _ _ _ _ _ _ _ _ _ _ jm am _ =>
      exact hlive.of_adhocs am fun {_ _ j} hj => ⟨j, jm ▸ hj, rfl⟩

/-- **In every reachable state, the client of a registered adhoc storage is a
    live job whose requirements name that storage.** -/
theorem slotsLive_of_reachable {redis : Bool} (h : Reachable step (init redis) s) :
    s.SlotsLive := by
  have hall : s.AdhocsOwnId ∧ s.SlotsLive := by
    refine h.invariant (I := fun s => s.AdhocsOwnId ∧ s.SlotsLive) ?_ ?_
    · refine ⟨?_, ?_⟩
      · intro id ap a hfind
        cases hfind
      · intro id ap a p hfind
        cases hfind
    · rintro t e t' ⟨hown, hlive⟩ hs
      have heff := step_effect hs
      exact ⟨heff.adhocsOwnId hown, heff.slotsLive hown hlive⟩
  exact hall.2

/-- The storage of a registered job has that job as its client, which is live. -/
theorem slotsLive_sample :
    ∃ s : Server Unit,
      run step (init true) [(Env.isolated, sampleAdhoc []), (Env.isolated, sampleJob (some 0) 7)]
          = some s ∧
        s.SlotsLive ∧ ∃ a, s.adhocManager.get? ⟨0⟩ = some a ∧ a.clientInfo = some ⟨0⟩ := by
  obtain ⟨s, hs⟩ : ∃ s : Server Unit, run step (init true)
      [(Env.isolated, sampleAdhoc []), (Env.isolated, sampleJob (some 0) 7)] = some s := ⟨_, rfl⟩
  refine ⟨s, hs, slotsLive_of_reachable ⟨_, hs⟩, ?_⟩
  cases hs
  exact ⟨_, rfl, rfl⟩

/-! ## When `remove_job` reports an error -/

/-- The job table, the slurm index and the client slots of all adhoc storages
    are the same in the two states. -/
structure SameJobs (s s' : Server H) : Prop where
  table : ∀ id, s'.jobManager.jobs.find? id = s.jobManager.jobs.find? id
  objects : ∀ p, s'.jobManager.jobs.get? p = s.jobManager.jobs.get? p
  index : s'.jobManager.slurmToScord = s.jobManager.slurmToScord
  slots : ∀ ap, (s'.adhocManager.get? ap).map (·.clientInfo)
    = (s.adhocManager.get? ap).map (·.clientInfo)

/-- `remove_job` reports an error only if it did nothing. -/
def RemoveAtomic (s : Server H) (jobId : JobId) : Prop :=
  ∀ resp, (s.removeJob jobId).outcome = .ok resp → resp.errorCode ≠ .success →
    s.SameJobs (s.removeJob jobId).server

/-- The live job `jobId` names an id that no adhoc storage is registered under. -/
def NamesUnregistered (s : Server H) (jobId : JobId) : Prop :=
  ∃ p j id, s.jobManager.Live jobId p j ∧ j.requiredId = some id ∧
    s.adhocManager.find? id = none

/-- What `remove_job` answers for a live job: the code of the second removal. -/
theorem removeJob_outcome_of_live {jobId : JobId} {p : JobPtr} {j : JobMetadata}
    {req : JobRequirements} (hlive : s.jobManager.Live jobId p j)
    (hreq : j.requirements = some req) :
    (s.removeJob jobId).outcome
      = .ok ⟨s.rpcCount, match req.adhocStorage with
          | none => .success
          | some required => (s.adhocManager.removeClientInfo required.id).2⟩ := by
  have hj : (s.jobManager.jobs.erase jobId).get? p = some j := hlive.2
  unfold removeJob
  simp only [createRpc_jobManager, JobManager.remove_of_live hlive, jobAt, Option.bind_some, hj,
    hreq]
  cases req.adhocStorage <;> rfl

/-- **`remove_job` reports an error only if it did nothing, exactly when the job
    does not name an adhoc storage that was unregistered.** -/
theorem removeAtomic_iff (s : Server H) (jobId : JobId) :
    s.RemoveAtomic jobId ↔ ¬ s.NamesUnregistered jobId := by
  refine ⟨?_, ?_⟩
  · rintro hatomic ⟨p, j, id, hlive, hid, hnone⟩
    obtain ⟨required, hrequired, rfl⟩ := Option.map_eq_some_iff.mp hid
    obtain ⟨req, hreq, hstorage⟩ := Option.bind_eq_some_iff.mp hrequired
    -- the code is that of the second removal, which finds nothing
    have hout := removeJob_outcome_of_live hlive hreq
    rw [hstorage] at hout
    simp only [AdhocStorageManager.removeClientInfo_of_none hnone] at hout
    have hsame := hatomic _ hout (fun h => ErrorCode.noConfusion h)
    -- and the first one took the job away
    have htable := hsame.table jobId
    rw [removeJob_server_of_live s hlive, JobManager.remove_of_live hlive, hlive.1] at htable
    simp only [Registry.find?_erase, if_true, reduceCtorEq] at htable
  · intro hnot resp hout herror
    cases hfind : s.jobManager.jobs.find? jobId with
    | none =>
        rw [removeJob_of_none s hfind]
        exact ⟨fun _ => rfl, fun _ => rfl, rfl, fun _ => rfl⟩
    | some p =>
        obtain ⟨j, hlive⟩ := JobManager.live_of_find? hfind
        refine absurd ?_ herror
        cases hreq : j.requirements with
        | none =>
            -- then the handler does not respond
            have hj : (s.jobManager.jobs.erase jobId).get? p = some j := hlive.2
            unfold removeJob at hout
            simp only [createRpc_jobManager, JobManager.remove_of_live hlive, jobAt,
              Option.bind_some, hj, hreq, reduceCtorEq] at hout
        | some req =>
            rw [removeJob_outcome_of_live hlive hreq, Except.ok.injEq] at hout
            subst hout
            cases hstorage : req.adhocStorage with
            | none => rfl
            | some required =>
                cases hreg : s.adhocManager.find? required.id with
                | some ap => simp only [AdhocStorageManager.removeClientInfo_of_find? hreg]
                | none =>
                    refine absurd ⟨p, j, required.id, hlive, ?_, hreg⟩ hnot
                    simp only [JobMetadata.requiredId, hreq, Option.bind_some, hstorage,
                      Option.map_some]

/-- A job is removed after its adhoc storage was unregistered: it is gone, and
    the answer is an error. -/
theorem not_removeAtomic_after_removeAdhocStorage :
    ∃ s : Server Unit,
      run step (init false) [(Env.isolated, sampleAdhoc []), (Env.isolated, sampleJob (some 0) 7),
          (Env.isolated, .removeAdhocStorage 0)] = some s ∧
        (s.removeJob 0).outcome = .ok ⟨3, .noSuchEntity⟩ ∧ ¬ s.RemoveAtomic 0 := by
  refine ⟨_, rfl, rfl, ?_⟩
  intro hatomic
  have hsame := hatomic ⟨3, .noSuchEntity⟩ rfl (by decide)
  have htable := hsame.table 0
  cases htable

end Server

end Scord
