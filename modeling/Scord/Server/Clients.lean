/-
  Scord.Server.Clients

  Which jobs use which adhoc storage.  An adhoc storage keeps one client slot,
  and `add_client_info` refuses a second client, but `register_job` creates the
  job first and drops that refusal, and `remove_job` empties the slot whoever
  is in it.
-/
import Scord.Server.Invariants

namespace Scord

open ObjectStore StepSystem

namespace Server

variable {H : Type}

/-- The job `id` is live and bound to the adhoc storage at `ap`. -/
def Bound (s : Server H) (id : JobId) (ap : AdhocPtr) : Prop :=
  ∃ p j, s.jobManager.Live id p j ∧ j.adhocMetadataPtr = some ap

/-- The adhoc storage at `ap` has a client job: its slot is taken, or a live
    job is bound to it. -/
def HasClient (s : Server H) (ap : AdhocPtr) : Prop :=
  (∃ a, s.adhocManager.get? ap = some a ∧ a.clientInfo ≠ none) ∨ ∃ id, s.Bound id ap

/-! ## One client at a time -/

/-- At most one live job is bound to any adhoc storage. -/
def Exclusive (s : Server H) : Prop :=
  ∀ ap id id', s.Bound id ap → s.Bound id' ap → id = id'

/-- The request is a `register_job` whose requirements name a registered adhoc
    storage that has a client. -/
def NamesUsedStorage (s : Server H) : Env H × Request → Prop
  | (_, .registerJob _ req _) => ∃ ap, s.requiredAdhoc req = .ok (some ap) ∧ s.HasClient ap
  | _ => False

/-- A `register_job` that names a used storage is answered with `adhoc_in_use`,
    and adds no job. -/
def RefusesSecondClient (s : Server H) : Env H × Request → Prop
  | (env, .registerJob res req slurmId) =>
      s.NamesUsedStorage (env, .registerJob res req slurmId) →
        (∃ resp, (s.registerJob env res req slurmId).outcome = .ok resp ∧
          resp.errorCode = .adhocInUse) ∧
        ∀ id, (s.registerJob env res req slurmId).server.jobManager.jobs.find? id
          = s.jobManager.jobs.find? id
  | _ => True

/-- The only codes of `register_job` are those of the lookup, of the creation,
    and success. -/
theorem registerJob_errorCode {env : Env H} {s : Server H} {res : JobResources}
    {req : JobRequirements} {slurmId : SlurmJobId} {resp : ResponseWithId}
    (h : (s.registerJob env res req slurmId).outcome = .ok resp) :
    resp.errorCode = .noSuchEntity ∨ resp.errorCode = .entityExists ∨
      resp.errorCode = .success := by
  unfold registerJob at h
  simp only [createRpc_requiredAdhoc] at h
  cases hreq : s.requiredAdhoc req with
  | error ec =>
      have hec := requiredAdhoc_eq_error hreq
      simp only [hreq, Except.ok.injEq] at h
      subst h
      exact .inl hec
  | ok ptr =>
      simp only [hreq] at h
      unfold createJob at h
      cases hfree : s.jobManager.jobs.find? s.jobManager.jobs.currentId with
      | some p =>
          simp only [createRpc_jobManager, JobManager.create_of_taken hfree] at h
          cases h
          exact .inr (.inl rfl)
      | none =>
          -- whatever follows the creation, a response says success
          refine .inr (.inr ?_)
          simp only [createRpc_jobManager, JobManager.create_of_free hfree] at h
          split at h
          case h_1 heq => split at heq <;> cases heq
          case h_2 =>
            split at h
            · cases h
            · split at h
              · split at h
                · cases h
                · simp only at h
                  split at h <;> cases h
                  rfl
              · cases h
                rfl

/-- A request that names a used storage is never refused as it should be. -/
theorem not_refusesSecondClient {s : Server H} {e : Env H × Request}
    (h : s.NamesUsedStorage e) : ¬ s.RefusesSecondClient e := by
  obtain ⟨env, r⟩ := e
  cases r with
  | registerJob res req slurmId =>
      intro hrefuse
      obtain ⟨⟨resp, hresp, hcode⟩, -⟩ := hrefuse h
      rcases registerJob_errorCode hresp with h' | h' | h' <;> rw [h'] at hcode <;> cases hcode
  | _ => exact h.elim

/-- Where a binding comes from: it was there before the request, or the request
    registered the job for that storage. -/
theorem Effect.bound_origin {env : Env H} {r : Request} {s s' : Server H}
    (h : Effect env r s s') {id : JobId} {ap : AdhocPtr} (hb : s'.Bound id ap) :
    s.Bound id ap ∨
      (id = s.jobManager.jobs.currentId ∧ ∃ slurmId res req,
        r = .registerJob res req slurmId ∧ s.requiredAdhoc req = .ok (some ap)) := by
  obtain ⟨p, j, ⟨hfind, hget⟩, hptr⟩ := hb
  cases h with
  | unchanged jm _ _ => exact .inl ⟨p, j, ⟨jm ▸ hfind, jm ▸ hget⟩, hptr⟩
  | jobIdSpent jm _ _ =>
      rw [jm] at hfind hget
      exact .inl ⟨p, j, ⟨hfind, hget⟩, hptr⟩
  | jobCreated slurmId res req ptr request free required jm _ _ =>
      have hlive : (s.jobManager.create slurmId res req ptr).1.Live id p j :=
        ⟨jm ▸ hfind, jm ▸ hget⟩
      rcases (JobManager.live_createLocked (m := s.jobManager.fetchId.1) free).mp hlive
        with hold | ⟨rfl, -, rfl⟩
      · exact .inl ⟨p, j, hold, hptr⟩
      · obtain rfl : ptr = some ap := hptr
        exact .inr ⟨rfl, slurmId, res, req, request, required⟩
  | jobUpdated _ q res _ _ jm _ _ =>
      rw [jm] at hfind hget
      obtain ⟨j₀, hj₀, rfl | ⟨-, rfl⟩⟩ := JobManager.get?_modify_update hget
      · exact .inl ⟨p, j, ⟨hfind, hj₀⟩, hptr⟩
      · exact .inl ⟨p, j₀, ⟨hfind, hj₀⟩, hptr⟩
  | jobRemoved id' q k _ live jm _ _ =>
      have hlive : (s.jobManager.remove id').1.Live id p j := ⟨jm ▸ hfind, jm ▸ hget⟩
      exact .inl ⟨p, j, ((JobManager.live_remove live).mp hlive).2, hptr⟩
  | adhocIdSpent jm _ _ => exact .inl ⟨p, j, ⟨jm ▸ hfind, jm ▸ hget⟩, hptr⟩
  | adhocCreated _ _ _ _ _ _ jm _ _ => exact .inl ⟨p, j, ⟨jm ▸ hfind, jm ▸ hget⟩, hptr⟩
  | adhocUpdated _ _ _ _ _ jm _ _ => exact .inl ⟨p, j, ⟨jm ▸ hfind, jm ▸ hget⟩, hptr⟩
  | adhocRemoved _ _ jm _ _ => exact .inl ⟨p, j, ⟨jm ▸ hfind, jm ▸ hget⟩, hptr⟩
  | transferIdSpent jm _ _ => exact .inl ⟨p, j, ⟨jm ▸ hfind, jm ▸ hget⟩, hptr⟩
  | transferCreated _ _ _ _ _ _ _ _ _ _ _ jm _ _ =>
      exact .inl ⟨p, j, ⟨jm ▸ hfind, jm ▸ hget⟩, hptr⟩

/-- A request that names no used storage keeps the bindings exclusive. -/
theorem exclusive_step {s s' : Server H} {e : Env H × Request} (hex : s.Exclusive)
    (hs : s.step e = some s') (hfree : ¬ s.NamesUsedStorage e) : s'.Exclusive := by
  obtain ⟨env, r⟩ := e
  have heff := step_effect hs
  intro ap id id' hb hb'
  rcases heff.bound_origin hb with hold | ⟨hnew, slurmId, res, req, rfl, hreq⟩
  · rcases heff.bound_origin hb' with hold' | ⟨-, _, _, _, rfl, hreq'⟩
    · exact hex ap id id' hold hold'
    · exact absurd ⟨ap, hreq', .inr ⟨id, hold⟩⟩ hfree
  · rcases heff.bound_origin hb' with hold' | ⟨hnew', -⟩
    · exact absurd ⟨ap, hreq, .inr ⟨id', hold'⟩⟩ hfree
    · -- a request registers at most one job
      exact hnew.trans hnew'.symm

theorem exclusive_init (redis : Bool) : (init redis : Server H).Exclusive := by
  rintro ap id id' ⟨p, j, hlive, -⟩ -
  cases hlive.1

/-- **A run refuses second clients and keeps every adhoc storage exclusive
    exactly when none of its `register_job` requests names a used storage.** -/
theorem exclusive_iff (redis : Bool) (es : List (Env H × Request)) :
    StepsMeet step RefusesSecondClient (init redis) es ∧
        Always step Exclusive (init redis) es ↔
      StepsMeet step (fun s e => ¬ s.NamesUsedStorage e) (init redis) es := by
  refine always_iff_stepsMeet (I := fun _ => True) (fun _ _ _ _ _ => trivial) ?_ es _ trivial
    (exclusive_init redis)
  intro s e s' _ hex hs
  refine ⟨?_, ?_⟩
  · rintro ⟨hrefuse, -⟩ hnames
    exact not_refusesSecondClient hnames hrefuse
  · intro hfree
    refine ⟨?_, exclusive_step hex hs hfree⟩
    -- the condition on the answer is about requests that name a used storage
    obtain ⟨env, r⟩ := e
    cases r with
    | registerJob res req slurmId => exact fun hnames => absurd hnames hfree
    | _ => trivial

/-- Two jobs are registered for the same adhoc storage, and both are accepted. -/
def sharedStorageRun : List (Env Unit × Request) :=
  [(Env.isolated, sampleAdhoc []), (Env.isolated, sampleJob (some 0) 1),
    (Env.isolated, sampleJob (some 0) 2)]

theorem not_exclusive_sharedStorageRun :
    ¬ (StepsMeet step RefusesSecondClient (init false) sharedStorageRun ∧
      Always step Exclusive (init false) sharedStorageRun) := by
  rintro ⟨-, hall⟩
  obtain ⟨s, hs⟩ : ∃ s, run step (init false) sharedStorageRun = some s := ⟨_, rfl⟩
  have hex := hall.last hs
  cases hs
  have h := hex ⟨0⟩ 0 1 ⟨⟨0⟩, _, ⟨rfl, rfl⟩, rfl⟩ ⟨⟨1⟩, _, ⟨rfl, rfl⟩, rfl⟩
  exact absurd h (by decide)

/-! ## Removing a job -/

/-- `remove_job(jobId)` detaches that job only: every adhoc storage whose client
    is another live job keeps it, and every other live job stays as it is. -/
structure DetachesOnly (s : Server H) (jobId : JobId) : Prop where
  clients : ∀ ap a id p k, s.adhocManager.get? ap = some a → a.clientInfo = some p →
    s.jobManager.Live id p k → id ≠ jobId →
    ∃ a', (s.removeJob jobId).server.adhocManager.get? ap = some a' ∧ a'.clientInfo = some p
  jobs : ∀ id p k, s.jobManager.Live id p k → id ≠ jobId →
    (s.removeJob jobId).server.jobManager.Live id p k

/-- The live job `jobId` names a registered adhoc storage whose client is
    another live job. -/
def NamesForeignStorage (s : Server H) (jobId : JobId) : Prop :=
  ∃ p j req required ap a q id k,
    s.jobManager.Live jobId p j ∧ j.requirements = some req ∧
      req.adhocStorage = some required ∧ s.adhocManager.find? required.id = some ap ∧
      s.adhocManager.get? ap = some a ∧ a.clientInfo = some q ∧
      s.jobManager.Live id q k ∧ id ≠ jobId

/-- The job table loses the removed job only, whatever its storage is. -/
theorem removeJob_jobs {s : Server H} {jobId id : JobId} {p : JobPtr} {k : JobMetadata}
    (hlive : s.jobManager.Live id p k) (hid : id ≠ jobId) :
    (s.removeJob jobId).server.jobManager.Live id p k := by
  cases hfind : s.jobManager.jobs.find? jobId with
  | none =>
      rw [removeJob_of_none s hfind]
      exact hlive
  | some q =>
      obtain ⟨j, hj⟩ := JobManager.live_of_find? hfind
      rw [removeJob_server_of_live s hj]
      exact (JobManager.live_remove hj).mpr ⟨hid, hlive⟩

/-- **`remove_job` detaches the removed job only, exactly when that job names no
    registered storage whose client is another live job.** -/
theorem detachesOnly_iff (s : Server H) (jobId : JobId) :
    s.DetachesOnly jobId ↔ ¬ s.NamesForeignStorage jobId := by
  refine ⟨?_, ?_⟩
  · rintro hdet ⟨p, j, req, required, ap, a, q, id, k, hlive, hreq, hstorage, hfind, ha, hq, hk,
      hid⟩
    -- the slot of the named storage is emptied, so the foreign client is lost
    obtain ⟨a', ha', hq'⟩ := hdet.clients ap a id q k ha hq hk hid
    have hnamed : ((j.requirements.bind (·.adhocStorage)).bind
        fun r => s.adhocManager.find? r.id) = some ap := by
      simp only [hreq, hstorage, hfind, Option.bind_some]
    rw [removeJob_server_of_live s hlive, get?_releaseClient, if_pos hnamed, ha] at ha'
    cases ha'
    cases hq'
  · intro hnot
    refine ⟨?_, fun _ _ _ => removeJob_jobs⟩
    intro ap a id q k ha hq hk hid
    -- an unknown job, or one whose named storage has no foreign client
    cases hfind : s.jobManager.jobs.find? jobId with
    | none =>
        rw [removeJob_of_none s hfind]
        exact ⟨a, ha, hq⟩
    | some p =>
        obtain ⟨j, hlive⟩ := JobManager.live_of_find? hfind
        rw [removeJob_server_of_live s hlive, get?_releaseClient]
        split
        case isTrue hnamed =>
            obtain ⟨required, hrequired, hfind⟩ := Option.bind_eq_some_iff.mp hnamed
            obtain ⟨req, hreq, hstorage⟩ := Option.bind_eq_some_iff.mp hrequired
            exact absurd ⟨p, j, req, required, ap, a, q, id, k, hlive, hreq, hstorage, hfind, ha,
              hq, hk, hid⟩ hnot
        case isFalse => exact ⟨a, ha, hq⟩

/-- The second of two jobs that share a storage is removed: the first one is no
    longer the client of the storage. -/
theorem not_detachesOnly_sharedStorageRun :
    ∃ s, run step (init false) sharedStorageRun = some s ∧ ¬ s.DetachesOnly 1 := by
  refine ⟨_, rfl, ?_⟩
  intro hdet
  -- storage 0 has job 0, which is live, as its client
  obtain ⟨a', ha', hq⟩ := hdet.clients ⟨0⟩ _ 0 ⟨0⟩ _ rfl rfl ⟨rfl, rfl⟩ (by decide)
  cases ha'
  cases hq

end Server

end Scord
