/-
  Scord.Server.Query

  The answers of the `query` handler.  The handler tests that the resources of
  the job are engaged, which they always are, and then reads through the adhoc
  storage pointer, which is null for a job without an adhoc storage requirement.
-/
import Scord.Server.Invariants

namespace Scord

open ObjectStore StepSystem

namespace Server

variable {H : Type}

/-- `j` is live, and the slurm index leads to it. -/
def Indexed (s : Server H) (slurmId : SlurmJobId) (j : JobMetadata) : Prop :=
  ∃ id p, s.jobManager.slurmToScord.lookup slurmId = some id ∧ s.jobManager.Live id p j

/-- The job info that a job with this adhoc storage should be answered with. -/
def infoOf (j : JobMetadata) (a : AdhocStorageMetadata) : JobInfo :=
  ⟨a.controllerAddress, a.uuid, j.ioProcs⟩

/-- What `query` should do: respond, with `no_such_entity` when no live job is
    indexed, with `no_resources` when the job has no adhoc storage, and
    otherwise with the job info. -/
structure QueryContract (s : Server H) (slurmId : SlurmJobId)
    (resp : ResponseWithValue JobInfo) : Prop where
  sent : (s.query slurmId).outcome = .ok resp
  opId : resp.opId = s.rpcCount
  notIndexed : (¬ ∃ j, s.Indexed slurmId j) →
    resp.errorCode = .noSuchEntity ∧ resp.value = none
  noAdhoc : ∀ j, s.Indexed slurmId j → j.adhocMetadataPtr = none →
    resp.errorCode = .noResources ∧ resp.value = none
  found : ∀ j, s.Indexed slurmId j → j.adhocMetadataPtr ≠ none →
    ∃ a, s.adhocAt j.adhocMetadataPtr = some a ∧ resp.errorCode = .success ∧
      resp.value = some (infoOf j a)

/-! ## What the handler computes -/

variable {s : Server H} {slurmId : SlurmJobId}

theorem Indexed.unique {j k : JobMetadata} (hj : s.Indexed slurmId j)
    (hk : s.Indexed slurmId k) : j = k := by
  obtain ⟨id, p, hid, hfind, hget⟩ := hj
  obtain ⟨id', q, hid', hfind', hget'⟩ := hk
  obtain rfl : id' = id := Option.some.inj (hid'.symm.trans hid)
  obtain rfl : q = p := Option.some.inj (hfind'.symm.trans hfind)
  exact Option.some.inj (hget.symm.trans hget')

/-- The index is followed to a live job, or there is no entry. -/
theorem findBySlurmId_of_indexed {j : JobMetadata} (h : s.Indexed slurmId j) :
    ∃ p, s.jobManager.findBySlurmId slurmId = .ok p ∧ s.jobAt (some p) = some j := by
  obtain ⟨id, p, hid, hfind, hget⟩ := h
  refine ⟨p, ?_, hget⟩
  simp only [JobManager.findBySlurmId, hid]
  exact JobManager.find_of_find? hfind

theorem findBySlurmId_of_not_indexed (h : ¬ ∃ j, s.Indexed slurmId j) :
    s.jobManager.findBySlurmId slurmId = .error .noSuchEntity := by
  unfold JobManager.findBySlurmId
  cases hid : s.jobManager.slurmToScord.lookup slurmId with
  | none => rfl
  | some id =>
      cases hfind : s.jobManager.jobs.find? id with
      | none => exact JobManager.find_of_none hfind
      | some p =>
          -- then a live job is indexed
          obtain ⟨j, hlive⟩ := JobManager.live_of_find? hfind
          exact absurd ⟨j, id, p, hid, hlive⟩ h

theorem query_outcome_of_not_indexed (h : ¬ ∃ j, s.Indexed slurmId j) :
    (s.query slurmId).outcome = .ok ⟨s.rpcCount, .noSuchEntity, none⟩ := by
  simp only [query, createRpc_jobManager, findBySlurmId_of_not_indexed h]
  rfl

/-- An indexed job with an adhoc storage is answered with its info. -/
theorem query_outcome_of_adhoc (hwf : s.WF) {j : JobMetadata} {a : AdhocStorageMetadata}
    (h : s.Indexed slurmId j) (ha : s.adhocAt j.adhocMetadataPtr = some a) :
    (s.query slurmId).outcome = .ok ⟨s.rpcCount, .success, some (infoOf j a)⟩ := by
  obtain ⟨p, hfind, hj⟩ := findBySlurmId_of_indexed h
  obtain ⟨res, hres⟩ := Option.isSome_iff_exists.mp (hwf.jobs.engaged hj).1
  simp only [query, createRpc_jobManager, hfind, createRpc_jobAt, hj, jobInfo, hres,
    createRpc_adhocAt, ha]
  rfl

/-- An indexed job without one makes the handler dereference a null pointer. -/
theorem query_outcome_of_no_adhoc (hwf : s.WF) {j : JobMetadata}
    (h : s.Indexed slurmId j) (hnone : j.adhocMetadataPtr = none) :
    (s.query slurmId).outcome = .error .undefined := by
  obtain ⟨p, hfind, hj⟩ := findBySlurmId_of_indexed h
  obtain ⟨res, hres⟩ := Option.isSome_iff_exists.mp (hwf.jobs.engaged hj).1
  simp only [query, createRpc_jobManager, hfind, createRpc_jobAt, hj, jobInfo, hres, hnone,
    adhocAt, Option.bind_none]

/-! ## When the contract holds -/

/-- **`query` keeps its contract exactly when it is not asked about a live job
    without adhoc storage.** -/
theorem query_contract_iff {redis : Bool} (h : Reachable step (init redis) s)
    (slurmId : SlurmJobId) :
    (∃ resp, s.QueryContract slurmId resp) ↔
      ¬ ∃ j, s.Indexed slurmId j ∧ j.adhocMetadataPtr = none := by
  have hwf := wf_of_reachable h
  refine ⟨?_, ?_⟩
  · rintro ⟨resp, hsent, -⟩ ⟨j, hj, hnone⟩
    rw [query_outcome_of_no_adhoc hwf hj hnone] at hsent
    cases hsent
  · intro hall
    by_cases hex : ∃ j, s.Indexed slurmId j
    · obtain ⟨j, hj⟩ := hex
      cases hptr : j.adhocMetadataPtr with
      | none => exact absurd ⟨j, hj, hptr⟩ hall
      | some ap =>
          -- a pointer that is not null leads to an adhoc storage
          obtain ⟨id, p, hid, hlive⟩ := hj
          obtain ⟨a, ha⟩ := hwf.adhocPtr hlive.2 hptr
          have hj : s.Indexed slurmId j := ⟨id, p, hid, hlive⟩
          have ha : s.adhocAt j.adhocMetadataPtr = some a := by
            rw [hptr]
            exact ha
          refine ⟨_, query_outcome_of_adhoc hwf hj ha, rfl, ?_, ?_, ?_⟩
          · exact fun hnot => absurd ⟨j, hj⟩ hnot
          · intro k hk hnone
            obtain rfl := hk.unique hj
            rw [hptr] at hnone
            cases hnone
          · intro k hk _
            obtain rfl := hk.unique hj
            exact ⟨a, ha, rfl, rfl⟩
    · refine ⟨_, query_outcome_of_not_indexed hex, rfl, fun _ => ⟨rfl, rfl⟩, ?_, ?_⟩
      · exact fun k hk _ => absurd ⟨k, hk⟩ hex
      · exact fun k hk _ => absurd ⟨k, hk⟩ hex

/-- The theorem at the server that knows an adhoc storage and a job for it. -/
theorem query_contract_iff_sample :
    ∃ s : Server Unit,
      run step (init true) [(Env.isolated, sampleAdhoc []), (Env.isolated, sampleJob (some 0) 7)]
          = some s ∧
        ((∃ resp, s.QueryContract 7 resp) ↔
          ¬ ∃ j, s.Indexed 7 j ∧ j.adhocMetadataPtr = none) := by
  obtain ⟨s, hs⟩ : ∃ s : Server Unit, run step (init true)
      [(Env.isolated, sampleAdhoc []), (Env.isolated, sampleJob (some 0) 7)] = some s := ⟨_, rfl⟩
  exact ⟨s, hs, query_contract_iff ⟨_, hs⟩ 7⟩

/-- Register a job without an adhoc requirement, then query its slurm id. -/
theorem query_undefined_without_adhoc :
    ∃ s : Server Unit,
      run step (init false) [(Env.isolated, sampleJob none 7)] = some s ∧
        (s.query 7).outcome = .error .undefined ∧ ¬ ∃ resp, s.QueryContract 7 resp := by
  refine ⟨_, rfl, rfl, ?_⟩
  rintro ⟨resp, hsent, -⟩
  exact absurd (hsent.symm.trans (b := Except.error Fault.undefined) rfl) nofun

end Server

end Scord
