/-
  Scord.Transfers.Outcome

  How long the outcome of a transfer can be asked for.  The scheduler removes
  the entries of completed and failed transfers ("Remove all failed/done
  transfers"), so `query_transfer` and `scord_adhoc wait` see the outcome until
  the first tick that reads it is over, and no longer.
-/
import Scord.Transfers.Preservation

namespace Scord

open ObjectStore StepSystem

/-! ## What `query_transfer` answers -/

namespace Server

variable {H : Type} {s : Server H} {jobId : JobId}

theorem dataStagerOf_of_find? {p : JobPtr} {j : JobMetadata} {ap : AdhocPtr}
    {a : AdhocStorageMetadata} (hfind : s.jobManager.jobs.find? jobId = some p)
    (hj : s.jobManager.jobs.get? p = some j) (hptr : j.adhocMetadataPtr = some ap)
    (ha : s.adhocManager.get? ap = some a) :
    s.dataStagerOf jobId = .ok (.ok a.dataStagerAddress) := by
  have hjobAt : s.jobAt (some p) = some j := hj
  have hadhocAt : s.adhocAt (some ap) = some a := ha
  unfold dataStagerOf
  simp only [JobManager.find_of_find? hfind, hjobAt, hptr, hadhocAt]

theorem queryTransfer_of_find? {env : Env H} {dataStager : String} {tx : TransferId}
    {p : TransferPtr H} {t : TransferMetadata H} {status : CargoStatus}
    (hstager : s.dataStagerOf jobId = .ok (.ok dataStager))
    (hfind : s.transferManager.find? tx = some p) (ht : s.transferManager.get? p = some t)
    (hstatus : env.status t.handle = some status) :
    (s.queryTransfer env jobId tx).outcome
      = .ok ⟨s.rpcCount, .success, some status.state.toTransferState⟩ := by
  have hstager' : s.createRpc.1.dataStagerOf jobId = .ok (.ok dataStager) := hstager
  have hstate : s.createRpc.1.transferStateOf env p = .ok status.state.toTransferState := by
    unfold transferStateOf
    simp only [createRpc_transferManager, ht, hstatus]
  unfold queryTransfer
  simp only [hstager', createRpc_transferManager, TransferManager.find_of_find? hfind, hstate]
  rfl

theorem queryTransfer_of_none {env : Env H} {dataStager : String} {tx : TransferId}
    (hstager : s.dataStagerOf jobId = .ok (.ok dataStager))
    (hfind : s.transferManager.find? tx = none) :
    (s.queryTransfer env jobId tx).outcome = .ok ⟨s.rpcCount, .noSuchEntity, none⟩ := by
  have hstager' : s.createRpc.1.dataStagerOf jobId = .ok (.ok dataStager) := hstager
  unfold queryTransfer
  simp only [hstager', createRpc_transferManager, TransferManager.find_of_none hfind]
  rfl

end Server

namespace World

variable {w w' : World} {r : Started}

/-- What `query_transfer(jobId, tx)` is answered in this world. -/
def queryAnswer (w : World) (jobId : JobId) (tx : TransferId) :
    Outcome (ResponseWithValue TransferState) :=
  (w.server.queryTransfer (w.env Env.isolated) jobId tx).outcome

/-- The job of the transfer lives. -/
def JobLives (w : World) (r : Started) : Prop :=
  w.server.jobManager.jobs.find? r.jobId = some r.jobPtr

/-! ## The outcome is forgotten -/

/-- As long as its job lives, `query_transfer` answers the outcome of every
    transfer that Cargo is done with. -/
def OutcomeNeverForgotten (w : World) : Prop :=
  ∀ r ∈ w.started, w.JobLives r → ∀ status, w.cargo[r.handle]? = some status →
    status.state.terminal = true →
    w.queryAnswer r.jobId r.tx
      = .ok ⟨w.server.rpcCount, .success, some status.state.toTransferState⟩

/-- A transfer completes, and the scheduler gets to see it before the client
    asks. -/
def forgottenRun : List Event :=
  [.request sampleEnv (sampleAdhoc []), .request sampleEnv (sampleJob (some 0) 7),
    .request sampleEnv (.transferDatasets 0 [] [] [] .nToN), .progress 0 ⟨.completed, -1⟩,
    .tickLock, .tickVisit 0, .tickUnlock, .tickRemove]

theorem not_outcomeNeverForgotten :
    ∃ w, run step (init false false) forgottenRun = some w ∧ ¬ w.OutcomeNeverForgotten := by
  refine ⟨_, rfl, ?_⟩
  intro hnever
  -- job 0 lives, and the answer is `no_such_entity`
  have h := hnever _ List.mem_cons_self rfl _ rfl rfl
  cases h

/-! ## What holds instead -/

/-- The outcome of the transfer `r`, from its start to its removal. -/
structure OutcomeKept (w : World) (r : Started) : Prop where
  /-- The entry stays until Cargo is done. -/
  pending : ¬ Terminal w.cargo r.handle → w.server.transferManager.find? r.tx = some r.ptr
  /-- It is lost in a removal of the scheduler, or not at all. -/
  removal : ∀ e w', w.step e = some w' → e ≠ .tickRemove →
    w.server.transferManager.find? r.tx = some r.ptr →
    w'.server.transferManager.find? r.tx = some r.ptr
  /-- The terminal state does not change. -/
  settled : ∀ e w' status, w.step e = some w' → w.cargo[r.handle]? = some status →
    status.state.terminal = true → w'.cargo[r.handle]? = some status
  /-- While the entry is there, the answer is Cargo's state. -/
  answered : w.JobLives r → w.server.transferManager.find? r.tx = some r.ptr →
    ∃ status, w.cargo[r.handle]? = some status ∧ w.queryAnswer r.jobId r.tx
      = .ok ⟨w.server.rpcCount, .success, some status.state.toTransferState⟩
  /-- When it is gone, the answer is `no_such_entity`, and Cargo is done. -/
  removed : w.JobLives r → w.server.transferManager.find? r.tx = none →
    Terminal w.cargo r.handle ∧
      w.queryAnswer r.jobId r.tx = .ok ⟨w.server.rpcCount, .noSuchEntity, none⟩
  /-- A `wait` that found the entry exits successfully once Cargo has completed
      the transfer. -/
  observed : ∀ first jobId, w.client = .polling (.tool first) jobId r.tx (.status r.ptr) →
    Completed w.cargo r.handle →
    ∃ w', w.step .pollStatus = some w' ∧ w'.client = .exited true r.tx (some r.ptr)

/-- A `wait` that exits successfully has read the outcome of a completed
    transfer with the id it was given. -/
def WaitIsSound (w : World) : Prop :=
  ∀ tx read, w.client = .exited true tx read →
    ∃ r ∈ w.started, r.tx = tx ∧ read = some r.ptr ∧ Completed w.cargo r.handle

theorem Inv.dataStagerOf (hi : w.Inv) (hr : r ∈ w.started) (hlives : w.JobLives r) :
    ∃ dataStager, w.server.dataStagerOf r.jobId = .ok (.ok dataStager) := by
  obtain ⟨j, ap, hj, hptr⟩ := (hi.started r hr).job
  obtain ⟨a, ha⟩ := hi.server.adhocPtr hj hptr
  exact ⟨_, Server.dataStagerOf_of_find? hlives hj hptr ha⟩

theorem Inv.queryAnswer_of_find? (hi : w.Inv) (hr : r ∈ w.started) (hlives : w.JobLives r)
    (hfind : w.server.transferManager.find? r.tx = some r.ptr) :
    ∃ status, w.cargo[r.handle]? = some status ∧ w.queryAnswer r.jobId r.tx
      = .ok ⟨w.server.rpcCount, .success, some status.state.toTransferState⟩ := by
  obtain ⟨dataStager, hstager⟩ := hi.dataStagerOf hr hlives
  have hinv := hi.started r hr
  obtain ⟨t, ht, hhandle⟩ := hinv.object
  have hbound := hinv.bound
  have hstatus : w.cargo[r.handle]? = some w.cargo[r.handle] := List.getElem?_eq_getElem hbound
  refine ⟨_, hstatus, Server.queryTransfer_of_find? hstager hfind ht ?_⟩
  show w.cargo[t.handle]? = _
  rw [hhandle]
  exact hstatus

theorem Inv.queryAnswer_of_none (hi : w.Inv) (hr : r ∈ w.started) (hlives : w.JobLives r)
    (hfind : w.server.transferManager.find? r.tx = none) :
    Terminal w.cargo r.handle ∧
      w.queryAnswer r.jobId r.tx = .ok ⟨w.server.rpcCount, .noSuchEntity, none⟩ := by
  refine ⟨?_, ?_⟩
  · by_contra hnot
    rw [(hi.started r hr).kept hnot] at hfind
    cases hfind
  · obtain ⟨dataStager, hstager⟩ := hi.dataStagerOf hr hlives
    exact Server.queryTransfer_of_none hstager hfind

theorem Inv.pollStatus_completed (hi : w.Inv) (hr : r ∈ w.started) {first : Bool}
    {jobId : JobId} (hclient : w.client = .polling (.tool first) jobId r.tx (.status r.ptr))
    (hcompleted : Completed w.cargo r.handle) :
    ∃ w', w.step .pollStatus = some w' ∧ w'.client = .exited true r.tx (some r.ptr) := by
  obtain ⟨t, ht, hhandle⟩ := (hi.started r hr).object
  obtain ⟨status, hstatus, hstate⟩ := hcompleted
  have hread : w.server.transferStateOf (w.env Env.isolated) r.ptr = .ok .finished := by
    unfold Server.transferStateOf
    simp only [ht, env, hhandle, hstatus, hstate]
    rfl
  refine ⟨{ w with client := .exited true r.tx (some r.ptr) }, ?_, rfl⟩
  show w.pollStatus = _
  unfold World.pollStatus
  simp only [hclient, hread]
  rfl

theorem Inv.outcomeKept (hi : w.Inv) (hr : r ∈ w.started) : w.OutcomeKept r where
  pending := (hi.started r hr).kept
  removal _ _ h hne hfind := (step_keeps h).entries hne hfind
  settled _ _ _ h hstatus hterminal := (step_keeps h).later.status hstatus hterminal
  answered := hi.queryAnswer_of_find? hr
  removed := hi.queryAnswer_of_none hr
  observed _ _ := hi.pollStatus_completed hr

theorem Inv.waitIsSound (hi : w.Inv) : w.WaitIsSound := by
  intro tx read hclient
  have hc := hi.client
  rw [hclient] at hc
  exact hc rfl

/-- **The outcome of a transfer in every interleaving.** -/
theorem outcome_of_reachable {redis logger : Bool}
    (h : Reachable step (init redis logger) w) :
    (∀ r ∈ w.started, w.OutcomeKept r) ∧ w.WaitIsSound :=
  ⟨fun _ hr => (inv_of_reachable h).outcomeKept hr, (inv_of_reachable h).waitIsSound⟩

/-- It applies to the transfer that was forgotten above. -/
theorem outcome_forgottenRun :
    ∃ w r, run step (init false false) forgottenRun = some w ∧ r ∈ w.started ∧
      w.OutcomeKept r ∧ w.WaitIsSound := by
  obtain ⟨w, hw⟩ : ∃ w, run step (init false false) forgottenRun = some w := ⟨_, rfl⟩
  have h := outcome_of_reachable ⟨forgottenRun, hw⟩
  obtain ⟨r, hr⟩ : ∃ r, r ∈ w.started := by
    cases hw
    exact ⟨_, List.mem_cons_self⟩
  exact ⟨w, r, hw, hr, h.1 r hr, h.2⟩

end World

end Scord
