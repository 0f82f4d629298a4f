/-
  Scord.Transfers.Wait

  `ADM_transfer_datasets` and `ADM_transfer_datasets_1` with `wait`: when the
  blocked call returns `ADM_SUCCESS`, and what is known of the transfer then.

  The loop has three ways out with success: the poll finds no job, it finds no
  entry, or it reads a state that is neither `queued` nor `running`.
-/
import Scord.Transfers.Preservation

namespace Scord

open ObjectStore StepSystem

/-- Cargo has given the transfer up. -/
def Failed (cargo : List CargoStatus) (h : Handle) : Prop :=
  ∃ status, cargo[h]? = some status ∧ status.state = .failed

/-- A transfer that is done is completed, or else it has failed. -/
theorem Terminal.completed_iff {cargo : List CargoStatus} {h : Handle}
    (ht : Terminal cargo h) : Completed cargo h ↔ ¬ Failed cargo h := by
  obtain ⟨status, hget, hterminal⟩ := ht
  refine ⟨?_, ?_⟩
  · rintro ⟨status₁, hget₁, hcompleted⟩ ⟨status₂, hget₂, hfailed⟩
    rw [hget₁] at hget₂
    cases hget₂
    rw [hcompleted] at hfailed
    cases hfailed
  · intro hnot
    refine ⟨status, hget, ?_⟩
    cases hstate : status.state with
    | completed => rfl
    | failed => exact absurd ⟨status, hget, hstate⟩ hnot
    | pending =>
        rw [hstate] at hterminal
        cases hterminal
    | running =>
        rw [hstate] at hterminal
        cases hterminal

section React

variable {k : Waiter} {jobId : JobId} {tx : TransferId} {read : Option (TransferPtr Handle)}
  {r : Started}

/-- The library takes `no_such_entity`, and no other error, for a success. -/
theorem Client.react_error {logger : Bool} {ec : ErrorCode} (hec : ec ≠ .success) :
    Client.react logger k jobId tx read (.error ec) = .returned (some r) .success ↔
      k = .library r ∧ logger = false ∧ ec = .noSuchEntity := by
  unfold react
  cases logger with
  | true => simp
  | false =>
      cases k with
      | library r₁ =>
          by_cases hnse : ec = .noSuchEntity
          · simp [hnse]
          · simp [hnse, hec]
      | tool first => simp

/-- It takes every state for a success that is neither `running` nor `queued`. -/
theorem Client.react_ok {logger : Bool} {state : TransferState} :
    Client.react logger k jobId tx read (.ok state) = .returned (some r) .success ↔
      k = .library r ∧ state ≠ .running ∧ state ≠ .queued := by
  unfold react
  cases k with
  | library r₁ => cases state <;> simp
  | tool first => cases state <;> cases first <;> simp

end React

namespace World

variable {w w' : World}

/-- A call that waited for a transfer has returned success only if Cargo has
    completed that transfer. -/
def SuccessMeansCompleted (w : World) : Prop :=
  ∀ r, w.client = .returned (some r) .success → Completed w.cargo r.handle

/-- The polls of a waiting library call that find things as they should be:

    * its job is registered, or the transfer is completed;
    * its entry is in the table, or the transfer has not failed;
    * the state it is about to read is not terminal, or the transfer has not
      failed.

    A client with a logger does not survive the first two, and only reads
    states. -/
def PollFindsOutcome (w : World) : Event → Prop
  | .pollJob =>
      ∀ r jobId tx, w.client = .polling (.library r) jobId tx .jobLookup →
        w.logger = false → w.server.jobManager.jobs.find? jobId = none →
        Completed w.cargo r.handle
  | .pollTransfer =>
      ∀ r jobId tx, w.client = .polling (.library r) jobId tx .transferLookup →
        w.logger = false → w.server.transferManager.find? tx = none →
        ¬ Failed w.cargo r.handle
  | .pollStatus =>
      ∀ r jobId tx p t, w.client = .polling (.library r) jobId tx (.status p) →
        w.server.transferManager.get? p = some t → Terminal w.cargo t.handle →
        ¬ Failed w.cargo r.handle
  | _ => True

/-! ## The three ways out -/

/-- No job. -/
theorem pollJob_success (h : w.pollJob = some w') (r : Started) :
    w'.client = .returned (some r) .success ↔
      ∃ jobId tx, w.client = .polling (.library r) jobId tx .jobLookup ∧
        w.logger = false ∧ w.server.jobManager.jobs.find? jobId = none := by
  obtain ⟨k, jobId, tx, hclient, ⟨ec, hstager, rfl⟩ | ⟨dataStager, hstager, rfl⟩⟩ :=
    pollJob_cases h
  · show Client.react w.logger k jobId tx none (.error ec) = _ ↔ _
    rw [Client.react_error (Server.dataStagerOf_error hstager),
      Server.dataStagerOf_noSuchEntity_iff hstager]
    refine ⟨?_, ?_⟩
    · rintro ⟨rfl, hlogger, hfind⟩
      exact ⟨jobId, tx, hclient, hlogger, hfind⟩
    · rintro ⟨jobId', tx', hclient', hlogger, hfind⟩
      rw [hclient] at hclient'
      cases hclient'
      exact ⟨rfl, hlogger, hfind⟩
  · refine ⟨?_, ?_⟩
    · exact nofun
    · rintro ⟨jobId', tx', hclient', -, hfind⟩
      -- a data stager address is read off a registered job
      rw [hclient] at hclient'
      cases hclient'
      obtain ⟨p, j, ap, hlive, -⟩ := Server.dataStagerOf_ok hstager
      rw [hlive.1] at hfind
      cases hfind

/-- No entry. -/
theorem pollTransfer_success (h : w.pollTransfer = some w') (r : Started) :
    w'.client = .returned (some r) .success ↔
      ∃ jobId tx, w.client = .polling (.library r) jobId tx .transferLookup ∧
        w.logger = false ∧ w.server.transferManager.find? tx = none := by
  obtain ⟨k, jobId, tx, hclient, ⟨hfind, rfl⟩ | ⟨p, hfind, rfl⟩⟩ := pollTransfer_cases h
  · show Client.react w.logger k jobId tx none (.error .noSuchEntity) = _ ↔ _
    have hne : ErrorCode.noSuchEntity ≠ .success := nofun
    rw [Client.react_error hne]
    refine ⟨?_, ?_⟩
    · rintro ⟨rfl, hlogger, -⟩
      exact ⟨jobId, tx, hclient, hlogger, hfind⟩
    · rintro ⟨jobId', tx', hclient', hlogger, -⟩
      rw [hclient] at hclient'
      cases hclient'
      exact ⟨rfl, hlogger, rfl⟩
  · refine ⟨?_, ?_⟩
    · exact nofun
    · rintro ⟨jobId', tx', hclient', -, hfind'⟩
      rw [hclient] at hclient'
      cases hclient'
      rw [hfind] at hfind'
      cases hfind'

/-- A terminal state, whichever it is. -/
theorem pollStatus_success (h : w.pollStatus = some w') (r : Started) :
    w'.client = .returned (some r) .success ↔
      ∃ jobId tx p t, w.client = .polling (.library r) jobId tx (.status p) ∧
        w.server.transferManager.get? p = some t ∧ Terminal w.cargo t.handle := by
  obtain ⟨k, jobId, tx, p, t, status, hclient, ht, hstatus, rfl⟩ := pollStatus_cases h
  have hterminal : status.state.terminal = true ↔
      status.state.toTransferState ≠ .running ∧ status.state.toTransferState ≠ .queued := by
    cases status.state <;> simp [CargoState.terminal, CargoState.toTransferState]
  show Client.react w.logger k jobId tx (some p) (.ok status.state.toTransferState) = _ ↔ _
  rw [Client.react_ok, ← hterminal]
  refine ⟨?_, ?_⟩
  · rintro ⟨rfl, hread⟩
    exact ⟨jobId, tx, p, t, hclient, ht, status, hstatus, hread⟩
  · rintro ⟨jobId', tx', p', t', hclient', ht', status', hstatus', hread⟩
    rw [hclient] at hclient'
    cases hclient'
    rw [ht] at ht'
    cases ht'
    rw [hstatus] at hstatus'
    cases hstatus'
    exact ⟨rfl, hread⟩

/-! ## One event, and every run -/

/-- A poll that ends with success keeps the promise exactly when the transfer is
    completed. -/
theorem successMeansCompleted_of_success {ends : Started → Prop}
    (hc : w'.cargo = w.cargo) (hsuccess : ∀ r, w'.client = .returned (some r) .success ↔ ends r) :
    w'.SuccessMeansCompleted ↔ ∀ r, ends r → Completed w.cargo r.handle := by
  unfold SuccessMeansCompleted
  simp only [hsuccess, hc]

/-- An event that leaves the client alone, or that ends no call with success. -/
theorem SuccessMeansCompleted.keeps {e : Event} (hq : w.SuccessMeansCompleted)
    (hk : Keeps w e w')
    (hclient : ∀ r, w'.client = .returned (some r) .success →
      w.client = .returned (some r) .success) : w'.SuccessMeansCompleted :=
  fun r hr => hk.later.completed (hq r (hclient r hr))

theorem successMeansCompleted_pollJob_iff (h : w.pollJob = some w') :
    w'.SuccessMeansCompleted ↔ w.PollFindsOutcome .pollJob := by
  obtain ⟨k, jobId, tx, -, hcases⟩ := pollJob_cases h
  have hcargo : w'.cargo = w.cargo := by
    rcases hcases with ⟨ec, -, rfl⟩ | ⟨dataStager, -, rfl⟩ <;> rfl
  rw [successMeansCompleted_of_success hcargo (pollJob_success h)]
  refine ⟨?_, ?_⟩
  · intro hall r jobId tx hclient hlogger hfind
    exact hall r ⟨jobId, tx, hclient, hlogger, hfind⟩
  · rintro hall r ⟨jobId, tx, hclient, hlogger, hfind⟩
    exact hall r jobId tx hclient hlogger hfind

/-- The entry is gone, so the transfer is done. -/
theorem Inv.terminal_of_missing (hi : w.Inv) {r : Started} {jobId : JobId} {tx : TransferId}
    (hclient : w.client = .polling (.library r) jobId tx .transferLookup)
    (hfind : w.server.transferManager.find? tx = none) : Terminal w.cargo r.handle := by
  have hc := hi.client
  rw [hclient] at hc
  obtain ⟨-, hr, -, rfl, -⟩ := hc
  by_contra hnot
  rw [(hi.started r hr).kept hnot] at hfind
  cases hfind

theorem successMeansCompleted_pollTransfer_iff (hi : w.Inv) (h : w.pollTransfer = some w') :
    w'.SuccessMeansCompleted ↔ w.PollFindsOutcome .pollTransfer := by
  obtain ⟨k, jobId, tx, -, hcases⟩ := pollTransfer_cases h
  have hcargo : w'.cargo = w.cargo := by
    rcases hcases with ⟨-, rfl⟩ | ⟨p, -, rfl⟩ <;> rfl
  rw [successMeansCompleted_of_success hcargo (pollTransfer_success h)]
  refine ⟨?_, ?_⟩
  · intro hall r jobId tx hclient hlogger hfind
    exact (hi.terminal_of_missing hclient hfind).completed_iff.mp
      (hall r ⟨jobId, tx, hclient, hlogger, hfind⟩)
  · rintro hall r ⟨jobId, tx, hclient, hlogger, hfind⟩
    exact (hi.terminal_of_missing hclient hfind).completed_iff.mpr
      (hall r jobId tx hclient hlogger hfind)

/-- A terminal state is read off the transfer itself, or the transfer was done
    long ago and its id is used again. -/
theorem Inv.terminal_of_read (hi : w.Inv) {r : Started} {jobId : JobId} {tx : TransferId}
    {p : TransferPtr Handle} {t : TransferMetadata Handle}
    (hclient : w.client = .polling (.library r) jobId tx (.status p))
    (ht : w.server.transferManager.get? p = some t) (hterminal : Terminal w.cargo t.handle) :
    Terminal w.cargo r.handle := by
  have hc := hi.client
  rw [hclient] at hc
  obtain ⟨-, hr, -, -, hstage⟩ := hc
  by_contra hnot
  obtain rfl := hstage p rfl hnot
  obtain ⟨t', ht', hhandle⟩ := (hi.started r hr).object
  rw [ht] at ht'
  cases ht'
  exact hnot (hhandle ▸ hterminal)

theorem successMeansCompleted_pollStatus_iff (hi : w.Inv) (h : w.pollStatus = some w') :
    w'.SuccessMeansCompleted ↔ w.PollFindsOutcome .pollStatus := by
  obtain ⟨k, jobId, tx, p, t, status, -, -, -, hw'⟩ := pollStatus_cases h
  have hcargo : w'.cargo = w.cargo := by
    rw [hw']
  rw [successMeansCompleted_of_success hcargo (pollStatus_success h)]
  refine ⟨?_, ?_⟩
  · intro hall r jobId tx p t hclient ht hread
    exact (hi.terminal_of_read hclient ht hread).completed_iff.mp
      (hall r ⟨jobId, tx, p, t, hclient, ht, hread⟩)
  · rintro hall r ⟨jobId, tx, p, t, hclient, ht, hread⟩
    exact (hi.terminal_of_read hclient ht hread).completed_iff.mpr
      (hall r jobId tx p t hclient ht hread)

theorem successMeansCompleted_step {e : Event} (hi : w.Inv) (hq : w.SuccessMeansCompleted)
    (h : w.step e = some w') : w'.SuccessMeansCompleted ↔ w.PollFindsOutcome e := by
  have hk := step_keeps h
  cases e with
  | pollJob => exact successMeansCompleted_pollJob_iff h
  | pollTransfer => exact successMeansCompleted_pollTransfer_iff hi h
  | pollStatus => exact successMeansCompleted_pollStatus_iff hi h
  | call env jobId sources targets limits =>
      refine ⟨fun _ => trivial, fun _ => hq.keeps hk fun r hr => ?_⟩
      simp only [step] at h
      split at h
      case h_2 => cases h
      case h_1 =>
        -- the call polls, or it returns for no transfer
        rcases call_cases h with ⟨w₁, r₁, -, rfl⟩ | ⟨w₁, client, -, rfl | ⟨ec, -, rfl⟩, rfl⟩
        · cases hr
        · cases hr
        · cases hr
  | wait jobId tx =>
      refine ⟨fun _ => trivial, fun _ => hq.keeps hk fun r hr => ?_⟩
      simp only [step] at h
      split at h
      · obtain rfl := Option.some.inj h
        cases hr
      · cases h
  | pollFails =>
      refine ⟨fun _ => trivial, fun _ => hq.keeps hk fun r hr => ?_⟩
      simp only [step] at h
      split at h
      case h_1 k _ _ _ _ =>
        obtain rfl := Option.some.inj h
        cases k with
        | library r₁ => cases hr
        | tool first => cases hr
      case h_2 => cases h
  | _ =>
      have hclient := step_client h rfl
      exact ⟨fun _ => trivial, fun _ => hq.keeps hk fun r hr => hclient ▸ hr⟩

/-- **In a run, a waiting call returns success for completed transfers only,
    exactly when each of its polls finds the outcome of the transfer.** -/
theorem always_successMeansCompleted_iff (redis logger : Bool) (es : List Event) :
    Always step SuccessMeansCompleted (init redis logger) es ↔
      StepsMeet step PollFindsOutcome (init redis logger) es := by
  refine always_iff (fun w e w' hi h => inv_step hi h) ?_ es _ (inv_init redis logger) nofun
  intro w e w' hi hq h
  exact successMeansCompleted_step hi hq h

/-- A job with an adhoc storage starts a transfer and waits for it. -/
def waitingRun : List Event :=
  [.request sampleEnv (sampleAdhoc []), .request sampleEnv (sampleJob (some 0) 7),
    .call sampleEnv 0 [] [] (.given []), .progress 0 ⟨.running, -1⟩]

/-- The transfer fails, and the call that waits for it reads `failed` and returns
    success. -/
theorem not_successMeansCompleted_failedRead :
    ¬ Always step SuccessMeansCompleted (init false true)
      (waitingRun ++ [.progress 0 ⟨.failed, -1⟩, .pollJob, .pollTransfer, .pollStatus]) := by
  intro hall
  obtain ⟨w, hw⟩ : ∃ w, run step (init false true)
      (waitingRun ++ [.progress 0 ⟨.failed, -1⟩, .pollJob, .pollTransfer, .pollStatus])
      = some w := ⟨_, rfl⟩
  have hlast := hall.last hw
  cases hw
  obtain ⟨status, hstatus, hcompleted⟩ := hlast _ rfl
  cases hstatus
  cases hcompleted

end World

end Scord
