/-
  Scord.Transfers.Invariant

  What holds of the transfers in every state of every interleaving.  The heart
  of it: as long as Cargo has not completed or failed a transfer, its entry is
  in the table, because the scheduler removes an id only after it has read a
  terminal state behind it, with the lock held, and nobody else removes entries.

  Most events leave the entries, the objects and Cargo's terminal states as
  they are; `Later` says so, and each part of the invariant is kept by it.
-/
import Scord.Transfers.World

namespace Scord

open FloatArith ObjectStore StepSystem

/-! ## The request that starts a transfer -/

namespace Server

variable {H : Type}

theorem dataStagerOf_error {s : Server H} {jobId : JobId} {ec : ErrorCode}
    (h : s.dataStagerOf jobId = .ok (.error ec)) : ec ≠ .success := by
  unfold dataStagerOf at h
  cases hfind : s.jobManager.jobs.find? jobId with
  | none =>
      simp only [JobManager.find_of_none hfind] at h
      cases h
      exact nofun
  | some p =>
      simp only [JobManager.find_of_find? hfind] at h
      split at h
      · cases h
      · split at h
        · cases h
          exact nofun
        · split at h <;> cases h

/-- The error is `no_such_entity` for an unregistered job, and for no other. -/
theorem dataStagerOf_noSuchEntity_iff {s : Server H} {jobId : JobId} {ec : ErrorCode}
    (h : s.dataStagerOf jobId = .ok (.error ec)) :
    ec = .noSuchEntity ↔ s.jobManager.jobs.find? jobId = none := by
  unfold dataStagerOf at h
  cases hfind : s.jobManager.jobs.find? jobId with
  | none =>
      simp only [JobManager.find_of_none hfind] at h
      cases h
      simp
  | some p =>
      obtain ⟨j, hlive⟩ := JobManager.live_of_find? hfind
      have hj : s.jobAt (some p) = some j := hlive.2
      simp only [JobManager.find_of_find? hfind, hj] at h
      split at h
      · cases h
        simp
      · split at h <;> cases h

/-- A data stager address is read off a registered job with an adhoc storage. -/
theorem dataStagerOf_ok {s : Server H} {jobId : JobId} {dataStager : String}
    (h : s.dataStagerOf jobId = .ok (.ok dataStager)) :
    ∃ p j ap, s.jobManager.Live jobId p j ∧ j.adhocMetadataPtr = some ap := by
  unfold dataStagerOf at h
  cases hfind : s.jobManager.jobs.find? jobId with
  | none =>
      simp only [JobManager.find_of_none hfind] at h
      cases h
  | some p =>
      obtain ⟨j, hlive⟩ := JobManager.live_of_find? hfind
      have hj : s.jobAt (some p) = some j := hlive.2
      simp only [JobManager.find_of_find? hfind, hj] at h
      cases hptr : j.adhocMetadataPtr with
      | none =>
          simp only [hptr] at h
          cases h
      | some ap => exact ⟨p, j, ap, hlive, hptr⟩

/-- **What `transfer_datasets` does.**  Either it registers the transfer that
    Cargo started under the drawn id and answers with that id, or it answers no
    success and registers nothing. -/
theorem transferDatasets_cases (env : Env H) (s : Server H) (jobId : JobId)
    (sources targets : List Dataset) (limits : List QosLimit) :
    (∃ dataStager tx, s.dataStagerOf jobId = .ok (.ok dataStager) ∧
      env.transferDatasets dataStager (sources.map fun src => datasetProcess src.id)
        (targets.map fun tgt => datasetProcess tgt.id) = some tx ∧
      s.transferManager.find? s.transferManager.currentId = none ∧
      s.transferDatasets env jobId sources targets limits
        = { server := { s.createRpc.1 with
              transferManager := (s.transferManager.fetchId.1.emplace s.transferManager.currentId
                { id := s.transferManager.currentId, handle := tx, qos := limits }).1 }
            outcome := .ok ⟨s.rpcCount, .success, some s.transferManager.currentId⟩ }) ∨
    ((∀ resp, (s.transferDatasets env jobId sources targets limits).outcome = .ok resp →
        resp.errorCode ≠ .success) ∧
      ∃ tm, (tm = s.transferManager ∨ tm = s.transferManager.fetchId.1) ∧
        (s.transferDatasets env jobId sources targets limits).server
          = { s.createRpc.1 with transferManager := tm }) := by
  unfold transferDatasets
  simp only [show s.createRpc.1.dataStagerOf jobId = s.dataStagerOf jobId from rfl]
  cases hstager : s.dataStagerOf jobId with
  | error fault => exact .inr ⟨nofun, _, .inl rfl, rfl⟩
  | ok answer =>
      cases answer with
      | error ec =>
          refine .inr ⟨?_, _, .inl rfl, rfl⟩
          rintro resp hresp
          cases hresp
          exact dataStagerOf_error hstager
      | ok dataStager =>
          simp only
          cases hstart : env.transferDatasets dataStager
              (sources.map fun src => datasetProcess src.id)
              (targets.map fun tgt => datasetProcess tgt.id) with
          | none => exact .inr ⟨nofun, _, .inl rfl, rfl⟩
          | some tx =>
              simp only [TransferManager.create, createRpc_transferManager, Registry.fetchId_snd]
              cases hfree : s.transferManager.find? s.transferManager.currentId with
              | some p =>
                  -- Cargo has a transfer then that nobody can ask for
                  rw [createAt_of_taken (r := s.transferManager.fetchId.1) hfree]
                  refine .inr ⟨?_, _, .inr rfl, rfl⟩
                  rintro resp hresp
                  cases hresp
                  exact nofun
              | none =>
                  rw [createAt_of_free (r := s.transferManager.fetchId.1) hfree]
                  refine .inl ⟨dataStager, tx, rfl, hstart, rfl, ?_⟩
                  have hnew : (s.transferManager.fetchId.1.emplace s.transferManager.currentId
                      { id := s.transferManager.currentId, handle := tx, qos := limits }).1.get?
                        s.transferManager.next
                      = some { id := s.transferManager.currentId, handle := tx, qos := limits } :=
                    Registry.get?_emplace_next ..
                  simp only [show s.transferManager.fetchId.1.next = s.transferManager.next
                    from rfl, hnew]
                  rfl

end Server

/-! ## Transfers and Cargo as time goes by -/

/-- Cargo has completed or failed the transfer. -/
def Terminal (cargo : List CargoStatus) (h : Handle) : Prop :=
  ∃ status, cargo[h]? = some status ∧ status.state.terminal = true

/-- Cargo has completed the transfer. -/
def Completed (cargo : List CargoStatus) (h : Handle) : Prop :=
  ∃ status, cargo[h]? = some status ∧ status.state = .completed

/-- From `tm` and `cargo` to `tm'` and `cargo'`, objects keep their handles,
    what is terminal stays as it is, and no Cargo transfer disappears. -/
structure Later (tm : TransferManager Handle) (cargo : List CargoStatus)
    (tm' : TransferManager Handle) (cargo' : List CargoStatus) : Prop where
  object : ∀ {p t}, tm.get? p = some t → ∃ t', tm'.get? p = some t' ∧ t'.handle = t.handle
  status : ∀ {h : Handle} {st : CargoStatus}, cargo[h]? = some st →
    st.state.terminal = true → cargo'[h]? = some st
  length : cargo.length ≤ cargo'.length

section Later

variable {tm tm' : TransferManager Handle} {cargo cargo' : List CargoStatus}

theorem Later.terminal (hl : Later tm cargo tm' cargo') {h : Handle} (ht : Terminal cargo h) :
    Terminal cargo' h := by
  obtain ⟨status, hget, hstate⟩ := ht
  exact ⟨status, hl.status hget hstate, hstate⟩

theorem Later.completed (hl : Later tm cargo tm' cargo') {h : Handle} (hc : Completed cargo h) :
    Completed cargo' h := by
  obtain ⟨status, hget, hstate⟩ := hc
  exact ⟨status, hl.status hget (by rw [hstate]; rfl), hstate⟩

/-- Cargo has one more transfer. -/
theorem Later.append (tm : TransferManager Handle) (cargo : List CargoStatus)
    (status : CargoStatus) : Later tm cargo tm (cargo ++ [status]) := by
  refine ⟨fun h => ⟨_, h, rfl⟩, ?_, by simp⟩
  intro h st hget _
  have hlt := (List.getElem?_eq_some_iff.mp hget).1
  rw [List.getElem?_append_left hlt]
  exact hget

/-- Cargo makes progress with a transfer that was not terminal. -/
theorem Later.set (tm : TransferManager Handle) {cargo : List CargoStatus} {h : Handle}
    {old : CargoStatus} (hget : cargo[h]? = some old) (hold : ¬ old.state.terminal = true)
    (status : CargoStatus) : Later tm cargo tm (cargo.set h status) := by
  refine ⟨fun h => ⟨_, h, rfl⟩, ?_, by simp⟩
  intro h' st hst hterminal
  by_cases hh : h = h'
  · -- the one that changes is not terminal
    subst hh
    obtain rfl : st = old := Option.some.inj (hst.symm.trans hget)
    exact absurd hterminal hold
  · rw [List.getElem?_set_ne hh]
    exact hst

/-- The scheduler's measurement of a bandwidth keeps the handle. -/
theorem Later.visit (round : Rounding) (tm : TransferManager Handle) (cargo : List CargoStatus)
    (status : CargoStatus) (p : TransferPtr Handle) :
    Later tm cargo (Scheduler.visit round tm status p).1 cargo := by
  refine ⟨?_, fun h _ => h, Nat.le_refl _⟩
  intro q t hq
  unfold Scheduler.visit
  cases status.state with
  | running =>
      simp only [Registry.get?_modify]
      by_cases hqp : q = p
      · rw [if_pos hqp, hq]
        exact ⟨_, rfl, rfl⟩
      · rw [if_neg hqp]
        exact ⟨t, hq, rfl⟩
  | _ => exact ⟨t, hq, rfl⟩

/-- No object appears on a visit. -/
theorem visit_origin {round : Rounding} {tm : TransferManager Handle} {status : CargoStatus}
    {p q : TransferPtr Handle} {t' : TransferMetadata Handle}
    (h : (Scheduler.visit round tm status p).1.get? q = some t') :
    ∃ t, tm.get? q = some t ∧ t.handle = t'.handle := by
  unfold Scheduler.visit at h
  cases hstate : status.state with
  | running =>
      simp only [hstate, Registry.get?_modify] at h
      by_cases hqp : q = p
      · rw [if_pos hqp] at h
        obtain ⟨t, ht, rfl⟩ := Option.map_eq_some_iff.mp h
        exact ⟨t, ht, rfl⟩
      · rw [if_neg hqp] at h
        exact ⟨t', h, rfl⟩
  | _ =>
      simp only [hstate] at h
      exact ⟨t', h, rfl⟩

@[simp] theorem find?_visit (round : Rounding) (tm : TransferManager Handle)
    (status : CargoStatus) (p : TransferPtr Handle) (id : TransferId) :
    (Scheduler.visit round tm status p).1.find? id = tm.find? id := by
  unfold Scheduler.visit
  cases status.state <;> rfl

/-- The id goes to `v_ids` exactly when Cargo is done with the transfer. -/
theorem visit_done (round : Rounding) (tm : TransferManager Handle) (status : CargoStatus)
    (p : TransferPtr Handle) :
    (Scheduler.visit round tm status p).2.1 = status.state.terminal := by
  unfold Scheduler.visit
  cases status.state <;> rfl

end Later

/-! ## The invariant -/

/-- The entry of `id` is in the table, and Cargo is done with its transfer. -/
def Done (tm : TransferManager Handle) (cargo : List CargoStatus) (id : TransferId) : Prop :=
  ∃ p t, tm.find? id = some p ∧ tm.get? p = some t ∧ Terminal cargo t.handle

/-- The scheduler: what it has not visited yet is in the table, and what it is
    going to remove is done. -/
def SchedulerInv (tm : TransferManager Handle) (cargo : List CargoStatus) :
    SchedulerState → Prop
  | .sleeping => True
  | .scanning todo vIds =>
      (todo.map Prod.fst ++ vIds).Nodup ∧ (∀ e ∈ todo, tm.find? e.1 = some e.2) ∧
        ∀ id ∈ vIds, Done tm cargo id
  | .removing vIds => vIds.Nodup ∧ ∀ id ∈ vIds, Done tm cargo id

/-- A started transfer: its entry stays until Cargo is done with it. -/
structure StartedInv (jobs : Registry JobMetadata) (tm : TransferManager Handle)
    (cargo : List CargoStatus) (r : Started) : Prop where
  bound : r.handle < cargo.length
  job : ∃ j ap, jobs.get? r.jobPtr = some j ∧ j.adhocMetadataPtr = some ap
  object : ∃ t, tm.get? r.ptr = some t ∧ t.handle = r.handle
  kept : ¬ Terminal cargo r.handle → tm.find? r.tx = some r.ptr

/-- The client: what a poll has found under the id was started under it, a
    library call polls for the transfer it started, and `wait` exits
    successfully for a completed transfer only. -/
def ClientInv (cargo : List CargoStatus) (started : List Started) : Client → Prop
  | .idle => True
  | .polling k jobId tx stage =>
      (∀ q, stage = .status q → ∃ r ∈ started, r.tx = tx ∧ r.ptr = q) ∧
        match k with
        | .library r =>
            r ∈ started ∧ jobId = r.jobId ∧ tx = r.tx ∧
              ∀ q, stage = .status q → ¬ Terminal cargo r.handle → q = r.ptr
        | .tool _ => True
  | .returned _ _ => True
  | .exited success tx read =>
      success = true →
        ∃ r ∈ started, r.tx = tx ∧ read = some r.ptr ∧ Completed cargo r.handle
  | .aborted => True

structure World.Inv (w : World) : Prop where
  server : w.server.WF
  handles : ∀ {p t}, w.server.transferManager.get? p = some t → t.handle < w.cargo.length
  entries : ∀ {id p}, w.server.transferManager.find? id = some p →
    ∃ r ∈ w.started, r.tx = id ∧ r.ptr = p
  started : ∀ r ∈ w.started,
    StartedInv w.server.jobManager.jobs w.server.transferManager w.cargo r
  sched : SchedulerInv w.server.transferManager w.cargo w.sched
  client : ClientInv w.cargo w.started w.client

section Kept

variable {tm tm' : TransferManager Handle} {cargo cargo' : List CargoStatus}

/-- The table has at least the entries it had. -/
def EntriesKept (tm tm' : TransferManager Handle) : Prop :=
  ∀ ⦃id p⦄, tm.find? id = some p → tm'.find? id = some p

theorem EntriesKept.refl (tm : TransferManager Handle) : EntriesKept tm tm := fun _ _ h => h

theorem EntriesKept.visit (round : Rounding) (tm : TransferManager Handle)
    (status : CargoStatus) (p : TransferPtr Handle) :
    EntriesKept tm (Scheduler.visit round tm status p).1 :=
  fun _ _ h => (find?_visit ..).trans h

/-- The jobs are there, with the adhoc storages they had. -/
def JobsKept (jobs jobs' : Registry JobMetadata) : Prop :=
  ∀ {p j}, jobs.get? p = some j →
    ∃ j', jobs'.get? p = some j' ∧ j'.adhocMetadataPtr = j.adhocMetadataPtr

/-- Nobody can tell the two transfer managers apart, but for the next id. -/
structure SameTransfers (tm tm' : TransferManager Handle) : Prop where
  find : ∀ id, tm'.find? id = tm.find? id
  get : ∀ p, tm'.get? p = tm.get? p

theorem SameTransfers.refl (tm : TransferManager Handle) : SameTransfers tm tm :=
  ⟨fun _ => rfl, fun _ => rfl⟩

theorem SameTransfers.entriesKept (h : SameTransfers tm tm') : EntriesKept tm tm' :=
  fun _ _ hp => (h.find _).trans hp

theorem SameTransfers.later (h : SameTransfers tm tm') (cargo : List CargoStatus) :
    Later tm cargo tm' cargo :=
  ⟨fun ht => ⟨_, (h.get _).trans ht, rfl⟩, fun hst _ => hst, Nat.le_refl _⟩

theorem Done.later {id : TransferId} (hd : Done tm cargo id) (hl : Later tm cargo tm' cargo')
    (hfind : tm'.find? id = tm.find? id) : Done tm' cargo' id := by
  obtain ⟨p, t, hp, ht, hterminal⟩ := hd
  obtain ⟨t', ht', hhandle⟩ := hl.object ht
  exact ⟨p, t', hfind.trans hp, ht', hhandle ▸ hl.terminal hterminal⟩

theorem SchedulerInv.later {sched : SchedulerState} (hs : SchedulerInv tm cargo sched)
    (hl : Later tm cargo tm' cargo') (hk : EntriesKept tm tm') : SchedulerInv tm' cargo' sched := by
  have hdone : ∀ {id}, Done tm cargo id → Done tm' cargo' id := by
    intro id hd
    obtain ⟨p, t, hp, ht, hterminal⟩ := hd
    exact Done.later ⟨p, t, hp, ht, hterminal⟩ hl ((hk hp).trans hp.symm)
  cases sched with
  | sleeping => trivial
  | scanning todo vIds =>
      obtain ⟨hnodup, htodo, hvIds⟩ := hs
      exact ⟨hnodup, fun e he => hk (htodo e he), fun id hid => hdone (hvIds id hid)⟩
  | removing vIds =>
      obtain ⟨hnodup, hvIds⟩ := hs
      exact ⟨hnodup, fun id hid => hdone (hvIds id hid)⟩

theorem StartedInv.later {jobs jobs' : Registry JobMetadata} {r : Started}
    (hr : StartedInv jobs tm cargo r) (hl : Later tm cargo tm' cargo')
    (hk : EntriesKept tm tm') (hj : JobsKept jobs jobs') :
    StartedInv jobs' tm' cargo' r := by
  refine ⟨Nat.lt_of_lt_of_le hr.bound hl.length, ?_, ?_, ?_⟩
  · obtain ⟨j, ap, hget, hptr⟩ := hr.job
    obtain ⟨j', hget', hptr'⟩ := hj hget
    exact ⟨j', ap, hget', hptr'.trans hptr⟩
  · obtain ⟨t, ht, hhandle⟩ := hr.object
    obtain ⟨t', ht', hhandle'⟩ := hl.object ht
    exact ⟨t', ht', hhandle'.trans hhandle⟩
  · -- if it is not terminal later, it was not terminal before
    exact fun hnot => hk (hr.kept fun ht => hnot (hl.terminal ht))

theorem ClientInv.later {started started' : List Started} {client : Client}
    (hc : ClientInv cargo started client) (hl : Later tm cargo tm' cargo')
    (hsub : ∀ r ∈ started, r ∈ started') : ClientInv cargo' started' client := by
  cases client with
  | idle => trivial
  | polling k jobId tx stage =>
      obtain ⟨hfound, hk⟩ := hc
      refine ⟨fun q hq => ?_, ?_⟩
      · obtain ⟨r, hr, hown⟩ := hfound q hq
        exact ⟨r, hsub r hr, hown⟩
      · cases k with
        | library r =>
            obtain ⟨hr, hjob, htx, hsame⟩ := hk
            refine ⟨hsub r hr, hjob, htx, fun q hq hnot => ?_⟩
            exact hsame q hq fun hterminal => hnot (hl.terminal hterminal)
        | tool first => trivial
  | returned r ec => trivial
  | exited success tx read =>
      intro hsuccess
      obtain ⟨r, hr, htx, hread, hcompleted⟩ := hc hsuccess
      exact ⟨r, hsub r hr, htx, hread, hl.completed hcompleted⟩
  | aborted => trivial

end Kept

/-- What the client knows after an answer.  Only a `finished` state makes `wait`
    exit successfully. -/
theorem ClientInv.react {cargo : List CargoStatus} {started : List Started} {k : Waiter}
    {jobId : JobId} {tx : TransferId} {stage : Stage}
    (hc : ClientInv cargo started (.polling k jobId tx stage)) (logger : Bool)
    {read : Option (TransferPtr Handle)} {answer : Except ErrorCode TransferState}
    (hread : answer = .ok .finished →
      ∃ r ∈ started, r.tx = tx ∧ read = some r.ptr ∧ Completed cargo r.handle) :
    ClientInv cargo started (Client.react logger k jobId tx read answer) := by
  cases answer with
  | error ec =>
      unfold Client.react
      cases logger with
      | true => trivial
      | false =>
          cases k with
          | library r =>
              simp only [Bool.false_eq_true, if_false]
              split <;> trivial
          | tool first => exact nofun
  | ok state =>
      unfold Client.react
      cases k with
      | library r =>
          obtain ⟨-, hr, hjob, htx, -⟩ := hc
          simp only
          split
          · exact ⟨nofun, hr, hjob, htx, nofun⟩
          · trivial
      | tool first =>
          simp only
          split
          case isTrue hfinished => exact fun _ => hread (by rw [hfinished])
          case isFalse =>
            split
            · exact nofun
            · exact ⟨nofun, trivial⟩

end Scord
