/-
  Scord.Transfers.Privacy

  What a job can learn of the transfers of other jobs.

  A transfer has no owner.  Its metadata names no job, and `query_transfer` looks
  the job and the transfer up in two managers that know nothing of each other:
  whoever has a registered job with an adhoc storage is answered for every id,
  and the ids are consecutive.  What other jobs do with their transfers reaches
  a job in no other way than through the Cargo transfer that an id leads to.
-/
import Scord.Transfers.Invariant

namespace Scord

open ObjectStore StepSystem

/-! ## The activity of several jobs -/

/-- What happens at the server: a request of some job, or a step of the
    scheduler thread that changes the transfers. -/
inductive Activity (H : Type)
  | request (env : Env H) (r : Request)
  /-- the scheduler stores the bandwidth that Cargo reports -/
  | measured (p : TransferPtr H) (bw : Bandwidth)
  /-- the scheduler removes a transfer that is over -/
  | removed (tx : TransferId)

/-- The activity without the transfers that other jobs start, and without what
    the scheduler does to transfers. -/
def Activity.visible {H : Type} (jobId : JobId) : Activity H → Bool
  | .request _ (.transferDatasets owner _ _ _ _) => decide (owner = jobId)
  | .request _ _ => true
  | .measured _ _ => false
  | .removed _ => false

/-- The answer to a `transfer_datasets` request: the job it was made for, and the
    id that it was given. -/
structure Given where
  owner : JobId
  tx : TransferId
deriving DecidableEq, Repr

namespace Server

variable {H : Type}

/-- What a request gives out. -/
def given (s : Server H) (env : Env H) : Request → Option Given
  | .transferDatasets jobId sources targets limits _ =>
      match (s.transferDatasets env jobId sources targets limits).outcome with
      | .ok ⟨_, .success, some tx⟩ => some ⟨jobId, tx⟩
      | _ => none
  | _ => none

/-- One activity, with what it gives out. -/
def stepGiven (s : Server H) : Activity H → Option (Server H × Option Given)
  | .request env r => (s.step (env, r)).map fun s' => (s', s.given env r)
  | .measured p bw =>
      some ({ s with transferManager := s.transferManager.modify p fun t => t.update bw }, none)
  | .removed tx =>
      some ({ s with transferManager := (TransferManager.remove s.transferManager tx).1 }, none)

/-- The id was given to the job. -/
def GivenTo (log : List (Activity H × Option Given)) (owner : JobId) (tx : TransferId) : Prop :=
  some ⟨owner, tx⟩ ∈ log.map Prod.snd

/-- The id was given to some job, and the transfer was not removed since. -/
def InUse (log : List (Activity H × Option Given)) (tx : TransferId) : Prop :=
  Since (fun e => ∃ owner, e.2 = some ⟨owner, tx⟩) (fun e => e.1 = .removed tx) log

theorem InUse.givenTo {log : List (Activity H × Option Given)} {tx : TransferId}
    (h : InUse log tx) : ∃ owner, GivenTo log owner tx := by
  obtain ⟨later, e, earlier, rfl, ⟨owner, howner⟩, -⟩ := h
  exact ⟨owner, List.mem_map.mpr ⟨e, by simp, howner⟩⟩

/-! ## The answers -/

/-- What `query_transfer` tells a job: the error code and the state, apart from
    the id of the rpc. -/
def transferAnswer (env : Env H) (s : Server H) (jobId : JobId) (tx : TransferId) :
    Outcome (ErrorCode × Option TransferState) :=
  (s.queryTransfer env jobId tx).outcome.map fun resp => (resp.errorCode, resp.value)

/-- The Cargo transfer that an id leads to. -/
def cargoTransfer (s : Server H) (tx : TransferId) : Option H :=
  (s.transferManager.find? tx).bind fun p => (s.transferManager.get? p).map (·.handle)

/-- What is told of a Cargo transfer, or of none. -/
def cargoAnswer (env : Env H) : Option H → Outcome (ErrorCode × Option TransferState)
  | none => .ok (.noSuchEntity, none)
  | some h =>
      match env.status h with
      | none => .error (.throws .cargoError)
      | some status => .ok (.success, some status.state.toTransferState)

variable {env : Env H} {s s' : Server H} {jobId : JobId} {tx : TransferId}

theorem cargoTransfer_of_none (h : s.transferManager.find? tx = none) :
    s.cargoTransfer tx = none := by
  unfold cargoTransfer
  rw [h]
  rfl

/-- The job decides whether there is an answer about the transfer, and nothing
    of the job goes into it. -/
theorem transferAnswer_eq (env : Env H) (s : Server H) (jobId : JobId) (tx : TransferId) :
    s.transferAnswer env jobId tx
      = match s.dataStagerOf jobId with
        | .error fault => .error fault
        | .ok (.error ec) => .ok (ec, none)
        | .ok (.ok _) => cargoAnswer env (s.cargoTransfer tx) := by
  unfold transferAnswer queryTransfer
  simp only [show s.createRpc.1.dataStagerOf jobId = s.dataStagerOf jobId from rfl]
  cases s.dataStagerOf jobId with
  | error fault => rfl
  | ok answer =>
      cases answer with
      | error ec => rfl
      | ok dataStager =>
          simp only [createRpc_transferManager]
          cases hfind : s.transferManager.find? tx with
          | none =>
              rw [TransferManager.find_of_none hfind, cargoTransfer_of_none hfind]
              rfl
          | some p =>
              have hget := Registry.get?_eq_deref hfind
              rw [TransferManager.find_of_find? hfind]
              have hcargo : s.cargoTransfer tx = some (s.transferManager.deref hfind).handle := by
                unfold cargoTransfer
                rw [hfind, Option.bind_some, hget, Option.map_some]
              unfold transferStateOf
              simp only [createRpc_transferManager, hget, hcargo, cargoAnswer]
              cases env.status (s.transferManager.deref hfind).handle <;> rfl

/-- A success is for a registered job with an adhoc storage, and an id in the
    table. -/
theorem transferAnswer_success {value : Option TransferState}
    (h : s.transferAnswer env jobId tx = .ok (.success, value)) :
    (∃ p j ap, s.jobManager.Live jobId p j ∧ j.adhocMetadataPtr = some ap) ∧
      ∃ p, s.transferManager.find? tx = some p := by
  rw [transferAnswer_eq] at h
  cases hstager : s.dataStagerOf jobId with
  | error fault =>
      rw [hstager] at h
      cases h
  | ok answer =>
      cases answer with
      | error ec =>
          simp only [hstager, Except.ok.injEq, Prod.mk.injEq] at h
          exact absurd h.1 (dataStagerOf_error hstager)
      | ok dataStager =>
          refine ⟨dataStagerOf_ok hstager, ?_⟩
          simp only [hstager] at h
          cases hfind : s.transferManager.find? tx with
          | none =>
              rw [cargoTransfer_of_none hfind] at h
              cases h
          | some p => exact ⟨p, rfl⟩

/-! ## Ids in the table -/

/-- The ids that a request adds to the table are those that it gives out. -/
theorem findTransfer_of_step {r : Request} (h : s.step (env, r) = some s') (tx : TransferId) :
    s'.transferManager.find? tx = s.transferManager.find? tx ∨
      ∃ owner, s.given env r = some ⟨owner, tx⟩ := by
  cases step_effect h with
  | unchanged _ _ tm => exact .inl (by rw [tm])
  | jobIdSpent _ _ tm => exact .inl (by rw [tm])
  | jobCreated _ _ _ _ _ _ _ _ _ tm => exact .inl (by rw [tm])
  | jobUpdated _ _ _ _ _ _ _ tm => exact .inl (by rw [tm])
  | jobRemoved _ _ _ _ _ _ _ tm => exact .inl (by rw [tm])
  | adhocIdSpent _ _ tm => exact .inl (by rw [tm])
  | adhocCreated _ _ _ _ _ _ _ _ tm => exact .inl (by rw [tm])
  | adhocUpdated _ _ _ _ _ _ _ tm => exact .inl (by rw [tm])
  | adhocRemoved _ _ _ _ tm => exact .inl (by rw [tm])
  | transferIdSpent _ _ tm =>
      rw [tm]
      exact .inl rfl
  | transferCreated jobId sources targets limits mapping dataStager cargoTx request =>
      subst request
      obtain rfl := next_eq_some h
      rcases transferDatasets_cases env s jobId sources targets limits with
        ⟨_, _, _, _, hfree, heq⟩ | ⟨_, tm, htm, heq⟩
      · rw [heq]
        by_cases htx : tx = s.transferManager.currentId
        · -- the new id
          refine .inr ⟨jobId, ?_⟩
          unfold given
          simp only [heq, htx]
        · refine .inl ?_
          rw [Registry.find?_emplace, if_neg htx, Registry.find?_fetchId]
      · rw [heq]
        rcases htm with rfl | rfl <;> exact .inl rfl

/-- Every id in the table was given out, and not removed since. -/
theorem inUse_of_reachable {redis : Bool} {log : List (Activity H × Option Given)}
    (h : Reachable (logged stepGiven) (init redis, []) (s, log)) {p : TransferPtr H}
    (hfind : s.transferManager.find? tx = some p) : InUse log tx := by
  have hinv := h.invariant (I := fun t => ∀ tx p, t.1.transferManager.find? tx = some p →
    InUse t.2 tx) (fun tx p hp => by cases hp) ?_
  · exact hinv tx p hfind
  rintro ⟨t, l⟩ e t' hi hs tx p hp
  obtain ⟨u, acc, hstep, rfl⟩ := logged_eq_some.mp hs
  apply since_cons.mpr
  cases e with
  | request env r =>
      obtain ⟨u', hu, heq⟩ := Option.map_eq_some_iff.mp hstep
      cases heq
      rcases findTransfer_of_step hu tx with hsame | hgiven
      · exact .inr ⟨by simp, hi tx p (hsame.symm.trans hp)⟩
      · exact .inl hgiven
  | measured q bw =>
      cases hstep
      exact .inr ⟨by simp, hi tx p hp⟩
  | removed tx' =>
      cases hstep
      simp only [TransferManager.find?_remove] at hp
      by_cases htx : tx = tx'
      · rw [if_pos htx] at hp
        cases hp
      · rw [if_neg htx] at hp
        refine .inr ⟨?_, hi tx p hp⟩
        rintro ⟨⟩
        exact htx rfl

/-- An id that nobody was given leads nowhere. -/
theorem cargoTransfer_of_not_given {redis : Bool} {log : List (Activity H × Option Given)}
    (h : Reachable (logged stepGiven) (init redis, []) (s, log))
    (hnot : ∀ owner, ¬ GivenTo log owner tx) : s.cargoTransfer tx = none := by
  cases hfind : s.transferManager.find? tx with
  | none => exact cargoTransfer_of_none hfind
  | some p =>
      obtain ⟨owner, howner⟩ := (inUse_of_reachable h hfind).givenTo
      exact absurd howner (hnot owner)

/-! ## The server apart from its transfers -/

/-- The server without its transfers, and without its count of rpcs. -/
def withoutTransfers (s : Server H) : Server H :=
  { s with transferManager := Registry.empty, rpcCount := 0 }

theorem dataStagerOf_withoutTransfers (s : Server H) (jobId : JobId) :
    s.withoutTransfers.dataStagerOf jobId = s.dataStagerOf jobId := rfl

/-- A request about transfers changes nothing else. -/
theorem transferDatasets_withoutTransfers (env : Env H) (s : Server H) (jobId : JobId)
    (sources targets : List Dataset) (limits : List QosLimit) :
    (s.transferDatasets env jobId sources targets limits).server.withoutTransfers
      = s.withoutTransfers := by
  rcases transferDatasets_cases env s jobId sources targets limits with
    ⟨_, _, _, _, _, heq⟩ | ⟨_, _, _, heq⟩
  · rw [heq]
    rfl
  · rw [heq]
    rfl

/-- The handler sees nothing of the transfers. -/
def Blind (handler : Server H → Server H) : Prop :=
  ∀ s, (handler s).withoutTransfers = (handler s.withoutTransfers).withoutTransfers

theorem Blind.same {handler : Server H → Server H} (hblind : Blind handler)
    (h : s.withoutTransfers = s'.withoutTransfers) :
    (handler s).withoutTransfers = (handler s').withoutTransfers := by
  rw [hblind s, h, ← hblind s']

/-- A handler that only draws the id of its rpc. -/
theorem blind_of_createRpc {handler : Server H → Server H}
    (h : ∀ s, handler s = s.createRpc.1) : Blind handler := by
  intro s
  rw [h, h]
  rfl

theorem blind_registerJob (env : Env H) (res : JobResources) (req : JobRequirements)
    (slurmId : SlurmJobId) : Blind fun s => (s.registerJob env res req slurmId).server := by
  intro s
  simp only [registerJob_server]
  rw [show s.withoutTransfers.requiredAdhoc req = s.requiredAdhoc req from rfl]
  cases s.requiredAdhoc req with
  | error ec => rfl
  | ok ptr =>
      simp only [createJob, createRpc_jobManager]
      rw [show s.withoutTransfers.jobManager = s.jobManager from rfl]
      rcases s.jobManager.create slurmId res req ptr with ⟨jm, ec | p⟩
      · rfl
      · cases ptr <;> rfl

theorem blind_removeJob (jobId : JobId) : Blind fun s : Server H => (s.removeJob jobId).server := by
  intro s
  show (s.removeJob jobId).server.withoutTransfers
    = (s.withoutTransfers.removeJob jobId).server.withoutTransfers
  cases hfind : s.jobManager.jobs.find? jobId with
  | none =>
      rw [removeJob_of_none s hfind, removeJob_of_none s.withoutTransfers hfind]
      rfl
  | some p =>
      obtain ⟨j, hlive⟩ := JobManager.live_of_find? hfind
      rw [removeJob_server_of_live s hlive, removeJob_server_of_live s.withoutTransfers hlive]
      rfl

theorem blind_registerAdhocStorage (env : Env H) (name : String) (type : AdhocStorageType)
    (ctx : AdhocCtx) (res : AdhocResources) :
    Blind fun s => (s.registerAdhocStorage env name type ctx res).server := by
  intro s
  simp only [registerAdhocStorage, createRpc_adhocManager, adhocAt, Option.bind_some]
  rw [show s.withoutTransfers.adhocManager = s.adhocManager from rfl]
  rcases AdhocStorageManager.create s.adhocManager env.randomString type name ctx res with
    ⟨am, ec | p⟩
  · rfl
  · simp only
    cases am.get? p <;> rfl

theorem blind_updateAdhocStorage (env : Env H) (adhocId : AdhocId) (res : AdhocResources) :
    Blind fun s => (s.updateAdhocStorage env adhocId res).server := by
  intro s
  show (s.updateAdhocStorage env adhocId res).server.withoutTransfers
    = (s.withoutTransfers.updateAdhocStorage env adhocId res).server.withoutTransfers
  cases hfind : s.adhocManager.find? adhocId with
  | none =>
      rw [updateAdhocStorage_of_none env s hfind,
        updateAdhocStorage_of_none env s.withoutTransfers hfind]
      rfl
  | some p =>
      obtain ⟨n, heq⟩ := updateAdhocStorage_server env s hfind res
      obtain ⟨n', heq'⟩ := updateAdhocStorage_server env s.withoutTransfers hfind res
      rw [heq, heq']
      rfl

theorem blind_registerPfsStorage (name : String) (type : PfsStorageType) (ctx : PfsCtx) :
    Blind fun s : Server H => (s.registerPfsStorage name type ctx).server := by
  intro s
  simp only [registerPfsStorage]
  rw [show s.withoutTransfers.createRpc.1.pfsManager = s.createRpc.1.pfsManager from rfl]
  rcases PfsStorageManager.create s.createRpc.1.pfsManager type name ctx with ⟨pm, ec | p⟩
  · rfl
  · simp only
    cases pm.get? p <;> rfl

/-- **Every request is blind.**  What it does apart from transfers is the same on
    two servers that differ in their transfers only. -/
theorem withoutTransfers_of_step {t t' : Server H} {r : Request}
    (hst : s.withoutTransfers = t.withoutTransfers) (hs : s.step (env, r) = some s')
    (ht : t.step (env, r) = some t') : s'.withoutTransfers = t'.withoutTransfers := by
  cases r with
  | ping =>
      obtain rfl := next_eq_some (h := s.ping) hs
      obtain rfl := next_eq_some (h := t.ping) ht
      exact hst
  | query jobId =>
      obtain rfl := next_eq_some hs
      obtain rfl := next_eq_some ht
      exact (blind_of_createRpc fun s => query_server s jobId).same hst
  | registerJob res req slurmId =>
      obtain rfl := next_eq_some hs
      obtain rfl := next_eq_some ht
      exact (blind_registerJob env res req slurmId).same hst
  | updateJob jobId res =>
      obtain rfl := next_eq_some (h := s.updateJob jobId res) hs
      obtain rfl := next_eq_some (h := t.updateJob jobId res) ht
      have hblind : Blind fun s : Server H => (s.updateJob jobId res).server := fun _ => rfl
      exact hblind.same hst
  | removeJob jobId =>
      obtain rfl := next_eq_some hs
      obtain rfl := next_eq_some ht
      exact (blind_removeJob jobId).same hst
  | registerAdhocStorage name type ctx res =>
      obtain rfl := next_eq_some hs
      obtain rfl := next_eq_some ht
      exact (blind_registerAdhocStorage env name type ctx res).same hst
  | updateAdhocStorage adhocId res =>
      obtain rfl := next_eq_some hs
      obtain rfl := next_eq_some ht
      exact (blind_updateAdhocStorage env adhocId res).same hst
  | removeAdhocStorage adhocId =>
      obtain rfl := next_eq_some (h := s.removeAdhocStorage adhocId) hs
      obtain rfl := next_eq_some (h := t.removeAdhocStorage adhocId) ht
      have hblind : Blind fun s : Server H => (s.removeAdhocStorage adhocId).server :=
        fun _ => rfl
      exact hblind.same hst
  | deployAdhocStorage adhocId =>
      obtain rfl := next_eq_some hs
      obtain rfl := next_eq_some ht
      exact (blind_of_createRpc fun s => deployAdhocStorage_server env s adhocId).same hst
  | terminateAdhocStorage adhocId =>
      obtain rfl := next_eq_some hs
      obtain rfl := next_eq_some ht
      exact (blind_of_createRpc fun s => terminateAdhocStorage_server env s adhocId).same hst
  | registerPfsStorage name type ctx =>
      obtain rfl := next_eq_some hs
      obtain rfl := next_eq_some ht
      exact (blind_registerPfsStorage name type ctx).same hst
  | updatePfsStorage pfsId ctx =>
      obtain rfl := next_eq_some (h := s.updatePfsStorage pfsId ctx) hs
      obtain rfl := next_eq_some (h := t.updatePfsStorage pfsId ctx) ht
      have hblind : Blind fun s : Server H => (s.updatePfsStorage pfsId ctx).server := fun _ => rfl
      exact hblind.same hst
  | removePfsStorage pfsId =>
      obtain rfl := next_eq_some (h := s.removePfsStorage pfsId) hs
      obtain rfl := next_eq_some (h := t.removePfsStorage pfsId) ht
      have hblind : Blind fun s : Server H => (s.removePfsStorage pfsId).server := fun _ => rfl
      exact hblind.same hst
  | transferDatasets jobId sources targets limits mapping =>
      obtain rfl := next_eq_some hs
      obtain rfl := next_eq_some ht
      rw [transferDatasets_withoutTransfers, transferDatasets_withoutTransfers]
      exact hst
  | queryTransfer jobId txId =>
      obtain rfl := next_eq_some hs
      obtain rfl := next_eq_some ht
      exact (blind_of_createRpc fun s => queryTransfer_server env s jobId txId).same hst

/-! ## Two runs -/

theorem withoutTransfers_of_hidden {e : Activity H} {g : Option Given}
    (he : e.visible jobId = false) (h : s.stepGiven e = some (s', g)) :
    s'.withoutTransfers = s.withoutTransfers := by
  cases e with
  | measured p bw =>
      cases h
      rfl
  | removed tx =>
      cases h
      rfl
  | request env r =>
      obtain ⟨u, hu, heq⟩ := Option.map_eq_some_iff.mp h
      cases heq
      cases r with
      | transferDatasets owner sources targets limits mapping =>
          obtain rfl := next_eq_some hu
          exact transferDatasets_withoutTransfers env s owner sources targets limits
      | _ => cases he

theorem withoutTransfers_of_visible {t t' : Server H} {e : Activity H} {g g' : Option Given}
    (hst : s.withoutTransfers = t.withoutTransfers) (hs : s.stepGiven e = some (s', g))
    (ht : t.stepGiven e = some (t', g')) : s'.withoutTransfers = t'.withoutTransfers := by
  cases e with
  | measured p bw =>
      cases hs
      cases ht
      exact hst
  | removed tx =>
      cases hs
      cases ht
      exact hst
  | request env r =>
      obtain ⟨u, hu, heq⟩ := Option.map_eq_some_iff.mp hs
      cases heq
      obtain ⟨v, hv, heq⟩ := Option.map_eq_some_iff.mp ht
      cases heq
      exact withoutTransfers_of_step hst hu hv

section Runs

variable {redis : Bool} {es es' : List (Activity H)} {log log' : List (Activity H × Option Given)}

/-- Runs with the same visible activity end with the same server, apart from its
    transfers. -/
theorem withoutTransfers_of_runs
    (hs : run (logged stepGiven) (init redis, []) es = some (s, log))
    (hs' : run (logged stepGiven) (init redis, []) es' = some (s', log'))
    (hsame : es.filter (Activity.visible jobId) = es'.filter (Activity.visible jobId)) :
    s.withoutTransfers = s'.withoutTransfers := by
  refine view_eq_of_filter_eq
    (fun t : Server H × List (Activity H × Option Given) => t.1.withoutTransfers)
    ?_ ?_ hsame rfl hs hs'
  · rintro ⟨t, l⟩ e t' he ht
    obtain ⟨u, g, hu, rfl⟩ := logged_eq_some.mp ht
    exact withoutTransfers_of_hidden he hu
  · rintro ⟨t, l⟩ ⟨u, k⟩ e t' u' htu ht hu
    obtain ⟨v, g, hv, rfl⟩ := logged_eq_some.mp ht
    obtain ⟨w, g', hw, rfl⟩ := logged_eq_some.mp hu
    exact withoutTransfers_of_visible htu hv hw

/-- The id was given to nobody in either run, or it leads to the same Cargo
    transfer, or to none, in both. -/
def AgreeAt (s s' : Server H) (log log' : List (Activity H × Option Given)) (tx : TransferId) :
    Prop :=
  (∀ owner, ¬ GivenTo log owner tx ∧ ¬ GivenTo log' owner tx) ∨
    s.cargoTransfer tx = s'.cargoTransfer tx

/-- **What a job learns of the transfers of other jobs.**  A success tells it that
    the id is in use, by whomever; and two runs that differ in the transfers of
    other jobs only tell it the same of every id that they agree on. -/
theorem transferAnswer_of_runs
    (hs : run (logged stepGiven) (init redis, []) es = some (s, log))
    (hs' : run (logged stepGiven) (init redis, []) es' = some (s', log'))
    (hsame : es.filter (Activity.visible jobId) = es'.filter (Activity.visible jobId))
    (env : Env H) (tx : TransferId) :
    (∀ value, s.transferAnswer env jobId tx = .ok (.success, value) →
      (∃ p j ap, s.jobManager.Live jobId p j ∧ j.adhocMetadataPtr = some ap) ∧ InUse log tx) ∧
    (AgreeAt s s' log log' tx →
      s.transferAnswer env jobId tx = s'.transferAnswer env jobId tx) := by
  refine ⟨?_, ?_⟩
  · intro value hsuccess
    obtain ⟨hjob, p, hp⟩ := transferAnswer_success hsuccess
    exact ⟨hjob, inUse_of_reachable ⟨es, hs⟩ hp⟩
  · intro hagrees
    have hcargo : s.cargoTransfer tx = s'.cargoTransfer tx := by
      rcases hagrees with hnot | hcargo
      · rw [cargoTransfer_of_not_given ⟨es, hs⟩ fun owner => (hnot owner).1,
          cargoTransfer_of_not_given ⟨es', hs'⟩ fun owner => (hnot owner).2]
      · exact hcargo
    have hstager : s.dataStagerOf jobId = s'.dataStagerOf jobId := by
      rw [← dataStagerOf_withoutTransfers s, withoutTransfers_of_runs hs hs' hsame,
        dataStagerOf_withoutTransfers]
    rw [transferAnswer_eq, transferAnswer_eq, hstager, hcargo]

end Runs

/-- Cargo takes every transfer, and is at work on it. -/
def busyEnv : Env Unit :=
  { (Env.isolated : Env Unit) with
    transferDatasets := fun _ _ _ => some ()
    status := fun _ => some ⟨.running, 0⟩ }

/-- Two jobs on one adhoc storage, and job 0 starts a transfer. -/
def strangersRun : List (Activity Unit) :=
  [.request busyEnv (sampleAdhoc []), .request busyEnv (sampleJob (some 0) 7),
    .request busyEnv (sampleJob (some 0) 8),
    .request busyEnv (.transferDatasets 0 [] [] [] .oneToOne)]

/-- The same without the transfer of job 0. -/
def aloneRun : List (Activity Unit) := strangersRun.take 3

/-- The id 0, for which job 1 is told a state, is in use; nobody was given the id 5,
    with the transfer of job 0 or without. -/
theorem transferAnswer_of_runs_strangers :
    ∃ (s s' : Server Unit) (log log' : List (Activity Unit × Option Given)),
      run (logged stepGiven) (init false, []) strangersRun = some (s, log) ∧
        run (logged stepGiven) (init false, []) aloneRun = some (s', log') ∧
        InUse log 0 ∧ s.transferAnswer busyEnv 1 5 = s'.transferAnswer busyEnv 1 5 := by
  obtain ⟨⟨s, log⟩, hs⟩ : ∃ t : Server Unit × List (Activity Unit × Option Given),
      run (logged stepGiven) (init false, []) strangersRun = some t := ⟨_, rfl⟩
  obtain ⟨⟨s', log'⟩, hs'⟩ : ∃ t : Server Unit × List (Activity Unit × Option Given),
      run (logged stepGiven) (init false, []) aloneRun = some t := ⟨_, rfl⟩
  have hsame : strangersRun.filter (Activity.visible 1) = aloneRun.filter (Activity.visible 1) :=
    rfl
  have hsuccess : s.transferAnswer busyEnv 1 0 = .ok (.success, some .running) := by
    cases hs
    rfl
  have hagrees : AgreeAt s s' log log' 5 := by
    cases hs
    cases hs'
    exact .inr rfl
  obtain ⟨-, hused⟩ := (transferAnswer_of_runs hs hs' hsame busyEnv 0).1 _ hsuccess
  exact ⟨s, s', log, log', hs, hs', hused,
    (transferAnswer_of_runs hs hs' hsame busyEnv 5).2 hagrees⟩

/-- Job 1 started nothing.  It is told that the transfer of job 0 is running, and
    had job 0 not started it, that there is none. -/
theorem not_private_strangers :
    ∃ (s s' : Server Unit) (log log' : List (Activity Unit × Option Given)),
      run (logged stepGiven) (init false, []) strangersRun = some (s, log) ∧
        run (logged stepGiven) (init false, []) aloneRun = some (s', log') ∧
        aloneRun = strangersRun.filter (Activity.visible 1) ∧
        (∀ tx, ¬ GivenTo log 1 tx ∧ ¬ GivenTo log' 1 tx) ∧
        s.transferAnswer busyEnv 1 0 = .ok (.success, some .running) ∧
        s'.transferAnswer busyEnv 1 0 = .ok (.noSuchEntity, none) := by
  obtain ⟨⟨s, log⟩, hs⟩ : ∃ t : Server Unit × List (Activity Unit × Option Given),
      run (logged stepGiven) (init false, []) strangersRun = some t := ⟨_, rfl⟩
  obtain ⟨⟨s', log'⟩, hs'⟩ : ∃ t : Server Unit × List (Activity Unit × Option Given),
      run (logged stepGiven) (init false, []) aloneRun = some t := ⟨_, rfl⟩
  refine ⟨s, s', log, log', hs, hs', rfl, ?_, ?_, ?_⟩
  · intro tx
    have hlog : log.map Prod.snd = [some ⟨0, 0⟩, none, none, none] := by
      cases hs
      rfl
    have hlog' : log'.map Prod.snd = [none, none, none] := by
      cases hs'
      rfl
    simp [GivenTo, hlog, hlog']
  · cases hs
    rfl
  · cases hs'
    rfl

end Server

end Scord
