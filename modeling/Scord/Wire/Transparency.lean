/-
  Scord.Wire.Transparency

  The network makes no difference: a run of the server whose requests come by way of
  the network, with anything in the memory that their objects are read into, gives the
  same responses as one in which the handlers are called directly
  (`rpc_transparent`).

  A QoS limit for a job is read with a slurm id that no one has initialized, and the
  server keeps it in the transfer.  No response depends on it: every handler commutes
  with forgetting it (`respond_forget`).
-/
import Scord.Wire.Rpc

namespace Scord

open ObjectStore StepSystem Wire

variable {H : Type}

/-! ## Servers but for slurm ids in limits -/

/-- The transfer without the slurm ids of the jobs in its limits. -/
def TransferMetadata.forget (t : TransferMetadata H) : TransferMetadata H :=
  { t with qos := (Ty.vector .qosLimit).forget t.qos }

namespace Server

/-- The server with other transfers. -/
def withTransfers (s : Server H) (tm : TransferManager H) : Server H :=
  { s with transferManager := tm }

/-- The server without the slurm ids of the jobs in the limits of its transfers. -/
def forget (s : Server H) : Server H :=
  s.withTransfers (s.transferManager.map TransferMetadata.forget)

end Server

def Handled.withTransfers {ρ : Type} (h : Handled H ρ) (tm : TransferManager H) : Handled H ρ :=
  { h with server := h.server.withTransfers tm }

def Handled.forget {ρ : Type} (h : Handled H ρ) : Handled H ρ :=
  { h with server := h.server.forget }

namespace Server

/-! ## Handlers that do not look at transfers -/

section Frame

variable (s : Server H) (env : Env H) (tm : TransferManager H)

@[simp] theorem createRpc_withTransfers :
    (s.withTransfers tm).createRpc = (s.createRpc.1.withTransfers tm, s.createRpc.2) := rfl
@[simp] theorem adhocManager_withTransfers :
    (s.withTransfers tm).adhocManager = s.adhocManager := rfl
@[simp] theorem redis_withTransfers : (s.withTransfers tm).redis = s.redis := rfl
@[simp] theorem jobAt_withTransfers (p : Option JobPtr) :
    (s.withTransfers tm).jobAt p = s.jobAt p := rfl
@[simp] theorem adhocAt_withTransfers (p : Option AdhocPtr) :
    (s.withTransfers tm).adhocAt p = s.adhocAt p := rfl
@[simp] theorem requiredAdhoc_withTransfers (req : JobRequirements) :
    (s.withTransfers tm).requiredAdhoc req = s.requiredAdhoc req := rfl
@[simp] theorem registerJobWrite_withTransfers (jobId : JobId) (req : JobRequirements)
    (slurmId : SlurmJobId) : registerJobWrite env (s.withTransfers tm) jobId req slurmId
      = registerJobWrite env s jobId req slurmId := rfl
@[simp] theorem clientJobId_withTransfers (adhocId : AdhocId) :
    (s.withTransfers tm).clientJobId adhocId = s.clientJobId adhocId := rfl

theorem query_withTransfers (jobId : SlurmJobId) :
    (s.withTransfers tm).query jobId = (s.query jobId).withTransfers tm := by
  simp only [query, withTransfers, createRpc, jobAt, Option.bind_some]
  cases s.jobManager.findBySlurmId jobId with
  | error ec => rfl
  | ok p =>
      simp only
      cases s.jobManager.jobs.get? p with
      | none => rfl
      | some j =>
          simp only [jobInfo, adhocAt]
          cases j.resources with
          | none => rfl
          | some res =>
              simp only
              cases j.adhocMetadataPtr.bind s.adhocManager.get? <;> rfl

theorem createJob_withTransfers (res : JobResources) (req : JobRequirements)
    (slurmId : SlurmJobId) (ptr : Option AdhocPtr) :
    (s.withTransfers tm).createJob res req slurmId ptr
      = ((s.createJob res req slurmId ptr).1.withTransfers tm,
          (s.createJob res req slurmId ptr).2) := by
  simp only [createJob, withTransfers]
  rcases s.jobManager.create slurmId res req ptr with ⟨jm, ec | p⟩
  · rfl
  · cases ptr <;> rfl

theorem registerJob_withTransfers (res : JobResources) (req : JobRequirements)
    (slurmId : SlurmJobId) :
    (s.withTransfers tm).registerJob env res req slurmId
      = (s.registerJob env res req slurmId).withTransfers tm := by
  simp only [registerJob, createRpc_withTransfers, requiredAdhoc_withTransfers]
  cases s.createRpc.1.requiredAdhoc req with
  | error ec => rfl
  | ok ptr =>
      simp only [createJob_withTransfers]
      rcases s.createRpc.1.createJob res req slurmId ptr with ⟨t, ec | p⟩
      · rfl
      · simp only [jobAt_withTransfers]
        cases t.jobAt (some p) with
        | none => rfl
        | some j =>
            simp only
            rw [redis_withTransfers, registerJobWrite_withTransfers]
            cases t.redis with
            | false => rfl
            | true => cases registerJobWrite env t j.job.id req slurmId <;> rfl

theorem removeJob_withTransfers (jobId : JobId) :
    (s.withTransfers tm).removeJob jobId = (s.removeJob jobId).withTransfers tm := by
  simp only [removeJob, withTransfers, createRpc]
  rcases s.jobManager.remove jobId with ⟨jm, ec | p⟩
  · rfl
  · simp only [jobAt, Option.bind_some]
    cases (jm.jobs.get? p).bind JobMetadata.requirements with
    | none => rfl
    | some requirements =>
        simp only
        cases requirements.adhocStorage <;> rfl

theorem registerAdhocStorage_withTransfers (name : String) (type : AdhocStorageType)
    (ctx : AdhocCtx) (res : AdhocResources) :
    (s.withTransfers tm).registerAdhocStorage env name type ctx res
      = (s.registerAdhocStorage env name type ctx res).withTransfers tm := by
  simp only [registerAdhocStorage, withTransfers, createRpc]
  rcases AdhocStorageManager.create s.adhocManager env.randomString type name ctx res with
    ⟨am, ec | p⟩
  · rfl
  · simp only [adhocAt, Option.bind_some]
    cases am.get? p <;> rfl

theorem updateAdhocStorage_withTransfers (adhocId : AdhocId) (res : AdhocResources) :
    (s.withTransfers tm).updateAdhocStorage env adhocId res
      = (s.updateAdhocStorage env adhocId res).withTransfers tm := by
  simp only [updateAdhocStorage, withTransfers, createRpc, adhocAt, Option.bind_some]
  cases s.adhocManager.find adhocId with
  | error ec => rfl
  | ok p =>
      simp only
      cases s.adhocManager.get? p with
      | none => rfl
      | some old =>
          simp only
          generalize (AdhocStorageManager.update s.adhocManager adhocId res).1 = am
          cases AdhocStorageManager.find am adhocId with
          | error ec => rfl
          | ok q =>
              simp only
              cases Registry.get? am q with
              | none => rfl
              | some adhoc =>
                  simp only
                  cases env.lookup adhoc.controllerAddress <;> rfl

/-- The last part of a deployment or a termination. -/
theorem finish_withTransfers {ρ : Type} (adhocId : AdhocId) (fields : List (String × String))
    (ec : ErrorCode) (resp : ρ) (calls : List ControllerCall) :
    finish env (s.withTransfers tm) adhocId fields ec resp calls
      = (finish env s adhocId fields ec resp calls).withTransfers tm := by
  unfold finish
  rw [redis_withTransfers, clientJobId_withTransfers]
  cases s.redis && decide (ec = .success) with
  | false => rfl
  | true => cases s.clientJobId adhocId <;> rfl

theorem deployAdhocStorage_withTransfers (adhocId : AdhocId) :
    (s.withTransfers tm).deployAdhocStorage env adhocId
      = (s.deployAdhocStorage env adhocId).withTransfers tm := by
  simp only [deployAdhocStorage, createRpc_withTransfers, adhocManager_withTransfers]
  cases s.createRpc.1.adhocManager.find adhocId with
  | error ec => exact finish_withTransfers ..
  | ok p =>
      simp only [adhocAt_withTransfers]
      cases s.createRpc.1.adhocAt (some p) with
      | none => rfl
      | some adhoc =>
          simp only
          rcases deployHelper env adhoc with ⟨fault | ec | adhocDir, calls⟩
          · rfl
          · exact finish_withTransfers ..
          · exact finish_withTransfers ..

theorem terminateAdhocStorage_withTransfers (adhocId : AdhocId) :
    (s.withTransfers tm).terminateAdhocStorage env adhocId
      = (s.terminateAdhocStorage env adhocId).withTransfers tm := by
  simp only [terminateAdhocStorage, createRpc_withTransfers, adhocManager_withTransfers]
  cases s.createRpc.1.adhocManager.find adhocId with
  | error ec => rfl
  | ok p =>
      simp only [adhocAt_withTransfers]
      cases s.createRpc.1.adhocAt (some p) with
      | none => rfl
      | some adhoc => exact finish_withTransfers ..

theorem registerPfsStorage_withTransfers (name : String) (type : PfsStorageType) (ctx : PfsCtx) :
    (s.withTransfers tm).registerPfsStorage name type ctx
      = (s.registerPfsStorage name type ctx).withTransfers tm := by
  simp only [registerPfsStorage, withTransfers, createRpc]
  rcases PfsStorageManager.create s.pfsManager type name ctx with ⟨pm, ec | p⟩
  · rfl
  · simp only
    cases pm.get? p <;> rfl

end Frame

/-- A handler that does not look at transfers leaves them as they are, and commutes
    with forgetting. -/
theorem forget_of_frame {ρ : Type} (handler : Server H → Handled H ρ)
    (hframe : ∀ s tm, handler (s.withTransfers tm) = (handler s).withTransfers tm)
    (s : Server H) : handler s.forget = (handler s).forget := by
  have hkept : (handler s).server.transferManager = s.transferManager :=
    congrArg (fun h => h.server.transferManager) (hframe s s.transferManager)
  unfold forget Handled.forget forget
  rw [hframe, hkept]
  rfl

/-! ## Handlers that do -/

@[simp] theorem transferManager_forget (s : Server H) :
    s.forget.transferManager = s.transferManager.map TransferMetadata.forget := rfl
@[simp] theorem createRpc_forget (s : Server H) :
    s.forget.createRpc = (s.createRpc.1.forget, s.createRpc.2) := rfl
@[simp] theorem dataStagerOf_forget (s : Server H) (jobId : JobId) :
    s.forget.dataStagerOf jobId = s.dataStagerOf jobId := rfl

theorem create_forget (m : TransferManager H) (tx : H) (limits : List QosLimit) :
    TransferManager.create (m.map TransferMetadata.forget) tx ((Ty.vector .qosLimit).forget limits)
      = ((TransferManager.create m tx limits).1.map TransferMetadata.forget,
          (TransferManager.create m tx limits).2) := by
  unfold TransferManager.create
  simp only [Registry.fetchId_snd, Registry.fetchId_map, Registry.currentId_map]
  -- the new transfer, forgotten
  rw [show ({ id := m.currentId, handle := tx, qos := (Ty.vector .qosLimit).forget limits } :
      TransferMetadata H) = TransferMetadata.forget ⟨m.currentId, tx, limits, -1⟩ from rfl]
  generalize m.fetchId.1 = r
  cases hfind : r.find? m.currentId with
  | some p => rw [createAt_of_taken hfind, createAt_of_taken (r := r.map _) hfind]
  | none =>
      rw [createAt_of_free hfind, createAt_of_free (r := r.map _) hfind, Registry.emplace_map,
        Registry.next_map]

theorem transferDatasets_forget (s : Server H) (env : Env H) (jobId : JobId)
    (sources targets : List Dataset) (limits : List QosLimit) :
    s.forget.transferDatasets env jobId sources targets ((Ty.vector .qosLimit).forget limits)
      = (s.transferDatasets env jobId sources targets limits).forget := by
  simp only [transferDatasets, createRpc_forget, dataStagerOf_forget]
  generalize s.createRpc.1 = s'
  rcases s'.dataStagerOf jobId with fault | ec | dataStager
  · rfl
  · rfl
  · simp only
    cases env.transferDatasets dataStager _ _ with
    | none => rfl
    | some cargoTx =>
        simp only [transferManager_forget, create_forget]
        rcases TransferManager.create s'.transferManager cargoTx limits with ⟨tm, ec | p⟩
        · rfl
        · simp only [Registry.get?_map]
          cases tm.get? p <;> rfl

theorem transferStateOf_forget (s : Server H) (env : Env H) (p : TransferPtr H) :
    s.forget.transferStateOf env p = s.transferStateOf env p := by
  unfold transferStateOf
  rw [transferManager_forget, Registry.get?_map]
  cases s.transferManager.get? p <;> rfl

theorem queryTransfer_forget (s : Server H) (env : Env H) (jobId : JobId) (txId : TransferId) :
    s.forget.queryTransfer env jobId txId = (s.queryTransfer env jobId txId).forget := by
  simp only [queryTransfer, createRpc_forget, dataStagerOf_forget]
  generalize s.createRpc.1 = s'
  rcases s'.dataStagerOf jobId with fault | ec | dataStager
  · rfl
  · rfl
  · simp only
    rw [show TransferManager.find s'.forget.transferManager txId
      = TransferManager.find s'.transferManager txId from rfl]
    cases TransferManager.find s'.transferManager txId with
    | error ec => rfl
    | ok p =>
        simp only [transferStateOf_forget]
        rfl

/-! ## Requests and runs -/

theorem response_forget (t : Ty) {h h' : Handled H t.Value} (heq : h' = h.forget) :
    h'.response t = (h.response t).forget := by
  rw [heq]
  rfl

/-- **Every handler commutes with forgetting** the slurm ids of the jobs in limits:
    those of the transfers that it finds, and those of its own request. -/
theorem respond_forget (s : Server H) (env : Env H) (r : Request) :
    s.forget.respond env (forgetRequest r) = (s.respond env r).forget := by
  cases r with
  | ping => rfl
  | query jobId =>
      exact response_forget (.responseWithValue .jobInfo) <|
        forget_of_frame (fun s => s.query jobId) (fun s tm => query_withTransfers s tm jobId) s
  | registerJob res req slurmId =>
      exact response_forget (.responseWithValue .u64) <|
        forget_of_frame (fun s => s.registerJob env res req slurmId)
          (fun s tm => registerJob_withTransfers s env tm res req slurmId) s
  | updateJob jobId res => rfl
  | removeJob jobId =>
      exact response_forget .genericResponse <|
        forget_of_frame (fun s => s.removeJob jobId)
          (fun s tm => removeJob_withTransfers s tm jobId) s
  | registerAdhocStorage name type ctx res =>
      exact response_forget (.responseWithValue .u64) <|
        forget_of_frame (fun s => s.registerAdhocStorage env name type ctx res)
          (fun s tm => registerAdhocStorage_withTransfers s env tm name type ctx res) s
  | updateAdhocStorage adhocId res =>
      exact response_forget .genericResponse <|
        forget_of_frame (fun s => s.updateAdhocStorage env adhocId res)
          (fun s tm => updateAdhocStorage_withTransfers s env tm adhocId res) s
  | removeAdhocStorage adhocId => rfl
  | deployAdhocStorage adhocId =>
      exact response_forget (.responseWithValue .text) <|
        forget_of_frame (fun s => s.deployAdhocStorage env adhocId)
          (fun s tm => deployAdhocStorage_withTransfers s env tm adhocId) s
  | terminateAdhocStorage adhocId =>
      exact response_forget .genericResponse <|
        forget_of_frame (fun s => s.terminateAdhocStorage env adhocId)
          (fun s tm => terminateAdhocStorage_withTransfers s env tm adhocId) s
  | registerPfsStorage name type ctx =>
      exact response_forget (.responseWithValue .u64) <|
        forget_of_frame (fun s => s.registerPfsStorage name type ctx)
          (fun s tm => registerPfsStorage_withTransfers s tm name type ctx) s
  | updatePfsStorage pfsId ctx => rfl
  | removePfsStorage pfsId => rfl
  | transferDatasets jobId sources targets limits mapping =>
      exact response_forget (.responseWithValue .u64)
        (transferDatasets_forget s env jobId sources targets limits)
  | queryTransfer jobId txId =>
      exact response_forget (.responseWithValue .transferState)
        (queryTransfer_forget s env jobId txId)

/-- Forgetting before, or after. -/
theorem next_forget {ρ : Type} (h : Handled H ρ) : h.forget.next = h.next.map forget := by
  unfold Handled.next Handled.forget
  cases h.outcome with
  | ok v => rfl
  | error fault => cases fault <;> rfl

end Server

/-- A call of a handler, with its environment. -/
abbrev Call (H : Type) := Env H × Request

/-- A request by way of the network, with what there is in the memory of the client
    and of the server. -/
structure RemoteCall (H : Type) where
  client : Nat → SlurmJobId
  server : Nat → SlurmJobId
  call : Call H

namespace Server

/-- The handler is called directly: the server afterwards, and the response, if any. -/
def callStep (s : Server H) (c : Call H) : Option (Server H × Option Response) :=
  let handled := s.respond c.1 c.2
  handled.next.map fun s' => (s', handled.outcome.toOption)

/-- The request goes by way of the network. -/
def remoteStep (s : Server H) (c : RemoteCall H) : Option (Server H × Option Response) :=
  let (s', resp) := s.remote c.client c.server c.call.1 c.call.2
  s'.map fun s' => (s', resp)

/-- The call without the slurm ids of jobs in its limits. -/
def forgetCall (c : Call H) : Call H := (c.1, forgetRequest c.2)

theorem callStep_forget (s : Server H) (c : Call H) :
    (s.callStep c).map (Prod.map forget id) = s.forget.callStep (forgetCall c) := by
  simp only [callStep, forgetCall, respond_forget, next_forget]
  cases (s.respond c.1 c.2).next <;> rfl

theorem remoteStep_forget (s : Server H) (c : RemoteCall H) :
    (s.remoteStep c).map (Prod.map forget id) = s.forget.callStep (forgetCall c.call) := by
  obtain ⟨r, hr, heq⟩ := remote_eq c.client c.server s c.call.1 c.call.2
  have hcall : s.remoteStep c = s.callStep (c.call.1, r) := by
    unfold remoteStep
    rw [heq]
    rfl
  rw [hcall, callStep_forget]
  exact congrArg s.forget.callStep (Prod.ext rfl hr)

/-- Calls of the handlers do to the server what its steps do. -/
theorem run_callStep (s : Server H) (calls : List (Call H)) :
    (run (logged callStep) (s, []) calls).map Prod.fst = run step s calls := by
  have hstep : ∀ t (c : Call H), (logged callStep t c).map Prod.fst = step t.1 c := by
    rintro ⟨t, log⟩ ⟨env, r⟩
    rw [step_respond]
    show ((((t.respond env r).next).map _).map _).map _ = _
    cases (t.respond env r).next <;> rfl
  have h := run_map (I := fun _ => True) Prod.fst id (fun _ _ _ _ _ => trivial)
    (fun t c _ => hstep t c) (s := (s, [])) trivial calls
  rwa [List.map_id] at h

/-- **The network makes no difference.**  Whatever requests come by way of the network,
    in whatever order, and whatever is in the memory that they are read into: the
    server answers as if its handlers had been called directly, and is the one that
    its steps lead to, but for the slurm ids of jobs in the limits of its transfers. -/
theorem rpc_transparent (redis : Bool) (remote : List (RemoteCall H)) :
    (run (logged remoteStep) (init redis, []) remote).map (fun t => t.2.map Prod.snd)
        = (run (logged callStep) (init redis, []) (remote.map RemoteCall.call)).map
          (fun t => t.2.map Prod.snd) ∧
      (run (logged remoteStep) (init redis, []) remote).map (fun t => t.1.forget)
        = (run step (init redis) (remote.map RemoteCall.call)).map forget := by
  -- both runs, seen without those slurm ids, are one and the same run
  have hremote := run_logged_map forget (fun c : RemoteCall H => forgetCall c.call)
    remoteStep_forget (init redis) remote
  have hcall := run_logged_map forget forgetCall callStep_forget (init redis)
    (remote.map RemoteCall.call)
  rw [List.map_map] at hcall
  have hsame := hremote.trans hcall.symm
  refine ⟨?_, ?_⟩
  · have h := congrArg (Option.map fun t => t.2.map Prod.snd) hsame
    simpa only [Option.map_map, Function.comp_def, List.map_map, Prod.map_snd, id_eq] using h
  · have h := congrArg (Option.map Prod.fst) hsame
    rw [← run_callStep, Option.map_map]
    simpa only [Option.map_map, Function.comp_def] using h

end Server

end Scord
