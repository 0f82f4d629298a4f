/-
  Scord.Server.Effects

  What one request does to the managers.  `step_effect` lists every way in
  which a request changes the job, adhoc storage and transfer managers, with
  the guards under which it does; invariants of the server are proved from this
  list, one case for each entry, without opening the handlers again.
-/
import Scord.Server.RpcServer

namespace Scord

open ObjectStore

namespace Server

variable {H : Type}

/-! ## The list of effects -/

/-- The adhoc storages after a job was created for `ap`, if any. -/
def bindClient (am : AdhocStorageManager) (ap : Option AdhocPtr) (p : JobPtr) :
    AdhocStorageManager :=
  match ap with
  | none => am
  | some ap => am.modify ap fun a => (a.addClientInfo p).1

/-- The adhoc storages after a job with this storage requirement was removed. -/
def releaseClient (am : AdhocStorageManager) (required : Option AdhocStorage) :
    AdhocStorageManager :=
  match required with
  | none => am
  | some required => (AdhocStorageManager.removeClientInfo am required.id).1

/-- The ways in which the request `r` leads from `s` to `s'`. -/
inductive Effect (env : Env H) (r : Request) (s s' : Server H) : Prop
  | unchanged
      (jm : s'.jobManager = s.jobManager) (am : s'.adhocManager = s.adhocManager)
      (tm : s'.transferManager = s.transferManager)
  | jobIdSpent
      (jm : s'.jobManager = s.jobManager.fetchId.1) (am : s'.adhocManager = s.adhocManager)
      (tm : s'.transferManager = s.transferManager)
  | jobCreated (slurmId : SlurmJobId) (res : JobResources) (req : JobRequirements)
      (ptr : Option AdhocPtr) (request : r = .registerJob res req slurmId)
      (free : s.jobManager.jobs.find? s.jobManager.jobs.currentId = none)
      (required : s.requiredAdhoc req = .ok ptr)
      (jm : s'.jobManager = (s.jobManager.create slurmId res req ptr).1)
      (am : s'.adhocManager = bindClient s.adhocManager ptr s.jobManager.jobs.next)
      (tm : s'.transferManager = s.transferManager)
  | jobUpdated (id : JobId) (p : JobPtr) (res : JobResources)
      (request : r = .updateJob id res) (found : s.jobManager.jobs.find? id = some p)
      (jm : s'.jobManager
        = { s.jobManager with jobs := s.jobManager.jobs.modify p fun j => j.update res })
      (am : s'.adhocManager = s.adhocManager)
      (tm : s'.transferManager = s.transferManager)
  | jobRemoved (id : JobId) (p : JobPtr) (j : JobMetadata)
      (request : r = .removeJob id) (live : s.jobManager.Live id p j)
      (jm : s'.jobManager = (s.jobManager.remove id).1)
      (am : s'.adhocManager
        = releaseClient s.adhocManager (j.requirements.bind (·.adhocStorage)))
      (tm : s'.transferManager = s.transferManager)
  | adhocIdSpent
      (jm : s'.jobManager = s.jobManager) (am : s'.adhocManager = s.adhocManager.fetchId.1)
      (tm : s'.transferManager = s.transferManager)
  | adhocCreated (name : String) (type : AdhocStorageType) (ctx : AdhocCtx)
      (res : AdhocResources) (request : r = .registerAdhocStorage name type ctx res)
      (free : s.adhocManager.find? s.adhocManager.currentId = none)
      (jm : s'.jobManager = s.jobManager)
      (am : s'.adhocManager = (s.adhocManager.fetchId.1.emplace s.adhocManager.currentId
        (AdhocStorageMetadata.make (generateAdhocUuid type env.randomString)
          ⟨type, name, s.adhocManager.currentId, ctx, res⟩)).1)
      (tm : s'.transferManager = s.transferManager)
  | adhocUpdated (id : AdhocId) (p : AdhocPtr) (res : AdhocResources)
      (request : r = .updateAdhocStorage id res) (found : s.adhocManager.find? id = some p)
      (jm : s'.jobManager = s.jobManager)
      (am : s'.adhocManager = s.adhocManager.modify p fun a => a.update res)
      (tm : s'.transferManager = s.transferManager)
  | adhocRemoved (id : AdhocId) (request : r = .removeAdhocStorage id)
      (jm : s'.jobManager = s.jobManager) (am : s'.adhocManager = s.adhocManager.erase id)
      (tm : s'.transferManager = s.transferManager)
  | transferIdSpent
      (jm : s'.jobManager = s.jobManager) (am : s'.adhocManager = s.adhocManager)
      (tm : s'.transferManager = s.transferManager.fetchId.1)
  | transferCreated (jobId : JobId) (sources targets : List Dataset)
      (limits : List QosLimit) (mapping : TransferMapping) (dataStager : String) (tx : H)
      (request : r = .transferDatasets jobId sources targets limits mapping)
      (stager : s.dataStagerOf jobId = .ok (.ok dataStager))
      (started : env.transferDatasets dataStager (sources.map fun src => datasetProcess src.id)
        (targets.map fun tgt => datasetProcess tgt.id) = some tx)
      (free : s.transferManager.find? s.transferManager.currentId = none)
      (jm : s'.jobManager = s.jobManager) (am : s'.adhocManager = s.adhocManager)
      (tm : s'.transferManager
        = (s.transferManager.fetchId.1.emplace s.transferManager.currentId
            { id := s.transferManager.currentId, handle := tx, qos := limits }).1)

/-! ## The handlers, one by one -/

theorem next_eq_some {ρ : Type} {h : Handled H ρ} {s' : Server H} (hs : h.next = some s') :
    h.server = s' := by
  unfold Handled.next at hs
  split at hs
  case h_1 => exact Option.some.inj hs
  case h_2 => exact Option.some.inj hs
  case h_3 => cases hs
  case h_4 => cases hs

variable (env : Env H) (s : Server H)

@[simp] theorem createRpc_jobManager : s.createRpc.1.jobManager = s.jobManager := rfl
@[simp] theorem createRpc_adhocManager : s.createRpc.1.adhocManager = s.adhocManager := rfl
@[simp] theorem createRpc_transferManager :
    s.createRpc.1.transferManager = s.transferManager := rfl
@[simp] theorem createRpc_jobAt (p : Option JobPtr) : s.createRpc.1.jobAt p = s.jobAt p := rfl
@[simp] theorem createRpc_adhocAt (p : Option AdhocPtr) :
    s.createRpc.1.adhocAt p = s.adhocAt p := rfl
@[simp] theorem createRpc_requiredAdhoc (req : JobRequirements) :
    s.createRpc.1.requiredAdhoc req = s.requiredAdhoc req := rfl

theorem Effect.createRpc {env : Env H} {r : Request} {s s' : Server H}
    (h : Effect env r s.createRpc.1 s') : Effect env r s s' := by
  cases h with
  | unchanged jm am tm => exact .unchanged jm am tm
  | jobIdSpent jm am tm => exact .jobIdSpent jm am tm
  | jobCreated slurmId res req ptr request free required jm am tm =>
      exact .jobCreated slurmId res req ptr request free required jm am tm
  | jobUpdated id p res request found jm am tm =>
      exact .jobUpdated id p res request found jm am tm
  | jobRemoved id p j request live jm am tm =>
      exact .jobRemoved id p j request live jm am tm
  | adhocIdSpent jm am tm => exact .adhocIdSpent jm am tm
  | adhocCreated name type ctx res request free jm am tm =>
      exact .adhocCreated name type ctx res request free jm am tm
  | adhocUpdated id p res request found jm am tm =>
      exact .adhocUpdated id p res request found jm am tm
  | adhocRemoved id request jm am tm => exact .adhocRemoved id request jm am tm
  | transferIdSpent jm am tm => exact .transferIdSpent jm am tm
  | transferCreated jobId sources targets limits mapping dataStager tx request stager started
      free jm am tm =>
      exact .transferCreated jobId sources targets limits mapping dataStager tx request stager
        started free jm am tm

/-- `query` reads only. -/
theorem query_server (jobId : SlurmJobId) : (s.query jobId).server = s.createRpc.1 := by
  unfold query
  simp only
  split
  · rfl
  · split
    · rfl
    · split <;> rfl

/-- What `register_job` does to the managers depends on the adhoc lookup and
    the creation only, not on Redis. -/
theorem registerJob_server (res : JobResources) (req : JobRequirements)
    (slurmId : SlurmJobId) :
    (s.registerJob env res req slurmId).server
      = match s.requiredAdhoc req with
        | .error _ => s.createRpc.1
        | .ok ptr => (s.createRpc.1.createJob res req slurmId ptr).1 := by
  unfold registerJob
  simp only [createRpc_requiredAdhoc]
  cases s.requiredAdhoc req with
  | error ec => rfl
  | ok ptr =>
      simp only
      -- what follows the creation only looks at its result
      generalize s.createRpc.1.createJob res req slurmId ptr = created
      obtain ⟨s₁, rv⟩ := created
      cases rv with
      | error ec => rfl
      | ok p =>
          simp only
          split
          · rfl
          · split
            · split <;> rfl
            · rfl

theorem createJob_effect (res : JobResources) (req : JobRequirements)
    (slurmId : SlurmJobId) {ptr : Option AdhocPtr} (hreq : s.requiredAdhoc req = .ok ptr) :
    Effect env (.registerJob res req slurmId) s (s.createJob res req slurmId ptr).1 := by
  unfold createJob
  cases hfree : s.jobManager.jobs.find? s.jobManager.jobs.currentId with
  | some p =>
      rw [JobManager.create_of_taken hfree]
      exact .jobIdSpent rfl rfl rfl
  | none =>
      have hcreate := JobManager.create_of_free hfree slurmId res req ptr
      have hjm := congrArg Prod.fst hcreate
      rw [hcreate]
      cases ptr with
      | none => exact .jobCreated slurmId res req none rfl hfree hreq hjm.symm rfl rfl
      | some ap => exact .jobCreated slurmId res req (some ap) rfl hfree hreq hjm.symm rfl rfl

theorem registerJob_effect (res : JobResources) (req : JobRequirements)
    (slurmId : SlurmJobId) :
    Effect env (.registerJob res req slurmId) s (s.registerJob env res req slurmId).server := by
  rw [registerJob_server]
  cases hreq : s.requiredAdhoc req with
  | error ec => exact .unchanged rfl rfl rfl
  | ok ptr => exact (createJob_effect env s.createRpc.1 res req slurmId hreq).createRpc

theorem updateJob_effect (jobId : JobId) (res : JobResources) :
    Effect env (.updateJob jobId res) s (s.updateJob jobId res).server := by
  unfold updateJob
  cases hfind : s.jobManager.jobs.find? jobId with
  | none =>
      simp only [createRpc_jobManager, JobManager.update_of_none hfind]
      exact .unchanged rfl rfl rfl
  | some p =>
      simp only [createRpc_jobManager, JobManager.update_of_find? hfind]
      exact .jobUpdated jobId p res rfl hfind rfl rfl rfl

theorem removeJob_of_none {jobId : JobId} (hfind : s.jobManager.jobs.find? jobId = none) :
    s.removeJob jobId
      = { server := s.createRpc.1, outcome := .ok ⟨s.rpcCount, .noSuchEntity⟩ } := by
  unfold removeJob
  simp only [createRpc_jobManager, JobManager.remove_of_none hfind]
  rfl

/-- `remove_job` of a live job: the job is gone, and the client slot of the
    storage that its requirements name is empty. -/
theorem removeJob_server_of_live {jobId : JobId} {p : JobPtr} {j : JobMetadata}
    (hlive : s.jobManager.Live jobId p j) :
    (s.removeJob jobId).server
      = { s.createRpc.1 with
          jobManager := (s.jobManager.remove jobId).1
          adhocManager :=
            releaseClient s.adhocManager (j.requirements.bind (·.adhocStorage)) } := by
  have hremove := JobManager.remove_of_live hlive
  have hj : (s.jobManager.jobs.erase jobId).get? p = some j := hlive.2
  unfold removeJob
  simp only [createRpc_jobManager, hremove, jobAt, Option.bind_some, hj]
  cases j.requirements with
  | none => rfl
  | some req =>
      simp only [Option.bind_some]
      cases req.adhocStorage with
      | none => rfl
      | some required => rfl

theorem removeJob_effect (jobId : JobId) :
    Effect env (.removeJob jobId) s (s.removeJob jobId).server := by
  cases hfind : s.jobManager.jobs.find? jobId with
  | none =>
      rw [removeJob_of_none s hfind]
      exact .unchanged rfl rfl rfl
  | some p =>
      obtain ⟨j, hlive⟩ := JobManager.live_of_find? hfind
      rw [removeJob_server_of_live s hlive]
      exact .jobRemoved jobId p j rfl hlive rfl rfl rfl

theorem registerAdhocStorage_effect (name : String) (type : AdhocStorageType)
    (ctx : AdhocCtx) (res : AdhocResources) :
    Effect env (.registerAdhocStorage name type ctx res) s
      (s.registerAdhocStorage env name type ctx res).server := by
  unfold registerAdhocStorage AdhocStorageManager.create
  simp only [createRpc_adhocManager, Registry.fetchId_snd]
  cases hfree : s.adhocManager.find? s.adhocManager.currentId with
  | some p =>
      rw [createAt_of_taken (r := s.adhocManager.fetchId.1) hfree]
      exact .adhocIdSpent rfl rfl rfl
  | none =>
      rw [createAt_of_free (r := s.adhocManager.fetchId.1) hfree]
      simp only
      split
      · exact .adhocCreated name type ctx res rfl hfree rfl rfl rfl
      · exact .adhocCreated name type ctx res rfl hfree rfl rfl rfl

/-- `update_adhoc_storage` replaces the resources of a registered storage,
    whatever the controller says later, and draws an rpc id or two. -/
theorem updateAdhocStorage_server {adhocId : AdhocId} {p : AdhocPtr}
    (hfind : s.adhocManager.find? adhocId = some p) (res : AdhocResources) :
    ∃ n, (s.updateAdhocStorage env adhocId res).server
      = { s with
          adhocManager := s.adhocManager.modify p fun a => a.update res
          rpcCount := n } := by
  have hget := Registry.get?_eq_deref hfind
  have hget' : (s.adhocManager.modify p fun a => a.update res).get? p
      = some ((s.adhocManager.deref hfind).update res) := by
    rw [Registry.get?_modify, if_pos rfl, hget, Option.map_some]
  have hfind' : AdhocStorageManager.find (s.adhocManager.modify p fun a => a.update res) adhocId
      = .ok p := AdhocStorageManager.find_of_find? hfind
  unfold updateAdhocStorage
  simp only [createRpc_adhocManager, AdhocStorageManager.find_of_find? hfind, adhocAt,
    Option.bind_some, hget, AdhocStorageManager.update_of_find? hfind, hfind', hget']
  split <;> exact ⟨_, rfl⟩

theorem updateAdhocStorage_adhocManager {adhocId : AdhocId} {p : AdhocPtr}
    (hfind : s.adhocManager.find? adhocId = some p) (res : AdhocResources) :
    (s.updateAdhocStorage env adhocId res).server.adhocManager
      = s.adhocManager.modify p fun a => a.update res := by
  obtain ⟨n, heq⟩ := updateAdhocStorage_server env s hfind res
  rw [heq]

theorem updateAdhocStorage_of_none {adhocId : AdhocId}
    (hfind : s.adhocManager.find? adhocId = none) (res : AdhocResources) :
    s.updateAdhocStorage env adhocId res
      = { server := s.createRpc.1
          outcome := .error (.throws (.badExpectedAccess .noSuchEntity)) } := by
  unfold updateAdhocStorage
  simp only [createRpc_adhocManager, AdhocStorageManager.find_of_none hfind]

theorem updateAdhocStorage_effect (adhocId : AdhocId) (res : AdhocResources) :
    Effect env (.updateAdhocStorage adhocId res) s
      (s.updateAdhocStorage env adhocId res).server := by
  cases hfind : s.adhocManager.find? adhocId with
  | none =>
      rw [updateAdhocStorage_of_none env s hfind]
      exact .unchanged rfl rfl rfl
  | some p =>
      obtain ⟨n, heq⟩ := updateAdhocStorage_server env s hfind res
      rw [heq]
      exact .adhocUpdated adhocId p res rfl hfind rfl rfl rfl

theorem removeAdhocStorage_effect (adhocId : AdhocId) :
    Effect env (.removeAdhocStorage adhocId) s (s.removeAdhocStorage adhocId).server := by
  unfold removeAdhocStorage AdhocStorageManager.remove
  cases hfind : s.adhocManager.find? adhocId with
  | none =>
      simp only [createRpc_adhocManager, removeAt_of_none hfind]
      exact .unchanged rfl rfl rfl
  | some p =>
      simp only [createRpc_adhocManager, removeAt_of_find? hfind]
      exact .adhocRemoved adhocId rfl rfl rfl rfl

@[simp] theorem finish_server {ρ : Type} (adhocId : AdhocId)
    (fields : List (String × String)) (ec : ErrorCode) (resp : ρ)
    (calls : List ControllerCall) :
    (finish env s adhocId fields ec resp calls).server = s := by
  unfold finish
  split
  · split <;> rfl
  · rfl

/-- `deploy_adhoc_storage` changes nothing that the server keeps. -/
theorem deployAdhocStorage_server (adhocId : AdhocId) :
    (s.deployAdhocStorage env adhocId).server = s.createRpc.1 := by
  unfold deployAdhocStorage
  simp only
  split
  · rw [finish_server]
  · split
    · rfl
    · split
      · rfl
      · rw [finish_server]
      · rw [finish_server]

/-- `terminate_adhoc_storage` changes nothing that the server keeps. -/
theorem terminateAdhocStorage_server (adhocId : AdhocId) :
    (s.terminateAdhocStorage env adhocId).server = s.createRpc.1 := by
  unfold terminateAdhocStorage
  simp only
  split
  · rfl
  · split
    · rfl
    · rw [finish_server]

theorem registerPfsStorage_effect (name : String) (type : PfsStorageType) (ctx : PfsCtx) :
    Effect env (.registerPfsStorage name type ctx) s
      (s.registerPfsStorage name type ctx).server := by
  unfold registerPfsStorage
  simp only
  split
  · exact .unchanged rfl rfl rfl
  · split <;> exact .unchanged rfl rfl rfl

theorem transferDatasets_effect (jobId : JobId) (sources targets : List Dataset)
    (limits : List QosLimit) (mapping : TransferMapping) :
    Effect env (.transferDatasets jobId sources targets limits mapping) s
      (s.transferDatasets env jobId sources targets limits).server := by
  unfold transferDatasets TransferManager.create
  simp only [createRpc_transferManager, Registry.fetchId_snd]
  split
  · exact .unchanged rfl rfl rfl
  · exact .unchanged rfl rfl rfl
  case h_3 dataStager hstager =>
    split
    · exact .unchanged rfl rfl rfl
    case h_2 cargoTx hstarted =>
      cases hfree : s.transferManager.find? s.transferManager.currentId with
      | some p =>
          rw [createAt_of_taken (r := s.transferManager.fetchId.1) hfree]
          exact .transferIdSpent rfl rfl rfl
      | none =>
          rw [createAt_of_free (r := s.transferManager.fetchId.1) hfree]
          simp only
          split
          · exact .transferCreated jobId sources targets limits mapping dataStager cargoTx rfl
              hstager hstarted hfree rfl rfl rfl
          · exact .transferCreated jobId sources targets limits mapping dataStager cargoTx rfl
              hstager hstarted hfree rfl rfl rfl

/-- `query_transfer` reads only. -/
theorem queryTransfer_server (jobId : JobId) (txId : TransferId) :
    (s.queryTransfer env jobId txId).server = s.createRpc.1 := by
  unfold queryTransfer
  simp only
  split
  · rfl
  · rfl
  · split <;> rfl

/-! ## Every request -/

/-- **What a request does to the managers.** -/
theorem step_effect {s s' : Server H} {env : Env H} {r : Request}
    (h : s.step (env, r) = some s') : Effect env r s s' := by
  cases r with
  | ping =>
      obtain rfl := next_eq_some (h := s.ping) h
      exact .unchanged rfl rfl rfl
  | query jobId =>
      obtain rfl := next_eq_some h
      rw [query_server]
      exact .unchanged rfl rfl rfl
  | registerJob res req slurmId =>
      obtain rfl := next_eq_some h
      exact registerJob_effect env s res req slurmId
  | updateJob jobId res =>
      obtain rfl := next_eq_some (h := s.updateJob jobId res) h
      exact updateJob_effect env s jobId res
  | removeJob jobId =>
      obtain rfl := next_eq_some h
      exact removeJob_effect env s jobId
  | registerAdhocStorage name type ctx res =>
      obtain rfl := next_eq_some h
      exact registerAdhocStorage_effect env s name type ctx res
  | updateAdhocStorage adhocId res =>
      obtain rfl := next_eq_some h
      exact updateAdhocStorage_effect env s adhocId res
  | removeAdhocStorage adhocId =>
      obtain rfl := next_eq_some (h := s.removeAdhocStorage adhocId) h
      exact removeAdhocStorage_effect env s adhocId
  | deployAdhocStorage adhocId =>
      obtain rfl := next_eq_some h
      rw [deployAdhocStorage_server]
      exact .unchanged rfl rfl rfl
  | terminateAdhocStorage adhocId =>
      obtain rfl := next_eq_some h
      rw [terminateAdhocStorage_server]
      exact .unchanged rfl rfl rfl
  | registerPfsStorage name type ctx =>
      obtain rfl := next_eq_some h
      exact registerPfsStorage_effect env s name type ctx
  | updatePfsStorage pfsId ctx =>
      obtain rfl := next_eq_some (h := s.updatePfsStorage pfsId ctx) h
      exact .unchanged rfl rfl rfl
  | removePfsStorage pfsId =>
      obtain rfl := next_eq_some (h := s.removePfsStorage pfsId) h
      exact .unchanged rfl rfl rfl
  | transferDatasets jobId sources targets limits mapping =>
      obtain rfl := next_eq_some h
      exact transferDatasets_effect env s jobId sources targets limits mapping
  | queryTransfer jobId txId =>
      obtain rfl := next_eq_some h
      rw [queryTransfer_server]
      exact .unchanged rfl rfl rfl

end Server

end Scord
