/-
  Scord.Server.RpcServer

  The request handlers of `rpc_server.cpp`.

  A handler is run to completion against an environment, which says how the
  outside answers while it runs: the adhoc controllers, Redis, Cargo, the clock
  and the random generator.  Its result is the server afterwards, the outcome,
  and what it asked of the controllers and of Redis.  The outcome is the one
  response that the handler sends, or the fault that ends it without one.
-/
import Mathlib.Data.List.Infix
import Scord.Server.Managers

namespace Scord

open ObjectStore

/-! ## What surrounds the server -/

/-- `cargo::transfer_state`. -/
inductive CargoState
  | pending
  | running
  | completed
  | failed
deriving DecidableEq, Repr

/-- `cargo::transfer_status`, as far as the server reads it. -/
structure CargoStatus where
  state : CargoState
  bw : Bandwidth

/-- The cast from `cargo::transfer_state` to `transfer_state::type` keeps the
    position of the enumerator. -/
def CargoState.toTransferState : CargoState → TransferState
  | pending => .queued
  | running => .running
  | completed => .finished
  | failed => .failed

inductive CargoDatasetType
  | posix
  | parallel
  | gekkofs
  | hercules
  | expand
  | dataclay
  | none
deriving DecidableEq, Repr

structure CargoDataset where
  path : String
  type : CargoDatasetType
deriving DecidableEq, Repr

/-- A request to the controller of an adhoc storage instance.  A termination
    carries no resources. -/
structure ControllerCall where
  rpcName : String
  address : String
  uuid : String
  type : AdhocStorageType
  resources : Option AdhocResources
deriving DecidableEq, Repr

/-- One `hmset`: the key and the fields it writes. -/
structure RedisWrite where
  key : String
  fields : List (String × String)
deriving DecidableEq, Repr

/-- How the outside answers while a handler runs. -/
structure Env (H : Type) where
  /-- Whether `lookup` of a controller address finds an endpoint. -/
  lookup : String → Bool
  /-- The reply to `endpoint::call`, `none` when the call fails. -/
  call : ControllerCall → Option (ResponseWithValue String)
  /-- Whether Redis takes a write; if not, `hmset` throws. -/
  hmset : RedisWrite → Bool
  /-- `system_clock::now().time_since_epoch().count()` -/
  now : Int
  /-- What `generate_random_string` draws. -/
  randomString : String
  /-- `cargo::transfer_datasets` of a data stager; `none` when it throws. -/
  transferDatasets : String → List CargoDataset → List CargoDataset → Option H
  /-- `cargo::transfer::status`; `none` when it throws. -/
  status : H → Option CargoStatus

/-- No controller can be reached and Cargo takes no transfer; Redis takes every
    write. -/
def Env.isolated {H : Type} : Env H where
  lookup _ := false
  call _ := none
  hmset _ := true
  now := 0
  randomString := ""
  transferDatasets _ _ _ := none
  status _ := none

/-! ## Outcomes -/

inductive Exn
  | badExpectedAccess (ec : ErrorCode)
  | redisError
  | cargoError
deriving DecidableEq, Repr

/-- What ends a handler without a response. -/
inductive Fault
  /-- an exception leaves the handler -/
  | throws (e : Exn)
  /-- an exception leaves a `noexcept` function: `std::terminate` -/
  | terminates
  /-- a null pointer, an empty optional or an empty expected is dereferenced -/
  | undefined
deriving DecidableEq, Repr

/-- `ok r`: the handler sends the response `r`, and no other. -/
abbrev Outcome (ρ : Type) := Except Fault ρ

structure Server (H : Type) where
  jobManager : JobManager
  adhocManager : AdhocStorageManager
  pfsManager : PfsStorageManager
  transferManager : TransferManager H
  /-- the counter behind `rpc_info::new_id` -/
  rpcCount : UInt64
  /-- whether `m_redis` is engaged -/
  redis : Bool

structure Handled (H ρ : Type) where
  server : Server H
  outcome : Outcome ρ
  calls : List ControllerCall := []
  writes : List RedisWrite := []

/-- The server that takes the next request: none after undefined behaviour or
    `std::terminate`. -/
def Handled.next {H ρ : Type} (h : Handled H ρ) : Option (Server H) :=
  match h.outcome with
  | .ok _ => some h.server
  | .error (.throws _) => some h.server
  | .error .terminates => none
  | .error .undefined => none

namespace Server

variable {H : Type}

/-- The server at start-up, with Redis or without. -/
def init (redis : Bool) : Server H where
  jobManager := JobManager.empty
  adhocManager := Registry.empty
  pfsManager := Registry.empty
  transferManager := Registry.empty
  rpcCount := 0
  redis := redis

/-- `rpc_info::create` draws the id of an rpc. -/
def createRpc (s : Server H) : Server H × UInt64 :=
  ({ s with rpcCount := s.rpcCount + 1 }, s.rpcCount)

/-- The job behind a `std::shared_ptr`, `none` when it is null. -/
def jobAt (s : Server H) (p : Option JobPtr) : Option JobMetadata :=
  p.bind s.jobManager.jobs.get?

/-- The adhoc storage behind a `std::shared_ptr`, `none` when it is null. -/
def adhocAt (s : Server H) (p : Option AdhocPtr) : Option AdhocStorageMetadata :=
  p.bind s.adhocManager.get?

/-! ## Jobs -/

def ping (s : Server H) : Handled H GenericResponse :=
  let (s, rpc) := s.createRpc
  { server := s, outcome := .ok ⟨rpc, .success⟩ }

/-- What `query` computes for the job it found. -/
def jobInfo (s : Server H) (jobMetadata : JobMetadata) :
    Outcome (Except ErrorCode JobInfo) :=
  match jobMetadata.resources with
  | none => .ok (.error .noResources)
  | some _ =>
      -- what was tested are the resources; the pointer is read untested
      match s.adhocAt jobMetadata.adhocMetadataPtr with
      | none => .error .undefined
      | some adhoc =>
          .ok (.ok ⟨adhoc.controllerAddress, adhoc.uuid, jobMetadata.ioProcs⟩)

def query (s : Server H) (jobId : SlurmJobId) : Handled H (ResponseWithValue JobInfo) :=
  let (s, rpc) := s.createRpc
  match s.jobManager.findBySlurmId jobId with
  | .error ec => { server := s, outcome := .ok ⟨rpc, ec, none⟩ }
  | .ok p =>
      match s.jobAt (some p) with
      | none => { server := s, outcome := .error .undefined }
      | some jobMetadata =>
          match s.jobInfo jobMetadata with
          | .error fault => { server := s, outcome := .error fault }
          | .ok (.error ec) => { server := s, outcome := .ok ⟨rpc, ec, none⟩ }
          | .ok (.ok info) => { server := s, outcome := .ok ⟨rpc, .success, some info⟩ }

/-- The Redis part of `register_job`: it reads the adhoc storage requirement
    and the storage under that id without testing that they are there. -/
def registerJobWrite (env : Env H) (s : Server H) (jobId : JobId)
    (jobRequirements : JobRequirements) (slurmId : SlurmJobId) : Outcome RedisWrite :=
  match jobRequirements.adhocStorage with
  | none => .error .undefined
  | some required =>
      match s.adhocManager.find required.id with
      | .error _ => .error .undefined
      | .ok p =>
          match s.adhocAt (some p) with
          | none => .error .undefined
          | some adhoc =>
              .ok {
                key := toString slurmId
                fields := [("timestamp", toString env.now),
                  ("job_id", toString jobId),
                  ("AdhocID", toString required.id),
                  ("AdhocUUID", adhoc.uuid),
                  ("AdhocName", adhoc.adhocStorage.name),
                  ("Type", adhoc.adhocStorage.type.full),
                  ("Deployed", "No"),
                  ("StartTime", ""),
                  ("EndTime", ""),
                  ("Policies", "")] }

/-- The metadata pointer that `register_job` looks up first: null for a job
    without an adhoc storage requirement. -/
def requiredAdhoc (s : Server H) (jobRequirements : JobRequirements) :
    Except ErrorCode (Option AdhocPtr) :=
  match jobRequirements.adhocStorage with
  | none => .ok none
  | some required =>
      match s.adhocManager.find required.id with
      | .ok p => .ok (some p)
      | .error ec => .error ec

/-- The part of `register_job` that changes the managers: create the job, then
    tell the adhoc storage, if any, about its client.  The error code of
    `add_client_info` is dropped. -/
def createJob (s : Server H) (jobResources : JobResources)
    (jobRequirements : JobRequirements) (slurmId : SlurmJobId)
    (adhocMetadataPtr : Option AdhocPtr) : Server H × Except ErrorCode JobPtr :=
  match s.jobManager.create slurmId jobResources jobRequirements adhocMetadataPtr with
  | (jm, .error ec) => ({ s with jobManager := jm }, .error ec)
  | (jm, .ok p) =>
      match adhocMetadataPtr with
      | none => ({ s with jobManager := jm }, .ok p)
      | some ap =>
          -- `adhoc_in_use` is dropped here
          ({ s with
              jobManager := jm
              adhocManager := s.adhocManager.modify ap fun a => (a.addClientInfo p).1 }, .ok p)

def registerJob (env : Env H) (s : Server H) (jobResources : JobResources)
    (jobRequirements : JobRequirements) (slurmId : SlurmJobId) :
    Handled H ResponseWithId :=
  let (s, rpc) := s.createRpc
  match s.requiredAdhoc jobRequirements with
  | .error ec => { server := s, outcome := .ok ⟨rpc, ec, none⟩ }
  | .ok adhocMetadataPtr =>
      match s.createJob jobResources jobRequirements slurmId adhocMetadataPtr with
      | (s, .error ec) => { server := s, outcome := .ok ⟨rpc, ec, none⟩ }
      | (s, .ok p) =>
          match s.jobAt (some p) with
          | none => { server := s, outcome := .error .undefined }
          | some jobMetadata =>
              let jobId := jobMetadata.job.id
              if s.redis then
                match s.registerJobWrite env jobId jobRequirements slurmId with
                | .error fault => { server := s, outcome := .error fault }
                | .ok w =>
                    { server := s
                      outcome :=
                        if env.hmset w then .ok ⟨rpc, .success, some jobId⟩
                        else .error (.throws .redisError)
                      writes := [w] }
              else
                { server := s, outcome := .ok ⟨rpc, .success, some jobId⟩ }

def updateJob (s : Server H) (jobId : JobId) (newResources : JobResources) :
    Handled H GenericResponse :=
  let (s, rpc) := s.createRpc
  let (jm, ec) := s.jobManager.update jobId newResources
  { server := { s with jobManager := jm }, outcome := .ok ⟨rpc, ec⟩ }

/-- `remove_job` clears the client slot of the storage that the requirements of
    the removed job name, if that id is registered. -/
def removeJob (s : Server H) (jobId : JobId) : Handled H GenericResponse :=
  let (s, rpc) := s.createRpc
  match s.jobManager.remove jobId with
  | (_, .error ec) => { server := s, outcome := .ok ⟨rpc, ec⟩ }
  | (jm, .ok p) =>
      -- the job is out of the table, and its object is still held
      let s := { s with jobManager := jm }
      match (s.jobAt (some p)).bind JobMetadata.requirements with
      | none => { server := s, outcome := .error .undefined }
      | some requirements =>
          match requirements.adhocStorage with
          | none => { server := s, outcome := .ok ⟨rpc, .success⟩ }
          | some required =>
              let (am, ec) := s.adhocManager.removeClientInfo required.id
              { server := { s with adhocManager := am }, outcome := .ok ⟨rpc, ec⟩ }

/-! ## Adhoc storage -/

def registerAdhocStorage (env : Env H) (s : Server H) (name : String)
    (type : AdhocStorageType) (ctx : AdhocCtx) (resources : AdhocResources) :
    Handled H ResponseWithId :=
  let (s, rpc) := s.createRpc
  match AdhocStorageManager.create s.adhocManager env.randomString type name ctx resources with
  | (am, .error ec) =>
      { server := { s with adhocManager := am }, outcome := .ok ⟨rpc, ec, none⟩ }
  | (am, .ok p) =>
      let s := { s with adhocManager := am }
      match s.adhocAt (some p) with
      | none => { server := s, outcome := .error .undefined }
      | some adhoc =>
          { server := s, outcome := .ok ⟨rpc, .success, some adhoc.adhocStorage.id⟩ }

/-- What the three helper lambdas share: look the controller up, send the
    request, and hand over the reply. -/
def callController (env : Env H) (rpcName : String) (adhoc : AdhocStorageMetadata)
    (resources : Option AdhocResources) :
    Except ErrorCode (ResponseWithValue String) × List ControllerCall :=
  if env.lookup adhoc.controllerAddress then
    let call : ControllerCall :=
      ⟨rpcName, adhoc.controllerAddress, adhoc.uuid, adhoc.adhocStorage.type, resources⟩
    match env.call call with
    | some reply => (.ok reply, [call])
    | none => (.error .snafu, [call])
  else (.error .snafu, [])

/-- The name under which `update_adhoc_storage` calls the controller. -/
def resizeName (expand : Bool) : String :=
  if expand then "ADM_expand_adhoc_storage" else "ADM_shrink_adhoc_storage"

/-- `update_adhoc_storage`.  The record is replaced before the controller is
    contacted, and an rpc id is drawn for the request to the controller once
    its endpoint is known. -/
def updateAdhocStorage (env : Env H) (s : Server H) (adhocId : AdhocId)
    (newResources : AdhocResources) : Handled H GenericResponse :=
  let (s, rpc) := s.createRpc
  match s.adhocManager.find adhocId with
  -- `pre_ec.value()`
  | .error ec => { server := s, outcome := .error (.throws (.badExpectedAccess ec)) }
  | .ok p =>
      match s.adhocAt (some p) with
      | none => { server := s, outcome := .error .undefined }
      | some old =>
          let oldResourcesSize := old.adhocStorage.resources.nodes.length
          let (am, _) := AdhocStorageManager.update s.adhocManager adhocId newResources
          let s := { s with adhocManager := am }
          let expand := newResources.nodes.length > oldResourcesSize
          match s.adhocManager.find adhocId with
          | .error ec => { server := s, outcome := .error (.throws (.badExpectedAccess ec)) }
          | .ok p =>
              match s.adhocAt (some p) with
              | none => { server := s, outcome := .error .undefined }
              | some adhoc =>
                  let s := if env.lookup adhoc.controllerAddress then s.createRpc.1 else s
                  let (rv, calls) := callController env (resizeName expand) adhoc
                    (some adhoc.adhocStorage.resources)
                  { server := s
                    outcome :=
                      match rv with
                      | .ok reply => .ok ⟨rpc, reply.errorCode⟩
                      -- `rv.value()`
                      | .error ec => .error (.throws (.badExpectedAccess ec))
                    calls := calls }

def removeAdhocStorage (s : Server H) (adhocId : AdhocId) : Handled H GenericResponse :=
  let (s, rpc) := s.createRpc
  let (am, ec) := AdhocStorageManager.remove s.adhocManager adhocId
  { server := { s with adhocManager := am }, outcome := .ok ⟨rpc, ec⟩ }

/-- The key of the Redis record that a deployment or a termination writes: the
    job id of the client of the storage, whose slot is not tested. -/
def clientJobId (s : Server H) (adhocId : AdhocId) : Outcome JobId :=
  match s.adhocManager.find adhocId with
  | .error ec => .error (.throws (.badExpectedAccess ec))
  | .ok p =>
      match (s.adhocAt (some p)).bind fun a => s.jobAt a.clientInfo with
      | none => .error .undefined
      | some jobMetadata => .ok jobMetadata.job.id

/-- The end of `deploy_adhoc_storage` and `terminate_adhoc_storage`: after a
    success, with Redis, write the fields into the client's record; then
    respond. -/
def finish {ρ : Type} (env : Env H) (s : Server H) (adhocId : AdhocId)
    (fields : List (String × String)) (ec : ErrorCode) (resp : ρ)
    (calls : List ControllerCall) : Handled H ρ :=
  if s.redis && ec = .success then
    match s.clientJobId adhocId with
    | .error fault => { server := s, outcome := .error fault, calls := calls }
    | .ok jobId =>
        let w : RedisWrite := ⟨toString jobId, fields⟩
        { server := s
          outcome := if env.hmset w then .ok resp else .error (.throws .redisError)
          calls := calls
          writes := [w] }
  else { server := s, outcome := .ok resp, calls := calls }

/-- The fields that a deployment writes into the client's record. -/
def deployFields (env : Env H) : List (String × String) :=
  [("Deployed", "Yes"), ("StartTime", toString env.now), ("EndTime", "Running")]

/-- The fields that a termination writes into the client's record. -/
def terminateFields (env : Env H) : List (String × String) :=
  [("Deployed", "Yes"), ("EndTime", toString env.now)]

/-- `deploy_helper`: the directory of the instance.  `value()` of a response is
    `noexcept`, so a success without a directory is fatal. -/
def deployHelper (env : Env H) (adhoc : AdhocStorageMetadata) :
    Outcome (Except ErrorCode String) × List ControllerCall :=
  let (rv, calls) := callController env "ADM_deploy_adhoc_storage" adhoc
    (some adhoc.adhocStorage.resources)
  match rv with
  | .error ec => (.ok (.error ec), calls)
  | .ok reply =>
      if !reply.errorCode.toBool then (.ok (.error reply.errorCode), calls)
      else
        match reply.value with
        | some adhocDir => (.ok (.ok adhocDir), calls)
        | none => (.error .terminates, calls)

def deployAdhocStorage (env : Env H) (s : Server H) (adhocId : AdhocId) :
    Handled H (ResponseWithValue String) :=
  let (s, rpc) := s.createRpc
  let fields := deployFields env
  match s.adhocManager.find adhocId with
  | .error ec => finish env s adhocId fields ec ⟨rpc, ec, some ""⟩ []
  | .ok p =>
      match s.adhocAt (some p) with
      | none => { server := s, outcome := .error .undefined }
      | some adhoc =>
          match deployHelper env adhoc with
          | (.error fault, calls) => { server := s, outcome := .error fault, calls := calls }
          | (.ok (.error ec), calls) => finish env s adhocId fields ec ⟨rpc, ec, some ""⟩ calls
          | (.ok (.ok adhocDir), calls) =>
              finish env s adhocId fields .success ⟨rpc, .success, some adhocDir⟩ calls

/-- `terminate_helper`. -/
def terminateHelper (env : Env H) (adhoc : AdhocStorageMetadata) :
    ErrorCode × List ControllerCall :=
  let (rv, calls) := callController env "ADM_terminate_adhoc_storage" adhoc none
  match rv with
  | .error ec => (ec, calls)
  | .ok reply => (reply.errorCode, calls)

def terminateAdhocStorage (env : Env H) (s : Server H) (adhocId : AdhocId) :
    Handled H GenericResponse :=
  let (s, rpc) := s.createRpc
  let fields := terminateFields env
  match s.adhocManager.find adhocId with
  | .error ec => { server := s, outcome := .error (.throws (.badExpectedAccess ec)) }
  | .ok p =>
      match s.adhocAt (some p) with
      | none => { server := s, outcome := .error .undefined }
      | some adhoc =>
          let (ec, calls) := terminateHelper env adhoc
          finish env s adhocId fields ec ⟨rpc, ec⟩ calls

/-! ## PFS storage -/

def registerPfsStorage (s : Server H) (name : String) (type : PfsStorageType)
    (ctx : PfsCtx) : Handled H ResponseWithId :=
  let (s, rpc) := s.createRpc
  match PfsStorageManager.create s.pfsManager type name ctx with
  | (pm, .error ec) =>
      { server := { s with pfsManager := pm }, outcome := .ok ⟨rpc, ec, some 0⟩ }
  | (pm, .ok p) =>
      match pm.get? p with
      | none => { server := { s with pfsManager := pm }, outcome := .error .undefined }
      | some pfs =>
          { server := { s with pfsManager := pm }
            outcome := .ok ⟨rpc, .success, some pfs.pfsStorage.id⟩ }

def updatePfsStorage (s : Server H) (pfsId : PfsId) (newCtx : PfsCtx) :
    Handled H GenericResponse :=
  let (s, rpc) := s.createRpc
  let (pm, ec) := PfsStorageManager.update s.pfsManager pfsId newCtx
  { server := { s with pfsManager := pm }, outcome := .ok ⟨rpc, ec⟩ }

def removePfsStorage (s : Server H) (pfsId : PfsId) : Handled H GenericResponse :=
  let (s, rpc) := s.createRpc
  let (pm, ec) := PfsStorageManager.remove s.pfsManager pfsId
  { server := { s with pfsManager := pm }, outcome := .ok ⟨rpc, ec⟩ }

/-! ## Transfers -/

/-- The prefixes that `dataset_process` looks for, in its order. -/
def datasetPrefixes : List (String × CargoDatasetType) :=
  [("lustre:", .parallel), ("gekkofs:", .gekkofs), ("hercules:", .hercules),
    ("expand:", .expand), ("dataclay:", .dataclay), ("posix:", .posix)]

/-- `dataset_process`.  `find` accepts the tier name anywhere in the id, and
    `substr` drops as many characters from its front. -/
def datasetProcess (id : String) : CargoDataset :=
  match datasetPrefixes.find? fun t => decide (t.1.toList <:+: id.toList) with
  | some (tier, type) => ⟨String.ofList (id.toList.drop tier.length), type⟩
  | none => ⟨id, .none⟩

/-- The tests that `transfer_datasets` and `query_transfer` start with: the job
    is registered and has an adhoc storage, whose data stager is returned. -/
def dataStagerOf (s : Server H) (jobId : JobId) : Outcome (Except ErrorCode String) :=
  match s.jobManager.find jobId with
  | .error ec => .ok (.error ec)
  | .ok p =>
      match s.jobAt (some p) with
      | none => .error .undefined
      | some jobMetadata =>
          match jobMetadata.adhocMetadataPtr with
          | none => .ok (.error .noResources)
          | some ap =>
              match s.adhocAt (some ap) with
              | none => .error .undefined
              | some adhoc => .ok (.ok adhoc.dataStagerAddress)

def transferDatasets (env : Env H) (s : Server H) (jobId : JobId)
    (sources targets : List Dataset) (limits : List QosLimit) : Handled H ResponseWithId :=
  let (s, rpc) := s.createRpc
  match s.dataStagerOf jobId with
  | .error fault => { server := s, outcome := .error fault }
  | .ok (.error ec) => { server := s, outcome := .ok ⟨rpc, ec, none⟩ }
  | .ok (.ok dataStager) =>
      let inputs := sources.map fun src => datasetProcess src.id
      let outputs := targets.map fun tgt => datasetProcess tgt.id
      -- Cargo starts the transfer before it gets an id here
      match env.transferDatasets dataStager inputs outputs with
      | none => { server := s, outcome := .error (.throws .cargoError) }
      | some cargoTx =>
          match TransferManager.create s.transferManager cargoTx limits with
          | (tm, .error ec) =>
              { server := { s with transferManager := tm }, outcome := .ok ⟨rpc, ec, none⟩ }
          | (tm, .ok p) =>
              let s := { s with transferManager := tm }
              match tm.get? p with
              | none => { server := s, outcome := .error .undefined }
              | some t => { server := s, outcome := .ok ⟨rpc, .success, some t.id⟩ }

/-- The state that `query_transfer` reads off a transfer it found. -/
def transferStateOf (env : Env H) (s : Server H) (p : TransferPtr H) :
    Outcome TransferState :=
  match s.transferManager.get? p with
  | none => .error .undefined
  | some t =>
      match env.status t.handle with
      | none => .error (.throws .cargoError)
      | some status => .ok status.state.toTransferState

def queryTransfer (env : Env H) (s : Server H) (jobId : JobId) (txId : TransferId) :
    Handled H (ResponseWithValue TransferState) :=
  let (s, rpc) := s.createRpc
  match s.dataStagerOf jobId with
  | .error fault => { server := s, outcome := .error fault }
  | .ok (.error ec) => { server := s, outcome := .ok ⟨rpc, ec, none⟩ }
  | .ok (.ok _) =>
      match TransferManager.find s.transferManager txId with
      | .error ec => { server := s, outcome := .ok ⟨rpc, ec, none⟩ }
      | .ok p =>
          { server := s
            outcome := (s.transferStateOf env p).map fun st => ⟨rpc, .success, some st⟩ }

end Server

/-! ## Requests -/

/-- The requests that the server is registered for. -/
inductive Request
  | ping
  | query (jobId : SlurmJobId)
  | registerJob (res : JobResources) (req : JobRequirements) (slurmId : SlurmJobId)
  | updateJob (jobId : JobId) (res : JobResources)
  | removeJob (jobId : JobId)
  | registerAdhocStorage (name : String) (type : AdhocStorageType) (ctx : AdhocCtx)
      (res : AdhocResources)
  | updateAdhocStorage (adhocId : AdhocId) (res : AdhocResources)
  | removeAdhocStorage (adhocId : AdhocId)
  | deployAdhocStorage (adhocId : AdhocId)
  | terminateAdhocStorage (adhocId : AdhocId)
  | registerPfsStorage (name : String) (type : PfsStorageType) (ctx : PfsCtx)
  | updatePfsStorage (pfsId : PfsId) (ctx : PfsCtx)
  | removePfsStorage (pfsId : PfsId)
  | transferDatasets (jobId : JobId) (sources targets : List Dataset)
      (limits : List QosLimit) (mapping : TransferMapping)
  | queryTransfer (jobId : JobId) (txId : TransferId)

namespace Server

variable {H : Type}

/-- One request, handled to completion. -/
def step (s : Server H) : Env H × Request → Option (Server H)
  | (_, .ping) => s.ping.next
  | (_, .query jobId) => (s.query jobId).next
  | (env, .registerJob res req slurmId) => (s.registerJob env res req slurmId).next
  | (_, .updateJob jobId res) => (s.updateJob jobId res).next
  | (_, .removeJob jobId) => (s.removeJob jobId).next
  | (env, .registerAdhocStorage name type ctx res) =>
      (s.registerAdhocStorage env name type ctx res).next
  | (env, .updateAdhocStorage adhocId res) => (s.updateAdhocStorage env adhocId res).next
  | (_, .removeAdhocStorage adhocId) => (s.removeAdhocStorage adhocId).next
  | (env, .deployAdhocStorage adhocId) => (s.deployAdhocStorage env adhocId).next
  | (env, .terminateAdhocStorage adhocId) => (s.terminateAdhocStorage env adhocId).next
  | (_, .registerPfsStorage name type ctx) => (s.registerPfsStorage name type ctx).next
  | (_, .updatePfsStorage pfsId ctx) => (s.updatePfsStorage pfsId ctx).next
  | (_, .removePfsStorage pfsId) => (s.removePfsStorage pfsId).next
  | (env, .transferDatasets jobId sources targets limits _) =>
      (s.transferDatasets env jobId sources targets limits).next
  | (env, .queryTransfer jobId txId) => (s.queryTransfer env jobId txId).next

end Server

/-! ### Sample requests, for the concrete runs below the theorems -/

def sampleCtx : AdhocCtx where
  controllerAddress := "tcp://controller"
  dataStagerAddress := "tcp://stager"
  execMode := .inJobShared
  accessType := .readWrite
  walltime := 100
  shouldFlush := false

/-- Register a GekkoFS instance on these nodes. -/
def sampleAdhoc (nodes : List Node) : Request :=
  .registerAdhocStorage "fs" .gekkofs sampleCtx ⟨nodes⟩

/-- The requirements of a job for the adhoc storage `id`, if any. -/
def sampleRequirements (id : Option AdhocId) : JobRequirements where
  inputs := []
  outputs := []
  expectedOutputs := []
  adhocStorage := id.map fun id => ⟨.gekkofs, "fs", id, sampleCtx, ⟨[]⟩⟩

/-- Register a job for the adhoc storage `id`, if any. -/
def sampleJob (id : Option AdhocId) (slurmId : SlurmJobId) : Request :=
  .registerJob ⟨[]⟩ (sampleRequirements id) slurmId

end Scord
