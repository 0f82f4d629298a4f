/-
  Scord.Server.ManagerMethods

  The methods of `job_manager`, `adhoc_storage_manager`, `pfs_storage_manager` and
  `transfer_manager`, as code that any number of threads run at a time: what they
  do before they take a lock, and each operation of a table, a counter or an object
  on its own.

  Every table has its `abt::shared_mutex`, and so has the client slot of every
  adhoc storage.  The ids come from atomic counters outside the locks.
-/
import Scord.Lib.RwLock
import Scord.Server.ManagerMaps

namespace Scord

open ObjectStore RwLock

/-! ## What is locked -/

/-- `m_jobs_mutex`, `m_adhoc_storages_mutex`, `m_pfs_storages_mutex`,
    `m_transfer_mutex`, and the `m_mutex` of an adhoc storage. -/
inductive Mutex
  | jobs
  | adhocStorages
  | pfsStorages
  | transfers
  | client (p : AdhocPtr)
deriving DecidableEq

/-- What a mutex protects.  The registries keep their objects; the counters in
    them, and the client slots in the adhoc storages, are not used here. -/
abbrev Part (H : Type) : Mutex → Type
  | .jobs => JobManager
  | .adhocStorages => AdhocStorageManager
  | .pfsStorages => PfsStorageManager
  | .transfers => TransferManager H
  | .client _ => Option JobPtr

/-- The `static std::atomic_uint64_t current_id` of each `create`. -/
structure Counters where
  jobs : UInt64
  adhocStorages : UInt64
  pfsStorages : UInt64
  transfers : UInt64

def noParts (H : Type) : Shared (Part H)
  | .jobs => JobManager.empty
  | .adhocStorages => Registry.empty
  | .pfsStorages => Registry.empty
  | .transfers => Registry.empty
  | .client _ => none

/-! ## Methods and results -/

/-- A method with its arguments.  The random part of a uuid is drawn by the one who
    creates the storage. -/
inductive Method (H : Type)
  | createJob (a : JobArgs)
  | updateJob (jobId : JobId) (res : JobResources)
  | findJob (jobId : JobId)
  | findJobBySlurmId (slurmId : SlurmJobId)
  | removeJob (jobId : JobId)
  | createAdhoc (a : AdhocArgs)
  | updateAdhoc (adhocId : AdhocId) (res : AdhocResources)
  | findAdhoc (adhocId : AdhocId)
  | removeAdhoc (adhocId : AdhocId)
  | addClientInfo (adhocId : AdhocId) (p : JobPtr)
  | removeClientInfo (adhocId : AdhocId)
  | clientInfo (ap : AdhocPtr)
  | createPfs (a : PfsArgs)
  | updatePfs (pfsId : PfsId) (ctx : PfsCtx)
  | findPfs (pfsId : PfsId)
  | removePfs (pfsId : PfsId)
  | createTransfer (a : TransferArgs H)
  | updateTransfer (txId : TransferId) (bw : Bandwidth)
  | findTransfer (txId : TransferId)
  | removeTransfer (txId : TransferId)

inductive Result (H : Type)
  | code (ec : ErrorCode)
  | job (r : Except ErrorCode JobPtr)
  | adhoc (r : Except ErrorCode AdhocPtr)
  | pfs (r : Except ErrorCode PfsPtr)
  | transfer (r : Except ErrorCode (TransferPtr H))
  | client (p : Option JobPtr)

/-- The rest of a method of the managers. -/
abbrev MethodCode (H : Type) (h : Hold Mutex) := Code Counters (Part H) (Result H) h

variable {H : Type}

/-- An operation of a writer that changes nothing. -/
def look {ℓ : Mutex} (next : Part H ℓ → MethodCode H (.unique ℓ)) : MethodCode H (.unique ℓ) :=
  .access (fun m => m) next

/-! ## `job_manager` -/

namespace JobManager

/-- `create`, from the lock on. -/
def createCode (jobId : JobId) (a : JobArgs) : MethodCode H .nothing :=
  .wrlock .jobs <| look fun (m : JobManager) =>
    match m.jobs.find? jobId with
    | none =>
        let job := JobMetadata.make ⟨jobId, a.slurmId⟩ a.resources a.requirements
          a.adhocMetadataPtr
        .access (fun (m : JobManager) => { m with jobs := (m.jobs.emplace jobId job).1 })
          fun (m : JobManager) =>
            let (itJob, inserted) := (m.jobs.emplace jobId job).2
            .access (fun (m : JobManager) =>
                { m with slurmToScord := (UMap.emplace m.slurmToScord a.slurmId jobId).1 })
              fun _ =>
                if !inserted then .unlock (.ret (.job (.error .snafu)))
                else .unlock (.ret (.job (.ok itJob)))
    | some _ => .unlock (.ret (.job (.error .entityExists)))

def updateCode (jobId : JobId) (res : JobResources) : MethodCode H .nothing :=
  .wrlock .jobs <| look fun (m : JobManager) =>
    match m.jobs.find? jobId with
    | some p =>
        .access (fun (m : JobManager) =>
            { m with jobs := m.jobs.modify p fun j => j.update res })
          fun _ => .unlock (.ret (.code .success))
    | none => .unlock (.ret (.code .noSuchEntity))

/-- `find`, from the lock on, which a caller may hold already. -/
def findCode (jobId : JobId) : MethodCode H .nothing :=
  .rdlock .jobs <| .read fun (m : JobManager) =>
    match m.jobs.find? jobId with
    | some p => .unlockShared (.ret (.job (.ok p)))
    | none => .unlockShared (.ret (.job (.error .noSuchEntity)))

/-- `find_by_slurm_id` calls `find` while it holds the lock, so `find` takes it once
    more. -/
def findBySlurmIdCode (slurmId : SlurmJobId) : MethodCode H .nothing :=
  .rdlock .jobs <| .read fun (m : JobManager) =>
    match m.slurmToScord.lookup slurmId with
    | some jobId =>
        .rdlockAgain <| .read fun (m : JobManager) =>
          match m.jobs.find? jobId with
          | some p => .unlockAgain (.unlockShared (.ret (.job (.ok p))))
          | none => .unlockAgain (.unlockShared (.ret (.job (.error .noSuchEntity))))
    | none => .unlockShared (.ret (.job (.error .noSuchEntity)))

def removeCode (jobId : JobId) : MethodCode H .nothing :=
  .wrlock .jobs <| look fun (m : JobManager) =>
    match m.jobs.find? jobId with
    | some nh =>
        -- `extract`
        .access (fun (m : JobManager) => { m with jobs := m.jobs.erase jobId }) fun _ =>
          look fun (m : JobManager) =>
            match m.jobs.get? nh with
            | some j =>
                .access (fun (m : JobManager) =>
                    { m with slurmToScord := m.slurmToScord.erase j.job.slurmId })
                  fun _ => .unlock (.ret (.job (.ok nh)))
            -- the node has its object
            | none => .unlock (.ret (.job (.ok nh)))
    | none => .unlock (.ret (.job (.error .noSuchEntity)))

end JobManager

/-! ## What the other three share -/

/-- A mutex that protects one registry. -/
structure Table (H : Type) (β : Type) where
  mutex : Mutex
  get : Part H mutex → Registry β
  put : Registry β → Part H mutex
  get_put : ∀ r, get (put r) = r
  put_get : ∀ m, put (get m) = m

namespace Table

def adhocStorages : Table H AdhocStorageMetadata :=
  ⟨.adhocStorages, id, id, fun _ => rfl, fun _ => rfl⟩
def pfsStorages : Table H PfsStorageMetadata := ⟨.pfsStorages, id, id, fun _ => rfl, fun _ => rfl⟩
def transfers : Table H (TransferMetadata H) := ⟨.transfers, id, id, fun _ => rfl, fun _ => rfl⟩

variable {β : Type} (t : Table H β)

/-- A change of the registry. -/
def change (f : Registry β → Registry β) (m : Part H t.mutex) : Part H t.mutex :=
  t.put (f (t.get m))

/-- `create`, from the lock on, with the object that it builds. -/
def createCode (key : UInt64) (a : β)
    (k : Except ErrorCode (Ptr β) → MethodCode H .nothing) : MethodCode H .nothing :=
  .wrlock t.mutex <| look fun m =>
    match (t.get m).find? key with
    | none =>
        .access (t.change fun r => (r.emplace key a).1) fun m =>
          let (it, inserted) := ((t.get m).emplace key a).2
          if !inserted then .unlock (k (.error .snafu)) else .unlock (k (.ok it))
    | some _ => .unlock (k (.error .entityExists))

def updateCode (key : UInt64) (f : β → β) (k : ErrorCode → MethodCode H .nothing) :
    MethodCode H .nothing :=
  .wrlock t.mutex <| look fun m =>
    match (t.get m).find? key with
    | some p => .access (t.change fun r => r.modify p f) fun _ => .unlock (k .success)
    | none => .unlock (k .noSuchEntity)

def findCode (key : UInt64) (k : Except ErrorCode (Ptr β) → MethodCode H .nothing) :
    MethodCode H .nothing :=
  .rdlock t.mutex <| .read fun m =>
    match (t.get m).find? key with
    | some p => .unlockShared (k (.ok p))
    | none => .unlockShared (k (.error .noSuchEntity))

/-- `remove`: `count` and `erase`, or `find` and `extract`. -/
def removeCode (key : UInt64) (found : Ptr β → MethodCode H .nothing)
    (missing : MethodCode H .nothing) : MethodCode H .nothing :=
  .wrlock t.mutex <| look fun m =>
    match (t.get m).find? key with
    | some p => .access (t.change fun r => r.erase key) fun _ => .unlock (found p)
    | none => .unlock missing

end Table

/-! ## The client slots -/

namespace AdhocStorageMetadata

/-- `add_client_info` -/
def addClientInfoCode (ap : AdhocPtr) (p : JobPtr) : MethodCode H .nothing :=
  .wrlock (.client ap) <| look fun (slot : Option JobPtr) =>
    match slot with
    | some _ => .unlock (.ret (.code .adhocInUse))
    | none => .access (fun _ => some p) fun _ => .unlock (.ret (.code .success))

/-- `remove_client_info`, and the code of the manager's method. -/
def removeClientInfoCode (ap : AdhocPtr) : MethodCode H .nothing :=
  .wrlock (.client ap) <| .access (fun _ => none) fun _ => .unlock (.ret (.code .success))

/-- `client_info` -/
def clientInfoCode (ap : AdhocPtr) : MethodCode H .nothing :=
  .rdlock (.client ap) <| .read fun (slot : Option JobPtr) => .unlockShared (.ret (.client slot))

end AdhocStorageMetadata

/-! ## All methods -/

/-- Where a thread is between the critical sections. -/
inductive Phase (H : Type)
  | called (m : Method H)
  | createJob (jobId : JobId) (a : JobArgs)
  | createAdhoc (adhocId : AdhocId) (a : AdhocArgs)
  | createPfs (pfsId : PfsId) (a : PfsArgs)
  | createTransfer (txId : TransferId) (a : TransferArgs H)
  | addClientInfo (ap : AdhocPtr) (p : JobPtr)
  | removeClientInfo (ap : AdhocPtr)
  | returns (r : Result H)

/-- The object that `create` builds. -/
def AdhocArgs.build (a : AdhocArgs) (adhocId : AdhocId) : AdhocStorageMetadata :=
  AdhocStorageMetadata.make (generateAdhocUuid a.type a.randomString)
    ⟨a.type, a.name, adhocId, a.ctx, a.resources⟩

def PfsArgs.build (a : PfsArgs) (pfsId : PfsId) : PfsStorageMetadata :=
  ⟨⟨a.type, a.name, pfsId, a.ctx⟩⟩

def TransferArgs.build (a : TransferArgs H) (txId : TransferId) : TransferMetadata H :=
  { id := txId, handle := a.tx, qos := a.limits }

namespace Phase

/-- What a thread still runs, once it has drawn an id or found a storage. -/
def code : Phase H → MethodCode H .nothing
  | called (.createJob a) =>
      .atomic (fun c => { c with jobs := c.jobs + 1 }) fun c => JobManager.createCode c.jobs a
  | called (.updateJob jobId res) => JobManager.updateCode jobId res
  | called (.findJob jobId) => JobManager.findCode jobId
  | called (.findJobBySlurmId slurmId) => JobManager.findBySlurmIdCode slurmId
  | called (.removeJob jobId) => JobManager.removeCode jobId
  | called (.createAdhoc a) =>
      .atomic (fun c => { c with adhocStorages := c.adhocStorages + 1 }) fun c =>
        Table.adhocStorages.createCode c.adhocStorages (a.build c.adhocStorages)
          fun r => .ret (.adhoc r)
  | called (.updateAdhoc adhocId res) =>
      Table.adhocStorages.updateCode adhocId (fun a => a.update res) fun ec => .ret (.code ec)
  | called (.findAdhoc adhocId) => Table.adhocStorages.findCode adhocId fun r => .ret (.adhoc r)
  | called (.removeAdhoc adhocId) =>
      Table.adhocStorages.removeCode adhocId (fun _ => .ret (.code .success))
        (.ret (.code .noSuchEntity))
  | called (.addClientInfo adhocId p) =>
      Table.adhocStorages.findCode adhocId fun
        | .ok ap => AdhocStorageMetadata.addClientInfoCode ap p
        | .error _ => .ret (.code .noSuchEntity)
  | called (.removeClientInfo adhocId) =>
      Table.adhocStorages.findCode adhocId fun
        | .ok ap => AdhocStorageMetadata.removeClientInfoCode ap
        | .error _ => .ret (.code .noSuchEntity)
  | called (.clientInfo ap) => AdhocStorageMetadata.clientInfoCode ap
  | called (.createPfs a) =>
      .atomic (fun c => { c with pfsStorages := c.pfsStorages + 1 }) fun c =>
        Table.pfsStorages.createCode c.pfsStorages (a.build c.pfsStorages) fun r => .ret (.pfs r)
  | called (.updatePfs pfsId ctx) =>
      Table.pfsStorages.updateCode pfsId (fun s => s.update ctx) fun ec => .ret (.code ec)
  | called (.findPfs pfsId) => Table.pfsStorages.findCode pfsId fun r => .ret (.pfs r)
  | called (.removePfs pfsId) =>
      Table.pfsStorages.removeCode pfsId (fun _ => .ret (.code .success))
        (.ret (.code .noSuchEntity))
  | called (.createTransfer a) =>
      .atomic (fun c => { c with transfers := c.transfers + 1 }) fun c =>
        Table.transfers.createCode c.transfers (a.build c.transfers) fun r => .ret (.transfer r)
  | called (.updateTransfer txId bw) =>
      Table.transfers.updateCode txId (fun t => t.update bw) fun ec => .ret (.code ec)
  | called (.findTransfer txId) => Table.transfers.findCode txId fun r => .ret (.transfer r)
  | called (.removeTransfer txId) =>
      Table.transfers.removeCode txId (fun nh => .ret (.transfer (.ok nh)))
        (.ret (.transfer (.error .noSuchEntity)))
  | createJob jobId a => JobManager.createCode jobId a
  | createAdhoc adhocId a =>
      Table.adhocStorages.createCode adhocId (a.build adhocId) fun r => .ret (.adhoc r)
  | createPfs pfsId a => Table.pfsStorages.createCode pfsId (a.build pfsId) fun r => .ret (.pfs r)
  | createTransfer txId a =>
      Table.transfers.createCode txId (a.build txId) fun r => .ret (.transfer r)
  | addClientInfo ap p => AdhocStorageMetadata.addClientInfoCode ap p
  | removeClientInfo ap => AdhocStorageMetadata.removeClientInfoCode ap
  | returns r => .ret r

end Phase

/-- A method, access by access. -/
def Method.code (m : Method H) : MethodCode H .nothing := (Phase.called m).code

/-! ## The managers as their callers know them -/

structure ManagerState (H : Type) where
  jobManager : JobManager
  adhocManager : AdhocStorageManager
  clients : AdhocPtr → Option JobPtr
  pfsManager : PfsStorageManager
  transferManager : TransferManager H

def ManagerState.empty : ManagerState H where
  jobManager := JobManager.empty
  adhocManager := Registry.empty
  clients _ := none
  pfsManager := Registry.empty
  transferManager := Registry.empty

namespace ManagerState

/-- One draw of an id, or one whole critical section, by a thread in this phase. -/
def advance (s : ManagerState H) : Phase H → ManagerState H × Phase H
  | .called (.createJob a) =>
      let (m, jobId) := s.jobManager.fetchId
      ({ s with jobManager := m }, .createJob jobId a)
  | .createJob jobId a =>
      let (m, r) := s.jobManager.createLocked jobId a.slurmId a.resources a.requirements
        a.adhocMetadataPtr
      ({ s with jobManager := m }, .returns (.job r))
  | .called (.updateJob jobId res) =>
      let (m, ec) := s.jobManager.update jobId res
      ({ s with jobManager := m }, .returns (.code ec))
  | .called (.findJob jobId) => (s, .returns (.job (s.jobManager.find jobId)))
  | .called (.findJobBySlurmId slurmId) =>
      (s, .returns (.job (s.jobManager.findBySlurmId slurmId)))
  | .called (.removeJob jobId) =>
      let (m, r) := s.jobManager.remove jobId
      ({ s with jobManager := m }, .returns (.job r))
  | .called (.createAdhoc a) =>
      let (m, adhocId) := s.adhocManager.fetchId
      ({ s with adhocManager := m }, .createAdhoc adhocId a)
  | .createAdhoc adhocId a =>
      let (m, r) := AdhocStorageManager.createLocked s.adhocManager adhocId a
      ({ s with adhocManager := m }, .returns (.adhoc r))
  | .called (.updateAdhoc adhocId res) =>
      let (m, ec) := AdhocStorageManager.update s.adhocManager adhocId res
      ({ s with adhocManager := m }, .returns (.code ec))
  | .called (.findAdhoc adhocId) =>
      (s, .returns (.adhoc (AdhocStorageManager.find s.adhocManager adhocId)))
  | .called (.removeAdhoc adhocId) =>
      let (m, ec) := AdhocStorageManager.remove s.adhocManager adhocId
      ({ s with adhocManager := m }, .returns (.code ec))
  | .called (.addClientInfo adhocId p) =>
      match AdhocStorageManager.find s.adhocManager adhocId with
      | .ok ap => (s, .addClientInfo ap p)
      | .error _ => (s, .returns (.code .noSuchEntity))
  | .addClientInfo ap p =>
      match s.clients ap with
      | some _ => (s, .returns (.code .adhocInUse))
      | none =>
          ({ s with clients := Function.update s.clients ap (some p) },
            .returns (.code .success))
  | .called (.removeClientInfo adhocId) =>
      match AdhocStorageManager.find s.adhocManager adhocId with
      | .ok ap => (s, .removeClientInfo ap)
      | .error _ => (s, .returns (.code .noSuchEntity))
  | .removeClientInfo ap =>
      ({ s with clients := Function.update s.clients ap none }, .returns (.code .success))
  | .called (.clientInfo ap) => (s, .returns (.client (s.clients ap)))
  | .called (.createPfs a) =>
      let (m, pfsId) := s.pfsManager.fetchId
      ({ s with pfsManager := m }, .createPfs pfsId a)
  | .createPfs pfsId a =>
      let (m, r) := PfsStorageManager.createLocked s.pfsManager pfsId a
      ({ s with pfsManager := m }, .returns (.pfs r))
  | .called (.updatePfs pfsId ctx) =>
      let (m, ec) := PfsStorageManager.update s.pfsManager pfsId ctx
      ({ s with pfsManager := m }, .returns (.code ec))
  | .called (.findPfs pfsId) =>
      (s, .returns (.pfs (PfsStorageManager.find s.pfsManager pfsId)))
  | .called (.removePfs pfsId) =>
      let (m, ec) := PfsStorageManager.remove s.pfsManager pfsId
      ({ s with pfsManager := m }, .returns (.code ec))
  | .called (.createTransfer a) =>
      let (m, txId) := s.transferManager.fetchId
      ({ s with transferManager := m }, .createTransfer txId a)
  | .createTransfer txId a =>
      let (m, r) := TransferManager.createLocked s.transferManager txId a
      ({ s with transferManager := m }, .returns (.transfer r))
  | .called (.updateTransfer txId bw) =>
      let (m, ec) := TransferManager.update s.transferManager txId bw
      ({ s with transferManager := m }, .returns (.code ec))
  | .called (.findTransfer txId) =>
      (s, .returns (.transfer (TransferManager.find s.transferManager txId)))
  | .called (.removeTransfer txId) =>
      let (m, r) := TransferManager.remove s.transferManager txId
      ({ s with transferManager := m }, .returns (.transfer r))
  | .returns r => (s, .returns r)

end ManagerState

/-- Threads that call the managers, section by section. -/
structure ManagerCallers (H : Type) where
  managers : ManagerState H
  threads : List (Option (Phase H))
  history : List (Visible (Method H) (Result H))

namespace ManagerCallers

def init (n : Nat) : ManagerCallers H := ⟨.empty, List.replicate n none, []⟩

def step (s : ManagerCallers H) : Event (Method H) → Option (ManagerCallers H)
  | .call i m =>
      match s.threads[i]? with
      | some none =>
          some { s with
            threads := s.threads.set i (some (.called m))
            history := .called i m :: s.history }
      | _ => none
  | .goOn i =>
      match s.threads[i]? with
      | some (some (.returns r)) =>
          some { s with
            threads := s.threads.set i none
            history := .returned i r :: s.history }
      | some (some ph) =>
          some { s with
            managers := (s.managers.advance ph).1
            threads := s.threads.set i (some (s.managers.advance ph).2) }
      | _ => none

end ManagerCallers

end Scord
