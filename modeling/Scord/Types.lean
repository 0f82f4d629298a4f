/-
  Scord.Types

  The public data types of `scord/types.hpp`: error codes, datasets, nodes,
  adhoc and PFS storage descriptions, jobs with their resources and
  requirements, transfer states and QoS limits, and the responses that carry
  them over the network (`net/request.hpp`).

  A `std::string` is a `String` with one character for each of its bytes.
-/
import Mathlib.Init

namespace Scord

/-! ## Error codes -/

/-- `error_code`, under the names of `types.hpp`. -/
inductive ErrorCode
  | success
  | snafu
  | badArgs
  | outOfMemory
  | entityExists
  | noSuchEntity
  | adhocInUse
  | adhocTypeUnsupported
  | adhocDirCreateFailed
  | adhocDirExists
  | subprocessError
  | noResources
  | timeout
  | other
deriving DecidableEq, Repr

/-- `explicit operator bool`: an error code is true exactly when it says
    success. -/
def ErrorCode.toBool (ec : ErrorCode) : Bool := ec = .success

@[simp] theorem ErrorCode.toBool_eq_true {ec : ErrorCode} :
    ec.toBool = true ↔ ec = .success := by
  simp [toBool]

@[simp] theorem ErrorCode.toBool_eq_false {ec : ErrorCode} :
    ec.toBool = false ↔ ec ≠ .success := by
  simp [toBool]

/-- `job_id`, `slurm_job_id`, `transfer_id` and the storage ids are all
    `std::uint64_t`. -/
abbrev JobId := UInt64
abbrev SlurmJobId := UInt64
abbrev AdhocId := UInt64
abbrev PfsId := UInt64
abbrev TransferId := UInt64

/-! ## Nodes and datasets -/

inductive NodeType
  | regular
  | administrative
deriving DecidableEq, Repr

structure Node where
  hostname : String
  nodeType : NodeType := .regular
deriving DecidableEq, Repr

structure Dataset where
  id : String
deriving DecidableEq, Repr

structure DatasetRoute where
  source : Dataset
  destination : Dataset
deriving DecidableEq, Repr

/-! ## Adhoc storage -/

inductive AdhocStorageType
  | gekkofs
  | dataclay
  | expand
  | hercules
deriving DecidableEq, Repr

/-- The formatter of the type in presentation `f`, the default one. -/
def AdhocStorageType.full : AdhocStorageType → String
  | gekkofs => "ADM_ADHOC_STORAGE_GEKKOFS"
  | dataclay => "ADM_ADHOC_STORAGE_DATACLAY"
  | expand => "ADM_ADHOC_STORAGE_EXPAND"
  | hercules => "ADM_ADHOC_STORAGE_HERCULES"

/-- The formatter of the type in presentation `e`. -/
def AdhocStorageType.enum : AdhocStorageType → String
  | gekkofs => "gekkofs"
  | dataclay => "dataclay"
  | expand => "expand"
  | hercules => "hercules"

inductive ExecutionMode
  | inJobShared
  | inJobDedicated
  | separateNew
  | separateExisting
deriving DecidableEq, Repr

inductive AccessType
  | readOnly
  | writeOnly
  | readWrite
deriving DecidableEq, Repr

/-- `adhoc_storage::resources`: the nodes of the instance. -/
structure AdhocResources where
  nodes : List Node
deriving DecidableEq, Repr

/-- `adhoc_storage::ctx`. -/
structure AdhocCtx where
  controllerAddress : String
  dataStagerAddress : String
  execMode : ExecutionMode
  accessType : AccessType
  walltime : UInt32
  shouldFlush : Bool
deriving DecidableEq, Repr

structure AdhocStorage where
  type : AdhocStorageType
  name : String
  id : AdhocId
  context : AdhocCtx
  resources : AdhocResources
deriving DecidableEq, Repr

/-- `adhoc_storage::update(resources)`. -/
def AdhocStorage.update (s : AdhocStorage) (newResources : AdhocResources) : AdhocStorage :=
  { s with resources := newResources }

/-! ## PFS storage -/

inductive PfsStorageType
  | lustre
  | gpfs
deriving DecidableEq, Repr

structure PfsCtx where
  mountPoint : String
deriving DecidableEq, Repr

structure PfsStorage where
  type : PfsStorageType
  name : String
  id : PfsId
  context : PfsCtx
deriving DecidableEq, Repr

/-- `pfs_storage::update(ctx)`. -/
def PfsStorage.update (s : PfsStorage) (newCtx : PfsCtx) : PfsStorage :=
  { s with context := newCtx }

/-! ## Jobs -/

structure JobResources where
  nodes : List Node
deriving DecidableEq, Repr

/-- `job::requirements`: the routes of the job and the adhoc storage it asks
    for, if any. -/
structure JobRequirements where
  inputs : List DatasetRoute
  outputs : List DatasetRoute
  expectedOutputs : List DatasetRoute
  adhocStorage : Option AdhocStorage
deriving DecidableEq, Repr

structure Job where
  id : JobId
  slurmId : SlurmJobId
deriving DecidableEq, Repr

structure JobInfo where
  adhocControllerAddress : String
  uuid : String
  ioProcs : UInt32
deriving DecidableEq, Repr

/-! ## Transfers and QoS -/

inductive TransferMapping
  | oneToOne
  | oneToN
  | nToN
deriving DecidableEq, Repr

/-- `transfer_state::type`. -/
inductive TransferState
  | queued
  | running
  | finished
  | failed
  | cancelled
deriving DecidableEq, Repr

inductive QosSubclass
  | bandwidth
  | iops
deriving DecidableEq, Repr

/-- `qos::entity`: the scope, with what it is about. -/
inductive QosEntity
  | dataset (d : Dataset)
  | node (n : Node)
  | job (j : Job)
  | transfer (id : TransferId)
deriving DecidableEq, Repr

structure QosLimit where
  entity : Option QosEntity
  subclass : QosSubclass
  value : UInt64
deriving DecidableEq, Repr

/-! ## Responses -/

/-- `network::generic_response`. -/
structure GenericResponse where
  opId : UInt64
  errorCode : ErrorCode
deriving DecidableEq, Repr

/-- `network::response_with_value`. -/
structure ResponseWithValue (ν : Type) where
  opId : UInt64
  errorCode : ErrorCode
  value : Option ν
deriving DecidableEq, Repr

/-- `network::response_with_id`. -/
abbrev ResponseWithId := ResponseWithValue UInt64

end Scord
