/-
  Scord.Wire.Messages

  How the types of the RPCs are written to an archive and read back: the `save`,
  `load` and `serialize` functions of `types.cpp`, `types.hpp` and
  `net/request.hpp`.

  A `job` is written without its slurm id, and read into an object whose
  constructor leaves that id uninitialized.
-/
import Scord.Lib.Archive
import Scord.Types

namespace Scord.Wire

open Archive Archive.Serializer

/-! ## Enumerations -/

def nodeType : Serializer NodeType :=
  enumeration [.regular, .administrative]
    (by rintro ⟨⟩ <;> decide)

def adhocStorageType : Serializer AdhocStorageType :=
  enumeration [.gekkofs, .dataclay, .expand, .hercules]
    (by rintro ⟨⟩ <;> decide)

def executionMode : Serializer ExecutionMode :=
  enumeration [.inJobShared, .inJobDedicated, .separateNew, .separateExisting]
    (by rintro ⟨⟩ <;> decide)

def accessType : Serializer AccessType :=
  enumeration [.readOnly, .writeOnly, .readWrite]
    (by rintro ⟨⟩ <;> decide)

def pfsStorageType : Serializer PfsStorageType :=
  enumeration [.lustre, .gpfs]
    (by rintro ⟨⟩ <;> decide)

def transferMapping : Serializer TransferMapping :=
  enumeration [.oneToOne, .oneToN, .nToN]
    (by rintro ⟨⟩ <;> decide)

def transferStateType : Serializer TransferState :=
  enumeration [.queued, .running, .finished, .failed, .cancelled]
    (by rintro ⟨⟩ <;> decide)

def qosSubclass : Serializer QosSubclass :=
  enumeration [.bandwidth, .iops]
    (by rintro ⟨⟩ <;> decide)

/-- `qos::scope` -/
inductive QosScope
  | dataset
  | node
  | job
  | transfer
deriving DecidableEq, Repr

def qosScope : Serializer QosScope :=
  enumeration [.dataset, .node, .job, .transfer]
    (by rintro ⟨⟩ <;> decide)

def errorCode : Serializer ErrorCode :=
  enumeration [.success, .snafu, .badArgs, .outOfMemory, .entityExists, .noSuchEntity,
    .adhocInUse, .adhocTypeUnsupported, .adhocDirCreateFailed, .adhocDirExists,
    .subprocessError, .noResources, .timeout, .other]
    (by rintro ⟨⟩ <;> decide)

/-! ## Nodes and datasets -/

/-- `node::impl` -/
def nodeImpl : Serializer Node where
  save n := text.save n.hostname ++ nodeType.save n.nodeType
  load := do
    let hostname ← text.load
    let nodeType ← nodeType.load
    return { hostname, nodeType }

def node : Serializer Node := uniquePtr nodeImpl

/-- `dataset::impl` -/
def datasetImpl : Serializer Dataset where
  save d := text.save d.id
  load := do
    let id ← text.load
    return { id }

def dataset : Serializer Dataset := uniquePtr datasetImpl

/-- `dataset_route::impl` -/
def datasetRouteImpl : Serializer DatasetRoute where
  save r := dataset.save r.source ++ dataset.save r.destination
  load := do
    let source ← dataset.load
    let destination ← dataset.load
    return { source, destination }

def datasetRoute : Serializer DatasetRoute := uniquePtr datasetRouteImpl

/-! ## Storage -/

/-- `adhoc_storage::resources` -/
def adhocResources : Serializer AdhocResources where
  save r := (vector node).save r.nodes
  load := do
    let nodes ← (vector node).load
    return { nodes }

/-- `adhoc_storage::ctx` -/
def adhocCtx : Serializer AdhocCtx where
  save c :=
    text.save c.controllerAddress ++ (text.save c.dataStagerAddress ++
      (executionMode.save c.execMode ++ (accessType.save c.accessType ++
        (u32.save c.walltime ++ bool.save c.shouldFlush))))
  load := do
    let controllerAddress ← text.load
    let dataStagerAddress ← text.load
    let execMode ← executionMode.load
    let accessType ← accessType.load
    let walltime ← u32.load
    let shouldFlush ← bool.load
    return { controllerAddress, dataStagerAddress, execMode, accessType, walltime, shouldFlush }

/-- `adhoc_storage::impl` -/
def adhocStorageImpl : Serializer AdhocStorage where
  save s :=
    adhocStorageType.save s.type ++ (text.save s.name ++ (u64.save s.id ++
      (adhocCtx.save s.context ++ adhocResources.save s.resources)))
  load := do
    let type ← adhocStorageType.load
    let name ← text.load
    let id ← u64.load
    let context ← adhocCtx.load
    let resources ← adhocResources.load
    return { type, name, id, context, resources }

def adhocStorage : Serializer AdhocStorage := uniquePtr adhocStorageImpl

/-- `pfs_storage::ctx`: a path is written as its text. -/
def pfsCtx : Serializer PfsCtx where
  save c := text.save c.mountPoint
  load := do
    let mountPoint ← text.load
    return { mountPoint }

/-- `pfs_storage::impl` -/
def pfsStorageImpl : Serializer PfsStorage where
  save s :=
    pfsStorageType.save s.type ++ (text.save s.name ++ (u64.save s.id ++
      pfsCtx.save s.context))
  load := do
    let type ← pfsStorageType.load
    let name ← text.load
    let id ← u64.load
    let context ← pfsCtx.load
    return { type, name, id, context }

def pfsStorage : Serializer PfsStorage := uniquePtr pfsStorageImpl

/-! ## Jobs and transfers -/

/-- `job::resources` -/
def jobResources : Serializer JobResources where
  save r := (vector node).save r.nodes
  load := do
    let nodes ← (vector node).load
    return { nodes }

/-- `job::requirements` -/
def jobRequirements : Serializer JobRequirements where
  save r :=
    (vector datasetRoute).save r.inputs ++ ((vector datasetRoute).save r.outputs ++
      ((vector datasetRoute).save r.expectedOutputs ++
        (optional adhocStorage).save r.adhocStorage))
  load := do
    let inputs ← (vector datasetRoute).load
    let outputs ← (vector datasetRoute).load
    let expectedOutputs ← (vector datasetRoute).load
    let adhocStorage ← (optional adhocStorage).load
    return { inputs, outputs, expectedOutputs, adhocStorage }

def jobInfo : Serializer JobInfo where
  save i := text.save i.adhocControllerAddress ++ (text.save i.uuid ++ u32.save i.ioProcs)
  load := do
    let adhocControllerAddress ← text.load
    let uuid ← text.load
    let ioProcs ← u32.load
    return { adhocControllerAddress, uuid, ioProcs }

/-- `transfer::impl` -/
def transferImpl : Serializer TransferId := u64

def transfer : Serializer TransferId := uniquePtr transferImpl

/-- `transfer_state::impl` -/
def transferStateImpl : Serializer TransferState := transferStateType

def transferState : Serializer TransferState := uniquePtr transferStateImpl

section Memory

-- what the memory of a new `job::impl` holds, by how much of the archive is still
-- unread when it is loaded
variable (fresh : Nat → SlurmJobId)

/-- `job::impl`: only the id is written, and `impl() {}` initializes nothing. -/
def jobImpl : Serializer Job where
  save j := u64.save j.id
  load := do
    let id ← u64.load
    let unread ← get
    return { id, slurmId := fresh unread.length }

def job : Serializer Job := uniquePtr (jobImpl fresh)

/-! ## QoS -/

/-- `std::variant<dataset, node, job, transfer>` -/
def qosData : Serializer QosEntity where
  save
    | .dataset d => .num 0 :: dataset.save d
    | .node n => .num 1 :: node.save n
    | .job j => .num 2 :: (job fresh).save j
    | .transfer id => .num 3 :: transfer.save id
  load := do
    match ← next with
    | .num 0 =>
        let d ← dataset.load
        return .dataset d
    | .num 1 =>
        let n ← node.load
        return .node n
    | .num 2 =>
        let j ← (job fresh).load
        return .job j
    | .num 3 =>
        let id ← transfer.load
        return .transfer id
    | _ => failure

def scopeOf : QosEntity → QosScope
  | .dataset _ => .dataset
  | .node _ => .node
  | .job _ => .job
  | .transfer _ => .transfer

/-- `qos::entity::impl`.  An entity is always about what its scope says. -/
def qosEntityImpl : Serializer QosEntity where
  save e := qosScope.save (scopeOf e) ++ (qosData fresh).save e
  load := do
    let scope ← qosScope.load
    let e ← (qosData fresh).load
    if scopeOf e = scope then return e else failure

def qosEntity : Serializer QosEntity := uniquePtr (qosEntityImpl fresh)

/-- `qos::limit::impl` -/
def qosLimitImpl : Serializer QosLimit where
  save l :=
    qosSubclass.save l.subclass ++ (u64.save l.value ++
      (optional (qosEntity fresh)).save l.entity)
  load := do
    let subclass ← qosSubclass.load
    let value ← u64.load
    let entity ← (optional (qosEntity fresh)).load
    return { entity, subclass, value }

def qosLimit : Serializer QosLimit := uniquePtr (qosLimitImpl fresh)

end Memory

/-! ## Responses -/

/-- `generic_response` -/
def genericResponse : Serializer GenericResponse where
  save r := u64.save r.opId ++ errorCode.save r.errorCode
  load := do
    let opId ← u64.load
    let errorCode ← errorCode.load
    return { opId, errorCode }

/-- `response_with_value`: its base class, and the value. -/
def responseWithValue {ν : Type} (s : Serializer ν) : Serializer (ResponseWithValue ν) where
  save r := genericResponse.save ⟨r.opId, r.errorCode⟩ ++ (optional s).save r.value
  load := do
    let base ← genericResponse.load
    let value ← (optional s).load
    return { opId := base.opId, errorCode := base.errorCode, value }

/-! ## All types of the RPCs -/

/-- The types of the arguments and of the responses. -/
inductive Ty
  | u64
  | text
  | adhocStorageType
  | pfsStorageType
  | transferMapping
  | node
  | dataset
  | datasetRoute
  | adhocCtx
  | adhocResources
  | adhocStorage
  | pfsCtx
  | pfsStorage
  | jobResources
  | jobRequirements
  | jobInfo
  | transfer
  | transferState
  | qosEntity
  | qosLimit
  | genericResponse
  | responseWithValue (t : Ty)
  | vector (t : Ty)
  | optional (t : Ty)
  | pair (t u : Ty)

namespace Ty

abbrev Value : Ty → Type
  | u64 => UInt64
  | text => String
  | adhocStorageType => AdhocStorageType
  | pfsStorageType => PfsStorageType
  | transferMapping => TransferMapping
  | node => Node
  | dataset => Dataset
  | datasetRoute => DatasetRoute
  | adhocCtx => AdhocCtx
  | adhocResources => AdhocResources
  | adhocStorage => AdhocStorage
  | pfsCtx => PfsCtx
  | pfsStorage => PfsStorage
  | jobResources => JobResources
  | jobRequirements => JobRequirements
  | jobInfo => JobInfo
  | transfer => TransferId
  | transferState => TransferState
  | qosEntity => QosEntity
  | qosLimit => QosLimit
  | genericResponse => GenericResponse
  | responseWithValue t => ResponseWithValue t.Value
  | vector t => List t.Value
  | optional t => Option t.Value
  | pair t u => t.Value × u.Value

def serializer (fresh : Nat → SlurmJobId) : (t : Ty) → Serializer t.Value
  | u64 => Serializer.u64
  | text => Serializer.text
  | adhocStorageType => Wire.adhocStorageType
  | pfsStorageType => Wire.pfsStorageType
  | transferMapping => Wire.transferMapping
  | node => Wire.node
  | dataset => Wire.dataset
  | datasetRoute => Wire.datasetRoute
  | adhocCtx => Wire.adhocCtx
  | adhocResources => Wire.adhocResources
  | adhocStorage => Wire.adhocStorage
  | pfsCtx => Wire.pfsCtx
  | pfsStorage => Wire.pfsStorage
  | jobResources => Wire.jobResources
  | jobRequirements => Wire.jobRequirements
  | jobInfo => Wire.jobInfo
  | transfer => Wire.transfer
  | transferState => Wire.transferState
  | qosEntity => Wire.qosEntity fresh
  | qosLimit => Wire.qosLimit fresh
  | genericResponse => Wire.genericResponse
  | responseWithValue t => Wire.responseWithValue (t.serializer fresh)
  | vector t => Serializer.vector (t.serializer fresh)
  | optional t => Serializer.optional (t.serializer fresh)
  | pair t u => Serializer.pair (t.serializer fresh) (u.serializer fresh)

end Ty

end Scord.Wire
