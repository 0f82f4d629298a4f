/-
  Scord.Server.InternalTypes

  The objects the server keeps (`internal_types.hpp`): job, adhoc storage, PFS
  storage and transfer metadata.

  A job points to the adhoc storage instance it was registered for, and an
  adhoc storage instance points back to its client job, so the two types are
  declared together.  Both pointers may be null.
-/
import Scord.Lib.FloatArith
import Scord.Lib.ObjectStore
import Scord.Types

namespace Scord

open ObjectStore

mutual

/-- `internal::job_metadata`.  The resources and the requirements are optional
    in the type, although the only constructor engages both. -/
structure JobMetadata where
  job : Job
  resources : Option JobResources
  requirements : Option JobRequirements
  adhocMetadataPtr : Option (Ptr AdhocStorageMetadata)

/-- `internal::adhoc_storage_metadata`. -/
structure AdhocStorageMetadata where
  uuid : String
  adhocStorage : AdhocStorage
  clientInfo : Option (Ptr JobMetadata)

end

abbrev JobPtr := Ptr JobMetadata
abbrev AdhocPtr := Ptr AdhocStorageMetadata

/-! ## Jobs -/

namespace JobMetadata

/-- The constructor `job_metadata(job, resources, requirements, ptr)`. -/
def make (job : Job) (resources : JobResources) (requirements : JobRequirements)
    (adhocMetadataPtr : Option AdhocPtr) : JobMetadata where
  job := job
  resources := some resources
  requirements := some requirements
  adhocMetadataPtr := adhocMetadataPtr

/-- The number of nodes of the job, as a `std::uint32_t`. -/
def ioProcs (m : JobMetadata) : UInt32 :=
  match m.resources with
  | some r => UInt32.ofNat r.nodes.length
  | none => 0

def update (m : JobMetadata) (resources : JobResources) : JobMetadata :=
  { m with resources := some resources }

@[simp] theorem update_job (m : JobMetadata) (r : JobResources) :
    (m.update r).job = m.job := rfl
@[simp] theorem update_requirements (m : JobMetadata) (r : JobResources) :
    (m.update r).requirements = m.requirements := rfl
@[simp] theorem update_adhocMetadataPtr (m : JobMetadata) (r : JobResources) :
    (m.update r).adhocMetadataPtr = m.adhocMetadataPtr := rfl

end JobMetadata

/-! ## Adhoc storage -/

namespace AdhocStorageMetadata

/-- The constructor `adhoc_storage_metadata(uuid, adhoc_storage)`: no client. -/
def make (uuid : String) (adhocStorage : AdhocStorage) : AdhocStorageMetadata where
  uuid := uuid
  adhocStorage := adhocStorage
  clientInfo := none

def controllerAddress (m : AdhocStorageMetadata) : String :=
  m.adhocStorage.context.controllerAddress

def dataStagerAddress (m : AdhocStorageMetadata) : String :=
  m.adhocStorage.context.dataStagerAddress

def update (m : AdhocStorageMetadata) (newResources : AdhocResources) :
    AdhocStorageMetadata :=
  { m with adhocStorage := m.adhocStorage.update newResources }

/-- A storage that has a client keeps it, and the caller is told so. -/
def addClientInfo (m : AdhocStorageMetadata) (jobMetadataPtr : JobPtr) :
    AdhocStorageMetadata × ErrorCode :=
  match m.clientInfo with
  | some _ => (m, .adhocInUse)
  | none => ({ m with clientInfo := some jobMetadataPtr }, .success)

def removeClientInfo (m : AdhocStorageMetadata) : AdhocStorageMetadata :=
  { m with clientInfo := none }

@[simp] theorem update_uuid (m : AdhocStorageMetadata) (r : AdhocResources) :
    (m.update r).uuid = m.uuid := rfl
@[simp] theorem update_clientInfo (m : AdhocStorageMetadata) (r : AdhocResources) :
    (m.update r).clientInfo = m.clientInfo := rfl
@[simp] theorem update_resources (m : AdhocStorageMetadata) (r : AdhocResources) :
    (m.update r).adhocStorage.resources = r := rfl
@[simp] theorem update_controllerAddress (m : AdhocStorageMetadata) (r : AdhocResources) :
    (m.update r).controllerAddress = m.controllerAddress := rfl

@[simp] theorem removeClientInfo_clientInfo (m : AdhocStorageMetadata) :
    m.removeClientInfo.clientInfo = none := rfl

/-- The slot is occupied afterwards: by its client, or by the new job. -/
@[simp] theorem addClientInfo_clientInfo (m : AdhocStorageMetadata) (p : JobPtr) :
    (m.addClientInfo p).1.clientInfo = some (m.clientInfo.getD p) := by
  unfold addClientInfo
  cases h : m.clientInfo with
  | none => rfl
  | some q => simp [h]

@[simp] theorem addClientInfo_adhocStorage (m : AdhocStorageMetadata) (p : JobPtr) :
    (m.addClientInfo p).1.adhocStorage = m.adhocStorage := by
  unfold addClientInfo
  cases m.clientInfo <;> rfl

/-- The two are the same storage: what is given to a storage when it is
    registered is the same, whatever its resources and its client. -/
structure SameIdentity (a b : AdhocStorageMetadata) : Prop where
  uuid : a.uuid = b.uuid
  id : a.adhocStorage.id = b.adhocStorage.id
  context : a.adhocStorage.context = b.adhocStorage.context

namespace SameIdentity

variable (a : AdhocStorageMetadata)

theorem refl : a.SameIdentity a := ⟨rfl, rfl, rfl⟩
theorem update (r : AdhocResources) : (a.update r).SameIdentity a := ⟨rfl, rfl, rfl⟩
theorem removeClientInfo : a.removeClientInfo.SameIdentity a := ⟨rfl, rfl, rfl⟩

theorem addClientInfo (p : JobPtr) : (a.addClientInfo p).1.SameIdentity a := by
  unfold AdhocStorageMetadata.addClientInfo
  cases a.clientInfo <;> exact ⟨rfl, rfl, rfl⟩

end SameIdentity

end AdhocStorageMetadata

/-! ## PFS storage -/

/-- `internal::pfs_storage_metadata`.  Its client pointer is never set nor
    read. -/
structure PfsStorageMetadata where
  pfsStorage : PfsStorage

def PfsStorageMetadata.update (m : PfsStorageMetadata) (ctx : PfsCtx) : PfsStorageMetadata :=
  { m with pfsStorage := m.pfsStorage.update ctx }

abbrev PfsPtr := Ptr PfsStorageMetadata

/-! ## Transfers -/

/-- The `float` that a bandwidth is. -/
abbrev Bandwidth := FloatArith.Value

/-- `internal::transfer_metadata`, over the type of the Cargo handles.  A
    bandwidth that was not measured yet is `-1`. -/
structure TransferMetadata (H : Type) where
  id : TransferId
  handle : H
  qos : List QosLimit
  measuredBandwidth : Bandwidth := -1

def TransferMetadata.update {H : Type} (m : TransferMetadata H) (bandwidth : Bandwidth) :
    TransferMetadata H :=
  { m with measuredBandwidth := bandwidth }

abbrev TransferPtr (H : Type) := Ptr (TransferMetadata H)

end Scord
