/-
  Scord.Server.Managers

  `job_manager`, `adhoc_storage_manager`, `pfs_storage_manager` and
  `transfer_manager`.  Each keeps its objects in a registry.  A `create` draws
  an id from an atomic counter before it takes the manager's lock; the part
  under the lock is `createAt`, so that the draws and the locked parts of
  several callers can be interleaved.
-/
import Scord.Server.InternalTypes

namespace Scord

open ObjectStore

/-! ## What the four managers share -/

/-- The locked part of a `create`: emplace a new object under `id`, unless the
    id is taken. -/
def createAt {α : Type} (r : Registry α) (id : UInt64) (a : α) :
    Registry α × Except ErrorCode (Ptr α) :=
  match r.find? id with
  | none =>
      let (r', it, inserted) := r.emplace id a
      -- the id was free, so this is never taken
      if !inserted then (r', .error .snafu) else (r', .ok it)
  | some _ => (r, .error .entityExists)

/-- `find`, the lookup under the lock. -/
def findAt {α : Type} (r : Registry α) (id : UInt64) : Except ErrorCode (Ptr α) :=
  match r.find? id with
  | some p => .ok p
  | none => .error .noSuchEntity

/-- `update`: change the object that is registered under `id`. -/
def updateAt {α : Type} (r : Registry α) (id : UInt64) (f : α → α) : Registry α × ErrorCode :=
  match r.find? id with
  | some p => (r.modify p f, .success)
  | none => (r, .noSuchEntity)

/-- `remove`: drop the entry of `id`. -/
def removeAt {α : Type} (r : Registry α) (id : UInt64) : Registry α × ErrorCode :=
  match r.find? id with
  | some _ => (r.erase id, .success)
  | none => (r, .noSuchEntity)

section Shared

variable {α : Type} {r : Registry α} {id : UInt64}

/-- A free id makes `createAt` succeed with the new object. -/
theorem createAt_of_free (h : r.find? id = none) (a : α) :
    createAt r id a = ((r.emplace id a).1, .ok r.next) := by
  have hsnd := Registry.emplace_of_free (a := a) h
  simp only [createAt, h]
  generalize r.emplace id a = e at hsnd ⊢
  obtain ⟨r', it, inserted⟩ := e
  cases hsnd
  rfl

theorem createAt_of_taken {p : Ptr α} (h : r.find? id = some p) (a : α) :
    createAt r id a = (r, .error .entityExists) := by
  simp only [createAt, h]

theorem findAt_eq_ok {p : Ptr α} : findAt r id = .ok p ↔ r.find? id = some p := by
  unfold findAt
  cases r.find? id <;> simp

theorem findAt_of_find? {p : Ptr α} (h : r.find? id = some p) : findAt r id = .ok p :=
  findAt_eq_ok.mpr h

theorem findAt_of_none (h : r.find? id = none) : findAt r id = .error .noSuchEntity := by
  simp only [findAt, h]

theorem updateAt_of_find? {p : Ptr α} (h : r.find? id = some p) (f : α → α) :
    updateAt r id f = (r.modify p f, .success) := by
  simp only [updateAt, h]

theorem updateAt_of_none (h : r.find? id = none) (f : α → α) :
    updateAt r id f = (r, .noSuchEntity) := by
  simp only [updateAt, h]

theorem removeAt_of_find? {p : Ptr α} (h : r.find? id = some p) :
    removeAt r id = (r.erase id, .success) := by
  simp only [removeAt, h]

theorem removeAt_of_none (h : r.find? id = none) :
    removeAt r id = (r, .noSuchEntity) := by
  simp only [removeAt, h]

end Shared

/-! ## `job_manager` -/

structure JobManager where
  jobs : Registry JobMetadata
  slurmToScord : UMap SlurmJobId JobId

namespace JobManager

def empty : JobManager where
  jobs := Registry.empty
  slurmToScord := ∅

/-- The locked part of `create`.  The slurm index is extended by `emplace`,
    which leaves an entry of another job with this slurm id alone. -/
def createLocked (m : JobManager) (id : JobId) (slurmId : SlurmJobId)
    (jobResources : JobResources) (jobRequirements : JobRequirements)
    (adhocMetadataPtr : Option AdhocPtr) : JobManager × Except ErrorCode JobPtr :=
  match m.jobs.find? id with
  | none =>
      let (jobs, itJob, inserted) := m.jobs.emplace id
        (JobMetadata.make ⟨id, slurmId⟩ jobResources jobRequirements adhocMetadataPtr)
      let m' := { m with
        jobs := jobs
        slurmToScord := (UMap.emplace m.slurmToScord slurmId id).1 }
      if !inserted then (m', .error .snafu) else (m', .ok itJob)
  | some _ => (m, .error .entityExists)

def fetchId (m : JobManager) : JobManager × JobId :=
  ({ m with jobs := m.jobs.fetchId.1 }, m.jobs.fetchId.2)

def create (m : JobManager) (slurmId : SlurmJobId) (jobResources : JobResources)
    (jobRequirements : JobRequirements) (adhocMetadataPtr : Option AdhocPtr) :
    JobManager × Except ErrorCode JobPtr :=
  let (m', id) := m.fetchId
  m'.createLocked id slurmId jobResources jobRequirements adhocMetadataPtr

def update (m : JobManager) (id : JobId) (jobResources : JobResources) :
    JobManager × ErrorCode :=
  let (jobs, ec) := updateAt m.jobs id fun j => j.update jobResources
  ({ m with jobs := jobs }, ec)

def find (m : JobManager) (id : JobId) : Except ErrorCode JobPtr := findAt m.jobs id

def findBySlurmId (m : JobManager) (slurmId : SlurmJobId) : Except ErrorCode JobPtr :=
  match m.slurmToScord.lookup slurmId with
  -- the entry may be that of another job with the same slurm id
  | some id => m.find id
  | none => .error .noSuchEntity

/-- `remove`: the index entry is erased by slurm id, whatever job it is of. -/
def remove (m : JobManager) (id : JobId) : JobManager × Except ErrorCode JobPtr :=
  match h : m.jobs.find? id with
  | some nh =>
      ({ m with
          jobs := m.jobs.erase id
          slurmToScord := m.slurmToScord.erase (m.jobs.deref h).job.slurmId }, .ok nh)
  | none => (m, .error .noSuchEntity)

/-- `j` is registered under `id`, with pointer `p`. -/
def Live (m : JobManager) (id : JobId) (p : JobPtr) (j : JobMetadata) : Prop :=
  m.jobs.find? id = some p ∧ m.jobs.get? p = some j

section Lemmas

variable {m : JobManager} {id : JobId}

@[simp] theorem fetchId_snd : m.fetchId.2 = m.jobs.currentId := rfl

/-- An entry leads to an object. -/
theorem live_of_find? {p : JobPtr} (h : m.jobs.find? id = some p) :
    ∃ j, m.Live id p j :=
  ⟨m.jobs.deref h, h, Registry.get?_eq_deref h⟩

theorem createLocked_of_free (h : m.jobs.find? id = none) (slurmId : SlurmJobId)
    (res : JobResources) (req : JobRequirements) (ptr : Option AdhocPtr) :
    m.createLocked id slurmId res req ptr
      = ({ m with
            jobs := (m.jobs.emplace id (JobMetadata.make ⟨id, slurmId⟩ res req ptr)).1
            slurmToScord := (UMap.emplace m.slurmToScord slurmId id).1 },
          .ok m.jobs.next) := by
  have hsnd := Registry.emplace_of_free
    (a := JobMetadata.make ⟨id, slurmId⟩ res req ptr) h
  simp only [createLocked, h]
  generalize m.jobs.emplace id (JobMetadata.make ⟨id, slurmId⟩ res req ptr) = e at hsnd ⊢
  obtain ⟨jobs, itJob, inserted⟩ := e
  cases hsnd
  rfl

theorem createLocked_of_taken {p : JobPtr} (h : m.jobs.find? id = some p)
    (slurmId : SlurmJobId) (res : JobResources) (req : JobRequirements)
    (ptr : Option AdhocPtr) :
    m.createLocked id slurmId res req ptr = (m, .error .entityExists) := by
  simp only [createLocked, h]

/-- With a free id drawn, `create` succeeds with the new job. -/
theorem create_of_free (h : m.jobs.find? m.jobs.currentId = none) (slurmId : SlurmJobId)
    (res : JobResources) (req : JobRequirements) (ptr : Option AdhocPtr) :
    m.create slurmId res req ptr
      = ({ jobs := (m.jobs.fetchId.1.emplace m.jobs.currentId
              (JobMetadata.make ⟨m.jobs.currentId, slurmId⟩ res req ptr)).1
           slurmToScord := (UMap.emplace m.slurmToScord slurmId m.jobs.currentId).1 },
          .ok m.jobs.next) :=
  createLocked_of_free (m := m.fetchId.1) h slurmId res req ptr

/-- With a taken id drawn, `create` only spends the id. -/
theorem create_of_taken {p : JobPtr} (h : m.jobs.find? m.jobs.currentId = some p)
    (slurmId : SlurmJobId) (res : JobResources) (req : JobRequirements)
    (ptr : Option AdhocPtr) :
    m.create slurmId res req ptr = (m.fetchId.1, .error .entityExists) :=
  createLocked_of_taken (m := m.fetchId.1) h slurmId res req ptr

theorem find_of_none (h : m.jobs.find? id = none) : m.find id = .error .noSuchEntity :=
  findAt_of_none h

theorem find_of_find? {p : JobPtr} (h : m.jobs.find? id = some p) : m.find id = .ok p :=
  findAt_of_find? h

theorem update_of_find? {p : JobPtr} (h : m.jobs.find? id = some p) (res : JobResources) :
    m.update id res
      = ({ m with jobs := m.jobs.modify p fun j => j.update res }, .success) := by
  simp only [update, updateAt_of_find? h]

theorem update_of_none (h : m.jobs.find? id = none) (res : JobResources) :
    m.update id res = (m, .noSuchEntity) := by
  simp only [update, updateAt_of_none h]

theorem remove_of_live {p : JobPtr} {j : JobMetadata} (h : m.Live id p j) :
    m.remove id
      = ({ m with
            jobs := m.jobs.erase id
            slurmToScord := m.slurmToScord.erase j.job.slurmId }, .ok p) := by
  unfold remove
  split
  case h_1 nh hnh =>
      obtain rfl : nh = p := Option.some.inj (hnh.symm.trans h.1)
      have hj : m.jobs.deref hnh = j :=
        Option.some.inj ((Registry.get?_eq_deref hnh).symm.trans h.2)
      rw [hj]
  case h_2 hnone =>
      rw [h.1] at hnone
      cases hnone

theorem remove_of_none (h : m.jobs.find? id = none) :
    m.remove id = (m, .error .noSuchEntity) := by
  unfold remove
  split
  case h_1 nh hnh =>
      rw [h] at hnh
      cases hnh
  case h_2 => rfl

end Lemmas

end JobManager

/-! ## `adhoc_storage_manager` -/

/-- `generate_adhoc_uuid`, given the string that the random generator draws. -/
def generateAdhocUuid (adhocType : AdhocStorageType) (randomString : String) : String :=
  adhocType.enum ++ "-" ++ randomString

abbrev AdhocStorageManager := Registry AdhocStorageMetadata

namespace AdhocStorageManager

def create (m : AdhocStorageManager) (randomString : String) (type : AdhocStorageType)
    (name : String) (ctx : AdhocCtx) (resources : AdhocResources) :
    AdhocStorageManager × Except ErrorCode AdhocPtr :=
  let (m', id) := m.fetchId
  createAt m' id
    (AdhocStorageMetadata.make (generateAdhocUuid type randomString)
      ⟨type, name, id, ctx, resources⟩)

def update (m : AdhocStorageManager) (id : AdhocId) (newResources : AdhocResources) :
    AdhocStorageManager × ErrorCode :=
  updateAt m id fun a => a.update newResources

def find (m : AdhocStorageManager) (id : AdhocId) : Except ErrorCode AdhocPtr := findAt m id

def remove (m : AdhocStorageManager) (id : AdhocId) : AdhocStorageManager × ErrorCode :=
  removeAt m id

/-- `remove_client_info`: empties the slot, whoever is in it. -/
def removeClientInfo (m : AdhocStorageManager) (adhocId : AdhocId) :
    AdhocStorageManager × ErrorCode :=
  match find m adhocId with
  | .ok p => (m.modify p AdhocStorageMetadata.removeClientInfo, .success)
  | .error _ => (m, .noSuchEntity)

section Lemmas

variable {m : AdhocStorageManager} {id : AdhocId}

theorem find_of_find? {p : AdhocPtr} (h : m.find? id = some p) : find m id = .ok p :=
  findAt_of_find? h

theorem find_of_none (h : m.find? id = none) : find m id = .error .noSuchEntity :=
  findAt_of_none h

theorem update_of_find? {p : AdhocPtr} (h : m.find? id = some p) (res : AdhocResources) :
    update m id res = (m.modify p fun a => a.update res, .success) :=
  updateAt_of_find? h _

theorem update_of_none (h : m.find? id = none) (res : AdhocResources) :
    update m id res = (m, .noSuchEntity) :=
  updateAt_of_none h _

theorem removeClientInfo_of_find? {p : AdhocPtr} (h : m.find? id = some p) :
    removeClientInfo m id = (m.modify p AdhocStorageMetadata.removeClientInfo, .success) := by
  simp only [removeClientInfo, find_of_find? h]

theorem removeClientInfo_of_none (h : m.find? id = none) :
    removeClientInfo m id = (m, .noSuchEntity) := by
  simp only [removeClientInfo, find_of_none h]

end Lemmas

end AdhocStorageManager

/-! ## `pfs_storage_manager` -/

abbrev PfsStorageManager := Registry PfsStorageMetadata

namespace PfsStorageManager

def create (m : PfsStorageManager) (type : PfsStorageType) (name : String) (ctx : PfsCtx) :
    PfsStorageManager × Except ErrorCode PfsPtr :=
  let (m', id) := m.fetchId
  createAt m' id ⟨⟨type, name, id, ctx⟩⟩

def update (m : PfsStorageManager) (id : PfsId) (newCtx : PfsCtx) :
    PfsStorageManager × ErrorCode :=
  updateAt m id fun s => s.update newCtx

def find (m : PfsStorageManager) (id : PfsId) : Except ErrorCode PfsPtr := findAt m id

def remove (m : PfsStorageManager) (id : PfsId) : PfsStorageManager × ErrorCode :=
  removeAt m id

end PfsStorageManager

/-! ## `transfer_manager` -/

abbrev TransferManager (H : Type) := Registry (TransferMetadata H)

namespace TransferManager

variable {H : Type}

def create (m : TransferManager H) (tx : H) (limits : List QosLimit) :
    TransferManager H × Except ErrorCode (TransferPtr H) :=
  let (m', id) := m.fetchId
  createAt m' id { id := id, handle := tx, qos := limits }

def update (m : TransferManager H) (id : TransferId) (obtainedBw : Bandwidth) :
    TransferManager H × ErrorCode :=
  updateAt m id fun t => t.update obtainedBw

def find (m : TransferManager H) (id : TransferId) : Except ErrorCode (TransferPtr H) :=
  findAt m id

/-- `remove` hands the extracted object back. -/
def remove (m : TransferManager H) (id : TransferId) :
    TransferManager H × Except ErrorCode (TransferPtr H) :=
  match m.find? id with
  | some nh => (m.erase id, .ok nh)
  | none => (m, .error .noSuchEntity)

/-- `transfer()`: a copy of the table. -/
def transfer (m : TransferManager H) : List (TransferId × TransferPtr H) :=
  m.entries.entries.map fun e => (e.1, e.2)

section Lemmas

variable {m : TransferManager H} {id : TransferId}

theorem find_of_find? {p : TransferPtr H} (h : m.find? id = some p) : find m id = .ok p :=
  findAt_of_find? h

theorem find_of_none (h : m.find? id = none) : find m id = .error .noSuchEntity :=
  findAt_of_none h

theorem find?_remove (m : TransferManager H) (id id' : TransferId) :
    (remove m id).1.find? id' = if id' = id then none else m.find? id' := by
  unfold remove
  cases h : m.find? id with
  | some p => exact Registry.find?_erase ..
  | none =>
      -- nothing is erased, and nothing is there under `id`
      by_cases hid : id' = id
      · rw [if_pos hid, hid]
        exact h
      · rw [if_neg hid]

theorem get?_remove (m : TransferManager H) (id : TransferId) (p : TransferPtr H) :
    (remove m id).1.get? p = m.get? p := by
  unfold remove
  cases m.find? id <;> rfl

/-- The copied table holds every id once, -/
theorem nodup_transfer (m : TransferManager H) : (m.transfer.map Prod.fst).Nodup := by
  have hkeys : m.transfer.map Prod.fst = m.entries.keys := by
    unfold transfer AList.keys List.keys
    rw [List.map_map]
    rfl
  rw [hkeys]
  exact m.entries.keys_nodup

/-- with the pointer that is in the table. -/
theorem find?_of_mem_transfer {e : TransferId × TransferPtr H} (h : e ∈ transfer m) :
    m.find? e.1 = some e.2 := by
  obtain ⟨⟨id, p⟩, hmem, rfl⟩ := List.mem_map.mp h
  exact AList.mem_lookup_iff.mpr hmem

end Lemmas

end TransferManager

end Scord
