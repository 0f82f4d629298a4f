/-
  Scord.Server.ManagerMaps

  Each of the four managers is a partial map with fresh ids, for any number of
  interleaved callers: the draws of ids and the locked sections are the steps of
  `Lib.FreshMap`, and what a caller is answered is what the abstract map answers.
-/
import Scord.Lib.FreshMap
import Scord.Server.Managers

namespace Scord

open ObjectStore FreshMap StepSystem

/-! ## What a caller sees of a registry -/

namespace ManagerMaps

variable {α ν : Type}

/-- The object that is registered under an id. -/
def objectAt (r : Registry ν) (id : UInt64) : Option ν := (r.find? id).bind r.get?

/-- A pointer is answered with the object behind it. -/
def answerPtr (r : Registry ν) : Except ErrorCode (Ptr ν) → Answer ν ErrorCode
  | .error ec => .refused ec
  | .ok p =>
      match r.get? p with
      | some v => .entry v
      | none => .dangling

def answerCode : ErrorCode → Answer ν ErrorCode
  | .success => .done
  | ec => .refused ec

/-- The object that `remove` hands back is out of the map. -/
def answerRemoved : Except ErrorCode (Ptr ν) → Answer ν ErrorCode
  | .ok _ => .done
  | .error ec => .refused ec

variable {r : Registry ν} {id : UInt64}

theorem objectAt_eq_some {v : ν} :
    objectAt r id = some v ↔ ∃ p, r.find? id = some p ∧ r.get? p = some v :=
  Option.bind_eq_some_iff

/-- An id without an object is not registered. -/
theorem find?_of_objectAt_none (h : objectAt r id = none) : r.find? id = none := by
  cases hfind : r.find? id with
  | none => rfl
  | some p =>
      have hobject := objectAt_eq_some.mpr ⟨p, hfind, Registry.get?_eq_deref hfind⟩
      rw [h] at hobject
      cases hobject

theorem objectAt_emplace (h : objectAt r id = none) (v : ν) :
    objectAt (r.emplace id v).1 = Function.update (objectAt r) id (some v) := by
  funext id'
  have hfree := find?_of_objectAt_none h
  rw [Function.update_apply]
  unfold objectAt
  rw [Registry.find?_emplace_of_free _ hfree]
  split
  -- the new id leads to the new object, any other to the one it led to
  · rw [Option.bind_some, Registry.get?_emplace_next]
  · cases hfind : r.find? id' with
    | none => rfl
    | some p =>
        have hget := Registry.get?_eq_deref hfind
        rw [Option.bind_some, Option.bind_some, Registry.get?_emplace_of_get? hget, hget]

/-- A change in place changes the object of one id, when no other id has its
    pointer. -/
theorem objectAt_modify {p : Ptr ν} {v : ν} (hfind : r.find? id = some p)
    (hget : r.get? p = some v) (hinj : ∀ id', r.find? id' = some p → id' = id) (f : ν → ν) :
    objectAt (r.modify p f) = Function.update (objectAt r) id (some (f v)) := by
  funext id'
  rw [Function.update_apply]
  unfold objectAt
  rw [Registry.find?_modify]
  split
  case isTrue heq =>
    rw [heq, hfind, Option.bind_some, Registry.get?_modify, if_pos rfl, hget, Option.map_some]
  case isFalse hne =>
    cases hfind' : r.find? id' with
    | none => rfl
    | some q =>
        -- another id has another pointer, and its object is untouched
        have hq : q ≠ p := by
          rintro rfl
          exact hne (hinj id' hfind')
        rw [Option.bind_some, Option.bind_some, Registry.get?_modify, if_neg hq]

theorem objectAt_erase : objectAt (r.erase id) = Function.update (objectAt r) id none := by
  funext id'
  rw [Function.update_apply]
  unfold objectAt
  rw [Registry.find?_erase]
  split
  · rfl
  · rfl

/-- Two ids with one pointer have one object, so they are the one id that the
    object carries. -/
theorem find?_inj {keyOf : ν → UInt64} (hown : ∀ id v, objectAt r id = some v → keyOf v = id)
    {p : Ptr ν} {v : ν} (hfind : r.find? id = some p) (hget : r.get? p = some v) :
    ∀ id', r.find? id' = some p → id' = id := by
  intro id' hfind'
  calc id' = keyOf v := (hown id' v (objectAt_eq_some.mpr ⟨p, hfind', hget⟩)).symm
    _ = id := hown id v (objectAt_eq_some.mpr ⟨p, hfind, hget⟩)

/-! ## A registry on its own -/

/-- The operations that the adhoc storage, PFS storage and transfer managers
    have in common. -/
def registryImpl {υ : Type} (make : UInt64 → α → ν) (change : υ → ν → ν) :
    Impl (Registry ν) α υ ν ErrorCode where
  init := Registry.empty
  counter := Registry.currentId
  view := objectAt
  draw := Registry.fetchId
  create r id a :=
    let created := createAt r id (make id a)
    (created.1, answerPtr created.1 created.2)
  update r id u :=
    let updated := updateAt r id (change u)
    (updated.1, answerCode updated.2)
  find r id := answerPtr r (findAt r id)
  remove r id :=
    let removed := removeAt r id
    (removed.1, answerCode removed.2)

theorem registryImpl_simulates {υ : Type} (K : Spec α υ ν ErrorCode)
    (htaken : K.taken = .entityExists) (hmissing : K.missing = .noSuchEntity) :
    (registryImpl K.make K.set).Simulates K := by
  constructor
  case view_init => exact fun _ => rfl
  case counter_init => rfl
  case draw => exact fun r => ⟨rfl, rfl, rfl⟩
  case create_free =>
    intro r id a hnone
    have hnone : objectAt r id = none := hnone
    have hcreate := createAt_of_free (find?_of_objectAt_none hnone) (K.make id a)
    have hget : (r.emplace id (K.make id a)).1.get? r.next = some (K.make id a) :=
      Registry.get?_emplace_next ..
    simp only [registryImpl, hcreate, answerPtr, hget, true_and]
    exact ⟨rfl, objectAt_emplace hnone _⟩
  case create_taken =>
    intro r id v a hv
    obtain ⟨p, hfind, -⟩ := objectAt_eq_some.mp hv
    simp only [registryImpl, createAt_of_taken hfind, answerPtr, htaken]
  case update_missing =>
    intro r id u hnone
    have hupdate := updateAt_of_none (find?_of_objectAt_none hnone) (K.set u)
    simp only [registryImpl, hupdate, answerCode, hmissing]
  case update_entry =>
    intro r id v u hown hv
    obtain ⟨p, hfind, hget⟩ := objectAt_eq_some.mp hv
    -- no other entry changes, since objects carry their ids
    simp only [registryImpl, updateAt_of_find? hfind, answerCode, true_and]
    exact ⟨rfl, objectAt_modify hfind hget (find?_inj hown hfind hget) _⟩
  case find_missing =>
    intro r id hnone
    simp only [registryImpl, findAt_of_none (find?_of_objectAt_none hnone), answerPtr, hmissing]
  case find_entry =>
    intro r id v hv
    obtain ⟨p, hfind, hget⟩ := objectAt_eq_some.mp hv
    simp only [registryImpl, findAt_of_find? hfind, answerPtr, hget]
  case remove_missing =>
    intro r id hnone
    have hremove := removeAt_of_none (find?_of_objectAt_none hnone)
    simp only [registryImpl, hremove, answerCode, hmissing]
  case remove_entry =>
    intro r id v hv
    obtain ⟨p, hfind, -⟩ := objectAt_eq_some.mp hv
    simp only [registryImpl, removeAt_of_find? hfind, answerCode, true_and]
    exact ⟨rfl, objectAt_erase⟩

end ManagerMaps

/-! ## The job manager -/

/-- What a job is created from. -/
structure JobArgs where
  slurmId : SlurmJobId
  resources : JobResources
  requirements : JobRequirements
  adhocMetadataPtr : Option AdhocPtr

namespace JobManager

open ManagerMaps

/-- The map of jobs: an update replaces the resources of a job. -/
def mapSpec : Spec JobArgs JobResources JobMetadata ErrorCode where
  make id a := JobMetadata.make ⟨id, a.slurmId⟩ a.resources a.requirements a.adhocMetadataPtr
  set res j := { j with resources := some res }
  keyOf j := j.job.id
  taken := .entityExists
  missing := .noSuchEntity
  keyOf_make _ _ := rfl
  keyOf_set _ _ := rfl

def mapImpl : Impl JobManager JobArgs JobResources JobMetadata ErrorCode where
  init := empty
  counter m := m.jobs.currentId
  view m := objectAt m.jobs
  draw := fetchId
  create m id a :=
    let created := m.createLocked id a.slurmId a.resources a.requirements a.adhocMetadataPtr
    (created.1, answerPtr created.1.jobs created.2)
  update m id res :=
    let updated := m.update id res
    (updated.1, answerCode updated.2)
  find m id := answerPtr m.jobs (m.find id)
  remove m id :=
    let removed := m.remove id
    (removed.1, answerRemoved removed.2)

/-- `create` is a draw and the locked part with the drawn id. -/
theorem create_eq (m : JobManager) (a : JobArgs) :
    m.create a.slurmId a.resources a.requirements a.adhocMetadataPtr
      = m.fetchId.1.createLocked m.fetchId.2 a.slurmId a.resources a.requirements
          a.adhocMetadataPtr := rfl

/-- The slurm index plays no part in what is stored under an id. -/
theorem mapImpl_simulates : mapImpl.Simulates mapSpec := by
  constructor
  case view_init => exact fun _ => rfl
  case counter_init => rfl
  case draw => exact fun m => ⟨rfl, rfl, rfl⟩
  case create_free =>
    intro m id a hnone
    have hnone : objectAt m.jobs id = none := hnone
    have hcreate := createLocked_of_free (find?_of_objectAt_none hnone) a.slurmId a.resources
      a.requirements a.adhocMetadataPtr
    have hget : (m.jobs.emplace id (JobMetadata.make ⟨id, a.slurmId⟩ a.resources
        a.requirements a.adhocMetadataPtr)).1.get? m.jobs.next = some (mapSpec.make id a) :=
      Registry.get?_emplace_next ..
    simp only [mapImpl, hcreate, answerPtr, hget, true_and]
    exact ⟨rfl, objectAt_emplace hnone _⟩
  case create_taken =>
    intro m id j a hj
    obtain ⟨p, hfind, -⟩ := objectAt_eq_some.mp hj
    simp only [mapImpl, createLocked_of_taken hfind, answerPtr]
    rfl
  case update_missing =>
    intro m id res hnone
    simp only [mapImpl, update_of_none (find?_of_objectAt_none hnone), answerCode]
    rfl
  case update_entry =>
    intro m id j res hown hj
    obtain ⟨p, hfind, hget⟩ := objectAt_eq_some.mp hj
    simp only [mapImpl, update_of_find? hfind, answerCode, true_and]
    exact ⟨rfl, objectAt_modify hfind hget (find?_inj hown hfind hget) _⟩
  case find_missing =>
    intro m id hnone
    simp only [mapImpl, find_of_none (find?_of_objectAt_none hnone), answerPtr]
    rfl
  case find_entry =>
    intro m id j hj
    obtain ⟨p, hfind, hget⟩ := objectAt_eq_some.mp hj
    simp only [mapImpl, find_of_find? hfind, answerPtr, hget]
  case remove_missing =>
    intro m id hnone
    simp only [mapImpl, remove_of_none (find?_of_objectAt_none hnone), answerRemoved]
    rfl
  case remove_entry =>
    intro m id j hj
    obtain ⟨p, hfind, hget⟩ := objectAt_eq_some.mp hj
    simp only [mapImpl, remove_of_live ⟨hfind, hget⟩, answerRemoved, true_and]
    exact ⟨rfl, objectAt_erase⟩

end JobManager

/-! ## The adhoc storage manager -/

/-- What an adhoc storage is created from, the random part of its uuid included. -/
structure AdhocArgs where
  randomString : String
  type : AdhocStorageType
  name : String
  ctx : AdhocCtx
  resources : AdhocResources

namespace AdhocStorageManager

open ManagerMaps

/-- The map of adhoc storages: an update replaces the nodes of a storage. -/
def mapSpec : Spec AdhocArgs AdhocResources AdhocStorageMetadata ErrorCode where
  make id a := AdhocStorageMetadata.make (generateAdhocUuid a.type a.randomString)
    ⟨a.type, a.name, id, a.ctx, a.resources⟩
  set res a := { a with adhocStorage := { a.adhocStorage with resources := res } }
  keyOf a := a.adhocStorage.id
  taken := .entityExists
  missing := .noSuchEntity
  keyOf_make _ _ := rfl
  keyOf_set _ _ := rfl

/-- The locked part of `create`. -/
def createLocked (m : AdhocStorageManager) (id : AdhocId) (a : AdhocArgs) :
    AdhocStorageManager × Except ErrorCode AdhocPtr :=
  createAt m id (AdhocStorageMetadata.make (generateAdhocUuid a.type a.randomString)
    ⟨a.type, a.name, id, a.ctx, a.resources⟩)

theorem create_eq (m : AdhocStorageManager) (a : AdhocArgs) :
    create m a.randomString a.type a.name a.ctx a.resources
      = createLocked m.fetchId.1 m.fetchId.2 a := rfl

def mapImpl : Impl AdhocStorageManager AdhocArgs AdhocResources AdhocStorageMetadata
    ErrorCode where
  init := Registry.empty
  counter := Registry.currentId
  view := objectAt
  draw := Registry.fetchId
  create m id a :=
    let created := createLocked m id a
    (created.1, answerPtr created.1 created.2)
  update m id res :=
    let updated := update m id res
    (updated.1, answerCode updated.2)
  find m id := answerPtr m (find m id)
  remove m id :=
    let removed := remove m id
    (removed.1, answerCode removed.2)

theorem mapImpl_simulates : mapImpl.Simulates mapSpec :=
  registryImpl_simulates mapSpec rfl rfl

end AdhocStorageManager

/-! ## The PFS storage manager -/

/-- What a PFS storage is created from. -/
structure PfsArgs where
  type : PfsStorageType
  name : String
  ctx : PfsCtx

namespace PfsStorageManager

open ManagerMaps

/-- The map of PFS storages: an update replaces the context of a storage. -/
def mapSpec : Spec PfsArgs PfsCtx PfsStorageMetadata ErrorCode where
  make id a := ⟨⟨a.type, a.name, id, a.ctx⟩⟩
  set ctx s := { s with pfsStorage := { s.pfsStorage with context := ctx } }
  keyOf s := s.pfsStorage.id
  taken := .entityExists
  missing := .noSuchEntity
  keyOf_make _ _ := rfl
  keyOf_set _ _ := rfl

/-- The locked part of `create`. -/
def createLocked (m : PfsStorageManager) (id : PfsId) (a : PfsArgs) :
    PfsStorageManager × Except ErrorCode PfsPtr :=
  createAt m id ⟨⟨a.type, a.name, id, a.ctx⟩⟩

theorem create_eq (m : PfsStorageManager) (a : PfsArgs) :
    create m a.type a.name a.ctx = createLocked m.fetchId.1 m.fetchId.2 a := rfl

def mapImpl : Impl PfsStorageManager PfsArgs PfsCtx PfsStorageMetadata ErrorCode where
  init := Registry.empty
  counter := Registry.currentId
  view := objectAt
  draw := Registry.fetchId
  create m id a :=
    let created := createLocked m id a
    (created.1, answerPtr created.1 created.2)
  update m id ctx :=
    let updated := update m id ctx
    (updated.1, answerCode updated.2)
  find m id := answerPtr m (find m id)
  remove m id :=
    let removed := remove m id
    (removed.1, answerCode removed.2)

theorem mapImpl_simulates : mapImpl.Simulates mapSpec :=
  registryImpl_simulates mapSpec rfl rfl

end PfsStorageManager

/-! ## The transfer manager -/

/-- What a transfer is created from. -/
structure TransferArgs (H : Type) where
  tx : H
  limits : List QosLimit

namespace TransferManager

open ManagerMaps

variable {H : Type}

/-- The map of transfers: an update replaces the measured bandwidth. -/
def mapSpec : Spec (TransferArgs H) Bandwidth (TransferMetadata H) ErrorCode where
  make id a := { id := id, handle := a.tx, qos := a.limits }
  set bw t := { t with measuredBandwidth := bw }
  keyOf t := t.id
  taken := .entityExists
  missing := .noSuchEntity
  keyOf_make _ _ := rfl
  keyOf_set _ _ := rfl

/-- The locked part of `create`. -/
def createLocked (m : TransferManager H) (id : TransferId) (a : TransferArgs H) :
    TransferManager H × Except ErrorCode (TransferPtr H) :=
  createAt m id { id := id, handle := a.tx, qos := a.limits }

theorem create_eq (m : TransferManager H) (a : TransferArgs H) :
    create m a.tx a.limits = createLocked m.fetchId.1 m.fetchId.2 a := rfl

def mapImpl : Impl (TransferManager H) (TransferArgs H) Bandwidth (TransferMetadata H)
    ErrorCode where
  init := Registry.empty
  counter := Registry.currentId
  view := objectAt
  draw := Registry.fetchId
  create m id a :=
    let created := createLocked m id a
    (created.1, answerPtr created.1 created.2)
  update m id bw :=
    let updated := update m id bw
    (updated.1, answerCode updated.2)
  find m id := answerPtr m (find m id)
  remove m id :=
    let removed := remove m id
    (removed.1, answerRemoved removed.2)

/-- `remove` differs from that of the storage managers in what it returns only. -/
theorem mapImpl_eq_registryImpl :
    (mapImpl : Impl (TransferManager H) (TransferArgs H) Bandwidth (TransferMetadata H) ErrorCode)
      = registryImpl mapSpec.make mapSpec.set := by
  have hremove : ∀ (m : TransferManager H) (id : UInt64),
      ((remove m id).1, answerRemoved (remove m id).2)
        = ((removeAt m id).1, (answerCode (removeAt m id).2 :
            Answer (TransferMetadata H) ErrorCode)) := by
    intro m id
    unfold remove removeAt
    cases Registry.find? m id with
    | none => rfl
    | some p => rfl
  show (Impl.mk _ _ _ _ _ _ _ _ : Impl (TransferManager H) _ _ _ _) = Impl.mk _ _ _ _ _ _ _ _
  congr 1
  funext m id
  exact hremove m id

theorem mapImpl_simulates :
    (mapImpl : Impl (TransferManager H) _ _ _ _).Simulates mapSpec := by
  rw [mapImpl_eq_registryImpl]
  exact registryImpl_simulates mapSpec rfl rfl

end TransferManager

/-! ## All four -/

/-- **Each manager is a partial map with fresh ids**, whatever its callers do and
    however their draws and locked sections are interleaved. -/
theorem managers_refine_maps (H : Type) :
    JobManager.mapImpl.Refines JobManager.mapSpec ∧
      AdhocStorageManager.mapImpl.Refines AdhocStorageManager.mapSpec ∧
      PfsStorageManager.mapImpl.Refines PfsStorageManager.mapSpec ∧
      (TransferManager.mapImpl : Impl (TransferManager H) _ _ _ _).Refines
        TransferManager.mapSpec :=
  ⟨JobManager.mapImpl_simulates.contract, AdhocStorageManager.mapImpl_simulates.contract,
    PfsStorageManager.mapImpl_simulates.contract, TransferManager.mapImpl_simulates.contract⟩

end Scord
