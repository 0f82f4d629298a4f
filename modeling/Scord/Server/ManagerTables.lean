/-
  Scord.Server.ManagerTables

  What threads that call the managers can rely on, access by access: each manager
  goes on being a map with fresh ids, so no `create` finds its id taken before the
  counter has come round (`creates_never_collide`), and whenever no writer is at
  the jobs, the slurm index leads to the right jobs (`index_sound_between_writers`).

  Each of the four managers is found among the callers of all of them as a
  `Manager`, and followed through a run of them.
-/
import Scord.Server.JobIndex
import Scord.Server.ManagerRuns

namespace Scord

open ObjectStore FreshMap RwLock StepSystem

variable {H : Type} {M α υ ν : Type}

/-- What a call does to an implementation, whoever may make it. -/
def performs (I : Impl M α υ ν ErrorCode) (m : M) : Call α υ → M × Answer ν ErrorCode
  | .draw => ((I.draw m).1, .key (I.draw m).2)
  | .create k a => I.create m k a
  | .update k u => I.update m k u
  | .find k => (m, I.find m k)
  | .remove k => I.remove m k

/-- A draw of an id. -/
def isDraw : Option (Call α υ) → Bool
  | some .draw => true
  | _ => false

/-- The locked part of a `create`. -/
def isCreate : Option (Call α υ) → Bool
  | some (.create _ _) => true
  | _ => false

section Manager

variable (I : Impl M α υ ν ErrorCode) (get : ManagerState H → M)
  (call : Phase H → Option (Call α υ))
  (taken : Result H)

/-- What a step from `s` and `ph` to `r` is to one of the managers: nothing, a draw,
    whose id is used next, a `create` under a drawn id, or another call. -/
inductive Moves (s : ManagerState H) (ph : Phase H) (r : ManagerState H × Phase H) : Prop
  | other (none : call ph = none) (state : get r.1 = get s) (next : call r.2 = .none)
      (answer : r.2 = .returns taken → ph = .returns taken)
  | draw (a : α) (draws : call ph = some .draw) (state : get r.1 = (I.draw (get s)).1)
      (next : call r.2 = some (.create (I.draw (get s)).2 a)) (answer : r.2 ≠ .returns taken)
  | create (k : Key) (a : α) (creates : call ph = some (.create k a))
      (state : get r.1 = (I.create (get s) k a).1) (next : call r.2 = none)
      (answer : r.2 = .returns taken → (I.create (get s) k a).2 = .refused .entityExists)
  | call (c : Call α υ) (calls : call ph = some c) (no_draw : c ≠ .draw)
      (no_create : ∀ k a, c ≠ .create k a) (state : get r.1 = (performs I (get s) c).1)
      (next : call r.2 = none) (answer : r.2 ≠ .returns taken)

/-- One of the managers, among the threads that call them: the calls of its map that
    a thread in a phase makes next, and the result of a `create` whose id is
    taken. -/
structure Manager where
  creates : Method H → Bool
  get_empty : get .empty = I.init
  returns : ∀ r, call (.returns r) = none
  /-- every `create` begins with the draw of an id, and nothing else does -/
  draws : ∀ m, isDraw (call (.called m)) = creates m
  called : ∀ m, isCreate (call (.called m)) = false
  moves : ∀ s ph, Moves I get call taken s ph (s.advance ph)

end Manager

/-! ## The four of them -/

/-- Only a `create` answers that an entity exists. -/
theorem findAt_ne_exists {β : Type} (r : Registry β) (key : UInt64) :
    findAt r key ≠ .error .entityExists := by
  cases hfind : r.find? key with
  | some p =>
      rw [findAt_of_find? hfind]
      nofun
  | none =>
      rw [findAt_of_none hfind]
      nofun

/-- The answer to a `create` that finds its id taken. -/
theorem createAt_exists {β : Type} {r : Registry β} {key : UInt64} {a : β}
    (h : (createAt r key a).2 = .error .entityExists) :
    ManagerMaps.answerPtr (createAt r key a).1 (createAt r key a).2 = .refused .entityExists := by
  rw [h]
  rfl

/-! What a step does, with the pair that a method answers taken apart. -/

namespace ManagerState

variable (s : ManagerState H)

@[simp] theorem advance_createJob (jobId : JobId) (a : JobArgs) :
    s.advance (.createJob jobId a)
      = ({ s with jobManager := (s.jobManager.createLocked jobId a.slurmId a.resources
            a.requirements a.adhocMetadataPtr).1 },
          .returns (.job (s.jobManager.createLocked jobId a.slurmId a.resources a.requirements
            a.adhocMetadataPtr).2)) := rfl

@[simp] theorem advance_updateJob (jobId : JobId) (res : JobResources) :
    s.advance (.called (.updateJob jobId res))
      = ({ s with jobManager := (s.jobManager.update jobId res).1 },
          .returns (.code (s.jobManager.update jobId res).2)) := rfl

@[simp] theorem advance_removeJob (jobId : JobId) :
    s.advance (.called (.removeJob jobId))
      = ({ s with jobManager := (s.jobManager.remove jobId).1 },
          .returns (.job (s.jobManager.remove jobId).2)) := rfl

@[simp] theorem advance_createAdhoc (adhocId : AdhocId) (a : AdhocArgs) :
    s.advance (.createAdhoc adhocId a)
      = ({ s with adhocManager := (AdhocStorageManager.createLocked s.adhocManager adhocId a).1 },
          .returns (.adhoc (AdhocStorageManager.createLocked s.adhocManager adhocId a).2)) := rfl

@[simp] theorem advance_updateAdhoc (adhocId : AdhocId) (res : AdhocResources) :
    s.advance (.called (.updateAdhoc adhocId res))
      = ({ s with adhocManager := (AdhocStorageManager.update s.adhocManager adhocId res).1 },
          .returns (.code (AdhocStorageManager.update s.adhocManager adhocId res).2)) := rfl

@[simp] theorem advance_removeAdhoc (adhocId : AdhocId) :
    s.advance (.called (.removeAdhoc adhocId))
      = ({ s with adhocManager := (AdhocStorageManager.remove s.adhocManager adhocId).1 },
          .returns (.code (AdhocStorageManager.remove s.adhocManager adhocId).2)) := rfl

@[simp] theorem advance_createPfs (pfsId : PfsId) (a : PfsArgs) :
    s.advance (.createPfs pfsId a)
      = ({ s with pfsManager := (PfsStorageManager.createLocked s.pfsManager pfsId a).1 },
          .returns (.pfs (PfsStorageManager.createLocked s.pfsManager pfsId a).2)) := rfl

@[simp] theorem advance_updatePfs (pfsId : PfsId) (ctx : PfsCtx) :
    s.advance (.called (.updatePfs pfsId ctx))
      = ({ s with pfsManager := (PfsStorageManager.update s.pfsManager pfsId ctx).1 },
          .returns (.code (PfsStorageManager.update s.pfsManager pfsId ctx).2)) := rfl

@[simp] theorem advance_removePfs (pfsId : PfsId) :
    s.advance (.called (.removePfs pfsId))
      = ({ s with pfsManager := (PfsStorageManager.remove s.pfsManager pfsId).1 },
          .returns (.code (PfsStorageManager.remove s.pfsManager pfsId).2)) := rfl

@[simp] theorem advance_createTransfer (txId : TransferId) (a : TransferArgs H) :
    s.advance (.createTransfer txId a)
      = ({ s with transferManager := (TransferManager.createLocked s.transferManager txId a).1 },
          .returns (.transfer (TransferManager.createLocked s.transferManager txId a).2)) := rfl

@[simp] theorem advance_updateTransfer (txId : TransferId) (bw : Bandwidth) :
    s.advance (.called (.updateTransfer txId bw))
      = ({ s with transferManager := (TransferManager.update s.transferManager txId bw).1 },
          .returns (.code (TransferManager.update s.transferManager txId bw).2)) := rfl

@[simp] theorem advance_removeTransfer (txId : TransferId) :
    s.advance (.called (.removeTransfer txId))
      = ({ s with transferManager := (TransferManager.remove s.transferManager txId).1 },
          .returns (.transfer (TransferManager.remove s.transferManager txId).2)) := rfl

end ManagerState

/-- The methods of the client slots leave the managers as they are. -/
theorem advance_addClientInfo (s : ManagerState H) (adhocId : AdhocId) (p : JobPtr) :
    s.advance (.called (.addClientInfo adhocId p)) = (s, .returns (.code .noSuchEntity)) ∨
      ∃ ap, s.advance (.called (.addClientInfo adhocId p)) = (s, .addClientInfo ap p) := by
  simp only [ManagerState.advance]
  cases AdhocStorageManager.find s.adhocManager adhocId with
  | ok ap => exact .inr ⟨ap, rfl⟩
  | error ec => exact .inl rfl

theorem advance_removeClientInfo (s : ManagerState H) (adhocId : AdhocId) :
    s.advance (.called (.removeClientInfo adhocId)) = (s, .returns (.code .noSuchEntity)) ∨
      ∃ ap, s.advance (.called (.removeClientInfo adhocId)) = (s, .removeClientInfo ap) := by
  simp only [ManagerState.advance]
  cases AdhocStorageManager.find s.adhocManager adhocId with
  | ok ap => exact .inr ⟨ap, rfl⟩
  | error ec => exact .inl rfl

theorem advance_slot (s : ManagerState H) (ap : AdhocPtr) (p : JobPtr) :
    ∃ clients ec, s.advance (.addClientInfo ap p)
      = ({ s with clients := clients }, .returns (.code ec)) := by
  simp only [ManagerState.advance]
  cases s.clients ap with
  | none => exact ⟨_, _, rfl⟩
  | some q => exact ⟨s.clients, _, rfl⟩

section Others

variable {I : Impl M α υ ν ErrorCode} {get : ManagerState H → M}
  {call : Phase H → Option (Call α υ)} {taken : Result H} {s : ManagerState H}

theorem moves_other {ph ph' : Phase H} {r : ManagerState H} (heq : s.advance ph = (r, ph'))
    (hcall : call ph = none) (hget : get r = get s) (hnext : call ph' = none)
    (hanswer : ph' ≠ Phase.returns taken) : Moves I get call taken s ph (s.advance ph) := by
  rw [heq]
  exact .other hcall hget hnext fun h => absurd h hanswer

/-- So they are nothing to any of them. -/
theorem moves_addClientInfo {adhocId : AdhocId} {p : JobPtr}
    (hcall : call (.called (.addClientInfo adhocId p)) = none)
    (hslot : ∀ ap, call (.addClientInfo ap p) = none) (hret : ∀ r, call (.returns r) = none)
    (htaken : taken ≠ .code .noSuchEntity) :
    Moves I get call taken s (.called (.addClientInfo adhocId p))
      (s.advance (.called (.addClientInfo adhocId p))) := by
  rcases advance_addClientInfo s adhocId p with heq | ⟨ap, heq⟩
  · exact moves_other heq hcall rfl (hret _) fun h => htaken (Phase.returns.inj h).symm
  · exact moves_other heq hcall rfl (hslot ap) nofun

theorem moves_removeClientInfo {adhocId : AdhocId}
    (hcall : call (.called (.removeClientInfo adhocId)) = none)
    (hslot : ∀ ap, call (.removeClientInfo ap) = none) (hret : ∀ r, call (.returns r) = none)
    (htaken : taken ≠ .code .noSuchEntity) :
    Moves I get call taken s (.called (.removeClientInfo adhocId))
      (s.advance (.called (.removeClientInfo adhocId))) := by
  rcases advance_removeClientInfo s adhocId with heq | ⟨ap, heq⟩
  · exact moves_other heq hcall rfl (hret _) fun h => htaken (Phase.returns.inj h).symm
  · exact moves_other heq hcall rfl (hslot ap) nofun

theorem moves_slot {ap : AdhocPtr} {p : JobPtr}
    (hget : ∀ clients, get { s with clients := clients } = get s)
    (hcall : call (.addClientInfo ap p) = none) (hret : ∀ r, call (.returns r) = none)
    (htaken : ∀ ec, taken ≠ .code ec) :
    Moves I get call taken s (.addClientInfo ap p) (s.advance (.addClientInfo ap p)) := by
  obtain ⟨clients, ec, heq⟩ := advance_slot s ap p
  exact moves_other heq hcall (hget clients) (hret _) fun h => htaken ec (Phase.returns.inj h).symm

end Others

namespace JobManager

variable (m : JobManager)

theorem findBySlurmId_ne_exists (slurmId : SlurmJobId) :
    m.findBySlurmId slurmId ≠ .error .entityExists := by
  unfold findBySlurmId
  cases m.slurmToScord.lookup slurmId with
  | none => nofun
  | some jobId => exact findAt_ne_exists m.jobs jobId

theorem remove_ne_exists (jobId : JobId) : (m.remove jobId).2 ≠ .error .entityExists := by
  cases hfind : m.jobs.find? jobId with
  | none =>
      rw [remove_of_none hfind]
      nofun
  | some p =>
      obtain ⟨j, hlive⟩ := live_of_find? hfind
      rw [remove_of_live hlive]
      nofun

def callOf : Phase H → Option (Call JobArgs JobResources)
  | .called (.createJob _) => some .draw
  | .called (.updateJob jobId res) => some (.update jobId res)
  | .called (.findJob jobId) => some (.find jobId)
  | .called (.removeJob jobId) => some (.remove jobId)
  | .createJob jobId a => some (.create jobId a)
  | _ => none

/-- The result of a `create` whose id is taken. -/
def taken : Result H := .job (.error .entityExists)

end JobManager

def Method.createsJob : Method H → Bool
  | .createJob _ => true
  | _ => false

theorem JobManager.moves (s : ManagerState H) (ph : Phase H) :
    Moves mapImpl ManagerState.jobManager callOf taken s ph (s.advance ph) := by
  cases ph with
  | called m =>
      cases m with
      | createJob a => exact .draw a rfl rfl rfl nofun
      | updateJob jobId res =>
          rw [ManagerState.advance_updateJob]
          exact .call _ rfl nofun nofun rfl rfl nofun
      | findJob jobId =>
          refine .call _ rfl nofun nofun rfl rfl fun heq => ?_
          exact findAt_ne_exists _ jobId (Result.job.inj (Phase.returns.inj heq))
      | removeJob jobId =>
          rw [ManagerState.advance_removeJob]
          refine .call _ rfl nofun nofun rfl rfl fun heq => ?_
          exact remove_ne_exists _ jobId (Result.job.inj (Phase.returns.inj heq))
      | findJobBySlurmId slurmId =>
          refine .other rfl rfl rfl fun heq => ?_
          exact absurd (Result.job.inj (Phase.returns.inj heq))
            (findBySlurmId_ne_exists _ slurmId)
      | addClientInfo adhocId p =>
          exact moves_addClientInfo rfl (fun _ => rfl) (fun _ => rfl) nofun
      | removeClientInfo adhocId =>
          exact moves_removeClientInfo rfl (fun _ => rfl) (fun _ => rfl) nofun
      | updateAdhoc adhocId res => exact moves_other (s.advance_updateAdhoc ..) rfl rfl rfl nofun
      | removeAdhoc adhocId => exact moves_other (s.advance_removeAdhoc ..) rfl rfl rfl nofun
      | updatePfs pfsId ctx => exact moves_other (s.advance_updatePfs ..) rfl rfl rfl nofun
      | removePfs pfsId => exact moves_other (s.advance_removePfs ..) rfl rfl rfl nofun
      | updateTransfer txId bw => exact moves_other (s.advance_updateTransfer ..) rfl rfl rfl nofun
      | removeTransfer txId => exact moves_other (s.advance_removeTransfer ..) rfl rfl rfl nofun
      | _ => exact .other rfl rfl rfl nofun
  | createJob jobId a =>
      rw [ManagerState.advance_createJob]
      refine .create jobId a rfl rfl rfl fun heq => ?_
      have hexists : (s.jobManager.createLocked jobId a.slurmId a.resources a.requirements
          a.adhocMetadataPtr).2 = .error .entityExists := Result.job.inj (Phase.returns.inj heq)
      show ManagerMaps.answerPtr _ (s.jobManager.createLocked jobId a.slurmId a.resources
        a.requirements a.adhocMetadataPtr).2 = _
      rw [hexists]
      rfl
  | createAdhoc adhocId a => exact moves_other (s.advance_createAdhoc ..) rfl rfl rfl nofun
  | createPfs pfsId a => exact moves_other (s.advance_createPfs ..) rfl rfl rfl nofun
  | createTransfer txId a => exact moves_other (s.advance_createTransfer ..) rfl rfl rfl nofun
  | addClientInfo ap p => exact moves_slot (fun _ => rfl) rfl (fun _ => rfl) nofun
  | removeClientInfo ap => exact .other rfl rfl rfl nofun
  | returns r => exact .other rfl rfl rfl id

def JobManager.among (H : Type) :
    Manager (H := H) JobManager.mapImpl ManagerState.jobManager JobManager.callOf
      JobManager.taken where
  creates := Method.createsJob
  get_empty := rfl
  returns _ := rfl
  draws m := by cases m <;> rfl
  called m := by cases m <;> rfl
  moves := JobManager.moves

/-! `AdhocStorageManager` -/

namespace AdhocStorageManager

def callOf : Phase H → Option (Call AdhocArgs AdhocResources)
  | .called (.createAdhoc _) => some .draw
  | .called (.updateAdhoc adhocId res) => some (.update adhocId res)
  | .called (.findAdhoc adhocId) => some (.find adhocId)
  | .called (.removeAdhoc adhocId) => some (.remove adhocId)
  | .createAdhoc adhocId a => some (.create adhocId a)
  | _ => none

def taken : Result H := .adhoc (.error .entityExists)

theorem moves (s : ManagerState H) (ph : Phase H) :
    Moves mapImpl ManagerState.adhocManager callOf taken s ph (s.advance ph) := by
  cases ph with
  | called m =>
      cases m with
      | createAdhoc a => exact .draw a rfl rfl rfl nofun
      | updateAdhoc adhocId res =>
          rw [ManagerState.advance_updateAdhoc]
          exact .call _ rfl nofun nofun rfl rfl nofun
      | findAdhoc adhocId =>
          refine .call _ rfl nofun nofun rfl rfl fun heq => ?_
          exact findAt_ne_exists _ adhocId (Result.adhoc.inj (Phase.returns.inj heq))
      | removeAdhoc adhocId =>
          rw [ManagerState.advance_removeAdhoc]
          exact .call _ rfl nofun nofun rfl rfl nofun
      | addClientInfo adhocId p =>
          exact moves_addClientInfo rfl (fun _ => rfl) (fun _ => rfl) nofun
      | removeClientInfo adhocId =>
          exact moves_removeClientInfo rfl (fun _ => rfl) (fun _ => rfl) nofun
      | updateJob jobId res => exact moves_other (s.advance_updateJob ..) rfl rfl rfl nofun
      | removeJob jobId => exact moves_other (s.advance_removeJob ..) rfl rfl rfl nofun
      | updatePfs pfsId ctx => exact moves_other (s.advance_updatePfs ..) rfl rfl rfl nofun
      | removePfs pfsId => exact moves_other (s.advance_removePfs ..) rfl rfl rfl nofun
      | updateTransfer txId bw => exact moves_other (s.advance_updateTransfer ..) rfl rfl rfl nofun
      | removeTransfer txId => exact moves_other (s.advance_removeTransfer ..) rfl rfl rfl nofun
      | _ => exact .other rfl rfl rfl nofun
  | createAdhoc adhocId a =>
      rw [ManagerState.advance_createAdhoc]
      refine .create adhocId a rfl rfl rfl fun heq => ?_
      exact createAt_exists (Result.adhoc.inj (Phase.returns.inj heq))
  | createJob jobId a => exact moves_other (s.advance_createJob ..) rfl rfl rfl nofun
  | createPfs pfsId a => exact moves_other (s.advance_createPfs ..) rfl rfl rfl nofun
  | createTransfer txId a => exact moves_other (s.advance_createTransfer ..) rfl rfl rfl nofun
  | addClientInfo ap p => exact moves_slot (fun _ => rfl) rfl (fun _ => rfl) nofun
  | removeClientInfo ap => exact .other rfl rfl rfl nofun
  | returns r => exact .other rfl rfl rfl id

end AdhocStorageManager

def Method.createsAdhoc : Method H → Bool
  | .createAdhoc _ => true
  | _ => false

def AdhocStorageManager.among (H : Type) :
    Manager (H := H) AdhocStorageManager.mapImpl ManagerState.adhocManager
      AdhocStorageManager.callOf
      AdhocStorageManager.taken where
  creates := Method.createsAdhoc
  get_empty := rfl
  returns _ := rfl
  draws m := by cases m <;> rfl
  called m := by cases m <;> rfl
  moves := AdhocStorageManager.moves

/-! `PfsStorageManager` -/

namespace PfsStorageManager

def callOf : Phase H → Option (Call PfsArgs PfsCtx)
  | .called (.createPfs _) => some .draw
  | .called (.updatePfs pfsId ctx) => some (.update pfsId ctx)
  | .called (.findPfs pfsId) => some (.find pfsId)
  | .called (.removePfs pfsId) => some (.remove pfsId)
  | .createPfs pfsId a => some (.create pfsId a)
  | _ => none

def taken : Result H := .pfs (.error .entityExists)

theorem moves (s : ManagerState H) (ph : Phase H) :
    Moves mapImpl ManagerState.pfsManager callOf taken s ph (s.advance ph) := by
  cases ph with
  | called m =>
      cases m with
      | createPfs a => exact .draw a rfl rfl rfl nofun
      | updatePfs pfsId ctx =>
          rw [ManagerState.advance_updatePfs]
          exact .call _ rfl nofun nofun rfl rfl nofun
      | findPfs pfsId =>
          refine .call _ rfl nofun nofun rfl rfl fun heq => ?_
          exact findAt_ne_exists _ pfsId (Result.pfs.inj (Phase.returns.inj heq))
      | removePfs pfsId =>
          rw [ManagerState.advance_removePfs]
          exact .call _ rfl nofun nofun rfl rfl nofun
      | addClientInfo adhocId p =>
          exact moves_addClientInfo rfl (fun _ => rfl) (fun _ => rfl) nofun
      | removeClientInfo adhocId =>
          exact moves_removeClientInfo rfl (fun _ => rfl) (fun _ => rfl) nofun
      | updateJob jobId res => exact moves_other (s.advance_updateJob ..) rfl rfl rfl nofun
      | removeJob jobId => exact moves_other (s.advance_removeJob ..) rfl rfl rfl nofun
      | updateAdhoc adhocId res => exact moves_other (s.advance_updateAdhoc ..) rfl rfl rfl nofun
      | removeAdhoc adhocId => exact moves_other (s.advance_removeAdhoc ..) rfl rfl rfl nofun
      | updateTransfer txId bw => exact moves_other (s.advance_updateTransfer ..) rfl rfl rfl nofun
      | removeTransfer txId => exact moves_other (s.advance_removeTransfer ..) rfl rfl rfl nofun
      | _ => exact .other rfl rfl rfl nofun
  | createPfs pfsId a =>
      rw [ManagerState.advance_createPfs]
      refine .create pfsId a rfl rfl rfl fun heq => ?_
      exact createAt_exists (Result.pfs.inj (Phase.returns.inj heq))
  | createJob jobId a => exact moves_other (s.advance_createJob ..) rfl rfl rfl nofun
  | createAdhoc adhocId a => exact moves_other (s.advance_createAdhoc ..) rfl rfl rfl nofun
  | createTransfer txId a => exact moves_other (s.advance_createTransfer ..) rfl rfl rfl nofun
  | addClientInfo ap p => exact moves_slot (fun _ => rfl) rfl (fun _ => rfl) nofun
  | removeClientInfo ap => exact .other rfl rfl rfl nofun
  | returns r => exact .other rfl rfl rfl id

end PfsStorageManager

def Method.createsPfs : Method H → Bool
  | .createPfs _ => true
  | _ => false

def PfsStorageManager.among (H : Type) :
    Manager (H := H) PfsStorageManager.mapImpl ManagerState.pfsManager PfsStorageManager.callOf
      PfsStorageManager.taken where
  creates := Method.createsPfs
  get_empty := rfl
  returns _ := rfl
  draws m := by cases m <;> rfl
  called m := by cases m <;> rfl
  moves := PfsStorageManager.moves

/-! `TransferManager` -/

namespace TransferManager

def callOf : Phase H → Option (Call (TransferArgs H) Bandwidth)
  | .called (.createTransfer _) => some .draw
  | .called (.updateTransfer txId bw) => some (.update txId bw)
  | .called (.findTransfer txId) => some (.find txId)
  | .called (.removeTransfer txId) => some (.remove txId)
  | .createTransfer txId a => some (.create txId a)
  | _ => none

def taken : Result H := .transfer (.error .entityExists)

theorem remove_ne_exists (m : TransferManager H) (txId : TransferId) :
    (remove m txId).2 ≠ .error .entityExists := by
  unfold remove
  cases Registry.find? m txId <;> nofun

theorem moves (s : ManagerState H) (ph : Phase H) :
    Moves mapImpl ManagerState.transferManager callOf taken s ph (s.advance ph) := by
  cases ph with
  | called m =>
      cases m with
      | createTransfer a => exact .draw a rfl rfl rfl nofun
      | updateTransfer txId bw =>
          rw [ManagerState.advance_updateTransfer]
          exact .call _ rfl nofun nofun rfl rfl nofun
      | findTransfer txId =>
          refine .call _ rfl nofun nofun rfl rfl fun heq => ?_
          exact findAt_ne_exists _ txId (Result.transfer.inj (Phase.returns.inj heq))
      | removeTransfer txId =>
          rw [ManagerState.advance_removeTransfer]
          refine .call _ rfl nofun nofun rfl rfl fun heq => ?_
          exact remove_ne_exists _ txId (Result.transfer.inj (Phase.returns.inj heq))
      | addClientInfo adhocId p =>
          exact moves_addClientInfo rfl (fun _ => rfl) (fun _ => rfl) nofun
      | removeClientInfo adhocId =>
          exact moves_removeClientInfo rfl (fun _ => rfl) (fun _ => rfl) nofun
      | updateJob jobId res => exact moves_other (s.advance_updateJob ..) rfl rfl rfl nofun
      | removeJob jobId => exact moves_other (s.advance_removeJob ..) rfl rfl rfl nofun
      | updateAdhoc adhocId res => exact moves_other (s.advance_updateAdhoc ..) rfl rfl rfl nofun
      | removeAdhoc adhocId => exact moves_other (s.advance_removeAdhoc ..) rfl rfl rfl nofun
      | updatePfs pfsId ctx => exact moves_other (s.advance_updatePfs ..) rfl rfl rfl nofun
      | removePfs pfsId => exact moves_other (s.advance_removePfs ..) rfl rfl rfl nofun
      | _ => exact .other rfl rfl rfl nofun
  | createTransfer txId a =>
      rw [ManagerState.advance_createTransfer]
      refine .create txId a rfl rfl rfl fun heq => ?_
      exact createAt_exists (Result.transfer.inj (Phase.returns.inj heq))
  | createJob jobId a => exact moves_other (s.advance_createJob ..) rfl rfl rfl nofun
  | createAdhoc adhocId a => exact moves_other (s.advance_createAdhoc ..) rfl rfl rfl nofun
  | createPfs pfsId a => exact moves_other (s.advance_createPfs ..) rfl rfl rfl nofun
  | addClientInfo ap p => exact moves_slot (fun _ => rfl) rfl (fun _ => rfl) nofun
  | removeClientInfo ap => exact .other rfl rfl rfl nofun
  | returns r => exact .other rfl rfl rfl id

end TransferManager

def Method.createsTransfer : Method H → Bool
  | .createTransfer _ => true
  | _ => false

def TransferManager.among (H : Type) :
    Manager (H := H) TransferManager.mapImpl ManagerState.transferManager TransferManager.callOf
      TransferManager.taken where
  creates := Method.createsTransfer
  get_empty := rfl
  returns _ := rfl
  draws m := by cases m <;> rfl
  called m := by cases m <;> rfl
  moves := TransferManager.moves

/-! ## Following one of them -/

namespace ManagerCallers

/-- A thread that goes on runs a step of the managers, or returns. -/
theorem step_goOn {u u' : ManagerCallers H} {i : Nat} (hs : u.step (.goOn i) = some u') :
    ∃ ph, u.threads[i]? = some (some ph) ∧
      ((∃ r, ph = .returns r ∧ u' = { u with
          threads := u.threads.set i none, history := .returned i r :: u.history }) ∨
        (∀ r, ph ≠ Phase.returns r) ∧ u' = { u with
          managers := (u.managers.advance ph).1
          threads := u.threads.set i (some (u.managers.advance ph).2) }) := by
  simp only [step] at hs
  cases hi : u.threads[i]? with
  | none =>
      rw [hi] at hs
      cases hs
  | some th =>
      cases th with
      | none =>
          rw [hi] at hs
          cases hs
      | some ph =>
          rw [hi] at hs
          refine ⟨ph, rfl, ?_⟩
          cases ph with
          | returns r => exact .inl ⟨r, rfl, (Option.some.inj hs).symm⟩
          | _ => exact .inr ⟨fun r h => (by cases h), (Option.some.inj hs).symm⟩

theorem step_call {u u' : ManagerCallers H} {i : Nat} {m : Method H}
    (hs : u.step (.call i m) = some u') :
    u.threads[i]? = some none ∧ u' = { u with
      threads := u.threads.set i (some (.called m)), history := .called i m :: u.history } := by
  simp only [step] at hs
  cases hi : u.threads[i]? with
  | none =>
      rw [hi] at hs
      cases hs
  | some th =>
      cases th with
      | some ph =>
          rw [hi] at hs
          cases hs
      | none =>
          rw [hi] at hs
          exact ⟨rfl, (Option.some.inj hs).symm⟩

end ManagerCallers

/-- One for a thread that has drawn this id and not used it yet. -/
def waits (call : Phase H → Option (Call α υ)) (k : Key) : Option (Phase H) → Nat
  | none => 0
  | some ph =>
      match call ph with
      | some (.create k' _) => if k' = k then 1 else 0
      | _ => 0

/-- One for a thread that is about to draw an id. -/
def undrawn (call : Phase H → Option (Call α υ)) : Option (Phase H) → Nat
  | none => 0
  | some ph => (isDraw (call ph)).toNat

/-- Whether an event of a history is a call of one of these methods. -/
def isCallOf (creates : Method H → Bool) : Visible (Method H) (Result H) → Bool
  | .called _ m => creates m
  | .returned _ _ => false

section Waits

variable {call : Phase H → Option (Call α υ)} {ph : Phase H}

theorem waits_of_not_create (h : isCreate (call ph) = false) (k : Key) :
    waits call k (some ph) = 0 := by
  simp only [waits]
  cases hc : call ph with
  | none => rfl
  | some c =>
      cases c with
      | create k' a =>
          rw [hc] at h
          cases h
      | _ => rfl

theorem waits_of_create {k : Key} {a : α} (h : call ph = some (.create k a)) (k' : Key) :
    waits call k' (some ph) = if k = k' then 1 else 0 := by
  simp only [waits, h]

theorem undrawn_of {b : Bool} (h : isDraw (call ph) = b) : undrawn call (some ph) = b.toNat := by
  rw [← h]
  rfl

end Waits

namespace Manager

variable {I : Impl M α υ ν ErrorCode} {get : ManagerState H → M}
  {call : Phase H → Option (Call α υ)} {taken : Result H} (A : Manager I get call taken)

/-- How many calls of its `create` the history shows. -/
def created (history : List (Visible (Method H) (Result H))) : Nat :=
  history.countP (isCallOf A.creates)

/-- The threads' calls so far, as a run of this manager alone. -/
structure Tracks (u : ManagerCallers H) (drawn : List Key) (log : Log α υ ν ErrorCode) :
    Prop where
  run : Reachable (logged I.step) ((I.init, []), []) ((get u.managers, drawn), log)
  waiting : ∀ k, drawn.count k = total (waits call k) u.threads
  draws : Spec.draws log + total (undrawn call) u.threads = A.created u.history
  running : A.created u.history ≤ 2 ^ 64 →
    ∀ i : Nat, u.threads[i]? ≠ some (some (Phase.returns taken))
  answers : A.created u.history ≤ 2 ^ 64 → ∀ i, Visible.returned i taken ∉ u.history

variable {A} {u u' : ManagerCallers H} {drawn drawn' : List Key} {log log' : Log α υ ν ErrorCode}

theorem tracks_init (n : Nat) : A.Tracks (ManagerCallers.init n) [] [] := by
  have hzero : ∀ f : Option (Phase H) → Nat, f none = 0 →
      total f (List.replicate n (none : Option (Phase H))) = 0 := by
    intro f hf
    apply total_eq_zero
    intro th hth
    rw [List.eq_of_mem_replicate hth, hf]
  refine ⟨?_, fun k => (hzero _ rfl).symm, ?_, fun _ i h => ?_, fun _ i h => ?_⟩
  · have hget : get (ManagerState.empty : ManagerState H) = I.init := A.get_empty
    show Reachable _ _ ((get ManagerState.empty, []), [])
    rw [hget]
    exact .refl _
  · show 0 + total (undrawn call) (List.replicate n none) = 0
    rw [hzero _ rfl]
  · cases List.eq_of_mem_replicate (List.mem_of_getElem? h)
  · cases h

/-- What is to show where one thread has moved. -/
theorem Tracks.set (h : A.Tracks u drawn log) {i : Nat} {th th' : Option (Phase H)}
    (hi : u.threads[i]? = some th) {s : ManagerState H}
    {history : List (Visible (Method H) (Result H))}
    (run : Reachable (logged I.step) ((I.init, []), []) ((get s, drawn'), log'))
    (waiting : ∀ k, drawn'.count k + waits call k th = drawn.count k + waits call k th')
    (draws : Spec.draws log' + undrawn call th' + A.created u.history
      = Spec.draws log + undrawn call th + A.created history)
    (le : A.created u.history ≤ A.created history)
    (running : A.created history ≤ 2 ^ 64 → th' ≠ some (Phase.returns taken))
    (answers : A.created history ≤ 2 ^ 64 → (∀ j, Visible.returned j taken ∉ u.history) →
      ∀ j, Visible.returned j taken ∉ history) :
    A.Tracks ⟨s, u.threads.set i th', history⟩ drawn' log' := by
  refine ⟨run, fun k => ?_, ?_, fun hn j hj => ?_, fun hn => ?_⟩
  · have hset := total_set (waits call k) hi th'
    have hwaiting := h.waiting k
    have hthread := waiting k
    show _ = total (waits call k) (u.threads.set i th')
    omega
  · have hset := total_set (undrawn call) hi th'
    have hdraws := h.draws
    show _ + total (undrawn call) (u.threads.set i th') = A.created history
    omega
  · rcases getElem?_set_cases hj with ⟨-, heq⟩ | ⟨-, hold⟩
    · exact running hn heq
    · exact h.running (le.trans hn) j hold
  · exact answers hn (h.answers (le.trans hn))

/-- A call makes no step of any manager. -/
theorem Tracks.called {i : Nat} {m : Method H} (h : A.Tracks u drawn log)
    (hs : u.step (.call i m) = some u') : A.Tracks u' drawn log := by
  obtain ⟨hi, rfl⟩ := ManagerCallers.step_call hs
  have hcount : A.created (.called i m :: u.history)
      = A.created u.history + (A.creates m).toNat := by
    show List.countP _ (_ :: _) = _
    rw [List.countP_cons]
    cases hm : A.creates m <;> simp [isCallOf, hm, created]
  refine h.set hi h.run (fun k => ?_) ?_ ?_ (fun _ => nofun) fun _ hold j hj => ?_
  · rw [waits_of_not_create (A.called m)]
    rfl
  · rw [undrawn_of (A.draws m), hcount]
    simp only [undrawn]
    omega
  · omega
  · rcases List.mem_cons.mp hj with heq | hj
    · cases heq
    · exact hold j hj

/-- A return shows the result that the thread has come to. -/
theorem Tracks.returned {i : Nat} {r : Result H} (h : A.Tracks u drawn log)
    (hi : u.threads[i]? = some (some (Phase.returns r))) :
    A.Tracks ⟨u.managers, u.threads.set i none, .returned i r :: u.history⟩ drawn log := by
  have hnone := A.returns r
  refine h.set hi h.run (fun k => ?_) ?_ (Nat.le_refl _) (fun _ => nofun) fun hn hold j hj => ?_
  · rw [waits_of_not_create (by rw [hnone]; rfl)]
    rfl
  · rw [undrawn_of (b := false) (by rw [hnone]; rfl)]
    rfl
  · rcases List.mem_cons.mp hj with heq | hj
    · obtain ⟨-, rfl⟩ := Visible.returned.inj heq
      exact h.running hn i hi
    · exact hold j hj

/-- Any other step is one of the manager, or nothing to it. -/
theorem Tracks.goOn {K : Spec α υ ν ErrorCode} (hsim : I.Simulates K)
    {i : Nat} {ph : Phase H} (h : A.Tracks u drawn log) (hi : u.threads[i]? = some (some ph))
    (hret : ph ≠ Phase.returns taken) :
    ∃ drawn' log', A.Tracks ⟨(u.managers.advance ph).1,
      u.threads.set i (some (u.managers.advance ph).2), u.history⟩ drawn' log' := by
  have hmoves := A.moves u.managers ph
  generalize u.managers.advance ph = r at hmoves
  obtain ⟨s, ph'⟩ := r
  cases hmoves with
  | other none state next answer =>
      have next : call ph' = Option.none := next
      refine ⟨drawn, log, h.set hi ?_ (fun k => ?_) ?_ (Nat.le_refl _) (fun _ heq => ?_)
        fun _ hold => hold⟩
      · rw [show get s = get u.managers from state]
        exact h.run
      · rw [waits_of_not_create (by rw [none]; rfl), waits_of_not_create (by rw [next]; rfl)]
      · have hbefore : undrawn call (some ph) = 0 := undrawn_of (b := false) (by rw [none]; rfl)
        have hafter : undrawn call (some ph') = 0 := undrawn_of (b := false) (by rw [next]; rfl)
        show _ + undrawn call (some ph') + _ = _
        omega
      · exact hret (answer (Option.some.inj heq))
  | draw a draws state next answer =>
      have next : call ph' = some (.create (I.draw (get u.managers)).2 a) := next
      have hstep : I.step (get u.managers, drawn) .draw
          = some ((get s, (I.draw (get u.managers)).2 :: drawn),
              .key (I.draw (get u.managers)).2) := by
        rw [show get s = _ from state]
        rfl
      refine ⟨_, _, h.set hi (h.run.tail (logged_eq_some.mpr ⟨_, _, hstep, rfl⟩)) (fun k => ?_) ?_
        (Nat.le_refl _) (fun _ heq => answer (Option.some.inj heq)) fun _ hold => hold⟩
      · rw [waits_of_not_create (by rw [draws]; rfl), waits_of_create next, List.count_cons]
        simp only [beq_iff_eq, Nat.add_zero]
      · have hbefore : undrawn call (some ph) = 1 := undrawn_of (b := true) (by rw [draws]; rfl)
        have hafter : undrawn call (some ph') = 0 := undrawn_of (b := false) (by rw [next]; rfl)
        simp only [Spec.draws]
        omega
  | create k a creates state next answer =>
      have next : call ph' = Option.none := next
      have hwaits : waits call k (some ph) = 1 := by rw [waits_of_create creates, if_pos rfl]
      have hmem : k ∈ drawn := by
        apply List.count_pos_iff.mp
        have hle := le_total (waits call k) hi
        have hwaiting := h.waiting k
        omega
      have hstep : I.step (get u.managers, drawn) (.create k a)
          = some ((get s, drawn.erase k), (I.create (get u.managers) k a).2) := by
        rw [show get s = _ from state]
        exact if_pos hmem
      have hbefore : undrawn call (some ph) = 0 := undrawn_of (b := false) (by rw [creates]; rfl)
      have hafter : undrawn call (some ph') = 0 := undrawn_of (b := false) (by rw [next]; rfl)
      refine ⟨_, _, h.set hi (h.run.tail (logged_eq_some.mpr ⟨_, _, hstep, rfl⟩)) (fun k' => ?_) ?_
        (Nat.le_refl _) (fun hn heq => ?_) fun _ hold => hold⟩
      · rw [waits_of_create creates, waits_of_not_create (by rw [next]; rfl), List.count_erase]
        have hpos := List.count_pos_iff.mpr hmem
        by_cases hk : k = k'
        · subst hk
          simp only [beq_self_eq_true, if_true]
          omega
        · simp only [hk, beq_iff_eq, if_false]
          omega
      · show Spec.draws log + undrawn call (some ph') + _ = _
        omega
      · -- the id is fresh, so the answer is the new entry
        have hdraws := h.draws
        have hcontract := hsim.contract h.run
        have hfree := hcontract.fresh (by omega) k hmem
        have hentry := (hcontract.create_entry k a _).mpr ⟨hfree, rfl⟩
        rw [answer (Option.some.inj heq)] at hentry
        cases hentry
  | call c calls no_draw no_create state next answer =>
      have next : call ph' = Option.none := next
      have hstep : I.step (get u.managers, drawn) c
          = some ((get s, drawn), (performs I (get u.managers) c).2) := by
        rw [show get s = _ from state]
        cases c with
        | draw => exact absurd rfl no_draw
        | create k a => exact absurd rfl (no_create k a)
        | _ => rfl
      have hdraw : isDraw (call ph) = false := by
        rw [calls]
        cases c with
        | draw => exact absurd rfl no_draw
        | _ => rfl
      have hcreate : isCreate (call ph) = false := by
        rw [calls]
        cases c with
        | create k a => exact absurd rfl (no_create k a)
        | _ => rfl
      have hlog : Spec.draws ((c, (performs I (get u.managers) c).2) :: log) = Spec.draws log := by
        cases c with
        | draw => exact absurd rfl no_draw
        | _ => rfl
      have hbefore : undrawn call (some ph) = 0 := undrawn_of hdraw
      have hafter : undrawn call (some ph') = 0 := undrawn_of (b := false) (by rw [next]; rfl)
      refine ⟨_, _, h.set hi (h.run.tail (logged_eq_some.mpr ⟨_, _, hstep, rfl⟩)) (fun k => ?_) ?_
        (Nat.le_refl _) (fun _ heq => answer (Option.some.inj heq)) fun _ hold => hold⟩
      · rw [waits_of_not_create hcreate, waits_of_not_create (by rw [next]; rfl)]
      · show _ + undrawn call (some ph') + _ = _
        omega

/-- **What holds of the manager holds of it among all threads.** -/
theorem tracks_of_reachable {K : Spec α υ ν ErrorCode} (hsim : I.Simulates K) {n : Nat}
    (h : Reachable ManagerCallers.step (ManagerCallers.init n) u) :
    ∃ drawn log, A.Tracks u drawn log := by
  refine h.invariant (I := fun u => ∃ drawn log, A.Tracks u drawn log) ⟨_, _, tracks_init n⟩ ?_
  rintro u e u' ⟨drawn, log, htracks⟩ hs
  cases e with
  | call i m => exact ⟨drawn, log, htracks.called hs⟩
  | goOn i =>
      obtain ⟨ph, hi, ⟨r, rfl, rfl⟩ | ⟨hret, rfl⟩⟩ := ManagerCallers.step_goOn hs
      · exact ⟨drawn, log, htracks.returned hi⟩
      · exact htracks.goOn hsim hi (hret taken)

end Manager

/-! ## What threads can rely on -/

/-- In a history with at most 2^64 calls of a manager's `create`, no call of it is
    answered that an entity exists. -/
def NeverCollides (creates : Method H → Bool) (taken : Result H)
    (history : List (Visible (Method H) (Result H))) : Prop :=
  history.countP (isCallOf creates) ≤ 2 ^ 64 → ∀ i, Visible.returned i taken ∉ history

section Runs

variable {lock : Lock} {n : Nat}
  {s : RwLock.State lock Counters (Part H) (Result H) (Method H)}

theorem Manager.neverCollides {I : Impl M α υ ν ErrorCode} {get : ManagerState H → M}
    {call : Phase H → Option (Call α υ)} {taken : Result H} (A : Manager I get call taken)
    {K : Spec α υ ν ErrorCode} (hsim : I.Simulates K) {u : ManagerCallers H}
    (h : Reachable ManagerCallers.step (ManagerCallers.init n) u) :
    NeverCollides A.creates taken u.history := by
  obtain ⟨drawn, log, htracks⟩ := A.tracks_of_reachable hsim h
  exact htracks.answers

/-- **No `create` finds its id taken** before the counter has come round, however
    the threads that call the managers are interleaved, access by access. -/
theorem creates_never_collide
    (h : Reachable (RwLock.step Method.code) (ManagerThreads.init lock H n) s) :
    NeverCollides Method.createsJob (.job (.error .entityExists)) s.history ∧
      NeverCollides Method.createsAdhoc (.adhoc (.error .entityExists)) s.history ∧
      NeverCollides Method.createsPfs (.pfs (.error .entityExists)) s.history ∧
      NeverCollides Method.createsTransfer (.transfer (.error .entityExists)) s.history := by
  obtain ⟨t, u, hst, hshows, hu⟩ := callers_of_reachable h
  rw [show s.history = u.history from hst.history.symm.trans hshows.history]
  exact ⟨(JobManager.among H).neverCollides JobManager.mapImpl_simulates hu,
    (AdhocStorageManager.among H).neverCollides AdhocStorageManager.mapImpl_simulates hu,
    (PfsStorageManager.among H).neverCollides PfsStorageManager.mapImpl_simulates hu,
    (TransferManager.among H).neverCollides TransferManager.mapImpl_simulates hu⟩

theorem creates_never_collide_twoCreates :
    ∃ s, run (RwLock.step Method.code) (ManagerThreads.init .counting Unit 2) twoCreates = some s ∧
      NeverCollides Method.createsJob (.job (.error .entityExists)) s.history :=
  ⟨_, rfl, (creates_never_collide (n := 2) ⟨twoCreates, rfl⟩).1⟩

/-- The job manager stays well formed. -/
theorem JobManager.WF.advance {s : ManagerState H} (h : s.jobManager.WF) (ph : Phase H) :
    (s.advance ph).1.jobManager.WF := by
  cases JobManager.moves s ph with
  | other none state next answer => exact state ▸ h
  | draw a draws state next answer =>
      rw [show (s.advance ph).1.jobManager = s.jobManager.fetchId.1 from state]
      exact h.fetchId
  | create jobId a creates state next answer =>
      rw [show (s.advance ph).1.jobManager = (s.jobManager.createLocked jobId a.slurmId
        a.resources a.requirements a.adhocMetadataPtr).1 from state]
      exact h.createLocked ..
  | call c calls no_draw no_create state next answer =>
      rw [show (s.advance ph).1.jobManager = (performs mapImpl s.jobManager c).1 from state]
      cases c with
      | draw => exact absurd rfl no_draw
      | create jobId a => exact absurd rfl (no_create jobId a)
      | update jobId res => exact h.update res
      | find jobId => exact h
      | remove jobId => exact h.remove

theorem ManagerCallers.jobManager_wf {u : ManagerCallers H}
    (h : Reachable ManagerCallers.step (ManagerCallers.init n) u) : u.managers.jobManager.WF := by
  refine h.invariant (I := fun u => u.managers.jobManager.WF) JobManager.wf_empty ?_
  intro u e u' hwf hs
  cases e with
  | call i m =>
      obtain ⟨-, rfl⟩ := step_call hs
      exact hwf
  | goOn i =>
      obtain ⟨ph, -, ⟨r, rfl, rfl⟩ | ⟨-, rfl⟩⟩ := step_goOn hs
      · exact hwf
      · exact hwf.advance ph

/-- **Between the writers the slurm index is right**: at every access of a run at
    which no thread holds the jobs for itself, the entries of the index, and the
    searches by slurm id, lead to live jobs with that slurm id. -/
theorem index_sound_between_writers
    (h : Reachable (RwLock.step Method.code) (ManagerThreads.init lock H n) s)
    (hfree : lock.writer (s.locks .jobs) = false) : JobManager.IndexSound (s.shared .jobs) := by
  obtain ⟨t, u, hst, hshows, hu⟩ := callers_of_reachable h
  have hwf := ManagerCallers.jobManager_wf hu
  rw [(hshows.agrees hst).jobs hfree] at hwf
  -- the counter plays no part in it
  exact ⟨hwf.indexSound.entries, hwf.indexSound.searches⟩

theorem index_sound_twoCreates :
    ∃ s, run (RwLock.step Method.code) (ManagerThreads.init .counting Unit 2) twoCreates = some s ∧
      JobManager.IndexSound (s.shared .jobs) :=
  ⟨_, rfl, index_sound_between_writers (n := 2) ⟨twoCreates, rfl⟩ rfl⟩

end Runs

end Scord
