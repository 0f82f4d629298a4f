/-
  Scord.Server.ManagerRuns

  However threads that call the managers are interleaved, access by access, their
  calls are answered as if every critical section were one step of the managers
  (`managers_linearizable`), and no thread waits for ever for a lock
  (`managers_drain`).

  The lock in an `abt::shared_mutex` is a parameter: any one will do that lets a
  writer be alone, and for progress lets whoever in that it can.
-/
import Scord.Lib.RwLockProgress
import Scord.Lib.RwLockReduction
import Scord.Server.ManagerMethods

namespace Scord

open ObjectStore RwLock StepSystem

variable {H : Type}

/-! ## Critical sections -/

@[simp] theorem settle_look {ℓ : Mutex} (next : Part H ℓ → MethodCode H (.unique ℓ))
    (s : Shared (Part H)) : settle (look next) s = settle (next (s ℓ)) s := by
  show settle (next (s ℓ)) (Function.update s ℓ (s ℓ)) = _
  rw [Function.update_eq_self]

theorem settle_access {ℓ : Mutex} (write : Part H ℓ → Part H ℓ)
    (next : Part H ℓ → MethodCode H (.unique ℓ)) (s : Shared (Part H)) :
    settle (.access write next : MethodCode H (.unique ℓ)) s
      = settle (next (s ℓ)) (Function.update s ℓ (write (s ℓ))) := rfl

theorem settle_read {ℓ : Mutex} {n : Nat} (next : Part H ℓ → MethodCode H (.shared ℓ n))
    (s : Shared (Part H)) :
    settle (.read next : MethodCode H (.shared ℓ n)) s = settle (next (s ℓ)) s := rfl

/-- A critical section that a writer goes through: the part of its mutex
    afterwards, and how the method goes on. -/
def SectionDoes (c : MethodCode H .nothing) (s : Shared (Part H)) (ℓ : Mutex)
    (m : Part H ℓ) (k : MethodCode H .nothing) : Prop :=
  ∃ next, c = .wrlock ℓ next ∧ settle next s = (Function.update s ℓ m, k)

/-- One that a reader goes through. -/
def SectionReads (c : MethodCode H .nothing) (s : Shared (Part H))
    (k : MethodCode H .nothing) : Prop :=
  ∃ ℓ next, c = .rdlock ℓ next ∧ settle next s = (s, k)

namespace Table

variable {β : Type} (t : Table H β) (key : UInt64) (s : Shared (Part H))

theorem createCode_does (a : β) (k : Except ErrorCode (Ptr β) → MethodCode H .nothing) :
    SectionDoes (t.createCode key a k) s t.mutex
      (t.put (createAt (t.get (s t.mutex)) key a).1)
      (k (createAt (t.get (s t.mutex)) key a).2) := by
  refine ⟨_, rfl, ?_⟩
  rw [settle_look]
  cases hfind : (t.get (s t.mutex)).find? key with
  | some p =>
      rw [createAt_of_taken hfind, t.put_get, Function.update_eq_self]
      rfl
  | none =>
      rw [createAt_of_free hfind]
      have hsnd := Registry.emplace_of_free (a := a) hfind
      simp only [settle, hsnd, change]
      rfl

theorem updateCode_does (f : β → β) (k : ErrorCode → MethodCode H .nothing) :
    SectionDoes (t.updateCode key f k) s t.mutex
      (t.put (updateAt (t.get (s t.mutex)) key f).1)
      (k (updateAt (t.get (s t.mutex)) key f).2) := by
  refine ⟨_, rfl, ?_⟩
  rw [settle_look]
  cases hfind : (t.get (s t.mutex)).find? key with
  | some p =>
      rw [updateAt_of_find? hfind]
      rfl
  | none =>
      rw [updateAt_of_none hfind, t.put_get, Function.update_eq_self]
      rfl

theorem findCode_reads (k : Except ErrorCode (Ptr β) → MethodCode H .nothing) :
    SectionReads (t.findCode key k) s (k (findAt (t.get (s t.mutex)) key)) := by
  refine ⟨_, _, rfl, ?_⟩
  simp only [settle, findAt]
  cases (t.get (s t.mutex)).find? key <;> rfl

theorem removeCode_does (found : Ptr β → MethodCode H .nothing)
    (missing : MethodCode H .nothing) :
    SectionDoes (t.removeCode key found missing) s t.mutex
      (t.put (removeAt (t.get (s t.mutex)) key).1)
      (((t.get (s t.mutex)).find? key).elim missing found) := by
  refine ⟨_, rfl, ?_⟩
  rw [settle_look]
  cases hfind : (t.get (s t.mutex)).find? key with
  | some p =>
      rw [removeAt_of_find? hfind]
      rfl
  | none =>
      rw [removeAt_of_none hfind, t.put_get, Function.update_eq_self]
      rfl

end Table

namespace JobManager

variable (jobId : JobId) (s : Shared (Part H))

theorem createCode_does (a : JobArgs) :
    SectionDoes (createCode jobId a) s .jobs
      ((s .jobs).createLocked jobId a.slurmId a.resources a.requirements a.adhocMetadataPtr).1
      (.ret (.job ((s .jobs).createLocked jobId a.slurmId a.resources a.requirements
        a.adhocMetadataPtr).2)) := by
  refine ⟨_, rfl, ?_⟩
  rw [settle_look]
  cases hfind : (s .jobs).jobs.find? jobId with
  | some p =>
      rw [createLocked_of_taken hfind, Function.update_eq_self]
      rfl
  | none =>
      rw [createLocked_of_free hfind]
      have hsnd := Registry.emplace_of_free (a := JobMetadata.make ⟨jobId, a.slurmId⟩ a.resources
        a.requirements a.adhocMetadataPtr) hfind
      refine (settle_access _ _ _).trans ((settle_access _ _ _).trans ?_)
      simp only [Function.update_self, Function.update_idem, hsnd, Bool.not_true,
        Bool.false_eq_true, if_false]
      rfl

theorem updateCode_does (res : JobResources) :
    SectionDoes (updateCode jobId res) s .jobs ((s .jobs).update jobId res).1
      (.ret (.code ((s .jobs).update jobId res).2)) := by
  refine ⟨_, rfl, ?_⟩
  rw [settle_look]
  cases hfind : (s .jobs).jobs.find? jobId with
  | some p =>
      rw [update_of_find? hfind]
      rfl
  | none =>
      rw [update_of_none hfind, Function.update_eq_self]
      rfl

theorem findCode_reads :
    SectionReads (findCode jobId) s (.ret (.job ((s .jobs).find jobId))) := by
  refine ⟨_, _, rfl, ?_⟩
  rw [settle_read, find, findAt]
  cases (s .jobs).jobs.find? jobId <;> rfl

/-- The lock is taken twice, and nothing comes in between. -/
theorem findBySlurmIdCode_reads (slurmId : SlurmJobId) :
    SectionReads (findBySlurmIdCode slurmId) s (.ret (.job ((s .jobs).findBySlurmId slurmId))) := by
  refine ⟨_, _, rfl, ?_⟩
  rw [settle_read, findBySlurmId]
  cases (s .jobs).slurmToScord.lookup slurmId with
  | none => rfl
  | some jobId =>
      refine (settle_read _ s).trans ?_
      simp only [find, findAt]
      cases (s .jobs).jobs.find? jobId <;> rfl

theorem removeCode_does :
    SectionDoes (removeCode jobId) s .jobs ((s .jobs).remove jobId).1
      (.ret (.job ((s .jobs).remove jobId).2)) := by
  refine ⟨_, rfl, ?_⟩
  rw [settle_look]
  cases hfind : (s .jobs).jobs.find? jobId with
  | none =>
      rw [remove_of_none hfind, Function.update_eq_self]
      rfl
  | some nh =>
      obtain ⟨j, hlive⟩ := live_of_find? hfind
      have hj : (((s .jobs).jobs.erase jobId).get? nh) = some j := hlive.2
      rw [remove_of_live hlive]
      refine (settle_access _ _ s).trans ((settle_look _ _).trans ?_)
      simp only [Function.update_self, hj]
      refine (settle_access _ _ _).trans ?_
      simp only [Function.update_self, Function.update_idem]
      rfl

end JobManager

namespace AdhocStorageMetadata

variable {s : Shared (Part H)} (ap : AdhocPtr) (p : JobPtr)

theorem addClientInfoCode_taken {q : JobPtr} (h : s (.client ap) = some q) :
    SectionDoes (addClientInfoCode ap p) s (.client ap) (s (.client ap))
      (.ret (.code .adhocInUse)) := by
  refine ⟨_, rfl, ?_⟩
  rw [settle_look, Function.update_eq_self, h]
  rfl

theorem addClientInfoCode_free (h : s (.client ap) = none) :
    SectionDoes (addClientInfoCode ap p) s (.client ap) (some p) (.ret (.code .success)) := by
  refine ⟨_, rfl, ?_⟩
  rw [settle_look, h]
  rfl

end AdhocStorageMetadata

/-! ## The managers that the parts make up -/

/-- A registry with this counter. -/
def withCounter {β : Type} (n : UInt64) (r : Registry β) : Registry β := { r with currentId := n }

def JobManager.withCounter (n : UInt64) (m : JobManager) : JobManager :=
  { m with jobs := Scord.withCounter n m.jobs }

section WithCounter

variable {β : Type} (n key : UInt64) (r : Registry β)

/-- The locked part of a `create` does not look at the counter, -/
theorem createAt_withCounter (a : β) :
    createAt (withCounter n r) key a
      = (withCounter n (createAt r key a).1, (createAt r key a).2) := by
  cases hfind : r.find? key with
  | some p =>
      rw [createAt_of_taken hfind]
      exact createAt_of_taken (r := withCounter n r) hfind a
  | none =>
      rw [createAt_of_free hfind]
      exact createAt_of_free (r := withCounter n r) hfind a

/-- nor does any of the other methods. -/
theorem updateAt_withCounter (f : β → β) :
    updateAt (withCounter n r) key f
      = (withCounter n (updateAt r key f).1, (updateAt r key f).2) := by
  cases hfind : r.find? key with
  | some p =>
      rw [updateAt_of_find? hfind]
      exact updateAt_of_find? (r := withCounter n r) hfind f
  | none =>
      rw [updateAt_of_none hfind]
      exact updateAt_of_none (r := withCounter n r) hfind f

theorem removeAt_withCounter :
    removeAt (withCounter n r) key = (withCounter n (removeAt r key).1, (removeAt r key).2) := by
  cases hfind : r.find? key with
  | some p =>
      rw [removeAt_of_find? hfind]
      exact removeAt_of_find? (r := withCounter n r) hfind
  | none =>
      rw [removeAt_of_none hfind]
      exact removeAt_of_none (r := withCounter n r) hfind

namespace JobManager

variable (m : JobManager)

theorem createLocked_withCounter (a : JobArgs) :
    (m.withCounter n).createLocked key a.slurmId a.resources a.requirements a.adhocMetadataPtr
      = ((m.createLocked key a.slurmId a.resources a.requirements
            a.adhocMetadataPtr).1.withCounter n,
          (m.createLocked key a.slurmId a.resources a.requirements a.adhocMetadataPtr).2) := by
  cases hfind : m.jobs.find? key with
  | some p =>
      rw [createLocked_of_taken hfind]
      exact createLocked_of_taken (m := m.withCounter n) hfind ..
  | none =>
      rw [createLocked_of_free hfind]
      exact createLocked_of_free (m := m.withCounter n) hfind ..

theorem update_withCounter (res : JobResources) :
    (m.withCounter n).update key res
      = ((m.update key res).1.withCounter n, (m.update key res).2) := by
  cases hfind : m.jobs.find? key with
  | some p =>
      rw [update_of_find? hfind]
      exact update_of_find? (m := m.withCounter n) hfind res
  | none =>
      rw [update_of_none hfind]
      exact update_of_none (m := m.withCounter n) hfind res

theorem remove_withCounter :
    (m.withCounter n).remove key = ((m.remove key).1.withCounter n, (m.remove key).2) := by
  cases hfind : m.jobs.find? key with
  | none =>
      rw [remove_of_none hfind]
      exact remove_of_none (m := m.withCounter n) hfind
  | some p =>
      obtain ⟨j, hlive⟩ := live_of_find? hfind
      have hlive' : (m.withCounter n).Live key p j := hlive
      rw [remove_of_live hlive, remove_of_live hlive']
      rfl

end JobManager

/-- A `remove` that hands the object back takes the same entry away. -/
theorem TransferManager.remove_withCounter (m : TransferManager H) :
    TransferManager.remove (withCounter n m) key
      = (withCounter n (removeAt m key).1, (TransferManager.remove m key).2) := by
  have hfind : Registry.find? (withCounter n m) key = Registry.find? m key := rfl
  unfold TransferManager.remove removeAt
  rw [hfind]
  cases Registry.find? m key <;> rfl

end WithCounter

/-- The parts and the counters, as the managers that their callers know. -/
def managersOf (c : Counters) (s : Shared (Part H)) : ManagerState H where
  jobManager := (s .jobs).withCounter c.jobs
  adhocManager := withCounter c.adhocStorages (s .adhocStorages)
  clients ap := s (.client ap)
  pfsManager := withCounter c.pfsStorages (s .pfsStorages)
  transferManager := withCounter c.transfers (s .transfers)

theorem managersOf_update_client (c : Counters) (s : Shared (Part H)) (ap : AdhocPtr)
    (slot : Option JobPtr) :
    managersOf c (Function.update s (.client ap) slot)
      = { managersOf c s with
          clients := Function.update (managersOf c s).clients ap slot } := by
  have hclients : (fun ap' => Function.update s (.client ap) slot (.client ap'))
      = Function.update (fun ap' => s (.client ap')) ap slot := by
    funext ap'
    by_cases heq : ap' = ap
    · subst heq
      rw [Function.update_self, Function.update_self]
    · have hne : Mutex.client ap' ≠ .client ap := fun h => heq (Mutex.client.inj h)
      rw [Function.update_of_ne hne, Function.update_of_ne heq]
  show ManagerState.mk _ _ (fun ap' => Function.update s (.client ap) slot (.client ap')) _ _ = _
  rw [hclients]
  rfl

/-! ## One step -/

/-- What a thread in this phase does to the parts is what it does to the managers
    that they make up. -/
def Follows (t : Atomic Counters (Part H) (Result H) (Method H)) (i : Nat) (ph : Phase H) : Prop :=
  ∃ c' s' ph', (managersOf t.atomics t.shared).advance ph = (managersOf c' s', ph') ∧
    t.goOn i ph.code = { t.put i ph'.code with atomics := c', shared := s' }

variable {t : Atomic Counters (Part H) (Result H) (Method H)} {i : Nat}

theorem SectionDoes.follows {ph : Phase H} (ph' : Phase H) {ℓ : Mutex} {m : Part H ℓ}
    (h : SectionDoes ph.code t.shared ℓ m ph'.code)
    (hadvance : (managersOf t.atomics t.shared).advance ph
      = (managersOf t.atomics (Function.update t.shared ℓ m), ph')) : Follows t i ph := by
  obtain ⟨next, hcode, hsettle⟩ := h
  refine ⟨_, _, _, hadvance, ?_⟩
  rw [hcode]
  show t.runSection i next = _
  simp only [Atomic.runSection, hsettle]
  rfl

theorem SectionReads.follows {ph : Phase H} (ph' : Phase H)
    (h : SectionReads ph.code t.shared ph'.code)
    (hadvance : (managersOf t.atomics t.shared).advance ph
      = (managersOf t.atomics t.shared, ph')) : Follows t i ph := by
  obtain ⟨ℓ, next, hcode, hsettle⟩ := h
  refine ⟨_, _, _, hadvance, ?_⟩
  rw [hcode]
  show t.runSection i next = _
  simp only [Atomic.runSection, hsettle]
  rfl

section Tables

variable {β : Type} (tb : Table H β) (key : UInt64) {ph : Phase H}

/-- The answer to a `remove`, read off the table before it. -/
theorem removed_eq (r : Registry β) :
    ((r.find? key).elim (.ret (.code .noSuchEntity)) fun _ => .ret (.code .success) :
        MethodCode H .nothing)
      = (Phase.returns (.code (removeAt r key).2)).code := by
  cases hfind : r.find? key with
  | some p =>
      rw [removeAt_of_find? hfind]
      rfl
  | none =>
      rw [removeAt_of_none hfind]
      rfl

theorem handedBack_eq (r : TransferManager H) :
    ((Registry.find? r key).elim (.ret (.transfer (.error .noSuchEntity)))
        fun nh => .ret (.transfer (.ok nh)) : MethodCode H .nothing)
      = (Phase.returns (.transfer (TransferManager.remove r key).2)).code := by
  unfold TransferManager.remove
  cases Registry.find? r key <;> rfl

/-- A method that finds a storage first, and goes on with it or returns. -/
theorem Table.found_follows (next : Ptr β → Phase H)
    (hcode : ph.code = tb.findCode key fun
      | .ok p => (next p).code
      | .error _ => .ret (.code .noSuchEntity))
    (hok : ∀ p, findAt (tb.get (t.shared tb.mutex)) key = .ok p →
      (managersOf t.atomics t.shared).advance ph = (managersOf t.atomics t.shared, next p))
    (herror : ∀ ec, findAt (tb.get (t.shared tb.mutex)) key = .error ec →
      (managersOf t.atomics t.shared).advance ph
        = (managersOf t.atomics t.shared, .returns (.code .noSuchEntity))) :
    Follows t i ph := by
  have hreads := tb.findCode_reads key t.shared fun
    | .ok p => (next p).code
    | .error _ => .ret (.code .noSuchEntity)
  rw [← hcode] at hreads
  cases hfind : findAt (tb.get (t.shared tb.mutex)) key with
  | ok p =>
      rw [hfind] at hreads
      exact hreads.follows (next p) (hok p hfind)
  | error ec =>
      rw [hfind] at hreads
      exact hreads.follows (.returns (.code .noSuchEntity)) (herror ec hfind)

end Tables

/-- **Each step of a thread**, but for a return, is one of the managers. -/
theorem follows (t : Atomic Counters (Part H) (Result H) (Method H)) (i : Nat) (ph : Phase H)
    (hret : ∀ r, ph ≠ .returns r) : Follows t i ph := by
  have hfound : ∀ adhocId, AdhocStorageManager.find (managersOf t.atomics t.shared).adhocManager
      adhocId = findAt (t.shared .adhocStorages) adhocId := fun _ => rfl
  cases ph with
  | called m =>
      cases m with
      | createJob a => exact ⟨_, _, .createJob _ a, rfl, rfl⟩
      | updateJob jobId res =>
          refine (JobManager.updateCode_does jobId t.shared res).follows (.returns _) ?_
          simp only [ManagerState.advance, managersOf, JobManager.update_withCounter]
          rfl
      | findJob jobId => exact (JobManager.findCode_reads jobId t.shared).follows (.returns _) rfl
      | findJobBySlurmId slurmId =>
          exact (JobManager.findBySlurmIdCode_reads t.shared slurmId).follows (.returns _) rfl
      | removeJob jobId =>
          refine (JobManager.removeCode_does jobId t.shared).follows (.returns _) ?_
          simp only [ManagerState.advance, managersOf, JobManager.remove_withCounter]
          rfl
      | createAdhoc a => exact ⟨_, _, .createAdhoc _ a, rfl, rfl⟩
      | updateAdhoc adhocId res =>
          have hdoes := Table.adhocStorages.updateCode_does adhocId t.shared
            (fun a => a.update res) fun ec => .ret (.code ec)
          refine hdoes.follows (.returns (.code _)) ?_
          simp only [ManagerState.advance, managersOf, AdhocStorageManager.update,
            updateAt_withCounter]
          rfl
      | findAdhoc adhocId =>
          have hreads := Table.adhocStorages.findCode_reads adhocId t.shared
            fun r => .ret (.adhoc r)
          exact hreads.follows (.returns (.adhoc _)) rfl
      | removeAdhoc adhocId =>
          have hdoes := Table.adhocStorages.removeCode_does adhocId t.shared
            (fun _ => .ret (.code .success)) (.ret (.code .noSuchEntity))
          rw [removed_eq] at hdoes
          refine hdoes.follows (.returns (.code _)) ?_
          simp only [ManagerState.advance, managersOf, AdhocStorageManager.remove,
            removeAt_withCounter]
          rfl
      | addClientInfo adhocId p =>
          refine Table.adhocStorages.found_follows adhocId (fun ap => .addClientInfo ap p) rfl
            (fun ap hap => ?_) fun ec hec => ?_
          · have hap : findAt (t.shared .adhocStorages) adhocId = .ok ap := hap
            simp only [ManagerState.advance, hfound, hap]
          · have hec : findAt (t.shared .adhocStorages) adhocId = .error ec := hec
            simp only [ManagerState.advance, hfound, hec]
      | removeClientInfo adhocId =>
          refine Table.adhocStorages.found_follows adhocId .removeClientInfo rfl
            (fun ap hap => ?_) fun ec hec => ?_
          · have hap : findAt (t.shared .adhocStorages) adhocId = .ok ap := hap
            simp only [ManagerState.advance, hfound, hap]
          · have hec : findAt (t.shared .adhocStorages) adhocId = .error ec := hec
            simp only [ManagerState.advance, hfound, hec]
      | clientInfo ap => exact SectionReads.follows (.returns (.client _)) ⟨_, _, rfl, rfl⟩ rfl
      | createPfs a => exact ⟨_, _, .createPfs _ a, rfl, rfl⟩
      | updatePfs pfsId ctx =>
          have hdoes := Table.pfsStorages.updateCode_does pfsId t.shared
            (fun s => s.update ctx) fun ec => .ret (.code ec)
          refine hdoes.follows (.returns (.code _)) ?_
          simp only [ManagerState.advance, managersOf, PfsStorageManager.update,
            updateAt_withCounter]
          rfl
      | findPfs pfsId =>
          have hreads := Table.pfsStorages.findCode_reads pfsId t.shared fun r => .ret (.pfs r)
          exact hreads.follows (.returns (.pfs _)) rfl
      | removePfs pfsId =>
          have hdoes := Table.pfsStorages.removeCode_does pfsId t.shared
            (fun _ => .ret (.code .success)) (.ret (.code .noSuchEntity))
          rw [removed_eq] at hdoes
          refine hdoes.follows (.returns (.code _)) ?_
          simp only [ManagerState.advance, managersOf, PfsStorageManager.remove,
            removeAt_withCounter]
          rfl
      | createTransfer a => exact ⟨_, _, .createTransfer _ a, rfl, rfl⟩
      | updateTransfer txId bw =>
          have hdoes := Table.transfers.updateCode_does txId t.shared
            (fun t => t.update bw) fun ec => .ret (.code ec)
          refine hdoes.follows (.returns (.code _)) ?_
          simp only [ManagerState.advance, managersOf, TransferManager.update,
            updateAt_withCounter]
          rfl
      | findTransfer txId =>
          have hreads := Table.transfers.findCode_reads txId t.shared fun r => .ret (.transfer r)
          exact hreads.follows (.returns (.transfer _)) rfl
      | removeTransfer txId =>
          have hdoes := Table.transfers.removeCode_does txId t.shared
            (fun nh => .ret (.transfer (.ok nh))) (.ret (.transfer (.error .noSuchEntity)))
          have hk := handedBack_eq (H := H) txId (t.shared .transfers)
          refine SectionDoes.follows (.returns (.transfer _)) (hk ▸ hdoes) ?_
          simp only [ManagerState.advance, managersOf, TransferManager.remove_withCounter]
          rfl
  | createJob jobId a =>
      refine (JobManager.createCode_does jobId t.shared a).follows (.returns _) ?_
      simp only [ManagerState.advance, managersOf, JobManager.createLocked_withCounter]
      rfl
  | createAdhoc adhocId a =>
      have hdoes := Table.adhocStorages.createCode_does adhocId t.shared (a.build adhocId)
        fun r => .ret (.adhoc r)
      refine hdoes.follows (.returns (.adhoc _)) ?_
      simp only [ManagerState.advance, managersOf, AdhocStorageManager.createLocked,
        createAt_withCounter]
      rfl
  | createPfs pfsId a =>
      have hdoes := Table.pfsStorages.createCode_does pfsId t.shared (a.build pfsId)
        fun r => .ret (.pfs r)
      refine hdoes.follows (.returns (.pfs _)) ?_
      simp only [ManagerState.advance, managersOf, PfsStorageManager.createLocked,
        createAt_withCounter]
      rfl
  | createTransfer txId a =>
      have hdoes := Table.transfers.createCode_does txId t.shared (a.build txId)
        fun r => .ret (.transfer r)
      refine hdoes.follows (.returns (.transfer _)) ?_
      simp only [ManagerState.advance, managersOf, TransferManager.createLocked,
        createAt_withCounter]
      rfl
  | addClientInfo ap p =>
      have hclient : (managersOf t.atomics t.shared).clients ap = t.shared (.client ap) := rfl
      cases hslot : t.shared (.client ap) with
      | some q =>
          have hdoes := AdhocStorageMetadata.addClientInfoCode_taken ap p hslot
          refine hdoes.follows (.returns (.code .adhocInUse)) ?_
          rw [Function.update_eq_self]
          simp only [ManagerState.advance, hclient, hslot]
      | none =>
          have hdoes := AdhocStorageMetadata.addClientInfoCode_free ap p hslot
          refine hdoes.follows (.returns (.code .success)) ?_
          rw [managersOf_update_client]
          simp only [ManagerState.advance, hclient, hslot]
  | removeClientInfo ap =>
      refine SectionDoes.follows (.returns (.code .success)) ⟨_, rfl, rfl⟩ ?_
      rw [managersOf_update_client]
      rfl
  | returns r => exact absurd rfl (hret r)

/-! ## Runs -/

/-- The threads that run code, as threads that call the managers. -/
structure Shows (t : Atomic Counters (Part H) (Result H) (Method H)) (u : ManagerCallers H) :
    Prop where
  managers : u.managers = managersOf t.atomics t.shared
  threads : t.threads = u.threads.map (Option.map Phase.code)
  history : t.history = u.history

theorem Shows.step {t t' : Atomic Counters (Part H) (Result H) (Method H)}
    {u : ManagerCallers H} {e : Event (Method H)} (h : Shows t u)
    (hs : atomicStep Method.code t e = some t') :
    ∃ u', u.step e = some u' ∧ Shows t' u' := by
  cases e with
  | call i m =>
      have hthread : t.threads[i]? = (u.threads[i]?).map (Option.map Phase.code) := by
        rw [h.threads, List.getElem?_map]
      simp only [atomicStep, hthread] at hs
      cases hi : u.threads[i]? with
      | none =>
          rw [hi] at hs
          cases hs
      | some th =>
          cases th with
          | some ph =>
              rw [hi] at hs
              cases hs
          | none =>
              rw [hi] at hs
              cases hs
              have hstep : u.step (.call i m) = some { u with
                  threads := u.threads.set i (some (.called m))
                  history := .called i m :: u.history } := by
                simp only [ManagerCallers.step, hi]
              refine ⟨_, hstep, h.managers, ?_, ?_⟩
              · show t.threads.set i (some m.code)
                  = (u.threads.set i (some (.called m))).map (Option.map Phase.code)
                rw [h.threads, List.map_set]
                rfl
              · exact congrArg _ h.history
  | goOn i =>
      have hthread : t.threads[i]? = (u.threads[i]?).map (Option.map Phase.code) := by
        rw [h.threads, List.getElem?_map]
      simp only [atomicStep, hthread] at hs
      cases hi : u.threads[i]? with
      | none =>
          rw [hi] at hs
          cases hs
      | some th =>
          cases th with
          | none =>
              rw [hi] at hs
              cases hs
          | some ph =>
              rw [hi] at hs
              obtain rfl : t.goOn i ph.code = t' := Option.some.inj hs
              by_cases hret : ∃ r, ph = .returns r
              · obtain ⟨r, rfl⟩ := hret
                have hstep : u.step (.goOn i) = some { u with
                    threads := u.threads.set i none
                    history := .returned i r :: u.history } := by
                  simp only [ManagerCallers.step, hi]
                refine ⟨_, hstep, h.managers, ?_, ?_⟩
                · show t.threads.set i none
                    = (u.threads.set i none).map (Option.map Phase.code)
                  rw [h.threads, List.map_set]
                  rfl
                · exact congrArg _ h.history
              · obtain ⟨c', s', ph', hadvance, hgo⟩ := follows t i ph (not_exists.mp hret)
                rw [← h.managers] at hadvance
                have hstep : u.step (.goOn i) = some { u with
                    managers := managersOf c' s', threads := u.threads.set i (some ph') } := by
                  cases ph with
                  | returns r => exact absurd ⟨r, rfl⟩ hret
                  | _ => simp only [ManagerCallers.step, hi, hadvance]
                refine ⟨_, hstep, ?_⟩
                rw [hgo]
                refine ⟨rfl, ?_, h.history⟩
                show t.threads.set i (some ph'.code)
                  = (u.threads.set i (some ph')).map (Option.map Phase.code)
                rw [h.threads, List.map_set]
                rfl

/-- Nothing is registered, and no thread runs. -/
def ManagerThreads.init (lock : Lock) (H : Type) (n : Nat) :
    RwLock.State lock Counters (Part H) (Result H) (Method H) :=
  .init ⟨0, 0, 0, 0⟩ (noParts H) n

theorem shows_init (n : Nat) :
    Shows (Atomic.init ⟨0, 0, 0, 0⟩ (noParts H) n) (ManagerCallers.init n) where
  managers := rfl
  threads := by
    show List.replicate n none = (List.replicate n none).map _
    rw [List.map_replicate]
    rfl
  history := rfl

/-- The parts of the managers that no writer is at, as their callers know them. -/
structure Agrees {lock : Lock} (s : RwLock.State lock Counters (Part H) (Result H) (Method H))
    (m : ManagerState H) : Prop where
  jobs : lock.writer (s.locks .jobs) = false →
    m.jobManager = (s.shared .jobs).withCounter s.atomics.jobs
  adhocStorages : lock.writer (s.locks .adhocStorages) = false →
    m.adhocManager = withCounter s.atomics.adhocStorages (s.shared .adhocStorages)
  clients : ∀ ap, lock.writer (s.locks (.client ap)) = false →
    m.clients ap = s.shared (.client ap)
  pfsStorages : lock.writer (s.locks .pfsStorages) = false →
    m.pfsManager = withCounter s.atomics.pfsStorages (s.shared .pfsStorages)
  transfers : lock.writer (s.locks .transfers) = false →
    m.transferManager = withCounter s.atomics.transfers (s.shared .transfers)

variable {lock : Lock} {n : Nat}
  {s : RwLock.State lock Counters (Part H) (Result H) (Method H)}

/-- Every run of the threads stands for one of the callers of the managers. -/
theorem callers_of_reachable
    (h : Reachable (RwLock.step Method.code) (ManagerThreads.init lock H n) s) :
    ∃ t u, Stands s t ∧ Shows t u ∧
      Reachable ManagerCallers.step (ManagerCallers.init n) u := by
  obtain ⟨t, ht, hst⟩ := reachable_atomic h
  have hu : ∃ u, Reachable ManagerCallers.step (ManagerCallers.init n) u ∧ Shows t u := by
    refine ht.invariant (I := fun t => ∃ u, Reachable ManagerCallers.step
      (ManagerCallers.init n) u ∧ Shows t u) ⟨_, .refl _, shows_init n⟩ ?_
    rintro t e t' ⟨u, hu, hshows⟩ hs
    obtain ⟨u', hu', hshows'⟩ := hshows.step hs
    exact ⟨u', hu.tail hu', hshows'⟩
  obtain ⟨u, hu, hshows⟩ := hu
  exact ⟨t, u, hst, hshows, hu⟩

/-- Where no writer is in, nothing is outstanding. -/
theorem Shows.agrees {t : Atomic Counters (Part H) (Result H) (Method H)} {u : ManagerCallers H}
    (h : Shows t u) (hst : Stands s t) : Agrees s u.managers := by
  rw [h.managers, hst.atomics]
  refine ⟨fun hw => ?_, fun hw => ?_, fun ap hw => hst.free _ hw, fun hw => ?_, fun hw => ?_⟩
  · exact congrArg (JobManager.withCounter _) (hst.free _ hw)
  · exact congrArg (withCounter _) (hst.free .adhocStorages hw)
  · exact congrArg (withCounter _) (hst.free .pfsStorages hw)
  · exact congrArg (withCounter _) (hst.free .transfers hw)

/-- **The managers are linearizable.**  However threads that call their methods are
    interleaved, access by access, there is a run in which every critical section
    is one step of the managers, with the same calls and the same returns in the
    same order. -/
theorem managers_linearizable
    (h : Reachable (RwLock.step Method.code) (ManagerThreads.init lock H n) s) :
    ∃ u, Reachable ManagerCallers.step (ManagerCallers.init n) u ∧ u.history = s.history ∧
      Agrees s u.managers := by
  obtain ⟨t, u, hst, hshows, hu⟩ := callers_of_reachable h
  exact ⟨u, hu, hshows.history.symm.trans hst.history, hshows.agrees hst⟩

/-- Two threads that create a job each: the ids are drawn in one order, and used in
    the other.  Then one of them looks a job up, and holds the lock shared. -/
def twoCreates : List (Event (Method Unit)) :=
  let job : JobArgs := ⟨7, ⟨[]⟩, ⟨[], [], [], none⟩, none⟩
  [.call 0 (.createJob job), .goOn 0, .call 1 (.createJob job), .goOn 1] ++
    List.replicate 5 (.goOn 1) ++ List.replicate 6 (.goOn 0) ++
    [.call 0 (.findJobBySlurmId 7), .goOn 0, .goOn 1]

theorem managers_linearizable_twoCreates :
    ∃ s, run (RwLock.step Method.code) (ManagerThreads.init .counting Unit 2) twoCreates = some s ∧
      ∃ u, Reachable ManagerCallers.step (ManagerCallers.init 2) u ∧ u.history = s.history ∧
        Agrees s u.managers :=
  ⟨_, rfl, managers_linearizable ⟨twoCreates, rfl⟩⟩

/-- **No call of a manager waits for ever**: from every state that the threads
    reach they can go on until all calls have returned, and nobody is in any lock. -/
theorem managers_drain (hadmits : lock.Admits)
    (h : Reachable (RwLock.step Method.code) (ManagerThreads.init lock H n) s) :
    ∃ (is : List Nat) (s' : RwLock.State lock Counters (Part H) (Result H) (Method H)),
      run (RwLock.step Method.code) s (is.map Event.goOn) = some s' ∧
        (∀ th ∈ s'.threads, th = none) ∧
        ∀ ℓ, lock.writer (s'.locks ℓ) = false ∧ lock.readers (s'.locks ℓ) = 0 :=
  drains hadmits h

theorem managers_drain_twoCreates :
    ∃ s, run (RwLock.step Method.code) (ManagerThreads.init .counting Unit 2) twoCreates = some s ∧
      ∃ (is : List Nat) (s' : RwLock.State .counting Counters (Part Unit) (Result Unit)
          (Method Unit)),
        run (RwLock.step Method.code) s (is.map Event.goOn) = some s' ∧
          (∀ th ∈ s'.threads, th = none) ∧ ∀ ℓ, s'.locks ℓ = ⟨false, 0⟩ := by
  obtain ⟨is, s', hrun, hidle, hfree⟩ :=
    managers_drain (n := 2) Lock.counting_admits ⟨twoCreates, rfl⟩
  refine ⟨_, rfl, is, s', hrun, hidle, fun ℓ => ?_⟩
  obtain ⟨hwriter, hreaders⟩ := hfree ℓ
  exact congrArg₂ Count.mk hwriter hreaders

end Scord
