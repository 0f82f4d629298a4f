/-
  Scord.Server.Ids

  The ids of jobs, adhoc storages, PFS storages and transfers over runs of the
  server.  As long as a run has no more requests than there are ids, two objects
  never have one id, and an id whose object was removed does not come back
  (`ids_never_come_back`).
-/
import Scord.Lib.IssuedIds
import Scord.Server.Invariants

namespace Scord

open ObjectStore StepSystem Registry

def JobMetadata.id (j : JobMetadata) : JobId := j.job.id
def AdhocStorageMetadata.id (a : AdhocStorageMetadata) : AdhocId := a.adhocStorage.id
def PfsStorageMetadata.id (s : PfsStorageMetadata) : PfsId := s.pfsStorage.id

/-- What no request changes of an adhoc storage. -/
def AdhocStorageMetadata.fixed (a : AdhocStorageMetadata) : String × AdhocStorageType × AdhocCtx :=
  (a.uuid, a.adhocStorage.type, a.adhocStorage.context)

namespace Server

variable {H : Type} {env : Env H} {r : Request} {s s' : Server H}

/-! ## What a request does to each registry -/

theorem Effect.jobs_change (h : Effect env r s s') :
    Change JobMetadata.id JobMetadata.job s.jobManager.jobs s'.jobManager.jobs := by
  cases h with
  | unchanged jm _ _ => exact .same (congrArg JobManager.jobs jm)
  | jobIdSpent jm _ _ => exact .spent (congrArg JobManager.jobs jm)
  | jobCreated slurmId res req ptr _ free _ jm _ _ =>
      rw [JobManager.create_of_free free] at jm
      exact .created _ free rfl (congrArg JobManager.jobs jm)
  | jobUpdated _ p res _ _ jm _ _ =>
      exact .modified p (fun j => j.update res) (fun _ => rfl) (fun _ => rfl)
        (congrArg JobManager.jobs jm)
  | jobRemoved id _ _ _ live jm _ _ =>
      rw [JobManager.remove_of_live live] at jm
      exact .erased id (congrArg JobManager.jobs jm)
  | adhocIdSpent jm _ _ => exact .same (congrArg JobManager.jobs jm)
  | adhocCreated _ _ _ _ _ _ jm _ _ => exact .same (congrArg JobManager.jobs jm)
  | adhocUpdated _ _ _ _ _ jm _ _ => exact .same (congrArg JobManager.jobs jm)
  | adhocRemoved _ _ jm _ _ => exact .same (congrArg JobManager.jobs jm)
  | transferIdSpent jm _ _ => exact .same (congrArg JobManager.jobs jm)
  | transferCreated _ _ _ _ _ _ _ _ _ _ _ jm _ _ => exact .same (congrArg JobManager.jobs jm)

theorem change_bindClient (am : AdhocStorageManager) (ptr : Option AdhocPtr) (p : JobPtr) :
    Change AdhocStorageMetadata.id AdhocStorageMetadata.fixed am (bindClient am ptr p) := by
  cases ptr with
  | none => exact .same rfl
  | some ap =>
      refine .modified ap _ (fun a => (AdhocStorageMetadata.SameIdentity.addClientInfo a p).id)
        (fun a => ?_) rfl
      unfold AdhocStorageMetadata.addClientInfo
      cases a.clientInfo <;> rfl

theorem change_releaseClient (am : AdhocStorageManager) (required : Option AdhocStorage) :
    Change AdhocStorageMetadata.id AdhocStorageMetadata.fixed am (releaseClient am required) := by
  cases required with
  | none => exact .same rfl
  | some r =>
      show Change _ _ am (AdhocStorageManager.removeClientInfo am r.id).1
      rcases Option.eq_none_or_eq_some (am.find? r.id) with hfind | ⟨q, hfind⟩
      · rw [AdhocStorageManager.removeClientInfo_of_none hfind]
        exact .same rfl
      · rw [AdhocStorageManager.removeClientInfo_of_find? hfind]
        exact .modified q AdhocStorageMetadata.removeClientInfo (fun _ => rfl) (fun _ => rfl) rfl

theorem Effect.adhocs_change (h : Effect env r s s') :
    Change AdhocStorageMetadata.id AdhocStorageMetadata.fixed s.adhocManager s'.adhocManager := by
  cases h with
  | unchanged _ am _ => exact .same am
  | jobIdSpent _ am _ => exact .same am
  | jobCreated _ _ _ ptr _ _ _ _ am _ => exact am ▸ change_bindClient s.adhocManager ptr _
  | jobUpdated _ _ _ _ _ _ am _ => exact .same am
  | jobRemoved _ _ _ _ _ _ am _ => exact am ▸ change_releaseClient s.adhocManager _
  | adhocIdSpent _ am _ => exact .spent am
  | adhocCreated _ _ _ _ _ free _ am _ => exact .created _ free rfl am
  | adhocUpdated _ p res _ _ _ am _ =>
      exact .modified p (fun a => a.update res) (fun _ => rfl) (fun _ => rfl) am
  | adhocRemoved id _ _ am _ => exact .erased id am
  | transferIdSpent _ am _ => exact .same am
  | transferCreated _ _ _ _ _ _ _ _ _ _ _ _ am _ => exact .same am

theorem Effect.transfers_change (h : Effect env r s s') :
    Change TransferMetadata.id TransferMetadata.qos s.transferManager s'.transferManager := by
  cases h with
  | unchanged _ _ tm => exact .same tm
  | jobIdSpent _ _ tm => exact .same tm
  | jobCreated _ _ _ _ _ _ _ _ _ tm => exact .same tm
  | jobUpdated _ _ _ _ _ _ _ tm => exact .same tm
  | jobRemoved _ _ _ _ _ _ _ tm => exact .same tm
  | adhocIdSpent _ _ tm => exact .same tm
  | adhocCreated _ _ _ _ _ _ _ _ tm => exact .same tm
  | adhocUpdated _ _ _ _ _ _ _ tm => exact .same tm
  | adhocRemoved _ _ _ _ tm => exact .same tm
  | transferIdSpent _ _ tm => exact .spent tm
  | transferCreated _ _ _ _ _ _ _ _ _ _ free _ _ tm => exact .created _ free rfl tm

/-- What most requests leave alone: the PFS storages, and whether there is Redis. -/
def rest (s : Server H) : PfsStorageManager × Bool := (s.pfsManager, s.redis)

theorem createJob_rest (s : Server H) (res : JobResources) (req : JobRequirements)
    (slurmId : SlurmJobId) (ptr : Option AdhocPtr) :
    (s.createJob res req slurmId ptr).1.rest = s.rest := by
  unfold createJob
  generalize s.jobManager.create slurmId res req ptr = created
  obtain ⟨jm, rv⟩ := created
  cases rv with
  | error ec => rfl
  | ok p => cases ptr <;> rfl

theorem removeJob_rest (s : Server H) (jobId : JobId) :
    (s.removeJob jobId).server.rest = s.rest := by
  cases hfind : s.jobManager.jobs.find? jobId with
  | none =>
      rw [removeJob_of_none s hfind]
      rfl
  | some p =>
      obtain ⟨j, hlive⟩ := JobManager.live_of_find? hfind
      rw [removeJob_server_of_live s hlive]
      rfl

theorem transferDatasets_rest (env : Env H) (s : Server H) (jobId : JobId)
    (sources targets : List Dataset) (limits : List QosLimit) :
    (s.transferDatasets env jobId sources targets limits).server.rest = s.rest := by
  unfold transferDatasets
  simp only
  split
  · rfl
  · rfl
  · split
    · rfl
    · split
      · rfl
      · split <;> rfl

theorem registerAdhocStorage_rest (env : Env H) (s : Server H) (name : String)
    (type : AdhocStorageType) (ctx : AdhocCtx) (res : AdhocResources) :
    (s.registerAdhocStorage env name type ctx res).server.rest = s.rest := by
  unfold registerAdhocStorage
  simp only
  split
  · rfl
  · split <;> rfl

theorem updateAdhocStorage_rest (env : Env H) (s : Server H) (adhocId : AdhocId)
    (res : AdhocResources) : (s.updateAdhocStorage env adhocId res).server.rest = s.rest := by
  cases hfind : s.adhocManager.find? adhocId with
  | none =>
      rw [updateAdhocStorage_of_none env s hfind]
      rfl
  | some p =>
      obtain ⟨n, heq⟩ := updateAdhocStorage_server env s hfind res
      rw [heq]
      rfl

/-- What a request may do to the part that most leave alone. -/
abbrev RestChange (s s' : Server H) : Prop :=
  Change PfsStorageMetadata.id (fun s => s.pfsStorage.name) s.pfsManager s'.pfsManager ∧
    s'.redis = s.redis

theorem RestChange.of_rest (h : s'.rest = s.rest) : RestChange s s' :=
  ⟨.same (congrArg Prod.fst h), congrArg Prod.snd h⟩

theorem registerPfsStorage_restChange (s : Server H) (name : String) (type : PfsStorageType)
    (ctx : PfsCtx) : RestChange s (s.registerPfsStorage name type ctx).server := by
  unfold registerPfsStorage PfsStorageManager.create
  have hcreate : s.createRpc.1.pfsManager = s.pfsManager := rfl
  simp only [hcreate, Registry.fetchId_snd]
  cases hfree : Registry.find? s.pfsManager s.pfsManager.currentId with
  | some p =>
      rw [createAt_of_taken (r := s.pfsManager.fetchId.1) hfree]
      exact ⟨.spent rfl, rfl⟩
  | none =>
      rw [createAt_of_free (r := s.pfsManager.fetchId.1) hfree]
      simp only
      split <;> exact ⟨.created _ hfree rfl rfl, rfl⟩

theorem step_restChange (h : s.step (env, r) = some s') : RestChange s s' := by
  cases r with
  | ping =>
      obtain rfl := next_eq_some (h := s.ping) h
      exact .of_rest rfl
  | query jobId =>
      obtain rfl := next_eq_some h
      rw [query_server]
      exact .of_rest rfl
  | registerJob res req slurmId =>
      obtain rfl := next_eq_some h
      rw [registerJob_server]
      split
      · exact .of_rest rfl
      · exact .of_rest (createJob_rest ..)
  | updateJob jobId res =>
      obtain rfl := next_eq_some (h := s.updateJob jobId res) h
      exact .of_rest rfl
  | removeJob jobId =>
      obtain rfl := next_eq_some h
      exact .of_rest (removeJob_rest s jobId)
  | registerAdhocStorage name type ctx res =>
      obtain rfl := next_eq_some h
      exact .of_rest (registerAdhocStorage_rest ..)
  | updateAdhocStorage adhocId res =>
      obtain rfl := next_eq_some h
      exact .of_rest (updateAdhocStorage_rest ..)
  | removeAdhocStorage adhocId =>
      obtain rfl := next_eq_some (h := s.removeAdhocStorage adhocId) h
      exact .of_rest rfl
  | deployAdhocStorage adhocId =>
      obtain rfl := next_eq_some h
      rw [deployAdhocStorage_server]
      exact .of_rest rfl
  | terminateAdhocStorage adhocId =>
      obtain rfl := next_eq_some h
      rw [terminateAdhocStorage_server]
      exact .of_rest rfl
  | registerPfsStorage name type ctx =>
      obtain rfl := next_eq_some h
      exact registerPfsStorage_restChange s name type ctx
  | updatePfsStorage pfsId ctx =>
      obtain rfl := next_eq_some (h := s.updatePfsStorage pfsId ctx) h
      refine ⟨?_, rfl⟩
      show Change _ _ s.pfsManager (PfsStorageManager.update s.pfsManager pfsId ctx).1
      unfold PfsStorageManager.update updateAt
      split
      case h_1 p _ => exact .modified p (fun s => s.update ctx) (fun _ => rfl) (fun _ => rfl) rfl
      case h_2 => exact .same rfl
  | removePfsStorage pfsId =>
      obtain rfl := next_eq_some (h := s.removePfsStorage pfsId) h
      refine ⟨?_, rfl⟩
      show Change _ _ s.pfsManager (PfsStorageManager.remove s.pfsManager pfsId).1
      unfold PfsStorageManager.remove removeAt
      split
      · exact .erased pfsId rfl
      · exact .same rfl
  | transferDatasets jobId sources targets limits mapping =>
      obtain rfl := next_eq_some h
      exact .of_rest (transferDatasets_rest ..)
  | queryTransfer jobId txId =>
      obtain rfl := next_eq_some h
      rw [queryTransfer_server]
      exact .of_rest rfl

/-! ## Runs -/

/-- The four registries, after at most `n` draws each. -/
structure IdsIssued (s : Server H) (n : Nat) : Prop where
  jobs : ∃ m ≤ n, Issued JobMetadata.id s.jobManager.jobs m
  adhocs : ∃ m ≤ n, Issued AdhocStorageMetadata.id s.adhocManager m
  pfss : ∃ m ≤ n, Issued PfsStorageMetadata.id s.pfsManager m
  transfers : ∃ m ≤ n, Issued TransferMetadata.id s.transferManager m

theorem idsIssued_init (redis : Bool) : (init redis : Server H).IdsIssued 0 :=
  ⟨⟨0, Nat.le_refl _, issued_empty⟩, ⟨0, Nat.le_refl _, issued_empty⟩,
    ⟨0, Nat.le_refl _, issued_empty⟩, ⟨0, Nat.le_refl _, issued_empty⟩⟩

section Registries

variable {α κ : Type} {idOf : α → UInt64} {part : α → κ} {q q' : Registry α} {id : UInt64}
  {n : Nat}

theorem issued_succ (h : ∃ m ≤ n, Issued idOf q m) (hc : Change idOf part q q') :
    ∃ m ≤ n + 1, Issued idOf q' m := by
  obtain ⟨m, hm, hissued⟩ := h
  rcases hissued.change hc with hsame | hnext
  · exact ⟨m, by omega, hsame⟩
  · exact ⟨m + 1, by omega, hnext⟩

/-- An id that was drawn and is not registered, after at most `n` draws. -/
def Retired (idOf : α → UInt64) (q : Registry α) (id : UInt64) (n : Nat) : Prop :=
  n ≤ 2 ^ 64 → ∃ m ≤ n, Issued idOf q m ∧ id.toNat < m ∧ q.find? id = none

theorem Retired.succ (h : Retired idOf q id n) (hc : Change idOf part q q') :
    Retired idOf q' id (n + 1) := by
  intro hn
  obtain ⟨m, hm, hissued, hid, hfind⟩ := h (by omega)
  have hnone := hissued.not_back (by omega) hc hid hfind
  rcases hissued.change hc with hsame | hnext
  · exact ⟨m, by omega, hsame, hid, hnone⟩
  · exact ⟨m + 1, by omega, hnext, by omega, hnone⟩

end Registries

theorem IdsIssued.step {n : Nat} {e : Env H × Request} (h : s.IdsIssued n)
    (hs : s.step e = some s') : s'.IdsIssued (n + 1) where
  jobs := issued_succ h.jobs (step_effect hs).jobs_change
  adhocs := issued_succ h.adhocs (step_effect hs).adhocs_change
  pfss := issued_succ h.pfss (step_restChange hs).1
  transfers := issued_succ h.transfers (step_effect hs).transfers_change

theorem idsIssued_of_run {redis : Bool} {es : List (Env H × Request)}
    (h : run step (init redis) es = some s) : s.IdsIssued es.length := by
  have hcounted := run_counted (I := fun n s => s.IdsIssued n) h (idsIssued_init redis)
    fun _ _ _ _ hi hs => IdsIssued.step hi hs
  rwa [Nat.zero_add] at hcounted

/-- A registry that goes on from `q` to `q'`, seen through the ids: an id without
    an entry whose object was built stays without one, and no two objects have
    one id. -/
structure NeverReuses {α : Type} (idOf : α → UInt64) (q q' : Registry α) : Prop where
  removed : ∀ p a, q.get? p = some a → q.find? (idOf a) = none → q'.find? (idOf a) = none
  unique : ∀ p₁ p₂ a b, q'.get? p₁ = some a → q'.get? p₂ = some b → idOf a = idOf b → p₁ = p₂

/-- What a run makes of one of the registries. -/
theorem neverReuses_of_run {α κ : Type} {idOf : α → UInt64} {part : α → κ}
    (get : Server H → Registry α)
    (hissued : ∀ {s n}, IdsIssued s n → ∃ m ≤ n, Issued idOf (get s) m)
    (hchange : ∀ {s s' e}, step s e = some s' → Change idOf part (get s) (get s')) {redis : Bool}
    {es fs : List (Env H × Request)} (h : run step (init redis) es = some s)
    (h' : run step s fs = some s') (hlen : es.length + fs.length ≤ 2 ^ 64) :
    NeverReuses idOf (get s) (get s') := by
  have hids := idsIssued_of_run h
  refine ⟨fun p a ha hnone => ?_, fun p₁ p₂ a b ha hb heq => ?_⟩
  · have hstart : Retired idOf (get s) (idOf a) es.length := by
      intro hn
      obtain ⟨m, hm, hissued⟩ := hissued hids
      exact ⟨m, hm, hissued, hissued.below (by omega) p a ha, hnone⟩
    have hlast := run_counted (I := fun n s => Retired idOf (get s) (idOf a) n) h' hstart
      fun _ _ _ _ hi hs => Retired.succ hi (hchange hs)
    obtain ⟨m, -, -, -, hfind⟩ := hlast hlen
    exact hfind
  · have hlast := run_counted (I := fun n s => IdsIssued s n) h' hids
      fun _ _ _ _ hi hs => IdsIssued.step hi hs
    obtain ⟨m, hm, hissued⟩ := hissued hlast
    exact hissued.unique (by omega) ha hb heq

/-- **Ids never come back**: in a run of at most 2^64 requests, an id whose job,
    adhoc storage, PFS storage or transfer is not registered any more is never
    registered again, and no two objects of a kind have one id. -/
theorem ids_never_come_back {redis : Bool} {es fs : List (Env H × Request)}
    (h : run step (init redis) es = some s) (h' : run step s fs = some s')
    (hlen : es.length + fs.length ≤ 2 ^ 64) :
    NeverReuses JobMetadata.id s.jobManager.jobs s'.jobManager.jobs ∧
      NeverReuses AdhocStorageMetadata.id s.adhocManager s'.adhocManager ∧
      NeverReuses PfsStorageMetadata.id s.pfsManager s'.pfsManager ∧
      NeverReuses TransferMetadata.id s.transferManager s'.transferManager :=
  ⟨neverReuses_of_run (fun s => s.jobManager.jobs) IdsIssued.jobs
      (fun hs => (step_effect hs).jobs_change) h h' hlen,
    neverReuses_of_run adhocManager IdsIssued.adhocs
      (fun hs => (step_effect hs).adhocs_change) h h' hlen,
    neverReuses_of_run pfsManager IdsIssued.pfss (fun hs => (step_restChange hs).1) h h' hlen,
    neverReuses_of_run transferManager IdsIssued.transfers
      (fun hs => (step_effect hs).transfers_change) h h' hlen⟩

/-- A job and an adhoc storage are removed, and others are registered after them. -/
theorem ids_never_come_back_sample :
    ∃ s s' : Server Unit,
      run step (init false) [(Env.isolated, sampleAdhoc []), (Env.isolated, sampleJob none 7),
        (Env.isolated, .removeJob 0), (Env.isolated, .removeAdhocStorage 0)] = some s ∧
      run step s [(Env.isolated, sampleJob none 7), (Env.isolated, sampleAdhoc [])] = some s' ∧
      NeverReuses JobMetadata.id s.jobManager.jobs s'.jobManager.jobs ∧
      NeverReuses AdhocStorageMetadata.id s.adhocManager s'.adhocManager := by
  obtain ⟨s, hs⟩ : ∃ s : Server Unit, run step (init false)
      [(Env.isolated, sampleAdhoc []), (Env.isolated, sampleJob none 7),
        (Env.isolated, .removeJob 0), (Env.isolated, .removeAdhocStorage 0)] = some s := ⟨_, rfl⟩
  have hs' : ∃ s', run step s [(Env.isolated, sampleJob none 7), (Env.isolated, sampleAdhoc [])]
      = some s' := by
    cases hs
    exact ⟨_, rfl⟩
  obtain ⟨s', hs'⟩ := hs'
  have hreuses := ids_never_come_back hs hs' (by decide)
  exact ⟨s, s', hs, hs', hreuses.1, hreuses.2.1⟩

end Server

end Scord
