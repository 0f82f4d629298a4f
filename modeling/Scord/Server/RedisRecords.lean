/-
  Scord.Server.RedisRecords

  The Redis branches of `register_job`, `deploy_adhoc_storage` and
  `terminate_adhoc_storage`.

  The first part lists what each handler writes and how it ends.  Then come the
  two questions about them: whether the writes for one job all go into one
  record of its own, and whether a handler gets past the unchecked accessors to
  its response.  `register_job` writes under the slurm id of the job, the other
  two under its scord id.
-/
import Scord.Server.AdhocControl

namespace Scord

open ObjectStore StepSystem

/-- `std::to_string` keeps two ids apart. -/
theorem toString_uint64_inj {a b : UInt64} : toString a = toString b ↔ a = b := by
  refine ⟨fun h => ?_, congrArg toString⟩
  -- the number is read back from the digits
  have hrepr : Nat.repr a.toNat = Nat.repr b.toNat := h
  have hdigits := congrArg (fun s : String => Nat.ofDigitChars 10 s.toList 0) hrepr
  exact UInt64.toNat_inj.mp (by simpa using hdigits)

/-- The handler sends its response: it dereferences nothing that is not there,
    and no exception leaves it. -/
def Handled.Responds {H ρ : Type} (h : Handled H ρ) : Prop :=
  ∃ resp, h.outcome = .ok resp

namespace Server

variable {H : Type}

/-! ## What `register_job` writes -/

/-- The record of a new job for the adhoc storage `adhoc`, which is registered
    under `adhocId`. -/
def registrationRecord (env : Env H) (jobId : JobId) (slurmId : SlurmJobId) (adhocId : AdhocId)
    (adhoc : AdhocStorageMetadata) : RedisWrite where
  key := toString slurmId
  fields := [("timestamp", toString env.now),
    ("job_id", toString jobId),
    ("AdhocID", toString adhocId),
    ("AdhocUUID", adhoc.uuid),
    ("AdhocName", adhoc.adhocStorage.name),
    ("Type", adhoc.adhocStorage.type.full),
    ("Deployed", "No"),
    ("StartTime", ""),
    ("EndTime", ""),
    ("Policies", "")]

/-- The request gets as far as a new job: the storage it names, if any, is
    registered, and the next id is free. -/
def Registers (s : Server H) (req : JobRequirements) : Prop :=
  (∃ ptr, s.requiredAdhoc req = .ok ptr) ∧
    s.jobManager.jobs.find? s.jobManager.jobs.currentId = none

section RegisterJob

@[simp] theorem createRpc_redis (s : Server H) : s.createRpc.1.redis = s.redis := rfl

variable (s : Server H) (env : Env H) (res : JobResources) (req : JobRequirements)
  (slurmId : SlurmJobId)

/-- A `register_job` that creates no job is answered with an error code. -/
theorem registerJob_refused (h : ¬ s.Registers req) :
    (∃ resp, (s.registerJob env res req slurmId).outcome = .ok resp ∧
        resp.errorCode ≠ .success) ∧
      (s.registerJob env res req slurmId).writes = [] := by
  unfold registerJob
  simp only [createRpc_requiredAdhoc]
  cases hreq : s.requiredAdhoc req with
  | error ec =>
      refine ⟨⟨_, rfl, ?_⟩, rfl⟩
      rw [requiredAdhoc_eq_error hreq]
      exact fun h => ErrorCode.noConfusion h
  | ok ptr =>
      cases hfree : s.jobManager.jobs.find? s.jobManager.jobs.currentId with
      | none => exact absurd ⟨⟨ptr, hreq⟩, hfree⟩ h
      | some p =>
          simp only [createJob, createRpc_jobManager, JobManager.create_of_taken hfree]
          exact ⟨⟨_, rfl, fun h => ErrorCode.noConfusion h⟩, trivial⟩

variable {s req}

/-- The object of a new job. -/
theorem get?_newJob (s : Server H) (j : JobMetadata) :
    (s.jobManager.jobs.fetchId.1.emplace s.jobManager.jobs.currentId j).1.get?
      s.jobManager.jobs.next = some j :=
  Registry.get?_emplace_next ..

/-- The new job of a `register_job` that registers one. -/
theorem registerJob_job {ptr : Option AdhocPtr} (hreq : s.requiredAdhoc req = .ok ptr)
    (hfree : s.jobManager.jobs.find? s.jobManager.jobs.currentId = none) (q : JobPtr) :
    (s.registerJob env res req slurmId).server.jobManager.jobs.get? q
      = if q = s.jobManager.jobs.next
        then some (JobMetadata.make ⟨s.jobManager.jobs.currentId, slurmId⟩ res req ptr)
        else s.jobManager.jobs.get? q := by
  rw [registerJob_server, hreq]
  simp only [createJob, createRpc_jobManager, JobManager.create_of_free hfree]
  have hget := Registry.get?_emplace s.jobManager.jobs.fetchId.1 s.jobManager.jobs.currentId q
    (JobMetadata.make ⟨s.jobManager.jobs.currentId, slurmId⟩ res req ptr)
  cases ptr with
  | none => exact hget
  | some ap => exact hget

/-- Without Redis a job that is registered is answered for, and nothing is
    written. -/
theorem registerJob_of_not_redis (hredis : s.redis = false) (h : s.Registers req) :
    (s.registerJob env res req slurmId).outcome
        = .ok ⟨s.rpcCount, .success, some s.jobManager.jobs.currentId⟩ ∧
      (s.registerJob env res req slurmId).writes = [] := by
  obtain ⟨⟨ptr, hreq⟩, hfree⟩ := h
  unfold registerJob
  simp only [createRpc_requiredAdhoc, hreq, createJob, createRpc_jobManager,
    JobManager.create_of_free hfree]
  cases ptr with
  | none =>
      simp only [jobAt, Option.bind_some, get?_newJob, createRpc_redis, hredis, Bool.false_eq_true,
        if_false]
      exact ⟨rfl, trivial⟩
  | some ap =>
      simp only [jobAt, Option.bind_some, get?_newJob, createRpc_redis, hredis, Bool.false_eq_true,
        if_false]
      exact ⟨rfl, trivial⟩

/-- A job without an adhoc storage requirement is registered, and then the
    handler dereferences the missing requirement. -/
theorem registerJob_of_no_storage (hredis : s.redis = true) (hnone : req.adhocStorage = none)
    (hfree : s.jobManager.jobs.find? s.jobManager.jobs.currentId = none) :
    (s.registerJob env res req slurmId).outcome = .error .undefined ∧
      (s.registerJob env res req slurmId).writes = [] := by
  have hreq : s.requiredAdhoc req = .ok none := requiredAdhoc_eq_ok.mpr (.inl ⟨hnone, rfl⟩)
  unfold registerJob
  simp only [createRpc_requiredAdhoc, hreq, createJob, createRpc_jobManager, createRpc_redis,
    JobManager.create_of_free hfree, jobAt, Option.bind_some, get?_newJob, registerJobWrite, hnone,
    hredis, if_true, and_self]

/-- A job for a registered adhoc storage is registered, and its record is
    written. -/
theorem registerJob_of_storage (hredis : s.redis = true) {required : AdhocStorage}
    {adhoc : AdhocStorageMetadata} (hstorage : req.adhocStorage = some required)
    (hreg : s.Registered required.id adhoc)
    (hfree : s.jobManager.jobs.find? s.jobManager.jobs.currentId = none) :
    let w := registrationRecord env s.jobManager.jobs.currentId slurmId required.id adhoc
    (s.registerJob env res req slurmId).outcome
        = (if env.hmset w then .ok ⟨s.rpcCount, .success, some s.jobManager.jobs.currentId⟩
          else .error (.throws .redisError)) ∧
      (s.registerJob env res req slurmId).writes = [w] := by
  obtain ⟨ap, hfind, hget⟩ := hreg
  have hreq : s.requiredAdhoc req = .ok (some ap) :=
    requiredAdhoc_eq_ok.mpr (.inr ⟨required, ap, hstorage, hfind, rfl⟩)
  -- the storage is found again, now with a client
  have hfind' : AdhocStorageManager.find
      (s.adhocManager.modify ap fun a => (a.addClientInfo s.jobManager.jobs.next).1) required.id
        = .ok ap := AdhocStorageManager.find_of_find? hfind
  have hget' : (s.adhocManager.modify ap fun a =>
      (a.addClientInfo s.jobManager.jobs.next).1).get? ap
        = some (adhoc.addClientInfo s.jobManager.jobs.next).1 := by
    rw [Registry.get?_modify, if_pos rfl, hget, Option.map_some]
  have huuid := (AdhocStorageMetadata.SameIdentity.addClientInfo adhoc
    s.jobManager.jobs.next).uuid
  unfold registerJob
  simp only [createRpc_requiredAdhoc, hreq, createJob, createRpc_jobManager, createRpc_redis,
    JobManager.create_of_free hfree, jobAt, Option.bind_some, get?_newJob, registerJobWrite,
    hstorage, createRpc_adhocManager, hfind', adhocAt, hget', hredis, if_true, huuid,
    AdhocStorageMetadata.addClientInfo_adhocStorage]
  exact ⟨rfl, rfl⟩

/-- Every write of a `register_job` is the record of the job it registers. -/
theorem mem_registerJob_writes {w : RedisWrite}
    (h : w ∈ (s.registerJob env res req slurmId).writes) :
    s.redis = true ∧ ∃ ap required adhoc, s.requiredAdhoc req = .ok (some ap) ∧
      s.jobManager.jobs.find? s.jobManager.jobs.currentId = none ∧
      req.adhocStorage = some required ∧ s.Registered required.id adhoc ∧
      w = registrationRecord env s.jobManager.jobs.currentId slurmId required.id adhoc := by
  by_cases hreg : s.Registers req
  case neg =>
    rw [(registerJob_refused s env res req slurmId hreg).2] at h
    cases h
  by_cases hredis : s.redis = true
  case neg =>
    have hredis : s.redis = false := by simpa using hredis
    rw [(registerJob_of_not_redis env res slurmId hredis hreg).2] at h
    cases h
  obtain ⟨⟨ptr, hreq⟩, hfree⟩ := hreg
  rcases requiredAdhoc_eq_ok.mp hreq with ⟨hnone, -⟩ | ⟨required, ap, hstorage, hfind, rfl⟩
  · rw [(registerJob_of_no_storage env res slurmId hredis hnone hfree).2] at h
    cases h
  · have hget := Registry.get?_eq_deref hfind
    have hadhoc : s.Registered required.id (s.adhocManager.deref hfind) := ⟨ap, hfind, hget⟩
    rw [(registerJob_of_storage env res slurmId hredis hstorage hadhoc hfree).2,
      List.mem_singleton] at h
    exact ⟨hredis, ap, required, _, hreq, hfree, hstorage, hadhoc, h⟩

end RegisterJob

/-! ## What a deployment and a termination write -/

section Finish

variable (env : Env H) (s : Server H) (adhocId : AdhocId)

/-- The job that `client_info` of the registered storage `adhocId` leads to. -/
def Client (s : Server H) (adhocId : AdhocId) (q : JobPtr) (j : JobMetadata) : Prop :=
  ∃ adhoc, s.Registered adhocId adhoc ∧ adhoc.clientInfo = some q ∧
    s.jobManager.jobs.get? q = some j

/-- A storage has one client at most. -/
theorem Client.unique {s : Server H} {adhocId : AdhocId} {p q : JobPtr} {j k : JobMetadata}
    (hp : s.Client adhocId p j) (hq : s.Client adhocId q k) : p = q ∧ j = k := by
  obtain ⟨a, ha, hp, hj⟩ := hp
  obtain ⟨b, hb, hq, hk⟩ := hq
  obtain rfl := ha.unique hb
  obtain rfl : p = q := Option.some.inj (hp.symm.trans hq)
  exact ⟨rfl, Option.some.inj (hj.symm.trans hk)⟩

theorem Client.clientJobId_eq {s : Server H} {adhocId : AdhocId} {q : JobPtr} {j : JobMetadata}
    (h : s.Client adhocId q j) : s.clientJobId adhocId = .ok j.job.id := by
  obtain ⟨adhoc, hreg, hq, hj⟩ := h
  exact clientJobId_eq_ok.mpr ⟨adhoc, q, j, hreg, hq, hj, rfl⟩

/-- The end of a deployment or a termination writes the fields into the record
    of the client, after a success and with Redis only. -/
theorem mem_finish_writes {ρ : Type} (fields : List (String × String)) (ec : ErrorCode)
    (resp : ρ) (calls : List ControllerCall) (w : RedisWrite) :
    w ∈ (finish env s adhocId fields ec resp calls).writes ↔
      s.redis = true ∧ ec = .success ∧
        ∃ q j, s.Client adhocId q j ∧ w = ⟨toString j.job.id, fields⟩ := by
  unfold finish
  by_cases hwrite : s.redis = true ∧ ec = .success
  · obtain ⟨hredis, rfl⟩ := hwrite
    simp only [hredis, decide_true, Bool.and_true, if_true, true_and]
    cases hkey : s.clientJobId adhocId with
    | error fault =>
        simp only [List.not_mem_nil, false_iff]
        rintro ⟨q, j, hclient, -⟩
        cases hkey.symm.trans hclient.clientJobId_eq
    | ok id =>
        simp only [List.mem_singleton]
        refine ⟨?_, ?_⟩
        · rintro rfl
          obtain ⟨adhoc, q, j, hreg, hq, hj, rfl⟩ := clientJobId_eq_ok.mp hkey
          exact ⟨q, j, ⟨adhoc, hreg, hq, hj⟩, rfl⟩
        · rintro ⟨q, j, hclient, rfl⟩
          obtain rfl := Except.ok.inj (hkey.symm.trans hclient.clientJobId_eq)
          rfl
  · have hcond : (s.redis && decide (ec = .success)) = false := by
      simpa using hwrite
    simp only [hcond, Bool.false_eq_true, if_false, List.not_mem_nil, false_iff]
    exact fun h => hwrite ⟨h.1, h.2.1⟩

/-- The controller carried a deployment out, and says where. -/
def Deployed (env : Env H) (s : Server H) (adhocId : AdhocId) : Prop :=
  ∃ adhoc r, s.Registered adhocId adhoc ∧ deployReply env adhoc = some r ∧
    r.errorCode = .success ∧ r.value ≠ none

/-- The controller carried a termination out. -/
def Terminated (env : Env H) (s : Server H) (adhocId : AdhocId) : Prop :=
  ∃ adhoc r, s.Registered adhocId adhoc ∧ terminateReply env adhoc = some r ∧
    r.errorCode = .success

/-- What a deployment writes: one record, when it was carried out, Redis is
    enabled and the storage has a client. -/
theorem mem_deployAdhocStorage_writes (w : RedisWrite) :
    w ∈ (s.deployAdhocStorage env adhocId).writes ↔
      s.redis = true ∧ s.Deployed env adhocId ∧
        ∃ q j, s.Client adhocId q j ∧ w = ⟨toString j.job.id, deployFields env⟩ := by
  by_cases hreg : ∃ adhoc, s.Registered adhocId adhoc
  case neg =>
    unfold deployAdhocStorage
    simp only [createRpc_adhocManager,
      AdhocStorageManager.find_of_none (find?_eq_none_iff.mpr hreg), mem_finish_writes]
    refine iff_of_false (fun h => ErrorCode.noConfusion h.2.1) ?_
    rintro ⟨-, ⟨adhoc, r, hadhoc, -⟩, -⟩
    exact hreg ⟨adhoc, hadhoc⟩
  obtain ⟨adhoc, hreg⟩ := hreg
  -- only the reply about this storage counts
  have hdeployed : s.Deployed env adhocId ↔
      ∃ r, deployReply env adhoc = some r ∧ r.errorCode = .success ∧ r.value ≠ none := by
    refine ⟨?_, fun ⟨r, hr⟩ => ⟨adhoc, r, hreg, hr⟩⟩
    rintro ⟨a, r, ha, hr⟩
    obtain rfl := ha.unique hreg
    exact ⟨r, hr⟩
  rw [deployAdhocStorage_of_registered s env adhocId hreg, deployHelper_fst, hdeployed]
  cases hreply : deployReply env adhoc with
  | none =>
      simp only [mem_finish_writes]
      refine iff_of_false (fun h => ErrorCode.noConfusion h.2.1) ?_
      rintro ⟨-, ⟨r, hr, -⟩, -⟩
      cases hr
  | some r =>
      have hsome : (∃ r', some r = some r' ∧ r'.errorCode = .success ∧ r'.value ≠ none) ↔
          r.errorCode = .success ∧ r.value ≠ none := by
        simp only [Option.some.injEq, exists_eq_left']
      rw [hsome]
      by_cases hec : r.errorCode = .success
      · simp only [if_pos hec]
        cases hdir : r.value with
        | none => simp
        | some dir =>
            simp only [Option.elim_some, mem_finish_writes]
            simp [hec, Client, Registered]
      · simp only [if_neg hec]
        simp only [mem_finish_writes, hec, false_and, and_false]

/-- What a termination writes. -/
theorem mem_terminateAdhocStorage_writes (w : RedisWrite) :
    w ∈ (s.terminateAdhocStorage env adhocId).writes ↔
      s.redis = true ∧ s.Terminated env adhocId ∧
        ∃ q j, s.Client adhocId q j ∧ w = ⟨toString j.job.id, terminateFields env⟩ := by
  by_cases hreg : ∃ adhoc, s.Registered adhocId adhoc
  case neg =>
    rw [terminateAdhocStorage_of_none s env adhocId (find?_eq_none_iff.mpr hreg)]
    refine iff_of_false (fun h => by cases h) ?_
    rintro ⟨-, ⟨adhoc, r, hadhoc, -⟩, -⟩
    exact hreg ⟨adhoc, hadhoc⟩
  obtain ⟨adhoc, hreg⟩ := hreg
  have hcode : (terminateHelper env adhoc).1 = .success ↔ s.Terminated env adhocId := by
    rw [terminateHelper_fst]
    refine ⟨fun h => ?_, ?_⟩
    · cases hreply : terminateReply env adhoc with
      | none =>
          rw [hreply] at h
          cases h
      | some r =>
          rw [hreply] at h
          exact ⟨adhoc, r, hreg, hreply, h⟩
    · rintro ⟨a, r, ha, hr, hec⟩
      obtain rfl := ha.unique hreg
      rw [hr]
      exact hec
  rw [terminateAdhocStorage_of_registered s env adhocId hreg, mem_finish_writes, hcode]
  exact Iff.rfl

end Finish

/-! ## One record for each job -/

/-- What the handler of a request writes into Redis. -/
def writes (s : Server H) : Env H × Request → List RedisWrite
  | (env, .registerJob res req slurmId) => (s.registerJob env res req slurmId).writes
  | (env, .deployAdhocStorage adhocId) => (s.deployAdhocStorage env adhocId).writes
  | (env, .terminateAdhocStorage adhocId) => (s.terminateAdhocStorage env adhocId).writes
  | _ => []

/-- The job that a request writes for: the one that it registers, or the client
    of the storage that it deploys or terminates. -/
def Beneficiary (s : Server H) : Request → JobPtr → Prop
  | .registerJob .., p => p = s.jobManager.jobs.next
  | .deployAdhocStorage adhocId, p => ∃ j, s.Client adhocId p j
  | .terminateAdhocStorage adhocId, p => ∃ j, s.Client adhocId p j
  | _, _ => False

/-- Whatever a request writes, it writes for one job, under the decimal slurm id
    of that job, and no other job, past or present, has that record. -/
def OwnRecord (s : Server H) (e : Env H × Request) : Prop :=
  ∀ s', s.step e = some s' → ∀ w ∈ s.writes e, ∃ p j, s.Beneficiary e.2 p ∧
    s'.jobManager.jobs.get? p = some j ∧ w.key = toString j.job.slurmId ∧
      ∀ q k, s'.jobManager.jobs.get? q = some k → q ≠ p → w.key ≠ toString k.job.slurmId

/-- No job registered so far was given this slurm id, those in `except` apart. -/
def SlurmIdUnused (s : Server H) (slurmId : SlurmJobId) (except : JobPtr → Prop) : Prop :=
  ∀ q k, s.jobManager.jobs.get? q = some k → ¬ except q → k.job.slurmId ≠ slurmId

/-- The client of the storage, if it has one, has equal scord and slurm ids, and
    the slurm id is that of no other job. -/
def ClientIdsAgree (s : Server H) (adhocId : AdhocId) : Prop :=
  ∀ q j, s.Client adhocId q j →
    j.job.id = j.job.slurmId ∧ s.SlurmIdUnused j.job.slurmId (· = q)

/-- The condition for `OwnRecord`: a job for an adhoc storage is registered under
    a slurm id that was not used before, and a storage is deployed or terminated
    only for a client whose two ids agree. -/
def RecordsSeparate (s : Server H) : Env H × Request → Prop
  | (_, .registerJob _ req slurmId) => s.redis = true → req.adhocStorage ≠ none →
      s.Registers req → s.SlurmIdUnused slurmId fun _ => False
  | (env, .deployAdhocStorage adhocId) => s.redis = true → s.Deployed env adhocId →
      s.ClientIdsAgree adhocId
  | (env, .terminateAdhocStorage adhocId) => s.redis = true → s.Terminated env adhocId →
      s.ClientIdsAgree adhocId
  | _ => True

theorem ownRecord_registerJob_iff {s s' : Server H} {env : Env H} {res : JobResources}
    {req : JobRequirements} {slurmId : SlurmJobId}
    (hs : s.step (env, .registerJob res req slurmId) = some s') :
    s.OwnRecord (env, .registerJob res req slurmId) ↔
      s.RecordsSeparate (env, .registerJob res req slurmId) := by
  refine ⟨?_, ?_⟩
  · rintro hown hredis hstorage ⟨⟨ptr, hreq⟩, hfree⟩ q k hk - hsame
    rcases requiredAdhoc_eq_ok.mp hreq with ⟨hnone, -⟩ | ⟨required, ap, hrequired, hfind, rfl⟩
    · exact hstorage hnone
    have hjob := registerJob_job env res slurmId hreq hfree
    -- the record that is written has the slurm id of the request
    have hadhoc : s.Registered required.id (s.adhocManager.deref hfind) :=
      ⟨ap, hfind, Registry.get?_eq_deref hfind⟩
    have hwrites := (registerJob_of_storage env res slurmId hredis hrequired hadhoc hfree).2
    obtain ⟨p, j, hp, -, -, hothers⟩ := hown s' hs _ (hwrites ▸ List.mem_singleton_self _)
    obtain rfl : p = s.jobManager.jobs.next := hp
    obtain rfl := next_eq_some (h := s.registerJob env res req slurmId) hs
    have hne := Registry.ne_next_of_get? hk
    refine hothers q k ?_ hne (congrArg toString hsame.symm)
    rw [hjob, if_neg hne]
    exact hk
  · intro hsep t ht w hw
    obtain ⟨hredis, ap, required, adhoc, hreq, hfree, hrequired, -, rfl⟩ :=
      mem_registerJob_writes env res slurmId hw
    obtain rfl := next_eq_some (h := s.registerJob env res req slurmId) ht
    have hjob := registerJob_job env res slurmId hreq hfree
    refine ⟨s.jobManager.jobs.next, _, rfl, (hjob _).trans (if_pos rfl), rfl, ?_⟩
    intro q k hk hne hkey
    rw [hjob, if_neg hne] at hk
    have hunused := hsep hredis (by rw [hrequired]; exact Option.some_ne_none _)
      ⟨⟨_, hreq⟩, hfree⟩
    exact hunused q k hk not_false (toString_uint64_inj.mp hkey).symm

/-- What the two handlers that write through the client slot share. -/
theorem ownRecord_client_iff {s s' : Server H} {e : Env H × Request} {adhocId : AdhocId}
    {fields : List (String × String)} {done : Prop} (hs : s.step e = some s')
    (hjobs : s'.jobManager = s.jobManager)
    (hfor : ∀ p, s.Beneficiary e.2 p ↔ ∃ j, s.Client adhocId p j)
    (hwrites : ∀ w, w ∈ s.writes e ↔ s.redis = true ∧ done ∧
      ∃ q j, s.Client adhocId q j ∧ w = ⟨toString j.job.id, fields⟩) :
    s.OwnRecord e ↔ (s.redis = true → done → s.ClientIdsAgree adhocId) := by
  refine ⟨?_, ?_⟩
  · intro hown hredis hdone q j hclient
    obtain ⟨p, k, hp, hk, hkey, hothers⟩ :=
      hown s' hs _ ((hwrites _).mpr ⟨hredis, hdone, q, j, hclient, rfl⟩)
    obtain ⟨k', hk'⟩ := (hfor p).mp hp
    obtain ⟨rfl, rfl⟩ := hk'.unique hclient
    rw [hjobs] at hk hothers
    obtain ⟨-, -, -, hget⟩ := hclient
    obtain rfl : k = k' := Option.some.inj (hk.symm.trans hget)
    refine ⟨toString_uint64_inj.mp hkey, fun q l hl hne hsame => ?_⟩
    exact hothers q l hl hne (hkey.trans (congrArg toString hsame.symm))
  · intro hagree t ht w hw
    obtain rfl : t = s' := Option.some.inj (ht.symm.trans hs)
    obtain ⟨hredis, hdone, q, j, hclient, rfl⟩ := (hwrites w).mp hw
    obtain ⟨hids, hunused⟩ := hagree hredis hdone q j hclient
    have hget := hclient.choose_spec.2.2
    refine ⟨q, j, (hfor q).mpr ⟨j, hclient⟩, hjobs ▸ hget, congrArg toString hids, ?_⟩
    intro q' k hk hne hkey
    rw [hjobs] at hk
    exact hunused q' k hk hne ((toString_uint64_inj.mp hkey).symm.trans hids)

theorem ownRecord_iff {s s' : Server H} {e : Env H × Request} (hs : s.step e = some s') :
    s.OwnRecord e ↔ s.RecordsSeparate e := by
  obtain ⟨env, r⟩ := e
  cases r with
  | registerJob res req slurmId => exact ownRecord_registerJob_iff hs
  | deployAdhocStorage adhocId =>
      refine ownRecord_client_iff hs ?_ (fun _ => Iff.rfl)
        (mem_deployAdhocStorage_writes env s adhocId)
      rw [← next_eq_some (h := s.deployAdhocStorage env adhocId) hs, deployAdhocStorage_server]
      rfl
  | terminateAdhocStorage adhocId =>
      refine ownRecord_client_iff hs ?_ (fun _ => Iff.rfl)
        (mem_terminateAdhocStorage_writes env s adhocId)
      rw [← next_eq_some (h := s.terminateAdhocStorage env adhocId) hs,
        terminateAdhocStorage_server]
      rfl
  | _ =>
      -- the other requests write nothing
      refine iff_of_true (fun t _ w hw => ?_) trivial
      cases hw

/-- **Every write of a run goes into the one record of its job exactly when no
    slurm id is registered twice for a job with an adhoc storage, and storages
    are deployed and terminated for jobs whose scord id is their slurm id.** -/
theorem ownRecord_run_iff (redis : Bool) (es : List (Env H × Request)) :
    StepsMeet step OwnRecord (init redis) es ↔
      StepsMeet step RecordsSeparate (init redis) es :=
  stepsMeet_congr (fun _ _ _ hs => ownRecord_iff hs) es (init redis)

/-- Every controller answers with success and a directory. -/
def obligingEnv : Env Unit :=
  { Env.isolated with
    lookup := fun _ => true
    call := fun _ => some ⟨0, .success, some "/dir"⟩ }

/-- A job with slurm id 7 is registered for a storage, which is then deployed. -/
def deployedRun : List (Env Unit × Request) :=
  [(Env.isolated, sampleAdhoc []), (Env.isolated, sampleJob (some 0) 7),
    (obligingEnv, .deployAdhocStorage 0)]

/-- The registration writes the record `7`, and the deployment the record `0`. -/
theorem not_ownRecord_deployedRun : ¬ StepsMeet step OwnRecord (init true) deployedRun := by
  intro hall
  have hown := ((hall _ rfl).2 _ rfl).2 _ rfl |>.1
  obtain ⟨p, j, hp, hj, hkey, -⟩ := hown _ rfl _ (List.mem_singleton_self _)
  obtain ⟨k, adhoc, ⟨ap, hap, hadhoc⟩, hclient, hk⟩ := hp
  cases hap
  cases hadhoc
  cases hclient
  cases hj
  exact absurd hkey (by decide)

/-! ## Getting to the response -/

section Responds

variable {s : Server H} (hredis : s.redis = true) (env : Env H) (adhocId : AdhocId)

include hredis

theorem registerJob_responds_iff (res : JobResources) (req : JobRequirements)
    (slurmId : SlurmJobId) :
    (s.registerJob env res req slurmId).Responds ↔
      (s.Registers req → ∃ required adhoc, req.adhocStorage = some required ∧
        s.Registered required.id adhoc ∧ env.hmset (registrationRecord env
          s.jobManager.jobs.currentId slurmId required.id adhoc) = true) := by
  by_cases hreg : s.Registers req
  case neg =>
    obtain ⟨⟨resp, hresp, -⟩, -⟩ := registerJob_refused s env res req slurmId hreg
    exact iff_of_true ⟨resp, hresp⟩ fun h => absurd h hreg
  have hfree := hreg.2
  obtain ⟨ptr, hreq⟩ := hreg.1
  simp only [hreg, forall_const, Handled.Responds]
  rcases requiredAdhoc_eq_ok.mp hreq with ⟨hnone, -⟩ | ⟨required, ap, hstorage, hfind, -⟩
  · rw [(registerJob_of_no_storage env res slurmId hredis hnone hfree).1]
    refine iff_of_false ?_ ?_
    · rintro ⟨resp, hresp⟩
      cases hresp
    · rintro ⟨required, adhoc, hrequired, -⟩
      rw [hnone] at hrequired
      cases hrequired
  · have hadhoc : s.Registered required.id (s.adhocManager.deref hfind) :=
      ⟨ap, hfind, Registry.get?_eq_deref hfind⟩
    rw [(registerJob_of_storage env res slurmId hredis hstorage hadhoc hfree).1]
    refine ⟨?_, ?_⟩
    · rintro ⟨resp, hresp⟩
      split at hresp
      case isTrue htaken => exact ⟨required, _, hstorage, hadhoc, htaken⟩
      case isFalse => cases hresp
    · rintro ⟨required', adhoc', hstorage', hadhoc', htaken⟩
      obtain rfl : required' = required := Option.some.inj (hstorage'.symm.trans hstorage)
      obtain rfl := hadhoc'.unique hadhoc
      exact ⟨_, if_pos htaken⟩

theorem deployAdhocStorage_responds_iff :
    (s.deployAdhocStorage env adhocId).Responds ↔
      ∀ adhoc r, s.Registered adhocId adhoc → deployReply env adhoc = some r →
        r.errorCode = .success →
        r.value ≠ none ∧ s.RecordTaken env adhocId (deployFields env) := by
  have hcontract := deployContract_iff s env adhocId
  simp only [hredis, forall_const] at hcontract
  rw [← hcontract]
  -- with Redis, the error contract asks for nothing but a response
  refine exists_congr fun resp => ⟨fun h => ?_, fun h => h.sent⟩
  exact ⟨h, by simp [hredis], by simp [hredis], by simp [hredis]⟩

theorem terminateAdhocStorage_responds_iff :
    (s.terminateAdhocStorage env adhocId).Responds ↔
      (∃ adhoc, s.Registered adhocId adhoc) ∧
        ∀ adhoc r, s.Registered adhocId adhoc → terminateReply env adhoc = some r →
          r.errorCode = .success → s.RecordTaken env adhocId (terminateFields env) := by
  have hcontract := terminateContract_iff s env adhocId
  simp only [hredis, forall_const] at hcontract
  rw [← hcontract]
  refine exists_congr fun resp => ⟨fun h => ?_, fun h => h.sent⟩
  exact ⟨h, by simp [hredis], by simp [hredis], by simp [hredis]⟩

/-- **When the three handlers send their response with Redis enabled.**  A job
    that gets registered must be for an adhoc storage, whose record Redis takes;
    a deployment that succeeds must name its directory, and find a client whose
    record Redis takes; a termination must be of a registered storage, and one
    that succeeds must find such a client. -/
theorem redisHandlers_respond_iff (res : JobResources) (req : JobRequirements)
    (slurmId : SlurmJobId) :
    ((s.registerJob env res req slurmId).Responds ↔
        (s.Registers req → ∃ required adhoc, req.adhocStorage = some required ∧
          s.Registered required.id adhoc ∧ env.hmset (registrationRecord env
            s.jobManager.jobs.currentId slurmId required.id adhoc) = true)) ∧
      ((s.deployAdhocStorage env adhocId).Responds ↔
        ∀ adhoc r, s.Registered adhocId adhoc → deployReply env adhoc = some r →
          r.errorCode = .success →
          r.value ≠ none ∧ s.RecordTaken env adhocId (deployFields env)) ∧
      ((s.terminateAdhocStorage env adhocId).Responds ↔
        (∃ adhoc, s.Registered adhocId adhoc) ∧
          ∀ adhoc r, s.Registered adhocId adhoc → terminateReply env adhoc = some r →
            r.errorCode = .success → s.RecordTaken env adhocId (terminateFields env)) :=
  ⟨registerJob_responds_iff hredis env res req slurmId,
    deployAdhocStorage_responds_iff hredis env adhocId,
    terminateAdhocStorage_responds_iff hredis env adhocId⟩

end Responds

/-- The theorem at a server that knows one storage, without a client. -/
theorem redisHandlers_respond_iff_sample :
    ∃ s : Server Unit, run step (init true) [(Env.isolated, sampleAdhoc [])] = some s ∧
      ((s.deployAdhocStorage obligingEnv 0).Responds ↔
        ∀ adhoc r, s.Registered 0 adhoc → deployReply obligingEnv adhoc = some r →
          r.errorCode = .success →
          r.value ≠ none ∧ s.RecordTaken obligingEnv 0 (deployFields obligingEnv)) :=
  ⟨_, rfl, (redisHandlers_respond_iff (s := (Server.init true : Server Unit).registerAdhocStorage
    Env.isolated "fs" .gekkofs sampleCtx ⟨[]⟩ |>.server) rfl obligingEnv 0 ⟨[]⟩
    (sampleRequirements none) 7).2.1⟩

/-- A storage is deployed before a job is registered for it, and a job without
    an adhoc storage is registered: neither handler gets to its response. -/
theorem not_respond_without_client :
    ∃ s : Server Unit, run step (init true) [(Env.isolated, sampleAdhoc [])] = some s ∧
      ¬ (s.deployAdhocStorage obligingEnv 0).Responds ∧
      ¬ (s.registerJob Env.isolated ⟨[]⟩ (sampleRequirements none) 7).Responds := by
  refine ⟨_, rfl, ?_, ?_⟩
  · rintro ⟨resp, hresp⟩
    have hundefined := hresp.symm.trans (b := Except.error Fault.undefined) rfl
    cases hundefined
  · rintro ⟨resp, hresp⟩
    have hundefined := hresp.symm.trans (b := Except.error Fault.undefined) rfl
    cases hundefined

end Server

end Scord
