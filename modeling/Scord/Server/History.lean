/-
  Scord.Server.History

  What `query` answers, told by the history of the requests that were accepted.

  The history lists the accepted writes on jobs and adhoc storages, the latest
  one first.  A job entry follows from it: the slurm id and the adhoc storage of
  the registration, the resources of the registration or the latest update.  The
  managers agree with the history in every reachable state, so a query does.
-/
import Scord.Server.Query
import Scord.Server.RedisRecords

namespace Scord

open ObjectStore StepSystem

/-! ## The history -/

/-- The writes that the server accepts. -/
inductive Accepted
  | jobRegistered (id : JobId) (slurmId : SlurmJobId) (res : JobResources)
      (req : JobRequirements)
  | jobUpdated (id : JobId) (res : JobResources)
  | jobRemoved (id : JobId)
  | adhocRegistered (id : AdhocId) (uuid : String) (ctx : AdhocCtx)
  | adhocUpdated (id : AdhocId) (res : AdhocResources)
  | adhocRemoved (id : AdhocId)

/-- A job as the history tells it.  Of its adhoc storage, if it has one, this is
    the uuid and the context that the storage was registered with. -/
structure JobEntry where
  slurmId : SlurmJobId
  resources : JobResources
  adhoc : Option (String × AdhocCtx)

/-- The registration of the adhoc storage that has the id now. -/
def adhocEntry : List Accepted → AdhocId → Option (String × AdhocCtx)
  | [], _ => none
  | .adhocRegistered id' uuid ctx :: h, id =>
      if id = id' then some (uuid, ctx) else adhocEntry h id
  | .adhocRemoved id' :: h, id => if id = id' then none else adhocEntry h id
  | _ :: h, id => adhocEntry h id

/-- The job that has the id now.  Its adhoc storage is the one that had the
    required id when the job was registered. -/
def jobEntry : List Accepted → JobId → Option JobEntry
  | [], _ => none
  | .jobRegistered id' slurmId res req :: h, id =>
      if id = id' then
        some ⟨slurmId, res, req.adhocStorage.bind fun required => adhocEntry h required.id⟩
      else jobEntry h id
  | .jobUpdated id' res :: h, id =>
      if id = id' then (jobEntry h id).map fun e => { e with resources := res }
      else jobEntry h id
  | .jobRemoved id' :: h, id => if id = id' then none else jobEntry h id
  | _ :: h, id => jobEntry h id

namespace Server

variable {H : Type}

/-- The write that a request is answered success for.  A `register_job` that
    ends in an exception of Redis has registered its job, too. -/
def accepted (s : Server H) : Env H × Request → Option Accepted
  | (env, .registerJob res req slurmId) =>
      match (s.registerJob env res req slurmId).outcome with
      | .ok ⟨_, .success, some id⟩ => some (.jobRegistered id slurmId res req)
      | .error (.throws .redisError) =>
          some (.jobRegistered s.jobManager.jobs.currentId slurmId res req)
      | _ => none
  | (_, .updateJob id res) =>
      match (s.updateJob id res).outcome with
      | .ok ⟨_, .success⟩ => some (.jobUpdated id res)
      | _ => none
  | (_, .removeJob id) =>
      match (s.removeJob id).outcome with
      | .ok ⟨_, .success⟩ => some (.jobRemoved id)
      | _ => none
  | (env, .registerAdhocStorage name type ctx res) =>
      match (s.registerAdhocStorage env name type ctx res).outcome with
      | .ok ⟨_, .success, some id⟩ =>
          some (.adhocRegistered id (generateAdhocUuid type env.randomString) ctx)
      | _ => none
  | (env, .updateAdhocStorage id res) =>
      match (s.updateAdhocStorage env id res).outcome with
      | .ok ⟨_, .success⟩ => some (.adhocUpdated id res)
      | _ => none
  | (_, .removeAdhocStorage id) =>
      match (s.removeAdhocStorage id).outcome with
      | .ok ⟨_, .success⟩ => some (.adhocRemoved id)
      | _ => none
  | _ => none

/-- A request, with the write that it is accepted as. -/
def stepAccepted (s : Server H) (e : Env H × Request) : Option (Server H × Option Accepted) :=
  (s.step e).map fun s' => (s', s.accepted e)

/-- The accepted writes of a log, the latest one first. -/
def history (log : List ((Env H × Request) × Option Accepted)) : List Accepted :=
  log.filterMap Prod.snd

/-! ## What each request adds to the history -/

/-- What a request does to the live jobs and the registered adhoc storages, next
    to the write that it is accepted as. -/
inductive Recorded (s s' : Server H) : Option Accepted → Prop
  /-- nothing new; the acceptance of an adhoc update tells nothing about jobs -/
  | kept {acc : Option Accepted} (hacc : acc = none ∨ ∃ id res, acc = some (.adhocUpdated id res))
      (jobs : ∀ {id p j}, s'.jobManager.Live id p j → s.jobManager.Live id p j)
      (adhocs : ∀ {id ap}, s'.adhocManager.find? id = some ap →
        s.adhocManager.find? id = some ap) : Recorded s s' acc
  | jobRegistered {id : JobId} {slurmId : SlurmJobId} {res : JobResources}
      {req : JobRequirements} {ptr : Option AdhocPtr} (required : s.requiredAdhoc req = .ok ptr)
      (jobs : ∀ {id' p j}, s'.jobManager.Live id' p j →
        (s.jobManager.Live id' p j ∧ id' ≠ id) ∨
          (id' = id ∧ j = JobMetadata.make ⟨id, slurmId⟩ res req ptr))
      (adhocs : ∀ {id ap}, s'.adhocManager.find? id = some ap →
        s.adhocManager.find? id = some ap) :
      Recorded s s' (some (.jobRegistered id slurmId res req))
  | jobUpdated {id : JobId} {res : JobResources}
      (jobs : ∀ {id' p j}, s'.jobManager.Live id' p j →
        ∃ k, s.jobManager.Live id' p k ∧ j = if id' = id then k.update res else k)
      (adhocs : ∀ {id ap}, s'.adhocManager.find? id = some ap →
        s.adhocManager.find? id = some ap) :
      Recorded s s' (some (.jobUpdated id res))
  | jobRemoved {id : JobId}
      (jobs : ∀ {id' p j}, s'.jobManager.Live id' p j → s.jobManager.Live id' p j ∧ id' ≠ id)
      (adhocs : ∀ {id ap}, s'.adhocManager.find? id = some ap →
        s.adhocManager.find? id = some ap) :
      Recorded s s' (some (.jobRemoved id))
  | adhocRegistered {id : AdhocId} {uuid : String} {ctx : AdhocCtx}
      (jobs : ∀ {id p j}, s'.jobManager.Live id p j → s.jobManager.Live id p j)
      (adhocs : ∀ {id' ap}, s'.adhocManager.find? id' = some ap →
        (s.adhocManager.find? id' = some ap ∧ id' ≠ id) ∨
          (id' = id ∧ ∃ a, s'.adhocManager.get? ap = some a ∧ a.uuid = uuid ∧
            a.adhocStorage.context = ctx)) :
      Recorded s s' (some (.adhocRegistered id uuid ctx))
  | adhocRemoved {id : AdhocId}
      (jobs : ∀ {id p j}, s'.jobManager.Live id p j → s.jobManager.Live id p j)
      (adhocs : ∀ {id' ap}, s'.adhocManager.find? id' = some ap →
        s.adhocManager.find? id' = some ap ∧ id' ≠ id) :
      Recorded s s' (some (.adhocRemoved id))

variable {s s' : Server H}

/-- Only `register_adhoc_storage` registers adhoc storages. -/
theorem find?_of_step {env : Env H} {r : Request} (hs : s.step (env, r) = some s')
    (hr : ∀ name type ctx res, r ≠ .registerAdhocStorage name type ctx res) {id : AdhocId}
    {ap : AdhocPtr} (hfind : s'.adhocManager.find? id = some ap) :
    s.adhocManager.find? id = some ap := by
  rcases (step_effect hs).registered_origin hfind with hold | ⟨-, -, name, type, ctx, res, hreq, -⟩
  · exact hold
  · exact absurd hreq (hr name type ctx res)

/-- Only `register_job` and `update_job` make a job what it was not. -/
theorem live_of_step {env : Env H} {r : Request} (hs : s.step (env, r) = some s')
    (hreg : ∀ res req slurmId, r ≠ .registerJob res req slurmId)
    (hupd : ∀ id res, r ≠ .updateJob id res) {id : JobId} {p : JobPtr} {j : JobMetadata}
    (hlive : s'.jobManager.Live id p j) : s.jobManager.Live id p j := by
  cases step_effect hs with
  | unchanged jm _ _ => exact jm ▸ hlive
  | jobIdSpent jm _ _ =>
      rw [jm] at hlive
      exact hlive
  | jobCreated slurmId res req _ request _ _ _ _ _ => exact absurd request (hreg res req slurmId)
  | jobUpdated id _ res request _ _ _ _ => exact absurd request (hupd id res)
  | jobRemoved _ _ _ _ live jm _ _ =>
      rw [jm] at hlive
      exact ((JobManager.live_remove live).mp hlive).2
  | adhocIdSpent jm _ _ => exact jm ▸ hlive
  | adhocCreated _ _ _ _ _ _ jm _ _ => exact jm ▸ hlive
  | adhocUpdated _ _ _ _ _ jm _ _ => exact jm ▸ hlive
  | adhocRemoved _ _ jm _ _ => exact jm ▸ hlive
  | transferIdSpent jm _ _ => exact jm ▸ hlive
  | transferCreated _ _ _ _ _ _ _ _ _ _ _ jm _ _ => exact jm ▸ hlive

section RegisterJob

variable {env : Env H} {res : JobResources} {req : JobRequirements} {slurmId : SlurmJobId}

/-- A `register_job` that registers a job is accepted, if the server survives
    it. -/
theorem registerJob_accepted (hs : s.step (env, .registerJob res req slurmId) = some s')
    (hreg : s.Registers req) :
    s.accepted (env, .registerJob res req slurmId)
      = some (.jobRegistered s.jobManager.jobs.currentId slurmId res req) := by
  cases hredis : s.redis with
  | false =>
      have hout := (registerJob_of_not_redis env res slurmId hredis hreg).1
      simp only [accepted, hout]
  | true =>
      obtain ⟨⟨ptr, hreq⟩, hfree⟩ := hreg
      rcases requiredAdhoc_eq_ok.mp hreq with ⟨hnone, -⟩ | ⟨required, ap, hstorage, hfind, -⟩
      · -- the server does not survive a job without adhoc storage
        have hout := (registerJob_of_no_storage env res slurmId hredis hnone hfree).1
        have hnext : (s.registerJob env res req slurmId).next = some s' := hs
        simp only [Handled.next, hout, reduceCtorEq] at hnext
      · have hadhoc : s.Registered required.id (s.adhocManager.deref hfind) :=
          ⟨ap, hfind, Registry.get?_eq_deref hfind⟩
        have hout := (registerJob_of_storage env res slurmId hredis hstorage hadhoc hfree).1
        split at hout
        · simp only [accepted, hout]
        · simp only [accepted, hout]

/-- One that registers none is not accepted. -/
theorem registerJob_not_accepted (hreg : ¬ s.Registers req) :
    s.accepted (env, .registerJob res req slurmId) = none := by
  obtain ⟨⟨⟨opId, ec, value⟩, hresp, hcode⟩, -⟩ := registerJob_refused s env res req slurmId hreg
  cases ec with
  | success => exact absurd rfl hcode
  | _ => simp only [accepted, hresp]

theorem registerJob_recorded (hs : s.step (env, .registerJob res req slurmId) = some s') :
    Recorded s s' (s.accepted (env, .registerJob res req slurmId)) := by
  have hserver := next_eq_some (h := s.registerJob env res req slurmId) hs
  have hadhocs : ∀ {id ap}, s'.adhocManager.find? id = some ap →
      s.adhocManager.find? id = some ap :=
    find?_of_step hs fun _ _ _ _ => Request.noConfusion
  by_cases hreg : s.Registers req
  case neg =>
    -- at most a job id was spent
    rw [registerJob_not_accepted hreg]
    refine .kept (.inl rfl) ?_ hadhocs
    intro id p j hlive
    rw [← hserver, registerJob_server] at hlive
    cases hreq : s.requiredAdhoc req with
    | error ec =>
        rw [hreq] at hlive
        exact hlive
    | ok ptr =>
        obtain ⟨q, hq⟩ := Option.ne_none_iff_exists'.mp fun hfree => hreg ⟨⟨ptr, hreq⟩, hfree⟩
        simp only [hreq, createJob, createRpc_jobManager, JobManager.create_of_taken hq] at hlive
        exact hlive
  case pos =>
    rw [registerJob_accepted hs hreg]
    obtain ⟨⟨ptr, hreq⟩, hfree⟩ := hreg
    refine .jobRegistered hreq ?_ hadhocs
    intro id p j hlive
    have hjobs : s'.jobManager = (s.jobManager.create slurmId res req ptr).1 := by
      rw [← hserver, registerJob_server, hreq]
      simp only [createJob, createRpc_jobManager, JobManager.create_of_free hfree]
      cases ptr <;> rfl
    rw [hjobs] at hlive
    rcases (JobManager.live_createLocked (m := s.jobManager.fetchId.1) hfree).mp hlive
      with hold | ⟨rfl, -, rfl⟩
    · refine .inl ⟨hold, ?_⟩
      rintro rfl
      exact absurd (hold.1.symm.trans hfree) (Option.some_ne_none _)
    · exact .inr ⟨rfl, rfl⟩

end RegisterJob

theorem updateJob_recorded {env : Env H} {id : JobId} {res : JobResources} (hwf : s.WF)
    (hs : s.step (env, .updateJob id res) = some s') :
    Recorded s s' (s.accepted (env, .updateJob id res)) := by
  have hserver := next_eq_some (h := s.updateJob id res) hs
  have hadhocs : ∀ {id ap}, s'.adhocManager.find? id = some ap →
      s.adhocManager.find? id = some ap :=
    find?_of_step hs fun _ _ _ _ => Request.noConfusion
  cases hfind : s.jobManager.jobs.find? id with
  | none =>
      have hupdate := JobManager.update_of_none hfind res
      have hacc : s.accepted (env, .updateJob id res) = none := by
        simp only [accepted, updateJob, createRpc_jobManager, hupdate]
      rw [hacc]
      refine .kept (.inl rfl) (fun {_ _ _} hlive => ?_) hadhocs
      rw [← hserver] at hlive
      simpa only [updateJob, createRpc_jobManager, hupdate] using hlive
  | some p =>
      have hupdate := JobManager.update_of_find? hfind res
      have hacc : s.accepted (env, .updateJob id res) = some (.jobUpdated id res) := by
        simp only [accepted, updateJob, createRpc_jobManager, hupdate]
      rw [hacc]
      refine .jobUpdated (fun {id' q j} hlive => ?_) hadhocs
      rw [← hserver] at hlive
      simp only [updateJob, createRpc_jobManager, hupdate] at hlive
      obtain ⟨hfind', hget⟩ := hlive
      rw [Registry.get?_modify] at hget
      by_cases hq : q = p
      · -- the pointer of the updated job is registered under its id only
        subst hq
        rw [if_pos rfl] at hget
        obtain ⟨k, hk, rfl⟩ := Option.map_eq_some_iff.mp hget
        refine ⟨k, ⟨hfind', hk⟩, ?_⟩
        have hid : id' = id :=
          (hwf.jobs.ownId ⟨hfind', hk⟩).symm.trans (hwf.jobs.ownId ⟨hfind, hk⟩)
        rw [if_pos hid]
      · rw [if_neg hq] at hget
        refine ⟨j, ⟨hfind', hget⟩, ?_⟩
        rw [if_neg]
        rintro rfl
        exact hq (Option.some.inj (Eq.trans hfind'.symm hfind))

/-- A removal that is answered with the error of a missing storage has removed
    the job all the same. -/
theorem removeJob_recorded {env : Env H} {id : JobId}
    (hs : s.step (env, .removeJob id) = some s') :
    Recorded s s' (s.accepted (env, .removeJob id)) := by
  have hadhocs : ∀ {id ap}, s'.adhocManager.find? id = some ap →
      s.adhocManager.find? id = some ap :=
    find?_of_step hs fun _ _ _ _ => Request.noConfusion
  have hjobs : ∀ {id p j}, s'.jobManager.Live id p j → s.jobManager.Live id p j :=
    live_of_step hs (fun _ _ _ => Request.noConfusion) fun _ _ => Request.noConfusion
  cases hfind : s.jobManager.jobs.find? id with
  | none =>
      have hacc : s.accepted (env, .removeJob id) = none := by
        simp only [accepted, removeJob_of_none s hfind]
      rw [hacc]
      exact .kept (.inl rfl) hjobs hadhocs
  | some p =>
      obtain ⟨j, hj⟩ := JobManager.live_of_find? hfind
      have hserver := next_eq_some (h := s.removeJob id) hs
      simp only [accepted]
      split
      · refine .jobRemoved (fun {id' q k} hlive => ⟨hjobs hlive, ?_⟩) hadhocs
        rw [← hserver, removeJob_server_of_live s hj] at hlive
        exact ((JobManager.live_remove hj).mp hlive).1
      · exact .kept (.inl rfl) hjobs hadhocs

theorem registerAdhocStorage_recorded {env : Env H} {name : String} {type : AdhocStorageType}
    {ctx : AdhocCtx} {res : AdhocResources}
    (hs : s.step (env, .registerAdhocStorage name type ctx res) = some s') :
    Recorded s s' (s.accepted (env, .registerAdhocStorage name type ctx res)) := by
  have hserver := next_eq_some (h := s.registerAdhocStorage env name type ctx res) hs
  have hjobs : ∀ {id p j}, s'.jobManager.Live id p j → s.jobManager.Live id p j :=
    live_of_step hs (fun _ _ _ => Request.noConfusion) fun _ _ => Request.noConfusion
  cases hfree : s.adhocManager.find? s.adhocManager.currentId with
  | some p =>
      have hcreate := createAt_of_taken (r := s.adhocManager.fetchId.1) hfree
      have hacc : s.accepted (env, .registerAdhocStorage name type ctx res) = none := by
        simp only [accepted, registerAdhocStorage, AdhocStorageManager.create,
          createRpc_adhocManager, Registry.fetchId_snd, hcreate]
      rw [hacc]
      refine .kept (.inl rfl) hjobs fun {id ap} hfind => ?_
      rw [← hserver] at hfind
      simpa only [registerAdhocStorage, AdhocStorageManager.create, createRpc_adhocManager,
        Registry.fetchId_snd, hcreate, Registry.find?_fetchId] using hfind
  | none =>
      have hcreate := createAt_of_free (r := s.adhocManager.fetchId.1) hfree
        (AdhocStorageMetadata.make (generateAdhocUuid type env.randomString)
          ⟨type, name, s.adhocManager.currentId, ctx, res⟩)
      have hget := s.adhocManager.fetchId.1.get?_emplace_next s.adhocManager.currentId
        (AdhocStorageMetadata.make (generateAdhocUuid type env.randomString)
          ⟨type, name, s.adhocManager.currentId, ctx, res⟩)
      have hacc : s.accepted (env, .registerAdhocStorage name type ctx res)
          = some (.adhocRegistered s.adhocManager.currentId
            (generateAdhocUuid type env.randomString) ctx) := by
        simp only [accepted, registerAdhocStorage, AdhocStorageManager.create,
          createRpc_adhocManager, Registry.fetchId_snd, hcreate, adhocAt, Option.bind_some, hget]
        rfl
      rw [hacc]
      refine .adhocRegistered hjobs fun {id ap} hfind => ?_
      rcases (step_effect hs).registered_origin hfind with hold | ⟨rfl, -, _, _, _, _, hreq, hnew⟩
      · refine .inl ⟨hold, ?_⟩
        rintro rfl
        exact absurd (hold.symm.trans hfree) (Option.some_ne_none _)
      · cases hreq
        exact .inr ⟨rfl, _, hnew, rfl, rfl⟩

theorem removeAdhocStorage_recorded {env : Env H} {id : AdhocId}
    (hs : s.step (env, .removeAdhocStorage id) = some s') :
    Recorded s s' (s.accepted (env, .removeAdhocStorage id)) := by
  have hserver := next_eq_some (h := s.removeAdhocStorage id) hs
  have hadhocs : ∀ {id ap}, s'.adhocManager.find? id = some ap →
      s.adhocManager.find? id = some ap :=
    find?_of_step hs fun _ _ _ _ => Request.noConfusion
  have hjobs : ∀ {id p j}, s'.jobManager.Live id p j → s.jobManager.Live id p j :=
    live_of_step hs (fun _ _ _ => Request.noConfusion) fun _ _ => Request.noConfusion
  cases hfind : s.adhocManager.find? id with
  | none =>
      have hacc : s.accepted (env, .removeAdhocStorage id) = none := by
        simp only [accepted, removeAdhocStorage, AdhocStorageManager.remove,
          createRpc_adhocManager, removeAt_of_none hfind]
      rw [hacc]
      exact .kept (.inl rfl) hjobs hadhocs
  | some p =>
      have hacc : s.accepted (env, .removeAdhocStorage id) = some (.adhocRemoved id) := by
        simp only [accepted, removeAdhocStorage, AdhocStorageManager.remove,
          createRpc_adhocManager, removeAt_of_find? hfind]
      rw [hacc]
      refine .adhocRemoved hjobs fun {id' ap} hfind' => ⟨hadhocs hfind', ?_⟩
      rintro rfl
      rw [← hserver] at hfind'
      simp only [removeAdhocStorage, AdhocStorageManager.remove, createRpc_adhocManager,
        removeAt_of_find? hfind, Registry.find?_erase, if_true, reduceCtorEq] at hfind'

/-- **What every request adds to the history is what it does.** -/
theorem step_recorded {e : Env H × Request} (hwf : s.WF) (hs : s.step e = some s') :
    Recorded s s' (s.accepted e) := by
  obtain ⟨env, r⟩ := e
  cases r with
  | registerJob res req slurmId => exact registerJob_recorded hs
  | updateJob id res => exact updateJob_recorded hwf hs
  | removeJob id => exact removeJob_recorded hs
  | registerAdhocStorage name type ctx res => exact registerAdhocStorage_recorded hs
  | updateAdhocStorage id res =>
      refine .kept ?_ (live_of_step hs (fun _ _ _ => Request.noConfusion)
        fun _ _ => Request.noConfusion) (find?_of_step hs fun _ _ _ _ => Request.noConfusion)
      simp only [accepted]
      split
      · exact .inr ⟨id, res, rfl⟩
      · exact .inl rfl
  | removeAdhocStorage id => exact removeAdhocStorage_recorded hs
  | _ =>
      exact .kept (.inl rfl) (live_of_step hs (fun _ _ _ => Request.noConfusion)
        fun _ _ => Request.noConfusion) (find?_of_step hs fun _ _ _ _ => Request.noConfusion)

/-! ## The managers agree with the history -/

/-- The entry `e` tells the job `j`, and the adhoc storage that `j` points to. -/
structure Tells (s : Server H) (e : JobEntry) (j : JobMetadata) : Prop where
  slurmId : e.slurmId = j.job.slurmId
  resources : j.resources = some e.resources
  adhoc : ∀ ap, j.adhocMetadataPtr = some ap → ∃ a, s.adhocManager.get? ap = some a ∧
    e.adhoc = some (a.uuid, a.adhocStorage.context)

/-- The managers hold what the history tells. -/
structure Agrees (s : Server H) (h : List Accepted) : Prop where
  adhocs : ∀ {id ap a}, s.adhocManager.find? id = some ap → s.adhocManager.get? ap = some a →
    adhocEntry h id = some (a.uuid, a.adhocStorage.context)
  jobs : ∀ {id p j}, s.jobManager.Live id p j → ∃ e, jobEntry h id = some e ∧ s.Tells e j

theorem agrees_init (redis : Bool) : (init redis : Server H).Agrees [] where
  adhocs hfind := by cases hfind
  jobs hlive := by cases hlive.1

/-- What an entry tells about the adhoc storage of a job stays true: a storage
    keeps its uuid and its context, whatever happens to it. -/
theorem Tells.step {e : JobEntry} {j : JobMetadata} {ev : Env H × Request}
    (h : s.Tells e j) (hs : s.step ev = some s') : s'.Tells e j := by
  refine ⟨h.slurmId, h.resources, fun ap hap => ?_⟩
  obtain ⟨a, ha, hadhoc⟩ := h.adhoc ap hap
  obtain ⟨a', ha', hsame⟩ := (step_effect hs).adhoc_identity ha
  refine ⟨a', ha', ?_⟩
  rw [hadhoc, hsame.uuid, hsame.context]

theorem Agrees.adhoc_step {h : List Accepted} {ev : Env H × Request} (hagrees : s.Agrees h)
    (hs : s.step ev = some s') {id : AdhocId} {ap : AdhocPtr} {a' : AdhocStorageMetadata}
    (hfind : s.adhocManager.find? id = some ap) (ha' : s'.adhocManager.get? ap = some a') :
    adhocEntry h id = some (a'.uuid, a'.adhocStorage.context) := by
  have hget := Registry.get?_eq_deref hfind
  obtain ⟨b, hb, hsame⟩ := (step_effect hs).adhoc_identity hget
  obtain rfl : b = a' := Option.some.inj (hb.symm.trans ha')
  rw [hagrees.adhocs hfind hget, hsame.uuid, hsame.context]

/-- **A step adds to the history what the managers need to agree with it.** -/
theorem Agrees.step {h : List Accepted} {ev : Env H × Request} {acc : Option Accepted}
    (hagrees : s.Agrees h) (hs : s.step ev = some s') (hrecorded : Recorded s s' acc) :
    s'.Agrees (acc.toList ++ h) := by
  have hkept : ∀ {id ap a'}, s.adhocManager.find? id = some ap →
      s'.adhocManager.get? ap = some a' →
      adhocEntry h id = some (a'.uuid, a'.adhocStorage.context) :=
    fun hfind ha' => hagrees.adhoc_step hs hfind ha'
  have htold : ∀ {id p j}, s.jobManager.Live id p j →
      ∃ e, jobEntry h id = some e ∧ s'.Tells e j := by
    intro id p j hlive
    obtain ⟨e, he, htells⟩ := hagrees.jobs hlive
    exact ⟨e, he, htells.step hs⟩
  cases hrecorded with
  | kept hacc jobs adhocs =>
      -- the history tells the same with and without an adhoc update
      rcases hacc with rfl | ⟨_, _, rfl⟩
      · exact ⟨fun hfind ha' => hkept (adhocs hfind) ha', fun hlive => htold (jobs hlive)⟩
      · exact ⟨fun hfind ha' => hkept (adhocs hfind) ha', fun hlive => htold (jobs hlive)⟩
  | @jobRegistered id slurmId res req ptr required jobs adhocs =>
      refine ⟨fun hfind ha' => hkept (adhocs hfind) ha', fun {id' p j} hlive => ?_⟩
      rcases jobs hlive with ⟨hold, hne⟩ | ⟨rfl, rfl⟩
      · obtain ⟨e, he, htells⟩ := htold hold
        exact ⟨e, (if_neg hne).trans he, htells⟩
      · refine ⟨_, if_pos rfl, rfl, rfl, fun ap hap => ?_⟩
        -- the storage was looked up under the required id in this request
        obtain rfl : ptr = some ap := hap
        rcases requiredAdhoc_eq_ok.mp required with ⟨-, hnone⟩ | ⟨r, q, hr, hfind, hq⟩
        · cases hnone
        · cases hq
          obtain ⟨a', ha', -⟩ := (step_effect hs).adhoc_identity (Registry.get?_eq_deref hfind)
          refine ⟨a', ha', ?_⟩
          show req.adhocStorage.bind _ = _
          rw [hr, Option.bind_some]
          exact hkept hfind ha'
  | @jobUpdated id res jobs adhocs =>
      refine ⟨fun hfind ha' => hkept (adhocs hfind) ha', fun {id' p j} hlive => ?_⟩
      obtain ⟨k, hk, rfl⟩ := jobs hlive
      obtain ⟨e, he, htells⟩ := htold hk
      by_cases hid : id' = id
      · refine ⟨{ e with resources := res }, ?_, ?_⟩
        · exact (if_pos hid).trans (congrArg (Option.map _) he)
        · rw [if_pos hid]
          exact ⟨htells.slurmId, rfl, htells.adhoc⟩
      · rw [if_neg hid]
        exact ⟨e, (if_neg hid).trans he, htells⟩
  | @jobRemoved id jobs adhocs =>
      refine ⟨fun hfind ha' => hkept (adhocs hfind) ha', fun {id' p j} hlive => ?_⟩
      obtain ⟨hold, hne⟩ := jobs hlive
      obtain ⟨e, he, htells⟩ := htold hold
      exact ⟨e, (if_neg hne).trans he, htells⟩
  | @adhocRegistered id uuid ctx jobs adhocs =>
      refine ⟨fun {id' ap a'} hfind ha' => ?_, fun hlive => htold (jobs hlive)⟩
      rcases adhocs hfind with ⟨hold, hne⟩ | ⟨rfl, a, ha, rfl, rfl⟩
      · exact (if_neg hne).trans (hkept hold ha')
      · obtain rfl : a = a' := Option.some.inj (ha.symm.trans ha')
        exact if_pos rfl
  | @adhocRemoved id jobs adhocs =>
      refine ⟨fun {id' ap a'} hfind ha' => ?_, fun hlive => htold (jobs hlive)⟩
      obtain ⟨hold, hne⟩ := adhocs hfind
      exact (if_neg hne).trans (hkept hold ha')

theorem agrees_of_reachable {redis : Bool} {log : List ((Env H × Request) × Option Accepted)}
    (h : Reachable (logged stepAccepted) (init redis, []) (s, log)) :
    s.WF ∧ s.Agrees (history log) := by
  refine h.invariant (I := fun t => t.1.WF ∧ t.1.Agrees (history t.2))
    ⟨wf_init redis, agrees_init redis⟩ ?_
  rintro ⟨t, l⟩ ev t' ⟨hwf, hagrees⟩ hs
  obtain ⟨u, acc, hstep, rfl⟩ := logged_eq_some.mp hs
  obtain ⟨u', hu, heq⟩ := Option.map_eq_some_iff.mp hstep
  cases heq
  refine ⟨wf_step hwf hu, ?_⟩
  have hhistory : history ((ev, t.accepted ev) :: l) = (t.accepted ev).toList ++ history l := by
    unfold history
    rw [List.filterMap_cons]
    cases t.accepted ev <;> rfl
  show u.Agrees (history ((ev, t.accepted ev) :: l))
  rw [hhistory]
  exact hagrees.step hu (step_recorded hwf hu)

/-! ## What a query answers -/

/-- The info describes a live job that was registered under the slurm id: the
    number of nodes is that of its registration or its latest accepted update,
    and the uuid and the address are those that the adhoc storage it named was
    registered with. -/
def Describes (s : Server H) (h : List Accepted) (slurmId : SlurmJobId) (info : JobInfo) :
    Prop :=
  ∃ id p j e uuid ctx, s.jobManager.Live id p j ∧ jobEntry h id = some e ∧
    e.slurmId = slurmId ∧ info.ioProcs = UInt32.ofNat e.resources.nodes.length ∧
    e.adhoc = some (uuid, ctx) ∧ info.uuid = uuid ∧
    info.adhocControllerAddress = ctx.controllerAddress

/-- **A query that succeeds reflects the latest accepted writes.** -/
theorem query_describes {redis : Bool} {log : List ((Env H × Request) × Option Accepted)}
    (h : Reachable (logged stepAccepted) (init redis, []) (s, log)) (slurmId : SlurmJobId)
    {resp : ResponseWithValue JobInfo} (hresp : (s.query slurmId).outcome = .ok resp)
    (hsuccess : resp.errorCode = .success) :
    ∃ info, resp.value = some info ∧ s.Describes (history log) slurmId info := by
  obtain ⟨hwf, hagrees⟩ := agrees_of_reachable h
  by_cases hindexed : ∃ j, s.Indexed slurmId j
  case neg =>
    rw [query_outcome_of_not_indexed hindexed, Except.ok.injEq] at hresp
    subst hresp
    cases hsuccess
  obtain ⟨j, hj⟩ := hindexed
  cases hptr : j.adhocMetadataPtr with
  | none =>
      rw [query_outcome_of_no_adhoc hwf hj hptr] at hresp
      cases hresp
  | some ap =>
      obtain ⟨id, p, hid, hlive⟩ := hj
      obtain ⟨e, he, htells⟩ := hagrees.jobs hlive
      obtain ⟨a, ha, hea⟩ := htells.adhoc ap hptr
      have hat : s.adhocAt j.adhocMetadataPtr = some a := by
        rw [hptr]
        exact ha
      rw [query_outcome_of_adhoc hwf ⟨id, p, hid, hlive⟩ hat, Except.ok.injEq] at hresp
      subst hresp
      refine ⟨_, rfl, id, p, j, e, _, _, hlive, he, ?_, ?_, hea, rfl, rfl⟩
      · -- the entry of the index is that of a job with this slurm id
        obtain ⟨q, k, hk, hks⟩ := hwf.jobs.index hid
        obtain rfl : q = p := Option.some.inj (hk.1.symm.trans hlive.1)
        obtain rfl : k = j := Option.some.inj (hk.2.symm.trans hlive.2)
        exact htells.slurmId.trans hks
      · show j.ioProcs = _
        unfold JobMetadata.ioProcs
        rw [htells.resources]

/-- A job grows to two nodes, and its adhoc storage is unregistered. -/
def describedRun : List (Env Unit × Request) :=
  [(Env.isolated, sampleAdhoc []), (Env.isolated, sampleJob (some 0) 7),
    (Env.isolated, .updateJob 0 ⟨[⟨"n0", .regular⟩, ⟨"n1", .regular⟩]⟩),
    (Env.isolated, .removeAdhocStorage 0)]

/-- The query after that run is answered with two nodes, and with the storage
    that is no longer registered. -/
theorem query_describes_describedRun :
    ∃ (s : Server Unit) (log : List ((Env Unit × Request) × Option Accepted)),
      run (logged stepAccepted) (init true, []) describedRun = some (s, log) ∧
        (s.query 7).outcome
          = .ok ⟨4, .success, some ⟨"tcp://controller", "gekkofs-", 2⟩⟩ ∧
        ∃ info, some ⟨"tcp://controller", "gekkofs-", 2⟩ = some info ∧
          s.Describes (history log) 7 info := by
  obtain ⟨⟨s, log⟩, hs⟩ : ∃ t : Server Unit × List ((Env Unit × Request) × Option Accepted),
      run (logged stepAccepted) (init true, []) describedRun = some t := ⟨_, rfl⟩
  have hquery : (s.query 7).outcome
      = .ok ⟨4, .success, some ⟨"tcp://controller", "gekkofs-", 2⟩⟩ := by
    cases hs
    rfl
  exact ⟨s, log, hs, hquery, query_describes ⟨_, hs⟩ 7 hquery rfl⟩

end Server

end Scord
