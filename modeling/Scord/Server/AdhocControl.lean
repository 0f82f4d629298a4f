/-
  Scord.Server.AdhocControl

  The handlers that pass a request on to the controller of an adhoc storage:
  `update_adhoc_storage`, `deploy_adhoc_storage` and `terminate_adhoc_storage`.

  The first part is about their error contract: when they respond, and with
  which code.  The second part is about the record that `update_adhoc_storage`
  replaces before it knows what the controller says.
-/
import Scord.Server.Invariants

namespace Scord

open ObjectStore StepSystem

namespace Server

variable {H : Type}

/-- `adhoc` is the adhoc storage that is registered under `adhocId`. -/
def Registered (s : Server H) (adhocId : AdhocId) (adhoc : AdhocStorageMetadata) : Prop :=
  ∃ p, s.adhocManager.find? adhocId = some p ∧ s.adhocManager.get? p = some adhoc

theorem Registered.unique {s : Server H} {adhocId : AdhocId} {a b : AdhocStorageMetadata}
    (ha : s.Registered adhocId a) (hb : s.Registered adhocId b) : a = b := by
  obtain ⟨p, hp, ha⟩ := ha
  obtain ⟨q, hq, hb⟩ := hb
  obtain rfl : p = q := Option.some.inj (hp.symm.trans hq)
  exact Option.some.inj (ha.symm.trans hb)

theorem find?_eq_none_iff {s : Server H} {adhocId : AdhocId} :
    s.adhocManager.find? adhocId = none ↔ ¬ ∃ adhoc, s.Registered adhocId adhoc := by
  refine ⟨?_, ?_⟩
  · rintro hnone ⟨adhoc, p, hp, -⟩
    rw [hnone] at hp
    cases hp
  · intro hnot
    rw [Option.eq_none_iff_forall_not_mem]
    intro p hp
    exact hnot ⟨_, p, hp, Registry.get?_eq_deref hp⟩

/-! ## The controller's answer -/

/-- The controller's reply to a request about `adhoc`, if the controller can be
    looked up and called. -/
def controllerReply (env : Env H) (rpcName : String) (adhoc : AdhocStorageMetadata)
    (resources : Option AdhocResources) : Option (ResponseWithValue String) :=
  if env.lookup adhoc.controllerAddress then
    env.call ⟨rpcName, adhoc.controllerAddress, adhoc.uuid, adhoc.adhocStorage.type, resources⟩
  else none

/-- The reply to the request of `update_adhoc_storage` to resize `adhoc`. -/
def resizeReply (env : Env H) (newResources : AdhocResources) (adhoc : AdhocStorageMetadata) :
    Option (ResponseWithValue String) :=
  controllerReply env
    (resizeName (newResources.nodes.length > adhoc.adhocStorage.resources.nodes.length)) adhoc
    (some newResources)

/-- The reply to the request of `deploy_adhoc_storage`. -/
def deployReply (env : Env H) (adhoc : AdhocStorageMetadata) :
    Option (ResponseWithValue String) :=
  controllerReply env "ADM_deploy_adhoc_storage" adhoc (some adhoc.adhocStorage.resources)

/-- The reply to the request of `terminate_adhoc_storage`. -/
def terminateReply (env : Env H) (adhoc : AdhocStorageMetadata) :
    Option (ResponseWithValue String) :=
  controllerReply env "ADM_terminate_adhoc_storage" adhoc none

theorem callController_fst (env : Env H) (rpcName : String) (adhoc : AdhocStorageMetadata)
    (resources : Option AdhocResources) :
    (callController env rpcName adhoc resources).1
      = match controllerReply env rpcName adhoc resources with
        | some reply => .ok reply
        | none => .error .snafu := by
  unfold callController controllerReply
  by_cases hl : env.lookup adhoc.controllerAddress = true
  · simp only [hl, if_true]
    cases env.call _ <;> rfl
  · simp only [hl, if_false, Bool.false_eq_true]

/-- The Redis record of the client of the storage takes the write: the slot is
    not empty, and `hmset` succeeds. -/
def RecordTaken (env : Env H) (s : Server H) (adhocId : AdhocId)
    (fields : List (String × String)) : Prop :=
  ∃ adhoc q j, s.Registered adhocId adhoc ∧ adhoc.clientInfo = some q ∧
    s.jobManager.jobs.get? q = some j ∧ env.hmset ⟨toString j.job.id, fields⟩ = true

/-- The key of that record is the id of the job that the slot leads to. -/
theorem clientJobId_eq_ok {s : Server H} {adhocId : AdhocId} {id : JobId} :
    s.clientJobId adhocId = .ok id ↔
      ∃ adhoc q j, s.Registered adhocId adhoc ∧ adhoc.clientInfo = some q ∧
        s.jobManager.jobs.get? q = some j ∧ j.job.id = id := by
  unfold clientJobId
  cases hfind : s.adhocManager.find? adhocId with
  | none =>
      -- no storage, so no record; the expected is unwrapped
      simp only [AdhocStorageManager.find_of_none hfind, reduceCtorEq, false_iff]
      rintro ⟨adhoc, q, j, hreg, -⟩
      exact find?_eq_none_iff.mp hfind ⟨adhoc, hreg⟩
  | some p =>
      have hget := Registry.get?_eq_deref hfind
      have hreg : s.Registered adhocId (s.adhocManager.deref hfind) := ⟨p, hfind, hget⟩
      simp only [AdhocStorageManager.find_of_find? hfind, adhocAt, Option.bind_some, hget]
      cases hj : s.jobAt (s.adhocManager.deref hfind).clientInfo with
      | none =>
          -- the slot is empty, and is dereferenced
          simp only [reduceCtorEq, false_iff]
          rintro ⟨adhoc, q, j, hreg', hq, hj', -⟩
          obtain rfl := hreg'.unique hreg
          rw [hq, show s.jobAt (some q) = s.jobManager.jobs.get? q from rfl, hj'] at hj
          cases hj
      | some j =>
          obtain ⟨q, hq, hjq⟩ := Option.bind_eq_some_iff.mp hj
          simp only [Except.ok.injEq]
          refine ⟨fun hid => ⟨_, q, j, hreg, hq, hjq, hid⟩, ?_⟩
          rintro ⟨adhoc, q', j', hreg', hq', hj', hid⟩
          obtain rfl := hreg'.unique hreg
          obtain rfl : q' = q := Option.some.inj (hq'.symm.trans hq)
          obtain rfl : j' = j := Option.some.inj (hj'.symm.trans hjq)
          exact hid

theorem recordTaken_iff {env : Env H} {s : Server H} {adhocId : AdhocId}
    {fields : List (String × String)} :
    s.RecordTaken env adhocId fields ↔
      ∃ id, s.clientJobId adhocId = .ok id ∧ env.hmset ⟨toString id, fields⟩ = true := by
  refine ⟨?_, ?_⟩
  · rintro ⟨adhoc, q, j, hreg, hq, hj, htaken⟩
    exact ⟨j.job.id, clientJobId_eq_ok.mpr ⟨adhoc, q, j, hreg, hq, hj, rfl⟩, htaken⟩
  · rintro ⟨id, hid, htaken⟩
    obtain ⟨adhoc, q, j, hreg, hq, hj, rfl⟩ := clientJobId_eq_ok.mp hid
    exact ⟨adhoc, q, j, hreg, hq, hj, htaken⟩

/-- The end of a deployment or a termination responds, unless it has a success
    to record and the record does not take it. -/
theorem finish_sent_iff {ρ : Type} (env : Env H) (s : Server H) (adhocId : AdhocId)
    (fields : List (String × String)) (ec : ErrorCode) (resp resp' : ρ)
    (calls : List ControllerCall) :
    (finish env s adhocId fields ec resp calls).outcome = .ok resp' ↔
      resp' = resp ∧ (s.redis = true → ec = .success → s.RecordTaken env adhocId fields) := by
  unfold finish
  -- is there anything to write at all?
  by_cases hwrite : s.redis = true ∧ ec = .success
  · obtain ⟨hredis, rfl⟩ := hwrite
    simp only [hredis, decide_true, Bool.and_true, if_true, forall_const, recordTaken_iff]
    cases s.clientJobId adhocId with
    | error fault => simp
    | ok id =>
        simp only [Except.ok.injEq, exists_eq_left']
        by_cases hset : env.hmset ⟨toString id, fields⟩ = true
        · simp only [hset, if_true, and_true, Except.ok.injEq]
          exact eq_comm
        · simp [hset]
  · have hcond : (s.redis && decide (ec = .success)) = false := by
      simpa using hwrite
    simp only [hcond, Bool.false_eq_true, if_false, Except.ok.injEq]
    refine ⟨?_, ?_⟩
    · rintro rfl
      exact ⟨rfl, fun hredis hec => absurd ⟨hredis, hec⟩ hwrite⟩
    · rintro ⟨rfl, -⟩
      rfl

/-! ## The error contract -/

/-- What each of the three handlers should do: respond, and, with Redis
    disabled, with `no_such_entity` for an unknown id, with `snafu` when the
    controller does not answer, and otherwise with the controller's code. -/
structure ControlContract (s : Server H) (adhocId : AdhocId)
    (reply : AdhocStorageMetadata → Option (ResponseWithValue String)) {ρ : Type}
    (outcome : Outcome ρ) (code : ρ → ErrorCode) (resp : ρ) : Prop where
  sent : outcome = .ok resp
  unknown : s.redis = false → (¬ ∃ adhoc, s.Registered adhocId adhoc) →
    code resp = .noSuchEntity
  unreached : s.redis = false → ∀ adhoc, s.Registered adhocId adhoc → reply adhoc = none →
    code resp = .snafu
  answered : s.redis = false → ∀ adhoc r, s.Registered adhocId adhoc →
    reply adhoc = some r → code resp = r.errorCode

section Contract

variable (s : Server H) (env : Env H) (adhocId : AdhocId)

/-- Two contracts at one storage: only its own reply matters. -/
theorem ControlContract.of_registered {s : Server H} {adhocId : AdhocId}
    {reply : AdhocStorageMetadata → Option (ResponseWithValue String)} {ρ : Type}
    {outcome : Outcome ρ} {code : ρ → ErrorCode} {resp : ρ} {adhoc : AdhocStorageMetadata}
    (hreg : s.Registered adhocId adhoc) (hsent : outcome = .ok resp)
    (hcode : code resp = match reply adhoc with
      | some r => r.errorCode
      | none => .snafu) :
    s.ControlContract adhocId reply outcome code resp := by
  refine ⟨hsent, ?_, ?_, ?_⟩
  · exact fun _ hnot => absurd ⟨adhoc, hreg⟩ hnot
  · intro _ a ha hnone
    obtain rfl := ha.unique hreg
    rw [hcode, hnone]
  · intro _ a r ha hsome
    obtain rfl := ha.unique hreg
    rw [hcode, hsome]

/-- `update_adhoc_storage` of a registered storage calls the controller with the
    updated record, and unwraps what comes back. -/
theorem updateAdhocStorage_of_registered {s : Server H} {adhocId : AdhocId}
    {adhoc : AdhocStorageMetadata} (hreg : s.Registered adhocId adhoc) (env : Env H)
    (newResources : AdhocResources) :
    (s.updateAdhocStorage env adhocId newResources).calls
        = (callController env
          (resizeName (newResources.nodes.length > adhoc.adhocStorage.resources.nodes.length))
          (adhoc.update newResources) (some newResources)).2 ∧
      (s.updateAdhocStorage env adhocId newResources).outcome
        = match resizeReply env newResources adhoc with
          | some r => .ok ⟨s.rpcCount, r.errorCode⟩
          | none => .error (.throws (.badExpectedAccess .snafu)) := by
  obtain ⟨p, hfind, hget⟩ := hreg
  have hget' : (s.adhocManager.modify p fun a => a.update newResources).get? p
      = some (adhoc.update newResources) := by
    rw [Registry.get?_modify, if_pos rfl, hget, Option.map_some]
  have hfind' :
      AdhocStorageManager.find (s.adhocManager.modify p fun a => a.update newResources) adhocId
        = .ok p := AdhocStorageManager.find_of_find? hfind
  have hreply : controllerReply env
      (resizeName (newResources.nodes.length > adhoc.adhocStorage.resources.nodes.length))
      (adhoc.update newResources) (some newResources) = resizeReply env newResources adhoc := rfl
  unfold updateAdhocStorage
  simp only [createRpc_adhocManager, AdhocStorageManager.find_of_find? hfind, adhocAt,
    Option.bind_some, hget, AdhocStorageManager.update_of_find? hfind, hfind', hget',
    callController_fst, AdhocStorageMetadata.update_resources, true_and]
  rw [hreply]
  cases resizeReply env newResources adhoc <;> rfl

theorem updateContract_iff (res : AdhocResources) :
    (∃ resp, s.ControlContract adhocId (resizeReply env res)
        (s.updateAdhocStorage env adhocId res).outcome GenericResponse.errorCode resp) ↔
      ∃ adhoc r, s.Registered adhocId adhoc ∧ resizeReply env res adhoc = some r := by
  refine ⟨?_, ?_⟩
  · rintro ⟨resp, hsent, -⟩
    by_cases hreg : ∃ adhoc, s.Registered adhocId adhoc
    · obtain ⟨adhoc, hreg⟩ := hreg
      rw [(updateAdhocStorage_of_registered hreg env res).2] at hsent
      cases hreply : resizeReply env res adhoc with
      | none =>
          rw [hreply] at hsent
          cases hsent
      | some r => exact ⟨adhoc, r, hreg, hreply⟩
    · rw [updateAdhocStorage_of_none env s (find?_eq_none_iff.mpr hreg)] at hsent
      cases hsent
  · rintro ⟨adhoc, r, hreg, hreply⟩
    have hout := (updateAdhocStorage_of_registered hreg env res).2
    rw [hreply] at hout
    exact ⟨_, .of_registered hreg hout (by rw [hreply])⟩

/-- At a registered storage, the end of a handler with the code of the reply keeps
    the contract, unless it has a success that the record does not take. -/
theorem finishContract_iff {s : Server H} {adhocId : AdhocId} {adhoc : AdhocStorageMetadata}
    {reply : AdhocStorageMetadata → Option (ResponseWithValue String)} {ρ : Type}
    {code : ρ → ErrorCode} {resp : ρ} {fields : List (String × String)} {ec : ErrorCode}
    {calls : List ControllerCall} (hreg : s.Registered adhocId adhoc) (hcode : code resp = ec)
    (hec : ec = match reply adhoc with
      | some r => r.errorCode
      | none => .snafu) :
    (∃ resp', s.ControlContract adhocId reply
        (finish env s.createRpc.1 adhocId fields ec resp calls).outcome code resp') ↔
      (s.redis = true → ec = .success → s.RecordTaken env adhocId fields) := by
  refine ⟨fun h => ?_, fun h => ?_⟩
  · obtain ⟨resp', hsent, -⟩ := h
    exact ((finish_sent_iff ..).mp hsent).2
  · have hsent := (finish_sent_iff env s.createRpc.1 adhocId fields ec resp resp calls).mpr
      ⟨rfl, h⟩
    exact ⟨resp, .of_registered hreg hsent (hcode.trans hec)⟩

/-- What `deploy_helper` makes of the controller's reply. -/
theorem deployHelper_fst (adhoc : AdhocStorageMetadata) :
    (deployHelper env adhoc).1 = match deployReply env adhoc with
      | none => .ok (.error .snafu)
      | some r =>
          if r.errorCode = .success then r.value.elim (.error .terminates) fun dir => .ok (.ok dir)
          else .ok (.error r.errorCode) := by
  have hcall := callController_fst env "ADM_deploy_adhoc_storage" adhoc
    (some adhoc.adhocStorage.resources)
  unfold deployHelper deployReply
  simp only [hcall]
  cases controllerReply env "ADM_deploy_adhoc_storage" adhoc
    (some adhoc.adhocStorage.resources) with
  | none => rfl
  | some r =>
      by_cases hec : r.errorCode = .success
      · cases hvalue : r.value <;> simp [hec, hvalue, ErrorCode.toBool]
      · simp [hec, ErrorCode.toBool]

/-- `deploy_adhoc_storage` of a registered storage ends as the helper says. -/
theorem deployAdhocStorage_of_registered {adhoc : AdhocStorageMetadata}
    (hreg : s.Registered adhocId adhoc) :
    s.deployAdhocStorage env adhocId
      = match (deployHelper env adhoc).1 with
        | .error fault =>
            { server := s.createRpc.1, outcome := .error fault,
              calls := (deployHelper env adhoc).2 }
        | .ok (.error ec) => finish env s.createRpc.1 adhocId (deployFields env) ec
            ⟨s.rpcCount, ec, some ""⟩ (deployHelper env adhoc).2
        | .ok (.ok dir) => finish env s.createRpc.1 adhocId (deployFields env) .success
            ⟨s.rpcCount, .success, some dir⟩ (deployHelper env adhoc).2 := by
  obtain ⟨p, hfind, hget⟩ := hreg
  unfold deployAdhocStorage
  simp only [createRpc_adhocManager, AdhocStorageManager.find_of_find? hfind, adhocAt,
    Option.bind_some, hget]
  rcases deployHelper env adhoc with ⟨fault | (ec | dir), calls⟩
  · rfl
  · rfl
  · rfl

theorem deployAdhocStorage_outcome {adhoc : AdhocStorageMetadata}
    (hreg : s.Registered adhocId adhoc) :
    ∃ calls, (s.deployAdhocStorage env adhocId).outcome
      = match (deployHelper env adhoc).1 with
        | .error fault => .error fault
        | .ok (.error ec) => (finish env s.createRpc.1 adhocId (deployFields env) ec
            (⟨s.rpcCount, ec, some ""⟩ : ResponseWithValue String) calls).outcome
        | .ok (.ok dir) => (finish env s.createRpc.1 adhocId (deployFields env) .success
            (⟨s.rpcCount, .success, some dir⟩ : ResponseWithValue String) calls).outcome := by
  refine ⟨(deployHelper env adhoc).2, ?_⟩
  rw [deployAdhocStorage_of_registered s env adhocId hreg]
  rcases (deployHelper env adhoc).1 with fault | (ec | dir)
  · rfl
  · rfl
  · rfl

/-- A failed deployment and an unknown id are both answered by the end of the
    handler, with the code that was found. -/
theorem deployContract_iff :
    (∃ resp, s.ControlContract adhocId (deployReply env)
        (s.deployAdhocStorage env adhocId).outcome ResponseWithValue.errorCode resp) ↔
      ∀ adhoc r, s.Registered adhocId adhoc → deployReply env adhoc = some r →
        r.errorCode = .success →
        r.value ≠ none ∧ (s.redis = true → s.RecordTaken env adhocId (deployFields env)) := by
  by_cases hreg : ∃ adhoc, s.Registered adhocId adhoc
  · obtain ⟨adhoc, hreg⟩ := hreg
    obtain ⟨calls, hout⟩ := deployAdhocStorage_outcome s env adhocId hreg
    rw [deployHelper_fst] at hout
    cases hreply : deployReply env adhoc with
    | none =>
        simp only [hreply] at hout
        rw [hout, finishContract_iff env hreg]
        case hcode => rfl
        case hec => rw [hreply]
        refine iff_of_true (fun _ hec => ErrorCode.noConfusion hec) fun a r ha hr => ?_
        obtain rfl := ha.unique hreg
        rw [hreply] at hr
        cases hr
    | some r =>
        -- only this reply counts
        have hreplied : (∀ a r', s.Registered adhocId a → deployReply env a = some r' →
            r'.errorCode = .success →
            r'.value ≠ none ∧ (s.redis = true → s.RecordTaken env adhocId (deployFields env))) ↔
              (r.errorCode = .success → r.value ≠ none ∧
                (s.redis = true → s.RecordTaken env adhocId (deployFields env))) := by
          refine ⟨fun hall => hall adhoc r hreg hreply, fun h a r' ha hr' => ?_⟩
          obtain rfl := ha.unique hreg
          obtain rfl : r' = r := Option.some.inj (hr'.symm.trans hreply)
          exact h
        rw [hreplied]
        simp only [hreply] at hout
        by_cases hec : r.errorCode = .success
        · rw [if_pos hec] at hout
          cases hdir : r.value with
          | none =>
              -- the helper unwraps the missing directory
              simp only [hdir, Option.elim_none] at hout
              rw [hout]
              refine iff_of_false ?_ fun h => (h hec).1 rfl
              rintro ⟨resp, hsent, -⟩
              cases hsent
          | some dir =>
              simp only [hdir, Option.elim_some] at hout
              rw [hout, finishContract_iff env hreg]
              case hcode => rfl
              case hec =>
                rw [hreply]
                exact hec.symm
              simp [hec]
        · simp only [if_neg hec] at hout
          rw [hout, finishContract_iff env hreg]
          case hcode => rfl
          case hec => rw [hreply]
          simp [hec]
  · have hnone := find?_eq_none_iff.mpr hreg
    unfold deployAdhocStorage
    simp only [createRpc_adhocManager, AdhocStorageManager.find_of_none hnone]
    refine iff_of_true ⟨_, (finish_sent_iff ..).mpr ⟨rfl, ?_⟩, fun _ _ => rfl, ?_, ?_⟩ ?_
    · exact fun _ hec => ErrorCode.noConfusion hec
    · exact fun _ adhoc ha => absurd ⟨adhoc, ha⟩ hreg
    · exact fun _ adhoc _ ha => absurd ⟨adhoc, ha⟩ hreg
    · exact fun adhoc _ ha => absurd ⟨adhoc, ha⟩ hreg

/-- What `terminate_helper` makes of the controller's reply. -/
theorem terminateHelper_fst (adhoc : AdhocStorageMetadata) :
    (terminateHelper env adhoc).1 = match terminateReply env adhoc with
      | some r => r.errorCode
      | none => .snafu := by
  have hcall := callController_fst env "ADM_terminate_adhoc_storage" adhoc none
  unfold terminateHelper terminateReply
  simp only [hcall]
  cases controllerReply env "ADM_terminate_adhoc_storage" adhoc none <;> rfl

/-- `terminate_adhoc_storage` of a registered storage ends with the code of the
    reply. -/
theorem terminateAdhocStorage_of_registered {adhoc : AdhocStorageMetadata}
    (hreg : s.Registered adhocId adhoc) :
    s.terminateAdhocStorage env adhocId
      = finish env s.createRpc.1 adhocId (terminateFields env) (terminateHelper env adhoc).1
          ⟨s.rpcCount, (terminateHelper env adhoc).1⟩ (terminateHelper env adhoc).2 := by
  obtain ⟨p, hfind, hget⟩ := hreg
  unfold terminateAdhocStorage
  simp only [createRpc_adhocManager, AdhocStorageManager.find_of_find? hfind, adhocAt,
    Option.bind_some, hget]
  rfl

theorem terminateAdhocStorage_outcome {adhoc : AdhocStorageMetadata}
    (hreg : s.Registered adhocId adhoc) :
    ∃ ec calls, (ec = match terminateReply env adhoc with
        | some r => r.errorCode
        | none => .snafu) ∧
      (s.terminateAdhocStorage env adhocId).outcome
        = (finish env s.createRpc.1 adhocId (terminateFields env) ec
            (⟨s.rpcCount, ec⟩ : GenericResponse) calls).outcome := by
  refine ⟨_, (terminateHelper env adhoc).2, terminateHelper_fst env adhoc, ?_⟩
  rw [terminateAdhocStorage_of_registered s env adhocId hreg]

/-- With an unknown id the handler ends in an exception. -/
theorem terminateAdhocStorage_of_none (hnone : s.adhocManager.find? adhocId = none) :
    s.terminateAdhocStorage env adhocId
      = { server := s.createRpc.1
          outcome := .error (.throws (.badExpectedAccess .noSuchEntity)) } := by
  unfold terminateAdhocStorage
  simp only [createRpc_adhocManager, AdhocStorageManager.find_of_none hnone]

/-- `terminate_adhoc_storage` unwraps the result of the lookup, so an unknown
    id raises an exception. -/
theorem terminateContract_iff :
    (∃ resp, s.ControlContract adhocId (terminateReply env)
        (s.terminateAdhocStorage env adhocId).outcome GenericResponse.errorCode resp) ↔
      (∃ adhoc, s.Registered adhocId adhoc) ∧
        ∀ adhoc r, s.Registered adhocId adhoc → terminateReply env adhoc = some r →
          r.errorCode = .success →
          s.redis = true → s.RecordTaken env adhocId (terminateFields env) := by
  by_cases hreg : ∃ adhoc, s.Registered adhocId adhoc
  · obtain ⟨adhoc, hreg⟩ := hreg
    obtain ⟨ec, calls, hec, hout⟩ := terminateAdhocStorage_outcome s env adhocId hreg
    rw [hout, finishContract_iff env hreg]
    case hcode => rfl
    case hec => exact hec
    refine ⟨fun h => ⟨⟨adhoc, hreg⟩, fun a r ha hr hsuccess hredis => ?_⟩,
      fun h hredis hsuccess => ?_⟩
    · obtain rfl := ha.unique hreg
      rw [hr] at hec
      exact h hredis (hec.trans hsuccess)
    · cases hreply : terminateReply env adhoc with
      | none =>
          rw [hreply] at hec
          rw [hec] at hsuccess
          cases hsuccess
      | some r =>
          rw [hreply] at hec
          exact h.2 adhoc r hreg hreply (hec.symm.trans hsuccess) hredis
  · rw [terminateAdhocStorage_of_none s env adhocId (find?_eq_none_iff.mpr hreg)]
    refine iff_of_false ?_ (fun h => hreg h.1)
    rintro ⟨resp, hsent, -⟩
    cases hsent

/-- **When the three handlers keep the error contract.**  An update does for a
    registered storage whose controller replies; a deployment unless a success
    comes without a directory or finds no client record to write; a termination
    for a registered storage, unless a success finds no client record. -/
theorem controlContracts_iff (res : AdhocResources) :
    ((∃ resp, s.ControlContract adhocId (resizeReply env res)
          (s.updateAdhocStorage env adhocId res).outcome GenericResponse.errorCode resp) ↔
        ∃ adhoc r, s.Registered adhocId adhoc ∧ resizeReply env res adhoc = some r) ∧
      ((∃ resp, s.ControlContract adhocId (deployReply env)
          (s.deployAdhocStorage env adhocId).outcome ResponseWithValue.errorCode resp) ↔
        ∀ adhoc r, s.Registered adhocId adhoc → deployReply env adhoc = some r →
          r.errorCode = .success →
          r.value ≠ none ∧ (s.redis = true → s.RecordTaken env adhocId (deployFields env))) ∧
      ((∃ resp, s.ControlContract adhocId (terminateReply env)
          (s.terminateAdhocStorage env adhocId).outcome GenericResponse.errorCode resp) ↔
        (∃ adhoc, s.Registered adhocId adhoc) ∧
          ∀ adhoc r, s.Registered adhocId adhoc → terminateReply env adhoc = some r →
            r.errorCode = .success →
            s.redis = true → s.RecordTaken env adhocId (terminateFields env)) :=
  ⟨updateContract_iff s env adhocId res, deployContract_iff s env adhocId,
    terminateContract_iff s env adhocId⟩

end Contract

/-- A storage is updated and one that was never registered is terminated, while
    no controller can be reached: both handlers end in an exception. -/
theorem not_controlContracts_isolated :
    ∃ s : Server Unit,
      run step (init false) [(Env.isolated, sampleAdhoc [])] = some s ∧
        (¬ ∃ resp, s.ControlContract 0 (resizeReply (Env.isolated : Env Unit) ⟨[]⟩)
          (s.updateAdhocStorage Env.isolated 0 ⟨[]⟩).outcome GenericResponse.errorCode resp) ∧
        ¬ ∃ resp, s.ControlContract 1 (terminateReply (Env.isolated : Env Unit))
          (s.terminateAdhocStorage Env.isolated 1).outcome GenericResponse.errorCode resp := by
  refine ⟨_, rfl, ?_, ?_⟩
  · rintro ⟨resp, hsent, -⟩
    exact absurd (hsent.symm.trans
      (b := Except.error (Fault.throws (.badExpectedAccess .snafu))) rfl) nofun
  · rintro ⟨resp, hsent, -⟩
    exact absurd (hsent.symm.trans
      (b := Except.error (Fault.throws (.badExpectedAccess .noSuchEntity))) rfl) nofun

/-! ## The record that a resize replaces -/

/-- The controller carried the resize out. -/
def Resized (env : Env H) (newResources : AdhocResources) (adhoc : AdhocStorageMetadata) :
    Prop :=
  ∃ r, resizeReply env newResources adhoc = some r ∧ r.errorCode = .success

/-- `update_adhoc_storage` is atomic: without a success of the controller the
    record keeps its resources, and it changes to the new ones only. -/
def UpdateAtomic (s : Server H) (env : Env H) (adhocId : AdhocId)
    (newResources : AdhocResources) : Prop :=
  ∀ p before after, s.adhocManager.find? adhocId = some p →
    s.adhocManager.get? p = some before →
    (s.updateAdhocStorage env adhocId newResources).server.adhocManager.get? p = some after →
    (¬ Resized env newResources before →
      after.adhocStorage.resources = before.adhocStorage.resources) ∧
    (after.adhocStorage.resources ≠ before.adhocStorage.resources →
      after.adhocStorage.resources = newResources ∧ Resized env newResources before)

/-- Whatever the controller says, the record holds the new resources. -/
theorem updateAdhocStorage_record {s : Server H} {adhocId : AdhocId} {p : AdhocPtr}
    {before : AdhocStorageMetadata} (hfind : s.adhocManager.find? adhocId = some p)
    (hget : s.adhocManager.get? p = some before) (env : Env H) (newResources : AdhocResources) :
    (s.updateAdhocStorage env adhocId newResources).server.adhocManager.get? p
      = some (before.update newResources) := by
  have ham := updateAdhocStorage_adhocManager env s hfind newResources
  rw [ham, Registry.get?_modify, if_pos rfl, hget, Option.map_some]

/-- **An update is atomic exactly when the controller carries it out, or when it
    asks for the resources that are recorded already.** -/
theorem updateAtomic_iff (s : Server H) (env : Env H) (adhocId : AdhocId)
    (newResources : AdhocResources) :
    s.UpdateAtomic env adhocId newResources ↔
      ∀ adhoc, s.Registered adhocId adhoc →
        Resized env newResources adhoc ∨ newResources = adhoc.adhocStorage.resources := by
  refine ⟨?_, ?_⟩
  · rintro hatomic adhoc ⟨p, hfind, hget⟩
    have hrecord := updateAdhocStorage_record hfind hget env newResources
    by_cases hresized : Resized env newResources adhoc
    · exact .inl hresized
    · have hkept := (hatomic p adhoc _ hfind hget hrecord).1 hresized
      rw [AdhocStorageMetadata.update_resources] at hkept
      exact .inr hkept
  · intro hall p before after hfind hget hafter
    rw [updateAdhocStorage_record hfind hget env newResources, Option.some.injEq] at hafter
    subst hafter
    rw [AdhocStorageMetadata.update_resources]
    rcases hall before ⟨p, hfind, hget⟩ with hresized | hsame
    -- the record changes in either case, but not to other resources in the second
    · exact ⟨fun hnot => absurd hresized hnot, fun _ => ⟨rfl, hresized⟩⟩
    · exact ⟨fun _ => hsame, fun hne => absurd hsame hne⟩

/-- A resize that is repeated, say after it failed, never asks the controller to
    expand: the record has the new size already. -/
theorem updateAdhocStorage_retry {s : Server H} {adhocId : AdhocId}
    {adhoc : AdhocStorageMetadata} (hreg : s.Registered adhocId adhoc) (env env' : Env H)
    (newResources : AdhocResources) {c : ControllerCall}
    (hc : c ∈ ((s.updateAdhocStorage env adhocId newResources).server.updateAdhocStorage env'
      adhocId newResources).calls) :
    c.rpcName = "ADM_shrink_adhoc_storage" := by
  obtain ⟨p, hfind, hget⟩ := hreg
  have hreg' : (s.updateAdhocStorage env adhocId newResources).server.Registered adhocId
      (adhoc.update newResources) := by
    refine ⟨p, ?_, updateAdhocStorage_record hfind hget env newResources⟩
    rw [updateAdhocStorage_adhocManager env s hfind newResources]
    exact hfind
  rw [(updateAdhocStorage_of_registered hreg' env' newResources).1] at hc
  have hname : resizeName (newResources.nodes.length >
      (adhoc.update newResources).adhocStorage.resources.nodes.length)
        = "ADM_shrink_adhoc_storage" := by
    simp [resizeName]
  rw [hname] at hc
  unfold callController at hc
  split at hc
  · simp only at hc
    split at hc <;>
    · rw [List.mem_singleton] at hc
      rw [hc]
  · cases hc

/-- A resize to two nodes fails, because the controller cannot be looked up, and
    leaves two nodes in the record. -/
theorem not_updateAtomic_isolated :
    ∃ s : Server Unit,
      run step (init false) [(Env.isolated, sampleAdhoc [⟨"n0", .regular⟩])] = some s ∧
        ¬ s.UpdateAtomic Env.isolated 0 ⟨[⟨"n0", .regular⟩, ⟨"n1", .regular⟩]⟩ := by
  refine ⟨_, rfl, ?_⟩
  intro hatomic
  have h := (hatomic ⟨0⟩ _ _ rfl rfl rfl).1 ?_
  · exact absurd h (by decide)
  · rintro ⟨r, hr, -⟩
    cases hr

end Server

end Scord
