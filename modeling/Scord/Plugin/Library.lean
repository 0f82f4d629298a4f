/-
  Scord.Plugin.Library

  The client library as a C program sees it (`c_wrapper.cpp` over
  `detail/impl.cpp`): each function takes handles, sends one request to the
  server, or several, and turns the response into a return code.

  Between two requests the server may serve others.  A request may not get to
  the server, and its response may not get back; the caller cannot tell.
-/
import Scord.Lib.CMemory
import Scord.Server.RedisRecords
import Scord.Transfers.World

namespace Scord.Plugin

open StepSystem
open ExceptLoop (bind_eq_ok)

variable {H : Type}

/-! ## Requests on their way -/

/-- What happens around one request. -/
structure Call (H : Type) where
  /-- the requests of others that the server handles first -/
  others : List (Env H × Request)
  /-- whether the server is found, and gets the request -/
  delivered : Bool
  /-- how the outside answers while the server handles it -/
  env : Env H
  /-- whether the response gets back -/
  returned : Bool

/-- The server cannot be reached. -/
def Call.lost : Call H where
  others := []
  delivered := false
  env := Env.isolated
  returned := false

/-- A request that was sent. -/
structure Sent (H : Type) where
  request : Request
  env : Env H
  /-- the server that handled it, if one did -/
  handledBy : Option (Server H)
  /-- whether the sender got a response -/
  answered : Bool

/-- The server, unless it has ended, and what was sent to it, the latest request
    first. -/
structure Session (H : Type) where
  /-- whether the library has a default logger -/
  logger : Bool
  server : Option (Server H)
  sent : List (Sent H)

/-- The server after the requests of others. -/
def serve (server : Option (Server H)) (others : List (Env H × Request)) :
    Option (Server H) :=
  server.bind fun s => run Server.step s others

/-- Send one request, which `handler` handles. -/
def Session.send {ρ : Type} (w : Session H) (c : Call H) (request : Request)
    (handler : Server H → Handled H ρ) : Session H × Option ρ :=
  match serve w.server c.others with
  -- the server has ended
  | none => (⟨w.logger, none, ⟨request, c.env, none, false⟩ :: w.sent⟩, none)
  | some s =>
      if c.delivered then
        let h := handler s
        let answer := if c.returned then h.outcome.toOption else none
        (⟨w.logger, h.next, ⟨request, c.env, some s, answer.isSome⟩ :: w.sent⟩, answer)
      -- lost on its way
      else (⟨w.logger, some s, ⟨request, c.env, none, false⟩ :: w.sent⟩, none)

/-! ## Responses -/

/-- `resp.error_code()`, or `other` without a response. -/
def codeOf (answer : Option GenericResponse) : ErrorCode :=
  match answer with
  | none => .other
  | some resp => resp.errorCode

/-- The value of a response, or its error code.  `value()` is `noexcept`, and a
    logger prints it whatever the code is. -/
def valueOf {ν : Type} (logger : Bool) (answer : Option (ResponseWithValue ν)) :
    Outcome (Except ErrorCode ν) :=
  match answer with
  | none => .ok (.error .other)
  | some resp =>
      -- the log line comes before the code is looked at
      if logger && resp.value.isNone then .error .terminates
      else if !resp.errorCode.toBool then .ok (.error resp.errorCode)
      else
        match resp.value with
        | none => .error .terminates
        | some v => .ok (.ok v)

/-! ## Handles -/

/-- `adm_server` -/
structure AdmServer where
  sProtocol : String
  sAddress : String

/-- What is behind a handle.  The objects that the library makes are complete,
    so a handle that is not null is the value it stands for. -/
def handle {α : Type} : Option α → Outcome α
  | some a => .ok a
  | none => .error .undefined

/-- A read of C arrays, whose faults end the process. -/
def ofResult {α : Type} : CMemory.Result α → Outcome α
  | .ok a => .ok a
  | .error _ => .error .undefined

/-- `job::requirements(ADM_job_requirements_t)`, see `JobRequirements.ofAdm`: the
    output routes are read from the input list. -/
def convertRequirements (reqs : JobRequirements) : Outcome JobRequirements := do
  let outputs ← ofResult
    (CMemory.collect (fun i => CMemory.readAt reqs.inputs i) reqs.outputs.length)
  return { reqs with outputs := outputs }

/-! ## The functions -/

namespace Session

/-- `ADM_register_adhoc_storage`; the handle is null if it cannot be allocated. -/
def admRegisterAdhocStorage (w : Session H) (c : Call H) (allocates : Bool)
    (server : Option AdmServer) (name : String) (type : AdhocStorageType)
    (ctx : Option AdhocCtx) (resources : Option AdhocResources) :
    Outcome (Session H × Except ErrorCode (Option AdhocStorage)) := do
  let _ ← handle server
  let ctx ← handle ctx
  let resources ← handle resources
  let r := w.send c (.registerAdhocStorage name type ctx resources)
    fun s => s.registerAdhocStorage c.env name type ctx resources
  let rv ← valueOf w.logger r.2
  return (r.1, rv.map fun id => if allocates then some ⟨type, name, id, ctx, resources⟩ else none)

/-- `ADM_register_job` -/
def admRegisterJob (w : Session H) (c : Call H) (allocates : Bool) (server : Option AdmServer)
    (res : Option JobResources) (reqs : Option JobRequirements) (slurmId : SlurmJobId) :
    Outcome (Session H × Except ErrorCode (Option Job)) := do
  let _ ← handle server
  let res ← handle res
  let reqs ← handle reqs
  let reqs ← convertRequirements reqs
  let r := w.send c (.registerJob res reqs slurmId) fun s => s.registerJob c.env res reqs slurmId
  let rv ← valueOf w.logger r.2
  return (r.1, rv.map fun id => if allocates then some ⟨id, slurmId⟩ else none)

/-- `ADM_deploy_adhoc_storage`: the path, and the return code.  The path is null
    unless it is `ADM_SUCCESS`. -/
def admDeployAdhocStorage (w : Session H) (c : Call H) (allocates : Bool)
    (server : Option AdmServer) (adhocStorage : Option AdhocStorage) :
    Outcome (Session H × Option String × ErrorCode) := do
  let _ ← handle server
  let adhocStorage ← handle adhocStorage
  let r := w.send c (.deployAdhocStorage adhocStorage.id)
    fun s => s.deployAdhocStorage c.env adhocStorage.id
  match ← valueOf w.logger r.2 with
  | .error ec => return (r.1, none, ec)
  | .ok path => return (r.1, if allocates then (some path, .success) else (none, .outOfMemory))

/-- `ADM_terminate_adhoc_storage` -/
def admTerminateAdhocStorage (w : Session H) (c : Call H) (server : Option AdmServer)
    (adhocStorage : Option AdhocStorage) : Outcome (Session H × ErrorCode) := do
  let _ ← handle server
  let adhocStorage ← handle adhocStorage
  let r := w.send c (.terminateAdhocStorage adhocStorage.id)
    fun s => s.terminateAdhocStorage c.env adhocStorage.id
  return (r.1, codeOf r.2)

/-- `ADM_remove_job` -/
def admRemoveJob (w : Session H) (c : Call H) (server : Option AdmServer) (job : Option Job) :
    Outcome (Session H × ErrorCode) := do
  let _ ← handle server
  let job ← handle job
  let r := w.send c (.removeJob job.id) fun s => s.removeJob job.id
  return (r.1, codeOf r.2)

/-- One `query_transfer`: the return code, or none if the loop goes on. -/
def pollTransfer (w : Session H) (c : Call H) (jobId : JobId) (txId : TransferId) :
    Outcome (Session H × Option ErrorCode) := do
  let r := w.send c (.queryTransfer jobId txId) fun s => s.queryTransfer c.env jobId txId
  match ← valueOf w.logger r.2 with
  -- a transfer that the scheduler has removed counts as finished
  | .error ec => return (r.1, some (if ec = .noSuchEntity then .success else ec))
  | .ok status =>
      return (r.1, if status = .running ∨ status = .queued then none else some .success)

/-- The loop that waits for a transfer.  After the given polls the server cannot
    be reached any more. -/
def waitTransfer (w : Session H) (jobId : JobId) (txId : TransferId) :
    List (Call H) → Outcome (Session H × ErrorCode)
  | [] => do
      let r ← w.pollTransfer Call.lost jobId txId
      return (r.1, r.2.getD .other)
  | c :: cs => do
      let r ← w.pollTransfer c jobId txId
      match r.2 with
      | some ec => return (r.1, ec)
      | none => r.1.waitTransfer jobId txId cs

/-- `ADM_transfer_datasets_1` with `wait`. -/
def admTransferDatasets1 (w : Session H) (c : Call H) (polls : List (Call H))
    (server : Option AdmServer) (job : Option Job) (sources targets : List Dataset)
    (limit : UInt64) (limitsLen : Nat) (mapping : TransferMapping) :
    Outcome (Session H × ErrorCode) := do
  let _ ← handle server
  let job ← handle job
  let limits := (convertLimit limit limitsLen).getD []
  let r := w.send c (.transferDatasets job.id sources targets limits mapping)
    fun s => s.transferDatasets c.env job.id sources targets limits
  match ← valueOf w.logger r.2 with
  | .error ec => return (r.1, ec)
  | .ok txId => r.1.waitTransfer job.id txId polls

end Session

/-! ## What is sent, and what is answered -/

@[simp] theorem handle_some {α : Type} (a : α) : handle (some a) = .ok a := rfl

@[simp] theorem handle_none {α : Type} : handle (none : Option α) = .error .undefined := rfl

theorem handle_eq_ok {α : Type} {p : Option α} {a : α} : handle p = .ok a ↔ p = some a := by
  cases p <;> simp

theorem ne_none_of_handle {α : Type} {p : Option α} {a : α} (h : handle p = .ok a) :
    p ≠ none := by
  rw [handle_eq_ok.mp h]
  exact Option.some_ne_none a

/-- A value is read only off a response that came back with success. -/
theorem valueOf_eq_ok {ν : Type} {logger : Bool} {answer : Option (ResponseWithValue ν)} {v : ν} :
    valueOf logger answer = .ok (.ok v) ↔ ∃ opId, answer = some ⟨opId, .success, some v⟩ := by
  unfold valueOf
  cases answer with
  | none => simp
  | some resp =>
      obtain ⟨opId, ec, value⟩ := resp
      by_cases hec : ec = .success
      · subst hec
        cases value <;> simp [ErrorCode.toBool]
      · cases logger <;> cases value <;> simp [ErrorCode.toBool, hec]

namespace Session

section Send

variable {ρ : Type} {w : Session H} {c : Call H} {request : Request}
  {handler : Server H → Handled H ρ}

/-- What comes of a request: it got lost, or a server handled it and the response,
    if it came back, is the one that its handler sent. -/
theorem send_cases (w : Session H) (c : Call H) (request : Request)
    (handler : Server H → Handled H ρ) :
    (∃ server, w.send c request handler
      = (⟨w.logger, server, ⟨request, c.env, none, false⟩ :: w.sent⟩, none)) ∨
    ∃ s answer, w.send c request handler
        = (⟨w.logger, (handler s).next, ⟨request, c.env, some s, answer.isSome⟩ :: w.sent⟩,
          answer) ∧
      ∀ resp, answer = some resp → (handler s).outcome = .ok resp := by
  cases hserve : serve w.server c.others with
  | none =>
      refine Or.inl ⟨none, ?_⟩
      simp only [send, hserve]
  | some s =>
      cases hdelivered : c.delivered with
      | false =>
          refine Or.inl ⟨some s, ?_⟩
          simp only [send, hserve, hdelivered, Bool.false_eq_true, if_false]
      | true =>
          refine Or.inr ⟨s, if c.returned then (handler s).outcome.toOption else none, ?_, ?_⟩
          · simp only [send, hserve, hdelivered, if_true]
          · intro resp hresp
            obtain ⟨-, hout⟩ := Option.ite_none_right_eq_some.mp hresp
            cases houtcome : (handler s).outcome with
            | error fault =>
                rw [houtcome] at hout
                cases hout
            | ok resp' =>
                rw [houtcome] at hout
                exact congrArg Except.ok (Option.some.inj hout)

@[simp] theorem send_logger : (w.send c request handler).1.logger = w.logger := by
  rcases send_cases w c request handler with ⟨server, h⟩ | ⟨s, answer, h, -⟩
  · rw [h]
  · rw [h]

/-- The request is on record. -/
theorem send_sent (w : Session H) (c : Call H) (request : Request)
    (handler : Server H → Handled H ρ) :
    ∃ e : Sent H, (w.send c request handler).1.sent = e :: w.sent ∧
      e.request = request ∧ e.env = c.env := by
  rcases send_cases w c request handler with ⟨server, h⟩ | ⟨s, answer, h, -⟩
  · rw [h]
    exact ⟨_, rfl, rfl, rfl⟩
  · rw [h]
    exact ⟨_, rfl, rfl, rfl⟩

/-- Once a server has handled the request, it is as the handler left it, and the
    response is the handler's. -/
theorem send_handled {e : Sent H} {s : Server H}
    (hsent : (w.send c request handler).1.sent = e :: w.sent) (he : e.handledBy = some s) :
    (w.send c request handler).1.server = (handler s).next ∧
      ∀ resp, (w.send c request handler).2 = some resp → (handler s).outcome = .ok resp := by
  rcases send_cases w c request handler with ⟨server, h⟩ | ⟨t, answer, h, hanswer⟩
  · rw [h] at hsent
    obtain ⟨rfl, -⟩ := List.cons.inj hsent
    cases he
  · rw [h] at hsent ⊢
    obtain ⟨rfl, -⟩ := List.cons.inj hsent
    obtain rfl : t = s := Option.some.inj he
    exact ⟨rfl, hanswer⟩

/-- A request that was answered was handled. -/
theorem send_answered {e : Sent H} (hsent : (w.send c request handler).1.sent = e :: w.sent)
    (he : e.answered = true) : ∃ s, e.handledBy = some s := by
  rcases send_cases w c request handler with ⟨server, h⟩ | ⟨s, answer, h, -⟩
  · rw [h] at hsent
    obtain ⟨rfl, -⟩ := List.cons.inj hsent
    cases he
  · rw [h] at hsent
    obtain ⟨rfl, -⟩ := List.cons.inj hsent
    exact ⟨s, rfl⟩

end Send

end Session

end Scord.Plugin
