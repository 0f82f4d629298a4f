/-
  Scord.Transfers.World

  The life of transfers: the server, its scheduler thread (`scheduler_update`),
  Cargo, and a client that waits for a transfer, all interleaved.

  Requests other than the polls of the waiting client are handled to completion
  in one event; they can come from any number of other clients.  A poll is three
  events, because the handler of `query_transfer` takes two locks and then
  contacts Cargo while the scheduler thread runs.  A tick of the scheduler is
  one event for the lock, one for each transfer it visits, one for the unlock,
  and one for each entry it removes.  While the scheduler holds the lock of the
  transfer manager, nobody else gets at the table.

  The waiting client is either blocked in `ADM_transfer_datasets` (or
  `ADM_transfer_datasets_1`, whose loop is the same) or it is the `wait`
  function of `scord_adhoc`.
-/
import Scord.Server.Invariants

namespace Scord

open FloatArith ObjectStore StepSystem

/-! ## The scheduler's loop body -/

namespace Scheduler

/-- `threshold`, before it is rounded. -/
def threshold : Rat := 1 / 10

section Rounded

-- the numbers are `float`s: the rounding is a parameter, so that the controller can
-- be looked at over exact numbers too
variable (round : Rounding)

/-- `bw + bw * threshold > qos` -/
def aboveQos (bw : Bandwidth) (qos : UInt64) : Bool :=
  Value.lt (round qos.toNat) (bw.add round (bw.mul round (round threshold)))

/-- `bw - bw * threshold < qos` -/
def belowQos (bw : Bandwidth) (qos : UInt64) : Bool :=
  Value.lt (bw.sub round (bw.mul round (round threshold))) (round qos.toNat)

/-- Slow down (`+1`) above the QoS value, speed up (`-1`) below it. -/
def controlSignal (bw : Bandwidth) (qos : UInt64) : Option Int :=
  if aboveQos round bw qos then some 1
  else if belowQos round bw qos then some (-1)
  else none

/-- The signal for a running transfer: none without limits, or as long as no
    bandwidth was measured. -/
def runningSignal {H : Type} (t : TransferMetadata H) : Option Int :=
  match t.qos with
  | [] => none
  | limit :: _ =>
      if t.measuredBandwidth = -1 then none
      else controlSignal round t.measuredBandwidth limit.value

/-- One pass of the loop over the copied table: the transfers afterwards,
    whether the id goes to `v_ids`, and the signal sent to Cargo. -/
def visit {H : Type} (tm : TransferManager H) (status : CargoStatus) (p : TransferPtr H) :
    TransferManager H × Bool × Option Int :=
  match status.state with
  | .completed => (tm, true, none)
  | .failed => (tm, true, none)
  | .pending => (tm, false, none)
  | .running =>
      let tm := tm.modify p fun t => t.update status.bw
      (tm, false, (tm.get? p).bind (runningSignal round))

end Rounded

end Scheduler

/-- Cargo's answer will not change any more. -/
def CargoState.terminal : CargoState → Bool
  | pending => false
  | running => false
  | completed => true
  | failed => true

/-! ## The parties -/

/-- Cargo's transfers are numbered in the order in which they were started. -/
abbrev Handle := Nat

/-- A transfer that `transfer_datasets` answered with success: for which job,
    under which id, and which Cargo transfer it is. -/
structure Started where
  jobId : JobId
  jobPtr : JobPtr
  tx : TransferId
  ptr : TransferPtr Handle
  handle : Handle

inductive SchedulerState
  | sleeping
  /-- the lock is held; these entries of the copied table are still to be seen -/
  | scanning (todo : List (TransferId × TransferPtr Handle)) (vIds : List TransferId)
  /-- the lock is released; these entries are still to be removed -/
  | removing (vIds : List TransferId)

/-- How far the server is with a poll. -/
inductive Stage
  | jobLookup
  | transferLookup
  | status (p : TransferPtr Handle)

inductive Waiter
  /-- blocked in the library, on the transfer it started -/
  | library (r : Started)
  /-- `scord_adhoc wait`; `first` before the first answer -/
  | tool (first : Bool)

inductive Client
  | idle
  | polling (k : Waiter) (jobId : JobId) (tx : TransferId) (stage : Stage)
  /-- the library call returned, for the transfer it started, if any -/
  | returned (r : Option Started) (ec : ErrorCode)
  /-- `scord_adhoc wait` for `tx` exited, after the last answer was read off this
      transfer -/
  | exited (success : Bool) (tx : TransferId) (read : Option (TransferPtr Handle))
  /-- the client process was ended by `std::terminate` -/
  | aborted

structure World where
  server : Server Handle
  cargo : List CargoStatus
  sched : SchedulerState
  client : Client
  /-- whether the client has a default logger -/
  logger : Bool
  started : List Started

/-! ## The client -/

/-- `convert(limit, limits_len)` of `ADM_transfer_datasets_1`: a vector with one
    limit at its front.  Longer vectors hold empty limits, which the server
    cannot even print. -/
def convertLimit (limit : UInt64) (limitsLen : Nat) : Option (List QosLimit) :=
  match limitsLen with
  | 0 => some []
  | 1 => some [⟨none, .bandwidth, limit⟩]
  | _ => none

/-- The limits that the two library calls send. -/
inductive Limits
  | given (limits : List QosLimit)
  | single (limit : UInt64) (limitsLen : Nat)

def Limits.toList : Limits → Option (List QosLimit)
  | given limits => some limits
  | single limit limitsLen => convertLimit limit limitsLen

/-- What a client does with the answer to a poll.  The library takes
    `no_such_entity` for a success.  A client with a logger prints the value of
    the answer, and an error has none: `value()` is `noexcept`. -/
def Client.react (logger : Bool) (k : Waiter) (jobId : JobId) (tx : TransferId)
    (read : Option (TransferPtr Handle)) (answer : Except ErrorCode TransferState) : Client :=
  match answer with
  | .error ec =>
      if logger then .aborted
      else
        match k with
        | .library r =>
            -- removed by the scheduler, or never there: the loop cannot tell
            if ec = .noSuchEntity then .returned (some r) .success else .returned (some r) ec
        | .tool _ => .exited false tx read
  | .ok state =>
      match k with
      | .library r =>
          -- `failed` leaves the loop like `finished`
          if state = .running ∨ state = .queued then .polling k jobId tx .jobLookup
          else .returned (some r) .success
      | .tool first =>
          if state = .finished then .exited true tx read
          else if state = .failed ∧ first = false then .exited false tx read
          else .polling (.tool false) jobId tx .jobLookup

/-- The client can make its next call, or be started again. -/
def Client.atRest : Client → Bool
  | idle => true
  | polling _ _ _ _ => false
  | returned _ _ => true
  | exited _ _ _ => true
  | aborted => false

/-- A poll that gets no answer at all: `error_code::other`. -/
def Client.unanswered (k : Waiter) (tx : TransferId) : Client :=
  match k with
  | .library r => .returned (some r) .other
  | .tool _ => .exited false tx none

namespace World

/-- Everything at rest. -/
def init (redis logger : Bool) : World where
  server := Server.init redis
  cargo := []
  sched := .sleeping
  client := .idle
  logger := logger
  started := []

/-- The environment of a request: Cargo is the one of this world. -/
def env (w : World) (env : Env Handle) : Env Handle :=
  { env with
    transferDatasets := fun dataStager inputs outputs =>
      (env.transferDatasets dataStager inputs outputs).map fun _ => w.cargo.length
    status := fun h => w.cargo[h]? }

/-- The scheduler holds the lock of the transfer manager. -/
def locked (w : World) : Bool :=
  match w.sched with
  | .scanning _ _ => true
  | _ => false

/-! ## Requests -/

/-- Cargo after a `transfer_datasets` request: it has one more transfer if the
    handler got as far as to start one. -/
def cargoAfter (w : World) (env : Env Handle) (jobId : JobId)
    (sources targets : List Dataset) : List CargoStatus :=
  match w.server.dataStagerOf jobId with
  | .ok (.ok dataStager) =>
      match env.transferDatasets dataStager (sources.map fun src => Server.datasetProcess src.id)
          (targets.map fun tgt => Server.datasetProcess tgt.id) with
      | some _ => w.cargo ++ [⟨.pending, -1⟩]
      | none => w.cargo
  | _ => w.cargo

/-- The transfer that a `transfer_datasets` request has started, if it is
    answered with success. -/
def startedBy (w : World) (jobId : JobId) (h : Handled Handle ResponseWithId) :
    Option Started :=
  match h.outcome with
  | .ok ⟨_, .success, some tx⟩ =>
      match w.server.jobManager.jobs.find? jobId, h.server.transferManager.find? tx with
      | some jobPtr, some ptr => some ⟨jobId, jobPtr, tx, ptr, w.cargo.length⟩
      | _, _ => none
  | _ => none

/-- A `transfer_datasets` request, handled to completion. -/
def transferDatasets (w : World) (env : Env Handle) (jobId : JobId)
    (sources targets : List Dataset) (limits : List QosLimit) :
    World × Handled Handle ResponseWithId :=
  let h := w.server.transferDatasets (w.env env) jobId sources targets limits
  ({ w with
      server := h.server
      cargo := w.cargoAfter env jobId sources targets
      started := (w.startedBy jobId h).toList ++ w.started }, h)

/-- The library call: it returns the error of the request, or starts polling. -/
def call (w : World) (env : Env Handle) (jobId : JobId) (sources targets : List Dataset)
    (limits : List QosLimit) : Option World :=
  let (w', h) := w.transferDatasets env jobId sources targets limits
  match h.outcome with
  | .error (.throws _) => some { w' with client := .returned none .other }
  | .error _ => none
  | .ok resp =>
      if resp.errorCode.toBool then
        (w.startedBy jobId h).map fun r =>
          { w' with client := .polling (.library r) jobId r.tx .jobLookup }
      else if w.logger then some { w' with client := .aborted }
      else some { w' with client := .returned none resp.errorCode }

/-! ## Polls -/

/-- The handler of a poll finds the job and tests its adhoc storage. -/
def pollJob (w : World) : Option World :=
  match w.client with
  | .polling k jobId tx .jobLookup =>
      let s := w.server.createRpc.1
      match s.dataStagerOf jobId with
      | .error _ => none
      | .ok (.error ec) =>
          some { w with
            server := s
            client := Client.react w.logger k jobId tx none (.error ec) }
      | .ok (.ok _) =>
          some { w with server := s, client := .polling k jobId tx .transferLookup }
  | _ => none

/-- The handler of a poll finds the transfer. -/
def pollTransfer (w : World) : Option World :=
  match w.client with
  | .polling k jobId tx .transferLookup =>
      if w.locked then none
      else
        match TransferManager.find w.server.transferManager tx with
        | .error ec =>
            some { w with client := Client.react w.logger k jobId tx none (.error ec) }
        | .ok p => some { w with client := .polling k jobId tx (.status p) }
  | _ => none

/-- The handler of a poll asks Cargo for the status, and responds. -/
def pollStatus (w : World) : Option World :=
  match w.client with
  | .polling k jobId tx (.status p) =>
      match w.server.transferStateOf (w.env Env.isolated) p with
      | .error _ => none
      | .ok state =>
          some { w with client := Client.react w.logger k jobId tx (some p) (.ok state) }
  | _ => none

/-! ## The scheduler thread -/

/-- Take the lock and copy the table. -/
def tickLock (w : World) : Option World :=
  match w.sched with
  | .sleeping =>
      some { w with sched := .scanning (TransferManager.transfer w.server.transferManager) [] }
  | _ => none

/-- Visit the `i`-th of the remaining entries: the order of a hash table is not
    specified. -/
def tickVisit (w : World) (i : Nat) : Option World :=
  match w.sched with
  | .scanning todo vIds =>
      match todo[i]? with
      | none => none
      | some (id, p) =>
          match (w.server.transferManager.get? p).bind fun t => w.cargo[t.handle]? with
          | none => none
          | some status =>
              let v := Scheduler.visit binary32 w.server.transferManager status p
              some { w with
                server := { w.server with transferManager := v.1 }
                sched := .scanning (todo.eraseIdx i) (if v.2.1 then vIds ++ [id] else vIds) }
  | _ => none

/-- All entries were seen: release the lock. -/
def tickUnlock (w : World) : Option World :=
  match w.sched with
  | .scanning [] vIds => some { w with sched := .removing vIds }
  | _ => none

/-- Remove the next of the completed and failed transfers, or go to sleep. -/
def tickRemove (w : World) : Option World :=
  match w.sched with
  | .removing (id :: vIds) =>
      some { w with
        server := { w.server with
          transferManager := (TransferManager.remove w.server.transferManager id).1 }
        sched := .removing vIds }
  | .removing [] => some { w with sched := .sleeping }
  | _ => none

/-! ## Every event -/

/-- Cargo makes progress with a transfer, until it is completed or failed. -/
def progress (w : World) (h : Handle) (status : CargoStatus) : Option World :=
  match w.cargo[h]? with
  | none => none
  | some old =>
      -- nothing gets back to `pending`, and what is done is done
      if old.state.terminal ∨ status.state = .pending then none
      else some { w with cargo := w.cargo.set h status }

inductive Event
  | request (env : Env Handle) (r : Request)
  | call (env : Env Handle) (jobId : JobId) (sources targets : List Dataset) (limits : Limits)
  | wait (jobId : JobId) (tx : TransferId)
  | pollJob
  | pollTransfer
  | pollStatus
  | pollFails
  | progress (h : Handle) (status : CargoStatus)
  | tickLock
  | tickVisit (i : Nat)
  | tickUnlock
  | tickRemove

/-- A request of any client, handled to completion.  Those that need the
    transfer manager wait for its lock. -/
def request (w : World) (env : Env Handle) : Request → Option World
  | .transferDatasets jobId sources targets limits _ =>
      if w.locked then none
      else
        let (w', h) := w.transferDatasets env jobId sources targets limits
        h.next.map fun _ => w'
  | .queryTransfer jobId tx =>
      if w.locked then none
      else
        (w.server.step (w.env env, .queryTransfer jobId tx)).map fun s => { w with server := s }
  | r => (w.server.step (w.env env, r)).map fun s => { w with server := s }

def step (w : World) : Event → Option World
  | .request env r => w.request env r
  | .call env jobId sources targets limits =>
      match w.client.atRest, w.locked, limits.toList with
      | true, false, some limits => w.call env jobId sources targets limits
      | _, _, _ => none
  | .wait jobId tx =>
      if w.client.atRest then
        some { w with client := .polling (.tool true) jobId tx .jobLookup }
      else none
  | .pollJob => w.pollJob
  | .pollTransfer => w.pollTransfer
  | .pollStatus => w.pollStatus
  | .pollFails =>
      match w.client with
      | .polling k _ tx _ => some { w with client := Client.unanswered k tx }
      | _ => none
  | .progress h status => w.progress h status
  | .tickLock => w.tickLock
  | .tickVisit i => w.tickVisit i
  | .tickUnlock => w.tickUnlock
  | .tickRemove => w.tickRemove

/-- Cargo takes every transfer. -/
def sampleEnv : Env Handle :=
  { Env.isolated with transferDatasets := fun _ _ _ => some 0 }

end World

end Scord
