/-
  Scord.Server.ControlSteps

  The handlers that call a controller, in two halves: `begin` goes up to the call,
  and `resume` on from the reply.  The server takes turns between its handlers, and
  a handler gives way while it waits for the reply; whatever the others do in the
  meantime is what the second half finds.

  With nothing in between, the two halves are the handler (`control_eq`).
-/
import Scord.Server.AdhocControl
import Scord.Server.Ids

namespace Scord

open ObjectStore

/-- The requests that are passed on to the controller of an adhoc storage. -/
inductive Control
  | update (adhocId : AdhocId) (newResources : AdhocResources)
  | deploy (adhocId : AdhocId)
  | terminate (adhocId : AdhocId)
deriving DecidableEq

namespace Control

def adhocId : Control → AdhocId
  | update adhocId _ => adhocId
  | deploy adhocId => adhocId
  | terminate adhocId => adhocId

def request : Control → Request
  | update adhocId newResources => .updateAdhocStorage adhocId newResources
  | deploy adhocId => .deployAdhocStorage adhocId
  | terminate adhocId => .terminateAdhocStorage adhocId

/-- The name under which the controller of a storage with these resources is
    called. -/
def rpcName (resources : AdhocResources) : Control → String
  | update _ newResources =>
      Server.resizeName (newResources.nodes.length > resources.nodes.length)
  | deploy _ => "ADM_deploy_adhoc_storage"
  | terminate _ => "ADM_terminate_adhoc_storage"

/-- The resources that go with the call. -/
def sentResources (resources : AdhocResources) : Control → Option AdhocResources
  | update _ newResources => some newResources
  | deploy _ => some resources
  | terminate _ => none

/-- The call that a handler makes for this storage. -/
def callFor (c : Control) (adhoc : AdhocStorageMetadata) : ControllerCall :=
  ⟨c.rpcName adhoc.adhocStorage.resources, adhoc.controllerAddress, adhoc.uuid,
    adhoc.adhocStorage.type, c.sentResources adhoc.adhocStorage.resources⟩

end Control

/-- The requests that no controller is called for. -/
def Request.isLocal : Request → Bool
  | .updateAdhocStorage _ _ => false
  | .deployAdhocStorage _ => false
  | .terminateAdhocStorage _ => false
  | _ => true

/-- A generic response has no value. -/
def GenericResponse.withoutValue (r : GenericResponse) : ResponseWithValue String :=
  ⟨r.opId, r.errorCode, none⟩

def Handled.withoutValue {H : Type} (h : Handled H GenericResponse) :
    Handled H (ResponseWithValue String) where
  server := h.server
  outcome := h.outcome.map GenericResponse.withoutValue
  calls := h.calls
  writes := h.writes

/-- A handler at the end of its first half: it is over, or it waits for a reply. -/
inductive Begun (H : Type)
  | ended (h : Handled H (ResponseWithValue String))
  | waits (s : Server H) (rpc : UInt64) (call : ControllerCall)

namespace Server

variable {H : Type}

/-- The three handlers as a whole. -/
def control (s : Server H) (env : Env H) : Control → Handled H (ResponseWithValue String)
  | .update adhocId newResources => (s.updateAdhocStorage env adhocId newResources).withoutValue
  | .deploy adhocId => s.deployAdhocStorage env adhocId
  | .terminate adhocId => (s.terminateAdhocStorage env adhocId).withoutValue

/-- The second half of a handler, after the reply to its call; `none` is a call that
    fails, or for which there was no endpoint. -/
def resume (s : Server H) (env : Env H) (rpc : UInt64) (calls : List ControllerCall)
    (reply : Option (ResponseWithValue String)) :
    Control → Handled H (ResponseWithValue String)
  | .update _ _ =>
      { server := s
        outcome :=
          match reply with
          | some reply => .ok ⟨rpc, reply.errorCode, none⟩
          | none => .error (.throws (.badExpectedAccess .snafu))
        calls := calls }
  | .deploy adhocId =>
      match reply with
      | none => finish env s adhocId (deployFields env) .snafu ⟨rpc, .snafu, some ""⟩ calls
      | some reply =>
          if !reply.errorCode.toBool then
            finish env s adhocId (deployFields env) reply.errorCode
              ⟨rpc, reply.errorCode, some ""⟩ calls
          else
            match reply.value with
            | none => { server := s, outcome := .error .terminates, calls := calls }
            | some adhocDir =>
                finish env s adhocId (deployFields env) .success
                  ⟨rpc, .success, some adhocDir⟩ calls
  | .terminate adhocId =>
      match reply with
      | none => finish env s adhocId (terminateFields env) .snafu ⟨rpc, .snafu, none⟩ calls
      | some reply =>
          finish env s adhocId (terminateFields env) reply.errorCode
            ⟨rpc, reply.errorCode, none⟩ calls

/-- The call itself, of which the resize draws an rpc id once the endpoint is
    known. -/
def sendCall (s : Server H) (env : Env H) (c : Control) (rpc : UInt64) (rpcName : String)
    (adhoc : AdhocStorageMetadata) (resources : Option AdhocResources) : Begun H :=
  if env.lookup adhoc.controllerAddress then
    .waits (match c with
      | .update _ _ => s.createRpc.1
      | _ => s) rpc
      ⟨rpcName, adhoc.controllerAddress, adhoc.uuid, adhoc.adhocStorage.type, resources⟩
  else .ended (s.resume env rpc [] none c)

/-- The first half of a handler. -/
def begin (s : Server H) (env : Env H) : Control → Begun H
  | .update adhocId newResources =>
      let (s, rpc) := s.createRpc
      match s.adhocManager.find adhocId with
      | .error ec =>
          .ended { server := s, outcome := .error (.throws (.badExpectedAccess ec)) }
      | .ok p =>
          match s.adhocAt (some p) with
          | none => .ended { server := s, outcome := .error .undefined }
          | some old =>
              let (am, _) := AdhocStorageManager.update s.adhocManager adhocId newResources
              let s := { s with adhocManager := am }
              let expand := newResources.nodes.length > old.adhocStorage.resources.nodes.length
              match s.adhocManager.find adhocId with
              | .error ec =>
                  .ended { server := s, outcome := .error (.throws (.badExpectedAccess ec)) }
              | .ok p =>
                  match s.adhocAt (some p) with
                  | none => .ended { server := s, outcome := .error .undefined }
                  | some adhoc =>
                      s.sendCall env (.update adhocId newResources) rpc (resizeName expand) adhoc
                        (some adhoc.adhocStorage.resources)
  | .deploy adhocId =>
      let (s, rpc) := s.createRpc
      match s.adhocManager.find adhocId with
      | .error ec =>
          .ended (finish env s adhocId (deployFields env) ec ⟨rpc, ec, some ""⟩ [])
      | .ok p =>
          match s.adhocAt (some p) with
          | none => .ended { server := s, outcome := .error .undefined }
          | some adhoc =>
              s.sendCall env (.deploy adhocId) rpc "ADM_deploy_adhoc_storage" adhoc
                (some adhoc.adhocStorage.resources)
  | .terminate adhocId =>
      let (s, rpc) := s.createRpc
      match s.adhocManager.find adhocId with
      | .error ec =>
          .ended { server := s, outcome := .error (.throws (.badExpectedAccess ec)) }
      | .ok p =>
          match s.adhocAt (some p) with
          | none => .ended { server := s, outcome := .error .undefined }
          | some adhoc =>
              s.sendCall env (.terminate adhocId) rpc "ADM_terminate_adhoc_storage" adhoc none

/-- A first half and, with nothing in between, the second. -/
def complete (env : Env H) (c : Control) : Begun H → Handled H (ResponseWithValue String)
  | .ended h => h
  | .waits s rpc call => s.resume env rpc [call] (env.call call) c

/-! ## The two halves of a handler -/

section Halves

variable (s : Server H) (env : Env H)

@[simp] theorem resume_server (rpc : UInt64) (calls : List ControllerCall)
    (reply : Option (ResponseWithValue String)) (c : Control) :
    (s.resume env rpc calls reply c).server = s := by
  cases c with
  | update adhocId newResources => rfl
  | deploy adhocId =>
      unfold resume
      cases reply with
      | none => exact finish_server env s ..
      | some reply =>
          simp only
          split
          · exact finish_server env s ..
          · split
            · rfl
            · exact finish_server env s ..
  | terminate adhocId =>
      unfold resume
      cases reply with
      | none => exact finish_server env s ..
      | some reply => exact finish_server env s ..

/-- The end of a handler is the same for both kinds of response. -/
theorem finish_withoutValue (adhocId : AdhocId) (fields : List (String × String))
    (ec : ErrorCode) (resp : GenericResponse) (calls : List ControllerCall) :
    (finish env s adhocId fields ec resp calls).withoutValue
      = finish env s adhocId fields ec resp.withoutValue calls := by
  unfold finish
  split
  · split
    · rfl
    · unfold Handled.withoutValue
      simp only
      split <;> rfl
  · rfl

/-- The call, and after its reply the second half: the helper lambdas. -/
theorem complete_sendCall (c : Control) (rpc : UInt64) (rpcName : String)
    (adhoc : AdhocStorageMetadata) (resources : Option AdhocResources) :
    complete env c (s.sendCall env c rpc rpcName adhoc resources)
      = (if env.lookup adhoc.controllerAddress then
          (match c with
            | .update _ _ => s.createRpc.1
            | _ => s)
        else s).resume env rpc (callController env rpcName adhoc resources).2
          (controllerReply env rpcName adhoc resources) c := by
  unfold sendCall callController controllerReply
  cases env.lookup adhoc.controllerAddress with
  | false => rfl
  | true =>
      simp only [if_true]
      cases hreply : env.call
          ⟨rpcName, adhoc.controllerAddress, adhoc.uuid, adhoc.adhocStorage.type, resources⟩ with
      | none => simp only [complete, hreply]
      | some reply => simp only [complete, hreply]

/-- What a helper lambda is called with, and what it hands over. -/
theorem callController_eq (rpcName : String) (adhoc : AdhocStorageMetadata)
    (resources : Option AdhocResources) :
    ∃ calls, callController env rpcName adhoc resources
      = ((controllerReply env rpcName adhoc resources).elim (.error .snafu) .ok, calls) := by
  refine ⟨(callController env rpcName adhoc resources).2, Prod.ext ?_ rfl⟩
  rw [callController_fst]
  cases controllerReply env rpcName adhoc resources <;> rfl

/-- **A handler is its two halves**, if nothing comes between them. -/
theorem control_eq (c : Control) : s.control env c = complete env c (s.begin env c) := by
  cases c with
  | update adhocId newResources =>
      unfold control begin updateAdhocStorage
      simp only
      cases s.createRpc.1.adhocManager.find adhocId with
      | error ec => rfl
      | ok p =>
          simp only
          cases s.createRpc.1.adhocAt (some p) with
          | none => rfl
          | some old =>
              simp only
              generalize (AdhocStorageManager.update s.createRpc.1.adhocManager adhocId
                newResources).1 = am
              generalize hupdated : ({ s.createRpc.1 with adhocManager := am } : Server H)
                = updated
              cases AdhocStorageManager.find am adhocId with
              | error ec => rfl
              | ok q =>
                  simp only
                  cases updated.adhocAt (some q) with
                  | none => rfl
                  | some adhoc =>
                      simp only
                      rw [complete_sendCall]
                      obtain ⟨calls, hcall⟩ := callController_eq env
                        (resizeName (newResources.nodes.length
                          > old.adhocStorage.resources.nodes.length)) adhoc
                        (some adhoc.adhocStorage.resources)
                      simp only [hcall]
                      cases controllerReply env _ adhoc _ <;> rfl
  | deploy adhocId =>
      unfold control begin deployAdhocStorage
      simp only
      cases s.createRpc.1.adhocManager.find adhocId with
      | error ec => rfl
      | ok p =>
          simp only
          cases s.createRpc.1.adhocAt (some p) with
          | none => rfl
          | some adhoc =>
              simp only
              rw [complete_sendCall, ite_self]
              obtain ⟨calls, hcall⟩ := callController_eq env "ADM_deploy_adhoc_storage" adhoc
                (some adhoc.adhocStorage.resources)
              unfold deployHelper resume
              simp only [hcall]
              cases controllerReply env "ADM_deploy_adhoc_storage" adhoc _ with
              | none => rfl
              | some reply =>
                  simp only [Option.elim_some]
                  cases reply.errorCode.toBool with
                  | false => rfl
                  | true => cases reply.value <;> rfl
  | terminate adhocId =>
      unfold control begin terminateAdhocStorage
      simp only
      cases s.createRpc.1.adhocManager.find adhocId with
      | error ec => rfl
      | ok p =>
          simp only
          cases s.createRpc.1.adhocAt (some p) with
          | none => rfl
          | some adhoc =>
              simp only
              rw [complete_sendCall, ite_self]
              obtain ⟨calls, hcall⟩ := callController_eq env "ADM_terminate_adhoc_storage" adhoc
                none
              unfold terminateHelper resume
              simp only [hcall]
              cases controllerReply env "ADM_terminate_adhoc_storage" adhoc none with
              | none => exact finish_withoutValue ..
              | some reply => exact finish_withoutValue ..

theorem sendCall_eq (c : Control) (rpc : UInt64) (rpcName : String)
    (adhoc : AdhocStorageMetadata) (resources : Option AdhocResources) :
    (env.lookup adhoc.controllerAddress = true ∧ ∃ n,
      s.sendCall env c rpc rpcName adhoc resources = .waits { s with rpcCount := n } rpc
        ⟨rpcName, adhoc.controllerAddress, adhoc.uuid, adhoc.adhocStorage.type, resources⟩) ∨
      s.sendCall env c rpc rpcName adhoc resources = .ended (s.resume env rpc [] none c) := by
  unfold sendCall
  split
  case isTrue hl =>
    refine .inl ⟨hl, ?_⟩
    cases c with
    | update adhocId newResources => exact ⟨_, rfl⟩
    | deploy adhocId => exact ⟨s.rpcCount, rfl⟩
    | terminate adhocId => exact ⟨s.rpcCount, rfl⟩
  case isFalse => exact .inr rfl

/-- A handler reports a success only if it got one as its reply, and a deployment
    with the directory that came with it. -/
theorem resume_success {rpc : UInt64} {calls : List ControllerCall}
    {reply : Option (ResponseWithValue String)} {c : Control} {resp : ResponseWithValue String}
    (h : (s.resume env rpc calls reply c).outcome = .ok resp)
    (hsuccess : resp.errorCode = .success) :
    ∃ r, reply = some r ∧ r.errorCode = .success ∧
      ∀ adhocId, c = .deploy adhocId → resp.value = r.value := by
  unfold resume at h
  cases reply with
  | none =>
      cases c with
      | update adhocId newResources => cases h
      | deploy adhocId =>
          obtain ⟨rfl, -⟩ := (finish_sent_iff env s ..).mp h
          cases hsuccess
      | terminate adhocId =>
          obtain ⟨rfl, -⟩ := (finish_sent_iff env s ..).mp h
          cases hsuccess
  | some r =>
      refine ⟨r, rfl, ?_⟩
      cases c with
      | update adhocId newResources =>
          obtain rfl := Except.ok.inj h
          exact ⟨hsuccess, fun _ hc => by cases hc⟩
      | deploy adhocId =>
          simp only at h
          split at h
          case isTrue hcode =>
            obtain ⟨rfl, -⟩ := (finish_sent_iff env s ..).mp h
            rw [show r.errorCode = .success from hsuccess] at hcode
            cases hcode
          case isFalse hcode =>
            have hcode : r.errorCode = .success := by
              simpa [ErrorCode.toBool] using hcode
            split at h
            case h_1 => cases h
            case h_2 dir hvalue =>
              obtain ⟨rfl, -⟩ := (finish_sent_iff env s ..).mp h
              exact ⟨hcode, fun _ _ => hvalue.symm⟩
      | terminate adhocId =>
          obtain ⟨rfl, -⟩ := (finish_sent_iff env s ..).mp h
          exact ⟨hsuccess, fun _ hc => by cases hc⟩

end Halves

section Cases

variable {s s' : Server H} {env : Env H} {c : Control} {rpc : UInt64} {call : ControllerCall}
  {h : Handled H (ResponseWithValue String)}

/-- For an id that is not registered, the first half is all. -/
theorem begin_of_none (env : Env H) (hfind : s.adhocManager.find? c.adhocId = none) :
    ∃ h, s.begin env c = .ended h ∧
      ∀ resp, h.outcome = .ok resp → resp.errorCode ≠ .success := by
  have hnone : AdhocStorageManager.find s.createRpc.1.adhocManager c.adhocId
      = .error .noSuchEntity := AdhocStorageManager.find_of_none hfind
  cases c with
  | update adhocId newResources =>
      refine ⟨⟨s.createRpc.1, .error (.throws (.badExpectedAccess .noSuchEntity)), [], []⟩, ?_,
        fun resp hr => by cases hr⟩
      unfold begin
      simp only [show AdhocStorageManager.find s.createRpc.1.adhocManager adhocId = _ from hnone]
  | deploy adhocId =>
      refine ⟨finish env s.createRpc.1 adhocId (deployFields env) .noSuchEntity
        ⟨s.rpcCount, .noSuchEntity, some ""⟩ [], ?_, fun resp hr => ?_⟩
      · unfold begin
        simp only [show AdhocStorageManager.find s.createRpc.1.adhocManager adhocId = _ from hnone]
        rfl
      · obtain ⟨rfl, -⟩ := (finish_sent_iff env s.createRpc.1 ..).mp hr
        exact fun hec => by cases hec
  | terminate adhocId =>
      refine ⟨⟨s.createRpc.1, .error (.throws (.badExpectedAccess .noSuchEntity)), [], []⟩, ?_,
        fun resp hr => by cases hr⟩
      unfold begin
      simp only [show AdhocStorageManager.find s.createRpc.1.adhocManager adhocId = _ from hnone]

/-- For a storage that is registered, the first half goes on to the call for it. -/
theorem begin_of_find? (env : Env H) {p : AdhocPtr} {adhoc : AdhocStorageMetadata}
    (hfind : s.adhocManager.find? c.adhocId = some p)
    (hget : s.adhocManager.get? p = some adhoc) :
    ∃ (s₁ : Server H) (adhoc₁ : AdhocStorageMetadata),
      s.begin env c = s₁.sendCall env c s.rpcCount (c.rpcName adhoc.adhocStorage.resources)
        adhoc₁ (c.sentResources adhoc.adhocStorage.resources) ∧
      adhoc₁.controllerAddress = adhoc.controllerAddress ∧ adhoc₁.fixed = adhoc.fixed := by
  cases c with
  | update adhocId newResources =>
      have hfound : s.adhocManager.find? adhocId = some p := hfind
      have hget' : (s.adhocManager.modify p fun a => a.update newResources).get? p
          = some (adhoc.update newResources) := by
        rw [Registry.get?_modify, if_pos rfl, hget, Option.map_some]
      have hfind' :
          AdhocStorageManager.find (s.adhocManager.modify p fun a => a.update newResources)
            adhocId = .ok p := AdhocStorageManager.find_of_find? hfound
      refine ⟨{ s.createRpc.1 with
        adhocManager := s.adhocManager.modify p fun a => a.update newResources },
        adhoc.update newResources, ?_, rfl, rfl⟩
      unfold begin
      simp only [createRpc_adhocManager, AdhocStorageManager.find_of_find? hfound, adhocAt,
        Option.bind_some, hget, AdhocStorageManager.update_of_find? hfound, hfind', hget']
      rfl
  | deploy adhocId =>
      have hfound : s.adhocManager.find? adhocId = some p := hfind
      refine ⟨s.createRpc.1, adhoc, ?_, rfl, rfl⟩
      unfold begin
      simp only [createRpc_adhocManager, AdhocStorageManager.find_of_find? hfound, adhocAt,
        Option.bind_some, hget]
      rfl
  | terminate adhocId =>
      have hfound : s.adhocManager.find? adhocId = some p := hfind
      refine ⟨s.createRpc.1, adhoc, ?_, rfl, rfl⟩
      unfold begin
      simp only [createRpc_adhocManager, AdhocStorageManager.find_of_find? hfound, adhocAt,
        Option.bind_some, hget]
      rfl

/-- A handler that waits has called the controller of the storage that was
    registered. -/
theorem call_of_waits (h : s.begin env c = .waits s' rpc call) :
    ∃ p adhoc, s.adhocManager.find? c.adhocId = some p ∧
      s.adhocManager.get? p = some adhoc ∧ call = c.callFor adhoc := by
  cases hfind : s.adhocManager.find? c.adhocId with
  | none =>
      obtain ⟨hd, heq, -⟩ := begin_of_none env hfind
      rw [heq] at h
      cases h
  | some p =>
      have hget := Registry.get?_eq_deref hfind
      obtain ⟨s₁, adhoc₁, heq, haddress, hfixed⟩ := begin_of_find? env hfind hget
      obtain ⟨huuid, hrest⟩ := Prod.mk.inj hfixed
      obtain ⟨htype, -⟩ := Prod.mk.inj hrest
      rw [heq] at h
      rcases sendCall_eq s₁ env c s.rpcCount _ adhoc₁ _ with ⟨-, n, hsent⟩ | hended
      · rw [hsent] at h
        obtain ⟨-, -, rfl⟩ := Begun.waits.inj h
        refine ⟨p, s.adhocManager.deref hfind, rfl, hget, ?_⟩
        rw [haddress, huuid, htype]
        rfl
      · rw [hended] at h
        cases h

/-- A handler that is over before it has called anyone does not report a success. -/
theorem ne_success_of_ended {hd : Handled H (ResponseWithValue String)}
    (h : s.begin env c = .ended hd) {resp : ResponseWithValue String}
    (hok : hd.outcome = .ok resp) : resp.errorCode ≠ .success := by
  cases hfind : s.adhocManager.find? c.adhocId with
  | none =>
      obtain ⟨hd', heq, hne⟩ := begin_of_none env hfind
      obtain rfl := Begun.ended.inj (heq.symm.trans h)
      exact hne resp hok
  | some p =>
      have hget := Registry.get?_eq_deref hfind
      obtain ⟨s₁, adhoc₁, heq, -⟩ := begin_of_find? env hfind hget
      rw [heq] at h
      rcases sendCall_eq s₁ env c s.rpcCount _ adhoc₁ _ with ⟨-, n, hsent⟩ | hended
      · rw [hsent] at h
        cases h
      · obtain rfl := Begun.ended.inj (hended.symm.trans h)
        intro hsuccess
        obtain ⟨r, hr, -⟩ := resume_success s₁ env hok hsuccess
        cases hr

/-! ## One request at a time -/

theorem step_control (s : Server H) (env : Env H) (c : Control) :
    s.step (env, c.request) = (s.control env c).next := by
  have hnext : ∀ h : Handled H GenericResponse, h.withoutValue.next = h.next := by
    intro h
    unfold Handled.next Handled.withoutValue
    cases h.outcome with
    | ok r => rfl
    | error fault => cases fault <;> rfl
  cases c with
  | update adhocId newResources => exact (hnext _).symm
  | deploy adhocId => rfl
  | terminate adhocId => exact (hnext _).symm

/-- The first half does not depend on what the controllers reply. -/
theorem begin_reply (s : Server H) (env : Env H) (c : Control)
    (call : ControllerCall → Option (ResponseWithValue String)) :
    s.begin { env with call } c = s.begin env c := by
  cases c <;> rfl

/-- What a handler that waits comes to with this reply, undisturbed. -/
theorem control_of_waits (h : s.begin env c = .waits s' rpc call)
    (reply : Option (ResponseWithValue String)) :
    s.control { env with call := fun _ => reply } c
      = s'.resume { env with call := fun _ => reply } rpc [call] reply c := by
  rw [control_eq, begin_reply, h]
  rfl

theorem step_of_ended {hd : Handled H (ResponseWithValue String)}
    (h : s.begin env c = .ended hd) : s.step (env, c.request) = hd.next := by
  rw [step_control, control_eq, h]
  rfl

theorem next_of_ok {hd : Handled H (ResponseWithValue String)} {resp : ResponseWithValue String}
    (h : hd.outcome = .ok resp) : hd.next = some hd.server := by
  unfold Handled.next
  rw [h]

/-- Whether the server goes on after a handler depends on the outcome alone. -/
theorem next_of_outcome_eq {h₁ h₂ : Handled H (ResponseWithValue String)} {t : Server H}
    (heq : h₂.outcome = h₁.outcome) (hnext : h₁.next = some t) : h₂.next = some h₂.server := by
  unfold Handled.next at hnext ⊢
  rw [heq]
  split at hnext
  case h_1 => rfl
  case h_2 => rfl
  case h_3 => cases hnext
  case h_4 => cases hnext

theorem next_resume_none (s : Server H) (env : Env H) (rpc : UInt64)
    (calls : List ControllerCall) (c : Control) :
    (s.resume env rpc calls none c).next = some s := by
  have hsent : ∀ {hd : Handled H (ResponseWithValue String)} {adhocId fields resp},
      hd = finish env s adhocId fields .snafu resp calls → hd.next = some s := by
    rintro hd adhocId fields resp rfl
    rw [next_of_ok ((finish_sent_iff env s adhocId fields .snafu resp resp calls).mpr
      ⟨rfl, fun _ hec => by cases hec⟩), finish_server]
  cases c with
  | update adhocId newResources => rfl
  | deploy adhocId => exact hsent rfl
  | terminate adhocId => exact hsent rfl

/-- As far as the server goes, a handler that waits has had its step: the same as
    one whose call fails. -/
theorem step_of_waits (h : s.begin env c = .waits s' rpc call) :
    s.step ({ env with call := fun _ => none }, c.request) = some s' := by
  rw [step_control, control_of_waits h, next_resume_none]

/-- Without Redis, what a handler answers depends on the reply alone. -/
theorem resume_outcome_congr {s₁ s₂ : Server H} {env₁ env₂ : Env H}
    {calls₁ calls₂ : List ControllerCall} (h₁ : s₁.redis = false) (h₂ : s₂.redis = false)
    (rpc : UInt64) (reply : Option (ResponseWithValue String)) (c : Control) :
    (s₁.resume env₁ rpc calls₁ reply c).outcome
      = (s₂.resume env₂ rpc calls₂ reply c).outcome := by
  have hfinish : ∀ (adhocId : AdhocId) (fields₁ fields₂ : List (String × String))
      (ec : ErrorCode) (resp : ResponseWithValue String),
      (finish env₁ s₁ adhocId fields₁ ec resp calls₁).outcome
        = (finish env₂ s₂ adhocId fields₂ ec resp calls₂).outcome := by
    intro adhocId fields₁ fields₂ ec resp
    unfold finish
    rw [h₁, h₂]
    rfl
  unfold resume
  cases c with
  | update adhocId newResources => rfl
  | deploy adhocId =>
      cases reply with
      | none => exact hfinish ..
      | some reply =>
          simp only
          split
          · exact hfinish ..
          · split
            · rfl
            · exact hfinish ..
  | terminate adhocId =>
      cases reply with
      | none => exact hfinish ..
      | some reply => exact hfinish ..

/-- So, without Redis, a handler that waited answers what it would have answered
    undisturbed. -/
theorem resume_outcome_of_waits (h : s.begin env c = .waits s' rpc call)
    (hredis : s'.redis = false) {s₁ : Server H} (h₁ : s₁.redis = false) (env₁ : Env H)
    (calls : List ControllerCall) (reply : Option (ResponseWithValue String)) :
    (s.control { env with call := fun _ => reply } c).outcome
      = (s₁.resume env₁ rpc calls reply c).outcome := by
  rw [control_of_waits h]
  exact resume_outcome_congr hredis h₁ ..

/-- And the server goes on from there, if it does after the answer. -/
theorem step_of_waits_reply (h : s.begin env c = .waits s' rpc call)
    (hredis : s'.redis = false) {s₁ t : Server H} (h₁ : s₁.redis = false) {env₁ : Env H}
    {calls : List ControllerCall} {reply : Option (ResponseWithValue String)}
    (hnext : (s₁.resume env₁ rpc calls reply c).next = some t) :
    s.step ({ env with call := fun _ => reply }, c.request) = some s' := by
  have hout := resume_outcome_of_waits h hredis h₁ env₁ calls reply
  rw [step_control, next_of_outcome_eq hout hnext, control_of_waits h, resume_server]

end Cases

end Server

end Scord
