/-
  Scord.Wire.Controllers

  The calls of the server to the controllers by way of the network: the handler in
  `scord-ctl` that is defined under the name of a call reads its arguments, and the
  server reads the response as the type that it expects for the request at hand.

  The two programs agree on names, arguments and responses: the runs of the server
  and its controllers over the network are those in which calls and replies are
  handed over as they are (`controllers_transparent`).
-/
import Scord.Nodes.Daemons
import Scord.Wire.Rpc

namespace Scord

open ObjectStore StepSystem Wire
open ScordCtl (Reply)

namespace Wire

/-! ## The controller -/

/-- A handler of a controller: the types of its parameters, and its response. -/
structure CtlHandler where
  params : List Ty
  request : Args params → ScordCtl.Request
  response : Reply → Response

/-- `generic_response{rpc.id(), ec}` -/
def genericReply (r : Reply) : Response := ⟨.genericResponse, ⟨r.opId, r.errorCode⟩⟩

/-- `response_with_value(rpc.id(), ec, adhoc_dir)` -/
def dirReply (r : Reply) : Response := ⟨.responseWithValue .text, r.received⟩

/-- `provider::define(EXPAND(..))` of `scord-ctl`. -/
def ctlHandlerOf : String → Option CtlHandler
  | "ADM_ping" => some ⟨[], fun _ => .ping, genericReply⟩
  | "ADM_deploy_adhoc_storage" =>
      some ⟨[.text, .adhocStorageType, .adhocResources],
        fun (adhocUuid, adhocType, adhocResources, _) =>
          .deployAdhocStorage adhocUuid adhocType adhocResources, dirReply⟩
  | "ADM_expand_adhoc_storage" =>
      some ⟨[.text, .adhocStorageType, .adhocResources],
        fun (adhocUuid, adhocType, adhocResources, _) =>
          .expandAdhocStorage adhocUuid adhocType adhocResources, genericReply⟩
  | "ADM_shrink_adhoc_storage" =>
      some ⟨[.text, .adhocStorageType, .adhocResources],
        fun (adhocUuid, adhocType, adhocResources, _) =>
          .shrinkAdhocStorage adhocUuid adhocType adhocResources, genericReply⟩
  | "ADM_terminate_adhoc_storage" =>
      some ⟨[.text, .adhocStorageType],
        fun (adhocUuid, adhocType, _) => .terminateAdhocStorage adhocUuid adhocType,
        genericReply⟩
  | _ => none

/-- The request that a packet is for the controller, if it can be read. -/
def arrive (fresh : Nat → SlurmJobId) (p : Packet) : Option ScordCtl.Request :=
  match ctlHandlerOf p.name with
  | none => none
  | some h => (Args.load fresh h.params p.args).map fun args => h.request args.1

end Wire

/-! ## The server -/

/-- What `endp->call(..)` of the three handlers sends. -/
def ControllerCall.packet (fresh : Nat → SlurmJobId) (call : ControllerCall) : Packet :=
  match call.resources with
  | some resources =>
      ⟨call.rpcName,
        Args.save fresh [.text, .adhocStorageType, .adhocResources]
          (call.uuid, call.type, resources, ())⟩
  | none => ⟨call.rpcName, Args.save fresh [.text, .adhocStorageType] (call.uuid, call.type, ())⟩

namespace Control

/-- The `response_type` of the handler's call. -/
def expects : Control → Ty
  | deploy _ => .responseWithValue .text
  | _ => .genericResponse

/-- What the handler reads; a generic response has no value. -/
def reads : (c : Control) → c.expects.Value → ResponseWithValue String
  | update _ _, r => GenericResponse.withoutValue r
  | deploy _, r => r
  | terminate _, r => GenericResponse.withoutValue r

/-- The reply of the controller that was called under this name, as the server
    reads it. -/
def readReply (server ctl : Nat → SlurmJobId) (c : Control) (rpcName : String) (r : Reply) :
    Option (ResponseWithValue String) :=
  match ctlHandlerOf rpcName with
  | none => none
  | some h =>
      let resp := h.response r
      ((c.expects.serializer server).load ((resp.1.serializer ctl).save resp.2)).map
        fun v => c.reads v.1

end Control

/-! ## A call and its reply -/

section Call

variable (server ctl : Nat → SlurmJobId) (c : Control) (adhoc : AdhocStorageMetadata)

/-- Arguments without jobs are loaded as they were saved. -/
theorem load_args (ts : List Ty) (hself : ∀ a, Args.forget ts a = a) (args : Args ts) :
    Args.load ctl ts (Args.save server ts args) = some (args, []) := by
  obtain ⟨args', hload, hargs⟩ := Args.loadsSome ctl server ts args []
  rw [List.append_nil] at hload
  rw [hself, hself] at hargs
  rw [hload, hargs]

/-- The handler under the name of the call is the one that the server means. -/
theorem arrive_packet : arrive ctl ((c.callFor adhoc).packet server) = some (c.arrives adhoc) := by
  have hresources : ∀ (resources : AdhocResources),
      Args.load ctl [.text, .adhocStorageType, .adhocResources]
        (Args.save server [.text, .adhocStorageType, .adhocResources]
          (adhoc.uuid, adhoc.adhocStorage.type, resources, ()))
        = some ((adhoc.uuid, adhoc.adhocStorage.type, resources, ()), []) :=
    fun resources => load_args server ctl _ (fun _ => rfl) _
  cases c with
  | update adhocId newResources =>
      unfold Control.callFor Control.rpcName Control.arrives Server.resizeName
      by_cases hexpand : newResources.nodes.length > adhoc.adhocStorage.resources.nodes.length
      · simp only [hexpand, decide_true, if_true]
        exact congrArg (Option.map _) (hresources newResources)
      · simp only [hexpand, decide_false, if_false]
        exact congrArg (Option.map _) (hresources newResources)
  | deploy adhocId => exact congrArg (Option.map _) (hresources adhoc.adhocStorage.resources)
  | terminate adhocId =>
      exact congrArg (Option.map _)
        (load_args server ctl [.text, .adhocStorageType] (fun _ => rfl)
          (adhoc.uuid, adhoc.adhocStorage.type, ()))

/-- The reply is read as what the handler goes on with. -/
theorem readReply_callFor {H : Type} (r : Reply) :
    ∃ received, c.readReply server ctl (c.callFor adhoc).rpcName r = some received ∧
      ∀ (s : Server H) (env : Env H) (rpc : UInt64) (calls : List ControllerCall),
        s.resume env rpc calls (some received) c = s.resume env rpc calls (some r.received) c := by
  have hgeneric : (Ty.genericResponse.serializer server).load
      ((Ty.genericResponse.serializer ctl).save ⟨r.opId, r.errorCode⟩)
        = some (⟨r.opId, r.errorCode⟩, []) :=
    load_saved server ctl (t := .genericResponse) trivial
  cases c with
  | update adhocId newResources =>
      refine ⟨⟨r.opId, r.errorCode, none⟩, ?_, fun _ _ _ _ => rfl⟩
      unfold Control.callFor Control.rpcName Server.resizeName
      by_cases hexpand : newResources.nodes.length > adhoc.adhocStorage.resources.nodes.length
      · simp only [hexpand, decide_true, if_true]
        exact congrArg (Option.map _) hgeneric
      · simp only [hexpand, decide_false]
        exact congrArg (Option.map _) hgeneric
  | deploy adhocId =>
      exact ⟨r.received, congrArg (Option.map _)
        (load_saved server ctl (t := .responseWithValue .text) fun _ _ => trivial),
        fun _ _ _ _ => rfl⟩
  | terminate adhocId =>
      exact ⟨⟨r.opId, r.errorCode, none⟩, congrArg (Option.map _) hgeneric, fun _ _ _ _ => rfl⟩

end Call

/-! ## Runs -/

/-- An event, with what there is in the memory of the server and of the controller. -/
structure WireEvent (H : Type) where
  server : Nat → SlurmJobId
  ctl : Nat → SlurmJobId
  event : Cluster.Event H

namespace Cluster

variable {H : Type}

/-- A step, with calls and replies by way of the network. -/
def wireStep (w : Cluster H) (e : WireEvent H) : Option (Cluster H) :=
  match e.event with
  | .control env c =>
      match w.server.begin env c with
      | .ended h =>
          h.next.map fun s =>
            { w with server := s, exchanges := w.exchanges ++ [⟨c, none, some h.outcome⟩] }
      | .waits s rpc call =>
          (arrive e.ctl (call.packet e.server)).map fun req =>
            { w with
              server := s
              exchanges := w.exchanges ++ [⟨c, some ⟨rpc, call, .arrived req⟩, none⟩] }
  | .deliver i env =>
      match w.exchanges[i]? with
      | some ⟨c, some ⟨rpc, call, .done (some reply) ran⟩, none⟩ =>
          (c.readReply e.server e.ctl call.rpcName reply).bind fun received =>
            w.resume i env c ⟨rpc, call, .done (some reply) ran⟩ (some received)
      | _ => none
  | event => w.step event

/-- Every call was made for the request of its exchange. -/
def CallsMatch (w : Cluster H) : Prop :=
  ∀ x ∈ w.exchanges, ∀ sent, x.sent = some sent → ∃ adhoc, sent.call = x.control.callFor adhoc

theorem CallsMatch.set {w : Cluster H} (h : w.CallsMatch) {i : Nat} {x y : Exchange}
    (hx : w.exchanges[i]? = some x) (hcontrol : y.control = x.control)
    (hsent : ∀ sent, y.sent = some sent → ∃ sent', x.sent = some sent' ∧ sent.call = sent'.call) :
    ∀ z ∈ w.exchanges.set i y, ∀ sent, z.sent = some sent →
      ∃ adhoc, sent.call = z.control.callFor adhoc := by
  intro z hz sent hz_sent
  rcases List.mem_or_eq_of_mem_set hz with hold | rfl
  · exact h z hold sent hz_sent
  · obtain ⟨sent', hsent', hcall⟩ := hsent sent hz_sent
    rw [hcall, hcontrol]
    exact h x (List.mem_of_getElem? hx) sent' hsent'

theorem CallsMatch.step {w w' : Cluster H} {e : Event H} (h : w.CallsMatch)
    (hstep : w.step e = some w') : w'.CallsMatch := by
  cases move_of_step hstep with
  | served env r s isLocal served => exact h
  | ended env c hd s begun next =>
      intro x hx sent hsent
      rcases List.mem_append.mp hx with hold | hnew
      · exact h x hold sent hsent
      · obtain rfl := List.mem_singleton.mp hnew
        cases hsent
  | called env c s rpc adhoc p begun found there =>
      intro x hx sent hsent
      rcases List.mem_append.mp hx with hold | hnew
      · exact h x hold sent hsent
      · obtain rfl := List.mem_singleton.mp hnew
        cases hsent
        exact ⟨adhoc, rfl⟩
  | worked i env c sent outcome node here node_eq =>
      exact h.set here rfl fun _ hsent => ⟨sent, rfl, by rw [← Option.some.inj hsent]⟩
  | delivered i env c sent reply ran s here done next =>
      exact h.set here rfl fun _ hsent => ⟨sent, rfl, by rw [← Option.some.inj hsent]⟩
  | failed i env c sent s here next =>
      exact h.set here rfl fun _ hsent => ⟨sent, rfl, by rw [← Option.some.inj hsent]⟩
  | changed address files node node_eq => exact h

/-- A step by way of the network is the step as it is. -/
theorem wireStep_eq {w : Cluster H} (h : w.CallsMatch) (e : WireEvent H) :
    w.wireStep e = w.step e.event := by
  obtain ⟨server, ctl, event⟩ := e
  cases event with
  | control env c =>
      simp only [wireStep, step]
      cases hbegin : w.server.begin env c with
      | ended hd => rfl
      | waits s rpc call =>
          obtain ⟨p, adhoc, -, -, rfl⟩ := Server.call_of_waits hbegin
          simp only [arrive_packet, ofCall_callFor]
  | deliver i env =>
      simp only [wireStep, step]
      rcases hx : w.exchanges[i]? with _ | ⟨c, _ | ⟨rpc, call, work⟩, _ | outcome⟩
      · rfl
      · rfl
      · rfl
      · -- the handler waits: it is the reply that counts, if there is one
        obtain ⟨adhoc, hcall⟩ : ∃ adhoc, call = c.callFor adhoc :=
          h _ (List.mem_of_getElem? hx) _ rfl
        subst hcall
        cases work with
        | arrived req => rfl
        | create opId adhocDir cmd => rfl
        | run opId adhocDir cmd => rfl
        | done reply ran =>
            cases reply with
            | none => rfl
            | some reply =>
                obtain ⟨received, hread, hresume⟩ :=
                  readReply_callFor (H := H) server ctl c adhoc reply
                simp only [hread, Option.bind_some, resume, hresume]
      · cases work with
        | done reply ran => cases reply <;> rfl
        | _ => rfl
  | request env r => rfl
  | work i env => rfl
  | fail i env => rfl
  | outside address files => rfl

/-- **The server and its controllers agree on their RPCs.**  Whatever happens in
    whatever order, and whatever is in the memory that calls and replies are read into,
    over the network it goes as it goes without. -/
theorem controllers_transparent (redis : Bool) (nodes : String → Option ScordCtl.RpcServer)
    (es : List (WireEvent H)) :
    run wireStep (init redis nodes) es = run step (init redis nodes) (es.map WireEvent.event) := by
  have hinit : (init redis nodes : Cluster H).CallsMatch := fun x hx => absurd hx List.not_mem_nil
  have hkeeps : ∀ (w : Cluster H) e w', w.CallsMatch → w.wireStep e = some w' →
      w'.CallsMatch := by
    intro w e w' hw hstep
    rw [wireStep_eq hw] at hstep
    exact hw.step hstep
  have hstep : ∀ (w : Cluster H) e, w.CallsMatch → (w.wireStep e).map id = w.step e.event := by
    intro w e hw
    rw [Option.map_id, wireStep_eq hw]
    rfl
  have h := run_map id WireEvent.event hkeeps hstep hinit es
  rwa [Option.map_id] at h

end Cluster

end Scord
