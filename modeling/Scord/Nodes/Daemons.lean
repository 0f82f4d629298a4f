/-
  Scord.Nodes.Daemons

  The server and the controllers of the nodes, together.  A request to deploy, to
  resize or to terminate an adhoc storage goes from the server to the controller of
  the storage, which works on it step by step, and its reply goes back.  Between
  any two steps anything else may happen: other requests, other controllers, calls
  that fail, and changes to the files of a node.

  The server takes no notice: its state, and without Redis its answers, are those of
  the requests served one at a time (`one_at_a_time`).
-/
import Scord.Ctl.HandlerSteps
import Scord.Server.ControlSteps

namespace ScordCtl

open Scord (ControllerCall ResponseWithValue)

/-- The request that a call is, by its name; the arguments are those of the
    handler. -/
def Request.ofCall (call : ControllerCall) : Option Request :=
  match call.resources with
  | some resources =>
      if call.rpcName = "ADM_deploy_adhoc_storage" then
        some (.deployAdhocStorage call.uuid call.type resources)
      else if call.rpcName = "ADM_expand_adhoc_storage" then
        some (.expandAdhocStorage call.uuid call.type resources)
      else if call.rpcName = "ADM_shrink_adhoc_storage" then
        some (.shrinkAdhocStorage call.uuid call.type resources)
      else none
  | none =>
      if call.rpcName = "ADM_terminate_adhoc_storage" then
        some (.terminateAdhocStorage call.uuid call.type)
      else none

/-- A reply as it is received: the directory as text. -/
def Reply.received (r : Reply) : ResponseWithValue String :=
  ⟨r.opId, r.errorCode, r.value.map FileSystem.Path.text⟩

end ScordCtl

namespace Scord

open ObjectStore StepSystem
open ScordCtl (Work)

/-- The request that arrives at the controller of a storage. -/
def Control.arrives (adhoc : AdhocStorageMetadata) : Control → ScordCtl.Request
  | .update _ newResources =>
      if newResources.nodes.length > adhoc.adhocStorage.resources.nodes.length then
        .expandAdhocStorage adhoc.uuid adhoc.adhocStorage.type newResources
      else .shrinkAdhocStorage adhoc.uuid adhoc.adhocStorage.type newResources
  | .deploy _ =>
      .deployAdhocStorage adhoc.uuid adhoc.adhocStorage.type adhoc.adhocStorage.resources
  | .terminate _ => .terminateAdhocStorage adhoc.uuid adhoc.adhocStorage.type

/-- The controller has a handler for every call that the server makes. -/
theorem ofCall_callFor (c : Control) (adhoc : AdhocStorageMetadata) :
    ScordCtl.Request.ofCall (c.callFor adhoc) = some (c.arrives adhoc) := by
  cases c with
  | update adhocId newResources =>
      by_cases hexpand : newResources.nodes.length > adhoc.adhocStorage.resources.nodes.length
      · simp [ScordCtl.Request.ofCall, Control.callFor, Control.rpcName, Control.sentResources,
          Control.arrives, Server.resizeName, hexpand]
      · simp [ScordCtl.Request.ofCall, Control.callFor, Control.rpcName, Control.sentResources,
          Control.arrives, Server.resizeName, hexpand]
  | deploy adhocId => rfl
  | terminate adhocId => rfl

/-- A call, and what its controller has made of it. -/
structure Sent where
  rpc : UInt64
  call : ControllerCall
  work : Work

/-- A request that has come to the server for a controller: the call, unless the
    handler ended without one, and how the handler has ended, if it has. -/
structure Exchange where
  control : Control
  sent : Option Sent
  outcome : Option (Outcome (ResponseWithValue String))

/-- The server, the controllers by their addresses, and the exchanges so far. -/
structure Cluster (H : Type) where
  server : Server H
  nodes : String → Option ScordCtl.RpcServer
  exchanges : List Exchange

namespace Cluster

inductive Event (H : Type)
  /-- a request that no controller is called for -/
  | request (env : Env H) (r : Request)
  /-- a request for a controller comes to the server -/
  | control (env : Env H) (c : Control)
  /-- the controller goes on with an exchange -/
  | work (i : Nat) (env : ScordCtl.Env)
  /-- the reply of the controller comes to the server -/
  | deliver (i : Nat) (env : Env H)
  /-- a call fails, whatever the controller makes of it -/
  | fail (i : Nat) (env : Env H)
  /-- the files of a node change -/
  | outside (address : String) (fs : FileSystem.Tree)

variable {H : Type}

/-- At start-up, with Redis or without. -/
def init (redis : Bool) (nodes : String → Option ScordCtl.RpcServer) : Cluster H :=
  ⟨.init redis, nodes, []⟩

def setNode (w : Cluster H) (address : String) (node : ScordCtl.RpcServer) : Cluster H :=
  { w with nodes := fun a => if a = address then some node else w.nodes a }

/-- A handler goes on with the reply to its call, or with its failure. -/
def resume (w : Cluster H) (i : Nat) (env : Env H) (c : Control) (sent : Sent)
    (reply : Option (ResponseWithValue String)) : Option (Cluster H) :=
  let h := w.server.resume env sent.rpc [sent.call] reply c
  h.next.map fun s =>
    { w with server := s, exchanges := w.exchanges.set i ⟨c, some sent, some h.outcome⟩ }

def step (w : Cluster H) : Event H → Option (Cluster H)
  | .request env r =>
      if r.isLocal then (w.server.step (env, r)).map fun s => { w with server := s } else none
  | .control env c =>
      match w.server.begin env c with
      | .ended h =>
          h.next.map fun s =>
            { w with server := s, exchanges := w.exchanges ++ [⟨c, none, some h.outcome⟩] }
      | .waits s rpc call =>
          (ScordCtl.Request.ofCall call).map fun req =>
            { w with
              server := s
              exchanges := w.exchanges ++ [⟨c, some ⟨rpc, call, .arrived req⟩, none⟩] }
  | .work i env =>
      match w.exchanges[i]? with
      | some ⟨c, some sent, outcome⟩ =>
          (w.nodes sent.call.address).map fun node =>
            let (node, work) := node.advance env sent.work
            { w.setNode sent.call.address node with
              exchanges := w.exchanges.set i ⟨c, some { sent with work }, outcome⟩ }
      | _ => none
  | .deliver i env =>
      match w.exchanges[i]? with
      | some ⟨c, some ⟨rpc, call, .done (some reply) ran⟩, none⟩ =>
          w.resume i env c ⟨rpc, call, .done (some reply) ran⟩ (some reply.received)
      | _ => none
  | .fail i env =>
      match w.exchanges[i]? with
      | some ⟨c, some sent, none⟩ => w.resume i env c sent none
      | _ => none
  | .outside address fs =>
      (w.nodes address).map fun node => w.setNode address { node with fs }

/-! ## What an event can do -/

/-- The events, with what has to be the case for each, and what it leads to. -/
inductive Move (w : Cluster H) : Event H → Cluster H → Prop
  | served (env : Env H) (r : Request) (s : Server H) (isLocal : r.isLocal = true)
      (served : w.server.step (env, r) = some s) :
      Move w (.request env r) { w with server := s }
  | ended (env : Env H) (c : Control) (h : Handled H (ResponseWithValue String)) (s : Server H)
      (begun : w.server.begin env c = .ended h) (next : h.next = some s) :
      Move w (.control env c)
        { w with server := s, exchanges := w.exchanges ++ [⟨c, none, some h.outcome⟩] }
  | called (env : Env H) (c : Control) (s : Server H) (rpc : UInt64)
      (adhoc : AdhocStorageMetadata) (p : AdhocPtr)
      (begun : w.server.begin env c = .waits s rpc (c.callFor adhoc))
      (found : w.server.adhocManager.find? c.adhocId = some p)
      (there : w.server.adhocManager.get? p = some adhoc) :
      Move w (.control env c)
        { w with
          server := s
          exchanges := w.exchanges
            ++ [⟨c, some ⟨rpc, c.callFor adhoc, .arrived (c.arrives adhoc)⟩, none⟩] }
  | worked (i : Nat) (env : ScordCtl.Env) (c : Control) (sent : Sent)
      (outcome : Option (Outcome (ResponseWithValue String))) (node : ScordCtl.RpcServer)
      (here : w.exchanges[i]? = some ⟨c, some sent, outcome⟩)
      (node_eq : w.nodes sent.call.address = some node) :
      Move w (.work i env)
        { w.setNode sent.call.address (node.advance env sent.work).1 with
          exchanges := w.exchanges.set i
            ⟨c, some { sent with work := (node.advance env sent.work).2 }, outcome⟩ }
  | delivered (i : Nat) (env : Env H) (c : Control) (sent : Sent) (reply : ScordCtl.Reply)
      (ran : Option (ScordCtl.Command × ScordCtl.ChildOutcome)) (s : Server H)
      (here : w.exchanges[i]? = some ⟨c, some sent, none⟩)
      (done : sent.work = .done (some reply) ran)
      (next : (w.server.resume env sent.rpc [sent.call] (some reply.received) c).next = some s) :
      Move w (.deliver i env)
        { w with
          server := s
          exchanges := w.exchanges.set i ⟨c, some sent,
            some (w.server.resume env sent.rpc [sent.call] (some reply.received) c).outcome⟩ }
  | failed (i : Nat) (env : Env H) (c : Control) (sent : Sent) (s : Server H)
      (here : w.exchanges[i]? = some ⟨c, some sent, none⟩)
      (next : (w.server.resume env sent.rpc [sent.call] none c).next = some s) :
      Move w (.fail i env)
        { w with
          server := s
          exchanges := w.exchanges.set i ⟨c, some sent,
            some (w.server.resume env sent.rpc [sent.call] none c).outcome⟩ }
  | changed (address : String) (fs : FileSystem.Tree) (node : ScordCtl.RpcServer)
      (node_eq : w.nodes address = some node) :
      Move w (.outside address fs) (w.setNode address { node with fs })

theorem move_of_step {w w' : Cluster H} {e : Event H} (h : w.step e = some w') : Move w e w' := by
  cases e with
  | request env r =>
      simp only [step] at h
      split at h
      case isTrue hl =>
        obtain ⟨s, hs, rfl⟩ := Option.map_eq_some_iff.mp h
        exact .served env r s hl hs
      case isFalse => cases h
  | control env c =>
      simp only [step] at h
      split at h
      case h_1 hd hbegin =>
        obtain ⟨s, hs, rfl⟩ := Option.map_eq_some_iff.mp h
        exact .ended env c hd s hbegin hs
      case h_2 s rpc call hbegin =>
        obtain ⟨p, adhoc, hfind, hget, rfl⟩ := Server.call_of_waits hbegin
        rw [ofCall_callFor] at h
        obtain rfl := Option.some.inj h
        exact .called env c s rpc adhoc p hbegin hfind hget
  | work i env =>
      simp only [step] at h
      split at h
      case h_1 c sent outcome here =>
        obtain ⟨node, hnode, rfl⟩ := Option.map_eq_some_iff.mp h
        exact .worked i env c sent outcome node here hnode
      case h_2 => cases h
  | deliver i env =>
      simp only [step] at h
      split at h
      case h_1 c rpc call reply ran here =>
        obtain ⟨s, hs, rfl⟩ := Option.map_eq_some_iff.mp h
        exact .delivered i env c ⟨rpc, call, .done (some reply) ran⟩ reply ran s here rfl hs
      case h_2 => cases h
  | fail i env =>
      simp only [step] at h
      split at h
      case h_1 c sent here =>
        obtain ⟨s, hs, rfl⟩ := Option.map_eq_some_iff.mp h
        exact .failed i env c sent s here hs
      case h_2 => cases h
  | outside address fs =>
      obtain ⟨node, hnode, rfl⟩ := Option.map_eq_some_iff.mp h
      exact .changed address fs node hnode

/-! ## One request at a time -/

/-- The server serves requests one after the other, and from `s₀` comes to `s`.  The
    exchanges are those of the requests for controllers, in their order: the ones
    that have ended, without Redis as they ended here; the others have made their
    call. -/
inductive OneAtATime (s₀ : Server H) :
    List (Env H × Request) → List Exchange → Server H → Prop
  | start : OneAtATime s₀ [] [] s₀
  | served {es : List (Env H × Request)} {xs : List Exchange} {s s' : Server H} (env : Env H)
      (r : Request) (before : OneAtATime s₀ es xs s) (isLocal : r.isLocal = true)
      (step : s.step (env, r) = some s') : OneAtATime s₀ (es ++ [(env, r)]) xs s'
  | control {es : List (Env H × Request)} {xs : List Exchange} {s s' : Server H} (env : Env H)
      (x : Exchange) (before : OneAtATime s₀ es xs s)
      (step : s.step (env, x.control.request) = some s')
      (answered : s.redis = false → ∀ o, x.outcome = some o →
        (s.control env x.control).outcome = o)
      (waits : x.outcome = none → ∃ sent, x.sent = some sent ∧
        s.begin env x.control = .waits s' sent.rpc sent.call) :
      OneAtATime s₀ (es ++ [(env, x.control.request)]) (xs ++ [x]) s'

/-- An entry of a list with one more at its end, and the list with this entry
    replaced. -/
theorem set_concat {α : Type} {xs : List α} {x y : α} {i : Nat}
    (h : (xs ++ [x])[i]? = some y) (z : α) :
    (xs[i]? = some y ∧ (xs ++ [x]).set i z = xs.set i z ++ [x]) ∨
      (x = y ∧ (xs ++ [x]).set i z = xs ++ [z]) := by
  rcases Nat.lt_or_ge i xs.length with hlt | hge
  · rw [List.getElem?_append_left hlt] at h
    exact .inl ⟨h, List.set_append_left _ _ hlt⟩
  · rw [List.getElem?_append_right hge] at h
    obtain ⟨hlt, rfl⟩ := List.getElem?_eq_some_iff.mp h
    have hi : i - xs.length = 0 := by
      rw [List.length_singleton] at hlt
      omega
    refine .inr ⟨by simp only [hi, List.getElem_cons_zero], ?_⟩
    rw [List.set_append_right _ _ hge, hi]
    rfl

section Schedule

variable {s₀ s : Server H} {es : List (Env H × Request)} {xs : List Exchange}

/-- In particular the server comes to `s` in a run. -/
theorem OneAtATime.run_eq (h : OneAtATime s₀ es xs s) : run Server.step s₀ es = some s := by
  induction h with
  | start => rfl
  | served env r before isLocal step ih =>
      rw [run_append, ih, Option.bind_some, run_cons, step]
      rfl
  | control env x before step answered waits ih =>
      rw [run_append, ih, Option.bind_some, run_cons, step]
      rfl

theorem OneAtATime.redis_eq (h : OneAtATime s₀ es xs s) : s.redis = s₀.redis := by
  induction h with
  | start => rfl
  | served env r before isLocal step ih => exact (Server.step_restChange step).2.trans ih
  | control env x before step answered waits ih =>
      exact (Server.step_restChange step).2.trans ih

/-- Nothing changes for the server when a controller goes on. -/
theorem OneAtATime.set_work (h : OneAtATime s₀ es xs s) {i : Nat} {c : Control} {sent : Sent}
    {outcome : Option (Outcome (ResponseWithValue String))}
    (hx : xs[i]? = some ⟨c, some sent, outcome⟩) (work : Work) :
    OneAtATime s₀ es (xs.set i ⟨c, some { sent with work }, outcome⟩) s := by
  induction h with
  | start => cases hx
  | served env r before isLocal step ih => exact .served env r (ih hx) isLocal step
  | @control es xs s s' env x before step answered waits ih =>
      rcases set_concat hx ⟨c, some { sent with work }, outcome⟩ with ⟨hold, heq⟩ | ⟨rfl, heq⟩
      · exact heq ▸ .control env x (ih hold) step answered waits
      · rw [heq]
        refine .control env ⟨c, some { sent with work }, outcome⟩ before step answered
          fun hnone => ?_
        obtain ⟨sent', hsent, hbegin⟩ := waits hnone
        obtain rfl := Option.some.inj hsent
        exact ⟨_, rfl, hbegin⟩

/-- A handler that ends now could have had its reply at once: without Redis, it would
    have answered the same, and the server would be the same. -/
theorem OneAtATime.set_outcome (h : OneAtATime s₀ es xs s) {i : Nat} {c : Control} {sent : Sent}
    (hx : xs[i]? = some ⟨c, some sent, none⟩) {s₁ : Server H} (hredis : s₁.redis = s₀.redis)
    (env₁ : Env H) (reply : Option (ResponseWithValue String))
    (hnext : (s₁.resume env₁ sent.rpc [sent.call] reply c).next = some s₁) :
    ∃ es', es'.length = es.length ∧ OneAtATime s₀ es' (xs.set i ⟨c, some sent,
      some (s₁.resume env₁ sent.rpc [sent.call] reply c).outcome⟩) s := by
  induction h with
  | start => cases hx
  | served env r before isLocal step ih =>
      obtain ⟨es', hlen, h'⟩ := ih hx
      exact ⟨es' ++ [(env, r)], by simp [hlen], .served env r h' isLocal step⟩
  | @control es xs s s' env x before step answered waits ih =>
      rcases set_concat hx ⟨c, some sent,
        some (s₁.resume env₁ sent.rpc [sent.call] reply c).outcome⟩ with ⟨hold, heq⟩ | ⟨rfl, heq⟩
      · obtain ⟨es', hlen, h'⟩ := ih hold
        rw [heq]
        exact ⟨es' ++ [(env, x.control.request)], by simp [hlen],
          .control env x h' step answered waits⟩
      · rw [heq]
        obtain ⟨sent', hsent, hbegin⟩ := waits rfl
        obtain rfl := Option.some.inj hsent
        cases hs : s.redis with
        | true =>
            refine ⟨es ++ [(env, c.request)], rfl, .control env ⟨c, _, some _⟩ before step
              (fun hnot => ?_) fun hnone => by cases hnone⟩
            rw [hs] at hnot
            cases hnot
        | false =>
            -- the run gets the environment that replies at once
            have hs₁ : s₁.redis = false := by rw [hredis, ← before.redis_eq, hs]
            have hs' : s'.redis = false := by rw [(Server.step_restChange step).2, hs]
            have hout := Server.resume_outcome_of_waits hbegin hs' hs₁ env₁ [sent.call] reply
            refine ⟨es ++ [({ env with call := fun _ => reply }, c.request)], by simp,
              .control { env with call := fun _ => reply } ⟨c, _, some _⟩ before
                (Server.step_of_waits_reply hbegin hs' hs₁ hnext) (fun _ o ho => ?_)
                fun hnone => by cases hnone⟩
            exact hout.trans (Option.some.inj ho)

end Schedule

theorem oneAtATime_of_step {s₀ : Server H} {w w' : Cluster H} {e : Event H}
    {fs : List (Env H × Request)} (h : OneAtATime s₀ fs w.exchanges w.server)
    (hstep : w.step e = some w') :
    ∃ fs', fs'.length ≤ fs.length + 1 ∧ OneAtATime s₀ fs' w'.exchanges w'.server := by
  -- a handler that ends has not changed the server
  have hresumed : ∀ {i c sent env reply s}, w.exchanges[i]? = some ⟨c, some sent, none⟩ →
      (w.server.resume env sent.rpc [sent.call] reply c).next = some s →
      ∃ fs', fs'.length ≤ fs.length + 1 ∧ OneAtATime s₀ fs'
        (w.exchanges.set i ⟨c, some sent,
          some (w.server.resume env sent.rpc [sent.call] reply c).outcome⟩) s := by
    intro i c sent env reply s hx hnext
    obtain rfl : w.server = s := by
      rw [← Server.next_eq_some hnext, Server.resume_server]
    obtain ⟨fs', hlen, h'⟩ := h.set_outcome hx h.redis_eq env reply hnext
    exact ⟨fs', by omega, h'⟩
  cases move_of_step hstep with
  | served env r s isLocal served => exact ⟨_, by simp, .served env r h isLocal served⟩
  | ended env c hd s begun next =>
      have hs : w.server.step (env, c.request) = some s :=
        (Server.step_of_ended begun).trans next
      refine ⟨fs ++ [(env, c.request)], by simp,
        .control env ⟨c, none, some hd.outcome⟩ h hs (fun _ o ho => ?_)
          fun hnone => by cases hnone⟩
      rw [← Option.some.inj ho, Server.control_eq, begun]
      rfl
  | called env c s rpc adhoc p begun found there =>
      refine ⟨fs ++ [({ env with call := fun _ => none }, c.request)], by simp,
        .control { env with call := fun _ => none } ⟨c, some ⟨rpc, c.callFor adhoc, _⟩, none⟩ h
          (Server.step_of_waits begun) (fun _ o ho => by cases ho) fun _ => ⟨_, rfl, ?_⟩⟩
      rw [Server.begin_reply]
      exact begun
  | worked i env c sent outcome node here node_eq =>
      exact ⟨fs, by omega, h.set_work here _⟩
  | delivered i env c sent reply ran s here done next => exact hresumed here next
  | failed i env c sent s here next => exact hresumed here next
  | changed address files node node_eq => exact ⟨fs, by omega, h⟩

theorem oneAtATime_of_run {redis : Bool} {nodes : String → Option ScordCtl.RpcServer}
    {w : Cluster H} {es : List (Event H)} (h : run step (init redis nodes) es = some w) :
    ∃ fs, fs.length ≤ es.length ∧ OneAtATime (.init redis) fs w.exchanges w.server := by
  have hcounted := run_counted (n := 0) (I := fun n (w : Cluster H) =>
    ∃ fs, fs.length ≤ n ∧ OneAtATime (.init redis) fs w.exchanges w.server) h
    ⟨[], Nat.le_refl _, .start⟩ fun n w e w' ⟨fs, hlen, hi⟩ hs => by
      obtain ⟨fs', hlen', h'⟩ := oneAtATime_of_step hi hs
      exact ⟨fs', by omega, h'⟩
  rwa [Nat.zero_add] at hcounted

/-- **The server takes no notice of what goes on between a call and its reply**:
    whatever the order of the events, its state is that of a run that serves one
    request after the other, and without Redis so are the outcomes of the handlers. -/
theorem one_at_a_time {redis : Bool} {nodes : String → Option ScordCtl.RpcServer}
    {w : Cluster H} {es : List (Event H)} (h : run step (init redis nodes) es = some w) :
    ∃ fs, fs.length ≤ es.length ∧ run Server.step (.init redis) fs = some w.server ∧
      OneAtATime (.init redis) fs w.exchanges w.server := by
  obtain ⟨fs, hlen, hone⟩ := oneAtATime_of_run h
  exact ⟨fs, hlen, hone.run_eq, hone⟩

/-! ## An exchange that nobody disturbs -/

section Undisturbed

open ScordCtl.RpcServer (undisturbed)

variable {w : Cluster H} {i : Nat} {c : Control} {sent : Sent}
  {outcome : Option (Outcome (ResponseWithValue String))} {node : ScordCtl.RpcServer}

/-- So many steps of the controller in a row. -/
theorem exists_run_work (hx : w.exchanges[i]? = some ⟨c, some sent, outcome⟩)
    (hnode : w.nodes sent.call.address = some node) (env : ScordCtl.Env) (n : Nat) :
    ∃ w', run step w (List.replicate n (.work i env)) = some w' ∧ w'.server = w.server ∧
      w'.exchanges = w.exchanges.set i
        ⟨c, some { sent with work := (undisturbed env n (node, sent.work)).2 }, outcome⟩ := by
  induction n generalizing w sent node with
  | zero =>
      obtain ⟨hlt, heq⟩ := List.getElem?_eq_some_iff.mp hx
      refine ⟨w, rfl, rfl, ?_⟩
      show w.exchanges = w.exchanges.set i ⟨c, some sent, outcome⟩
      rw [← heq, List.set_getElem_self]
  | succ n ih =>
      have hstep : w.step (.work i env) = some
          { w.setNode sent.call.address (node.advance env sent.work).1 with
            exchanges := w.exchanges.set i
              ⟨c, some { sent with work := (node.advance env sent.work).2 }, outcome⟩ } := by
        simp only [step, hx, hnode, Option.map_some]
      have hlt := (List.getElem?_eq_some_iff.mp hx).1
      obtain ⟨w', hrun, hserver, hexchanges⟩ := ih
        (w := { w.setNode sent.call.address (node.advance env sent.work).1 with
          exchanges := w.exchanges.set i
            ⟨c, some { sent with work := (node.advance env sent.work).2 }, outcome⟩ })
        (List.getElem?_set_self hlt) (if_pos rfl)
      refine ⟨w', ?_, hserver, ?_⟩
      · rw [List.replicate_succ, run_cons, hstep]
        exact hrun
      · rw [hexchanges]
        exact List.set_set ..

/-- **An exchange that nobody disturbs is the handler of the server**, run against
    the answer of the controller: the same server, and the same outcome. -/
theorem exists_run_exchange {env env' : Env H} {s t : Server H} {rpc : UInt64}
    {call : ControllerCall} {req : ScordCtl.Request} {cenv : ScordCtl.Env}
    {reply : ScordCtl.Reply} (hbegin : w.server.begin env c = .waits s rpc call)
    (hreq : ScordCtl.Request.ofCall call = some req) (hnode : w.nodes call.address = some node)
    (hreply : (node.answer cenv req).2 = some reply)
    (hnext : (s.resume env' rpc [call] (some reply.received) c).next = some t) :
    ∃ w', run step w (.control env c :: (List.replicate 3 (.work w.exchanges.length cenv)
        ++ [.deliver w.exchanges.length env'])) = some w' ∧ w'.server = t ∧
      ∃ sent, sent.call = call ∧ w'.exchanges = w.exchanges
        ++ [⟨c, some sent,
          some (s.resume env' rpc [call] (some reply.received) c).outcome⟩] := by
  have hcontrol : w.step (.control env c) = some
      { w with
        server := s
        exchanges := w.exchanges ++ [⟨c, some ⟨rpc, call, .arrived req⟩, none⟩] } := by
    simp only [step, hbegin, hreq, Option.map_some]
  obtain ⟨ran, hran⟩ := ScordCtl.RpcServer.undisturbed_eq_answer node cenv req
  obtain ⟨w₁, hrun, hserver, hexchanges⟩ := exists_run_work
    (w := { w with
      server := s
      exchanges := w.exchanges ++ [⟨c, some ⟨rpc, call, .arrived req⟩, none⟩] })
    (List.getElem?_concat_length ..) hnode cenv 3
  rw [hran, hreply] at hexchanges
  have hx : w₁.exchanges
      = w.exchanges ++ [⟨c, some ⟨rpc, call, .done (some reply) ran⟩, none⟩] := by
    rw [hexchanges]
    simp
  have hdeliver : w₁.step (.deliver w.exchanges.length env') = some
      { w₁ with
        server := t
        exchanges := w₁.exchanges.set w.exchanges.length
          ⟨c, some ⟨rpc, call, .done (some reply) ran⟩,
            some (s.resume env' rpc [call] (some reply.received) c).outcome⟩ } := by
    simp only [step, hx, List.getElem?_concat_length, resume, hserver, hnext, Option.map_some]
  refine ⟨{ w₁ with
    server := t
    exchanges := w₁.exchanges.set w.exchanges.length
      ⟨c, some ⟨rpc, call, .done (some reply) ran⟩,
        some (s.resume env' rpc [call] (some reply.received) c).outcome⟩ }, ?_, rfl,
    ⟨rpc, call, .done (some reply) ran⟩, rfl, ?_⟩
  · rw [run_cons, hcontrol, Option.bind_some, run_append, hrun, Option.bind_some, run_cons,
      hdeliver]
    rfl
  · show w₁.exchanges.set _ _ = _
    rw [hx]
    simp

end Undisturbed

/-- Every controller is found. -/
def reachable : Env Unit := { Env.isolated with lookup := fun _ => true }

/-- A storage is removed while its deployment is under way, and the call fails. -/
theorem one_at_a_time_removed :
    ∃ (w : Cluster Unit) (fs : List (Env Unit × Request)),
      run step (init false fun _ => none)
        [.request Env.isolated (sampleAdhoc []), .control reachable (.deploy 0),
          .request Env.isolated (.removeAdhocStorage 0), .fail 0 Env.isolated] = some w ∧
      OneAtATime (.init false) fs w.exchanges w.server := by
  obtain ⟨w, hw⟩ : ∃ w : Cluster Unit, run step (init false fun _ => none)
      [.request Env.isolated (sampleAdhoc []), .control reachable (.deploy 0),
        .request Env.isolated (.removeAdhocStorage 0), .fail 0 Env.isolated] = some w := ⟨_, rfl⟩
  obtain ⟨fs, -, -, hone⟩ := one_at_a_time hw
  exact ⟨w, fs, hw, hone⟩

end Cluster

end Scord
