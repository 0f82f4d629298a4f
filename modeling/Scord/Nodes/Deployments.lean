/-
  Scord.Nodes.Deployments

  What a success means to the client of the server, over all runs of the server and
  the controllers: the controller of the storage has run the command that it has for
  the request, and the command exited with status 0 (`success_means_ran`).  And an
  adhoc storage is deployed at most once, as long as its directory stays
  (`deployed_once`).
-/
import Scord.Ctl.InstanceDirectory
import Scord.Nodes.Daemons

namespace Scord

open ObjectStore StepSystem

namespace Cluster

variable {H : Type} {w w' : Cluster H} {e : Event H}

/-- The configuration of the controller at an address. -/
def configAt (w : Cluster H) (address : String) : Option ScordCtl.ConfigFile :=
  (w.nodes address).bind ScordCtl.RpcServer.config

theorem configAt_setNode {address : String} {node node' : ScordCtl.RpcServer}
    (hnode : w.nodes address = some node) (hconfig : node'.config = node.config) :
    (w.setNode address node').configAt = w.configAt := by
  funext a
  show (if a = address then some node' else w.nodes a).bind ScordCtl.RpcServer.config
    = (w.nodes a).bind ScordCtl.RpcServer.config
  by_cases ha : a = address
  · rw [if_pos ha, ha, hnode]
    exact hconfig
  · rw [if_neg ha]

/-- No controller changes its configuration. -/
theorem configAt_step (h : w.step e = some w') : w'.configAt = w.configAt := by
  cases move_of_step h with
  | served env r s isLocal served => rfl
  | ended env c hd s begun next => rfl
  | called env c s rpc adhoc p begun found there => rfl
  | worked i env c sent outcome node here node_eq =>
      exact configAt_setNode node_eq (node.advance_fs env sent.work).1
  | delivered i env c sent reply ran s here done next => rfl
  | failed i env c sent s here next => rfl
  | changed address files node node_eq => exact configAt_setNode node_eq rfl

/-- The server stays as it is, or serves a request. -/
theorem server_step (h : w.step e = some w') :
    w'.server = w.server ∨ ∃ f, w.server.step f = some w'.server := by
  have hresumed : ∀ {env rpc calls reply c s},
      (w.server.resume env rpc calls reply c).next = some s → s = w.server := by
    intro env rpc calls reply c s hnext
    rw [← Server.next_eq_some hnext, Server.resume_server]
  cases move_of_step h with
  | served env r s isLocal served => exact .inr ⟨_, served⟩
  | ended env c hd s begun next => exact .inr ⟨_, (Server.step_of_ended begun).trans next⟩
  | called env c s rpc adhoc p begun found there => exact .inr ⟨_, Server.step_of_waits begun⟩
  | worked i env c sent outcome node here node_eq => exact .inl rfl
  | delivered i env c sent reply ran s here done next => exact .inl (hresumed next)
  | failed i env c sent s here next => exact .inl (hresumed next)
  | changed address files node node_eq => exact .inl rfl

/-! ## What an exchange is about -/

/-- The storage behind `p` has the id that was asked for, and `adhoc` is what it was
    when the call was made: it has the address, the uuid and the type that it still
    has, and what is left to do at its controller is left of this call. -/
structure About (w : Cluster H) (c : Control) (sent : Sent) (p : AdhocPtr)
    (adhoc : AdhocStorageMetadata) : Prop where
  storage : ∃ now, w.server.adhocManager.get? p = some now ∧ now.id = c.adhocId ∧
    now.fixed = adhoc.fixed
  call : sent.call = c.callFor adhoc
  work : sent.work.For (w.configAt adhoc.controllerAddress) (c.arrives adhoc)

/-- A success that was answered is the one that the controller replied. -/
def Answered (c : Control) (sent : Sent) (resp : ResponseWithValue String) : Prop :=
  ∃ reply ran, sent.work = .done (some reply) ran ∧ reply.errorCode = .success ∧
    ∀ id, c = .deploy id → resp.value = reply.value.map FileSystem.Path.text

/-- What holds of every exchange. -/
structure Sound (w : Cluster H) (x : Exchange) : Prop where
  about : ∀ sent, x.sent = some sent → ∃ p adhoc, w.About x.control sent p adhoc
  answered : ∀ resp, x.outcome = some (.ok resp) → resp.errorCode = .success →
    ∃ sent, x.sent = some sent ∧ Answered x.control sent resp

/-- What is known of a storage stays true. -/
theorem About.step {c : Control} {sent : Sent} {p : AdhocPtr} {adhoc : AdhocStorageMetadata}
    (h : w.About c sent p adhoc) (hs : w.step e = some w') : w'.About c sent p adhoc := by
  refine ⟨?_, h.call, configAt_step hs ▸ h.work⟩
  obtain ⟨now, hget, hid, hfixed⟩ := h.storage
  rcases server_step hs with heq | ⟨f, hf⟩
  · exact ⟨now, heq ▸ hget, hid, hfixed⟩
  · obtain ⟨now', hget', hid', hfixed'⟩ := (Server.step_effect hf).adhocs_change.part_kept hget
    exact ⟨now', hget', hid'.trans hid, hfixed'.trans hfixed⟩

theorem Sound.step {x : Exchange} (h : w.Sound x) (hs : w.step e = some w') : w'.Sound x where
  about sent hsent := by
    obtain ⟨p, adhoc, habout⟩ := h.about sent hsent
    exact ⟨p, adhoc, habout.step hs⟩
  answered := h.answered

/-- Every exchange of the cluster, and the ids of its server. -/
structure AllSound (w : Cluster H) : Prop where
  issued : ∃ n, w.server.IdsIssued n
  exchanges : ∀ x ∈ w.exchanges, w.Sound x

/-- What an event makes of the exchanges: one more that is sound, or one that is sound
    in the place of another. -/
theorem AllSound.step (h : w.AllSound) (hs : w.step e = some w') : w'.AllSound := by
  have hissued : ∃ n, w'.server.IdsIssued n := by
    obtain ⟨n, hn⟩ := h.issued
    rcases server_step hs with heq | ⟨f, hf⟩
    · exact ⟨n, heq ▸ hn⟩
    · exact ⟨n + 1, hn.step hf⟩
  have hold : ∀ x ∈ w.exchanges, w'.Sound x := fun x hx => (h.exchanges x hx).step hs
  refine ⟨hissued, ?_⟩
  cases move_of_step hs with
  | served env r s isLocal served => exact hold
  | ended env c hd s begun next =>
      refine List.forall_mem_append.mpr ⟨hold, List.forall_mem_singleton.mpr ⟨?_, ?_⟩⟩
      · exact fun sent hsent => by cases hsent
      · intro resp hok hsuccess
        exact absurd hsuccess (Server.ne_success_of_ended begun (Option.some.inj hok))
  | called env c s rpc adhoc p begun found there =>
      refine List.forall_mem_append.mpr ⟨hold, List.forall_mem_singleton.mpr ⟨?_, ?_⟩⟩
      · intro sent hsent
        obtain rfl := Option.some.inj hsent
        obtain ⟨n, hn⟩ := h.issued
        obtain ⟨m, -, hm⟩ := hn.adhocs
        obtain ⟨a, ha, hid⟩ := hm.own c.adhocId p found
        obtain rfl := Option.some.inj (there.symm.trans ha)
        exact ⟨p, adhoc, About.step ⟨⟨adhoc, there, hid, rfl⟩, rfl, rfl⟩ hs⟩
      · exact fun resp hok => by cases hok
  | worked i env c sent outcome node here node_eq =>
      have hx := h.exchanges _ (List.mem_of_getElem? here)
      intro x hmem
      rcases List.mem_or_eq_of_mem_set hmem with hmem | rfl
      · exact hold x hmem
      refine ⟨fun sent' hsent => ?_, fun resp hok hsuccess => ?_⟩
      · obtain rfl := Option.some.inj hsent
        obtain ⟨p, adhoc, habout⟩ := hx.about sent rfl
        have haddress : sent.call.address = adhoc.controllerAddress := by
          rw [habout.call]
          rfl
        have hconfig : w.configAt adhoc.controllerAddress = node.config := by
          unfold configAt
          rw [← haddress, node_eq]
          rfl
        have hwork := habout.work
        rw [hconfig] at hwork
        refine ⟨p, adhoc, About.step ⟨habout.storage, habout.call, ?_⟩ hs⟩
        rw [hconfig]
        exact ScordCtl.RpcServer.for_advance hwork
      · -- what is done stays done
        obtain ⟨sent', hsent, reply, ran, hdone, hreply⟩ := hx.answered resp hok hsuccess
        obtain rfl := Option.some.inj hsent
        refine ⟨_, rfl, reply, ran, ?_, hreply⟩
        show (node.advance env sent.work).2 = _
        rw [hdone]
        rfl
  | delivered i env c sent reply ran s here done next =>
      have hx := h.exchanges _ (List.mem_of_getElem? here)
      intro x hmem
      rcases List.mem_or_eq_of_mem_set hmem with hmem | rfl
      · exact hold x hmem
      refine ⟨(hx.step hs).about, fun resp hok hsuccess => ⟨sent, rfl, reply, ran, done, ?_⟩⟩
      obtain ⟨r, hr, hcode, hvalue⟩ :=
        Server.resume_success w.server env (Option.some.inj hok) hsuccess
      obtain rfl := Option.some.inj hr
      exact ⟨hcode, hvalue⟩
  | failed i env c sent s here next =>
      have hx := h.exchanges _ (List.mem_of_getElem? here)
      intro x hmem
      rcases List.mem_or_eq_of_mem_set hmem with hmem | rfl
      · exact hold x hmem
      refine ⟨(hx.step hs).about, fun resp hok hsuccess => ?_⟩
      obtain ⟨r, hr, -⟩ := Server.resume_success w.server env (Option.some.inj hok) hsuccess
      cases hr
  | changed address files node node_eq => exact hold

theorem allSound_of_reachable {redis : Bool} {nodes : String → Option ScordCtl.RpcServer}
    (h : Reachable step (init redis nodes) w) : w.AllSound :=
  h.invariant ⟨⟨0, Server.idsIssued_init redis⟩, fun _ hx => absurd hx List.not_mem_nil⟩
    fun _ _ _ hi hs => hi.step hs

/-! ## What a success means -/

/-- `adhoc` is the storage with the id of the request, as the handler saw it: its
    address, uuid and type are the ones that it still has. -/
def SawStorage (w : Cluster H) (c : Control) (adhoc : AdhocStorageMetadata) : Prop :=
  ∃ p now, w.server.adhocManager.get? p = some now ∧ now.id = c.adhocId ∧
    now.fixed = adhoc.fixed

/-- The controller of the storage has run the command that is configured for the
    request, with status 0.  The directory that a deployment hands over is the one
    under the working directory of the type, with the uuid as its name. -/
structure Ran (w : Cluster H) (c : Control) (sent : Sent) (adhoc : AdhocStorageMetadata)
    (cfg : ScordCtl.AdhocStorageConfig) (resp : ResponseWithValue String) : Prop where
  call : sent.call = c.callFor adhoc
  config : ScordCtl.adhocConfig (w.configAt adhoc.controllerAddress) adhoc.adhocStorage.type
    = .ok cfg
  ran : ∃ reply cmd, (c.arrives adhoc).command? cfg = some cmd ∧
    sent.work = .done (some reply) (some (cmd, .exited 0))
  dir : ∀ id, c = .deploy id →
    resp.value = some (cfg.workingDirectory / ⟨adhoc.uuid⟩).text ∧
      sent.work.HasMade (cfg.workingDirectory / ⟨adhoc.uuid⟩)

theorem arrives_type (c : Control) (adhoc : AdhocStorageMetadata) :
    (c.arrives adhoc).type? = some adhoc.adhocStorage.type := by
  cases c with
  | update adhocId newResources =>
      simp only [Control.arrives]
      split <;> rfl
  | deploy adhocId => rfl
  | terminate adhocId => rfl

theorem ran_of_answered {c : Control} {sent : Sent} {p : AdhocPtr} {adhoc : AdhocStorageMetadata}
    {resp : ResponseWithValue String} (habout : w.About c sent p adhoc)
    (hanswered : Answered c sent resp) : ∃ cfg, w.Ran c sent adhoc cfg resp := by
  obtain ⟨reply, ran, hdone, hcode, hvalue⟩ := hanswered
  have hfor := habout.work
  rw [hdone] at hfor
  rcases hfor reply rfl hcode with hping | ⟨cmd, ⟨type, cfg, htype, hcfg, hdir, hcmd⟩, rfl⟩
  · have htype := arrives_type c adhoc
    rw [hping] at htype
    cases htype
  · obtain rfl := Option.some.inj (htype.symm.trans (arrives_type c adhoc))
    refine ⟨cfg, habout.call, hcfg, ⟨reply, cmd, hcmd, hdone⟩, ?_⟩
    rintro id rfl
    have hreply : reply.value = some (cfg.workingDirectory / ⟨adhoc.uuid⟩) := hdir.symm
    refine ⟨?_, ?_⟩
    · rw [hvalue id rfl, hreply]
      rfl
    · rw [hdone]
      exact hreply

/-- **A success is a command that has run**: when the server answers a request to
    deploy, to resize or to terminate an adhoc storage with success, the controller of
    that storage has run the command that it has for it, which exited with status
    0. -/
theorem success_means_ran {redis : Bool} {nodes : String → Option ScordCtl.RpcServer}
    (h : Reachable step (init redis nodes) w) {x : Exchange} (hx : x ∈ w.exchanges)
    {resp : ResponseWithValue String} (hok : x.outcome = some (.ok resp))
    (hsuccess : resp.errorCode = .success) :
    ∃ sent adhoc cfg, x.sent = some sent ∧ w.SawStorage x.control adhoc ∧
      w.Ran x.control sent adhoc cfg resp := by
  have hsound := (allSound_of_reachable h).exchanges x hx
  obtain ⟨sent, hsent, hanswered⟩ := hsound.answered resp hok hsuccess
  obtain ⟨p, adhoc, habout⟩ := hsound.about sent hsent
  obtain ⟨cfg, hran⟩ := ran_of_answered habout hanswered
  exact ⟨sent, adhoc, cfg, hsent, ⟨p, habout.storage⟩, hran⟩

/-! ## One deployment for each directory -/

section Directory

variable {address : String} {dir : FileSystem.Path} {i j : Nat}

/-- The directory is there, on the node of the controller at this address. -/
def HasDirAt (w : Cluster H) (address : String) (dir : FileSystem.Path) : Prop :=
  ∃ node, w.nodes address = some node ∧ node.HasDir dir

/-- In exchange `i`, the controller at this address has made the directory. -/
def MadeAt (w : Cluster H) (address : String) (dir : FileSystem.Path) (i : Nat) : Prop :=
  ∃ x sent, w.exchanges[i]? = some x ∧ x.sent = some sent ∧ sent.call.address = address ∧
    sent.work.HasMade dir

/-- The directory is made in one exchange at most, and is there from then on. -/
structure MadeOnce (address : String) (dir : FileSystem.Path) (w : Cluster H) : Prop where
  there : ∀ i, w.MadeAt address dir i → w.HasDirAt address dir
  once : ∀ i j, w.MadeAt address dir i → w.MadeAt address dir j → i = j

/-- The directory does not go away: commands and people leave it alone. -/
def Keeps (address : String) (dir : FileSystem.Path) (w : Cluster H) : Event H → Prop
  | .outside a fs => a = address → ∀ node, w.nodes a = some node → node.HasDir dir →
      ScordCtl.RpcServer.HasDir { node with fs } dir
  | _ => True

/-- A node that takes the place of one at its address, and has the directory if that
    one does. -/
theorem hasDirAt_setNode {a : String} {node node' : ScordCtl.RpcServer}
    (hnode : w.nodes a = some node) (hdir : a = address → node.HasDir dir → node'.HasDir dir)
    (h : w.HasDirAt address dir) : (w.setNode a node').HasDirAt address dir := by
  obtain ⟨n, hn, hn'⟩ := h
  by_cases ha : a = address
  · subst ha
    obtain rfl := Option.some.inj (hn.symm.trans hnode)
    exact ⟨node', if_pos rfl, hdir rfl hn'⟩
  · exact ⟨n, (if_neg fun heq => ha heq.symm).trans hn, hn'⟩

theorem hasDirAt_step (h : w.HasDirAt address dir) (hkeep : w.Keeps address dir e)
    (hs : w.step e = some w') : w'.HasDirAt address dir := by
  cases move_of_step hs with
  | served env r s isLocal served => exact h
  | ended env c hd s begun next => exact h
  | called env c s rpc adhoc p begun found there => exact h
  | worked i env c sent outcome node here node_eq =>
      exact hasDirAt_setNode node_eq (fun _ hdir => hdir.advance env sent.work) h
  | delivered i env c sent reply ran s here done next => exact h
  | failed i env c sent s here next => exact h
  | changed a fs node node_eq =>
      exact hasDirAt_setNode node_eq (fun ha hdir => hkeep ha node node_eq hdir) h

/-- One exchange in the place of another. -/
theorem madeAt_of_set {x : Exchange} {k : Nat}
    (hexchanges : w'.exchanges = w.exchanges.set k x) (h : w'.MadeAt address dir i) :
    w.MadeAt address dir i ∨ i = k ∧ ∃ sent, x.sent = some sent ∧
      sent.call.address = address ∧ sent.work.HasMade dir := by
  obtain ⟨y, sent, hy, hsent, haddress, hmade⟩ := h
  rw [hexchanges, List.getElem?_set] at hy
  split at hy
  case isTrue hk =>
    split at hy
    case isTrue =>
      obtain rfl := Option.some.inj hy
      exact .inr ⟨hk.symm, sent, hsent, haddress, hmade⟩
    case isFalse => cases hy
  case isFalse hk => exact .inl ⟨y, sent, hy, hsent, haddress, hmade⟩

/-- One exchange more, whose controller has done nothing yet. -/
theorem madeAt_of_concat {x : Exchange} (hexchanges : w'.exchanges = w.exchanges ++ [x])
    (hx : ∀ sent, x.sent = some sent → ¬ sent.work.HasMade dir)
    (h : w'.MadeAt address dir i) : w.MadeAt address dir i := by
  obtain ⟨y, sent, hy, hsent, haddress, hmade⟩ := h
  rw [hexchanges] at hy
  rcases set_concat hy y with ⟨hold, -⟩ | ⟨rfl, -⟩
  · exact ⟨y, sent, hold, hsent, haddress, hmade⟩
  · exact absurd hmade (hx sent hsent)

/-- A directory is made by a step of the controller, which finds none. -/
theorem madeAt_step (h : w'.MadeAt address dir i) (hs : w.step e = some w') :
    w.MadeAt address dir i ∨
      ¬ w.HasDirAt address dir ∧ w'.HasDirAt address dir ∧ ∃ env, e = .work i env := by
  cases move_of_step hs with
  | served env r s isLocal served => exact .inl h
  | ended env c hd s begun next =>
      exact .inl (madeAt_of_concat rfl (fun sent hsent => by cases hsent) h)
  | called env c s rpc adhoc p begun found there =>
      refine .inl (madeAt_of_concat rfl (fun sent hsent => ?_) h)
      obtain rfl := Option.some.inj hsent
      exact id
  | worked k env c sent outcome node here node_eq =>
      rcases madeAt_of_set rfl h with hold | ⟨rfl, sent', hsent, haddress, hmade⟩
      · exact .inl hold
      obtain rfl := Option.some.inj hsent
      have haddress : sent.call.address = address := haddress
      rcases ScordCtl.RpcServer.hasMade_advance hmade with hmade | ⟨hnone, hdir⟩
      · exact .inl ⟨_, sent, here, rfl, haddress, hmade⟩
      · refine .inr ⟨?_, ⟨_, if_pos haddress.symm, hdir⟩, env, rfl⟩
        rintro ⟨n, hn, hn'⟩
        rw [← haddress, node_eq] at hn
        obtain rfl := Option.some.inj hn
        exact hnone hn'
  | delivered k env c sent reply ran s here done next =>
      rcases madeAt_of_set rfl h with hold | ⟨rfl, hmade⟩
      · exact .inl hold
      · exact .inl ⟨_, hmade.choose, here, hmade.choose_spec⟩
  | failed k env c sent s here next =>
      rcases madeAt_of_set rfl h with hold | ⟨rfl, hmade⟩
      · exact .inl hold
      · exact .inl ⟨_, hmade.choose, here, hmade.choose_spec⟩
  | changed a fs node node_eq => exact .inl h

theorem MadeOnce.step (h : MadeOnce address dir w) (hkeep : w.Keeps address dir e)
    (hs : w.step e = some w') : MadeOnce address dir w' := by
  refine ⟨fun i hi => ?_, fun i j hi hj => ?_⟩
  · rcases madeAt_step hi hs with hold | ⟨-, hdir, -⟩
    · exact hasDirAt_step (h.there i hold) hkeep hs
    · exact hdir
  · rcases madeAt_step hi hs with hi | ⟨hnone, -, envi, hei⟩
    · rcases madeAt_step hj hs with hj | ⟨hnone, -⟩
      · exact h.once i j hi hj
      · exact absurd (h.there i hi) hnone
    · rcases madeAt_step hj hs with hj | ⟨-, -, envj, hej⟩
      · exact absurd (h.there j hj) hnone
      · rw [hei] at hej
        exact (Event.work.inj hej).1

theorem madeOnce_of_run {redis : Bool} {nodes : String → Option ScordCtl.RpcServer}
    {es : List (Event H)} (h : run step (init redis nodes) es = some w)
    (hkeep : StepsMeet step (Keeps address dir) (init redis nodes) es) :
    MadeOnce address dir w := by
  have hnone : ∀ i, ¬ (init redis nodes : Cluster H).MadeAt address dir i := by
    rintro i ⟨x, sent, hx, -⟩
    cases hx
  have hall := hkeep.always (I := MadeOnce address dir)
    ⟨fun i hi => absurd hi (hnone i), fun i _ hi => absurd hi (hnone i)⟩
    fun _ _ _ hi hk hs => hi.step hk hs
  exact hall.last h

end Directory

/-- A deployment of the storage `id` that was answered success, by the controller at
    this address and with this directory. -/
def DeployedAt (w : Cluster H) (i : Nat) (id : AdhocId) (address : String)
    (dir : FileSystem.Path) : Prop :=
  ∃ sent rpc, w.exchanges[i]?
    = some ⟨.deploy id, some sent, some (.ok ⟨rpc, .success, some dir.text⟩)⟩ ∧
      sent.call.address = address

/-- Address and directory are those of the storage, and the directory was made. -/
theorem DeployedAt.made {i : Nat} {id : AdhocId} {address : String} {dir : FileSystem.Path}
    (h : w.DeployedAt i id address dir) (hw : w.AllSound) :
    ∃ p now cfg, w.server.adhocManager.get? p = some now ∧ now.id = id ∧
      now.controllerAddress = address ∧
      ScordCtl.adhocConfig (w.configAt address) now.adhocStorage.type = .ok cfg ∧
      dir = cfg.workingDirectory / ⟨now.uuid⟩ ∧ w.MadeAt address dir i := by
  obtain ⟨sent, rpc, hx, haddress⟩ := h
  have hsound := hw.exchanges _ (List.mem_of_getElem? hx)
  obtain ⟨sent', hsent, hanswered⟩ := hsound.answered _ rfl rfl
  obtain rfl := Option.some.inj hsent
  obtain ⟨p, adhoc, habout⟩ := hsound.about sent rfl
  obtain ⟨cfg, hran⟩ := ran_of_answered habout hanswered
  obtain ⟨now, hget, hid, hfixed⟩ := habout.storage
  obtain ⟨huuid, hrest⟩ := Prod.mk.inj hfixed
  obtain ⟨htype, hcontext⟩ := Prod.mk.inj hrest
  have hcontroller : now.controllerAddress = adhoc.controllerAddress :=
    congrArg AdhocCtx.controllerAddress hcontext
  have hcall : adhoc.controllerAddress = address := by
    rw [← haddress, hran.call]
    rfl
  obtain ⟨hvalue, hmade⟩ := hran.dir id rfl
  have hdir : dir = cfg.workingDirectory / ⟨adhoc.uuid⟩ :=
    congrArg FileSystem.Path.mk (Option.some.inj hvalue)
  refine ⟨p, now, cfg, hget, hid, hcontroller.trans hcall, ?_, ?_, _, sent, hx, rfl, haddress,
    hdir ▸ hmade⟩
  · rw [htype, ← hcall]
    exact hran.config
  · rw [huuid, hdir]

/-- **A storage is deployed at most once**: as long as its directory stays, no two
    requests to deploy it are answered success, whatever comes in between. -/
theorem deployed_once {redis : Bool} {nodes : String → Option ScordCtl.RpcServer}
    {es : List (Event H)} (h : run step (init redis nodes) es = some w)
    (hlen : es.length ≤ 2 ^ 64) {i j : Nat} {id : AdhocId} {address address' : String}
    {dir dir' : FileSystem.Path} (hkeep : StepsMeet step (Keeps address dir) (init redis nodes) es)
    (hi : w.DeployedAt i id address dir) (hj : w.DeployedAt j id address' dir') : i = j := by
  have hsound := allSound_of_reachable ⟨es, h⟩
  obtain ⟨p, now, cfg, hget, hid, rfl, hcfg, rfl, hmade⟩ := hi.made hsound
  obtain ⟨q, now', cfg', hget', hid', rfl, hcfg', rfl, hmade'⟩ := hj.made hsound
  -- one id, one storage
  obtain ⟨fs, hfs, hone⟩ := oneAtATime_of_run h
  obtain ⟨m, hm, hissued⟩ := (Server.idsIssued_of_run hone.run_eq).adhocs
  obtain rfl := hissued.unique (by omega) hget hget' (hid.trans hid'.symm)
  obtain rfl := Option.some.inj (hget.symm.trans hget')
  obtain rfl := Except.ok.inj (hcfg.symm.trans hcfg')
  exact (madeOnce_of_run h hkeep).once i j hmade hmade'

/-! ### Two requests for one storage -/

section Sample

open ScordCtl.RpcServer (sampleServer exits)

/-- GekkoFS is deployed, and every command exits with status 0.  Then it is to be
    deployed once more. -/
def sampleEvents : List (Event Unit) :=
  [.request Env.isolated (sampleAdhoc []), .control reachable (.deploy 0),
    .work 0 (exits 0), .work 0 (exits 0), .work 0 (exits 0), .deliver 0 Env.isolated,
    .control reachable (.deploy 0), .work 1 (exits 0), .deliver 1 Env.isolated]

/-- What was asked of which controller, and how it was answered. -/
def Exchange.asked (x : Exchange) : Control × Option String × Option ErrorCode :=
  (x.control, x.sent.map fun sent => sent.call.address,
    (x.outcome.bind Except.toOption).map ResponseWithValue.errorCode)

/-- The second request finds the directory of the first. -/
def sampleAnswers : List (Control × Option String × Option ErrorCode) :=
  [(.deploy 0, some "tcp://controller", some .success),
    (.deploy 0, some "tcp://controller", some .adhocDirExists)]

theorem asked_sample :
    (run step (init false fun _ => some sampleServer) sampleEvents).map
        (fun w => w.exchanges.map Exchange.asked) = some sampleAnswers := by
  decide +kernel

theorem deployedAt_sample : ∃ w dir, run step (init false fun _ => some sampleServer) sampleEvents
    = some w ∧ w.exchanges.map Exchange.asked = sampleAnswers ∧
      w.DeployedAt 0 0 "tcp://controller" dir := by
  obtain ⟨w, hrun, hasked⟩ := Option.map_eq_some_iff.mp asked_sample
  have hfirst : (w.exchanges.map Exchange.asked)[0]?
      = some (.deploy 0, some "tcp://controller", some .success) := by
    rw [hasked]
    rfl
  rw [List.getElem?_map] at hfirst
  obtain ⟨⟨control, sent, outcome⟩, hx, heq⟩ := Option.map_eq_some_iff.mp hfirst
  obtain ⟨rfl, heq⟩ := Prod.mk.inj heq
  obtain ⟨hsent, hcode⟩ := Prod.mk.inj heq
  obtain ⟨sent, rfl, haddress⟩ := Option.map_eq_some_iff.mp hsent
  obtain ⟨⟨rpc, code, value⟩, hresponse, rfl⟩ := Option.map_eq_some_iff.mp hcode
  obtain ⟨result, rfl, hresult⟩ := Option.bind_eq_some_iff.mp hresponse
  cases result with
  | error fault => cases hresult
  | ok resp =>
      obtain rfl := Option.some.inj hresult
      -- the directory is the one that the controller has made
      have hsound := (allSound_of_reachable ⟨_, hrun⟩).exchanges _ (List.mem_of_getElem? hx)
      obtain ⟨sent', hsent', hanswered⟩ := hsound.answered _ rfl rfl
      obtain rfl := Option.some.inj hsent'
      obtain ⟨p, adhoc, habout⟩ := hsound.about sent rfl
      obtain ⟨cfg, hran⟩ := ran_of_answered habout hanswered
      obtain ⟨rfl, -⟩ := hran.dir 0 rfl
      exact ⟨w, cfg.workingDirectory / ⟨adhoc.uuid⟩, hrun, hasked, sent, rpc, hx, haddress⟩

/-- Two requests, and a directory that stays: the second one is refused. -/
theorem deployed_once_sample :
    ∃ w dir, run step (init false fun _ => some sampleServer) sampleEvents = some w ∧
      w.exchanges.map Exchange.asked = sampleAnswers ∧
      ∀ i, w.DeployedAt i 0 "tcp://controller" dir → i = 0 := by
  obtain ⟨w, dir, hrun, hasked, hw⟩ := deployedAt_sample
  refine ⟨w, dir, hrun, hasked, fun i hi => deployed_once hrun (by decide) ?_ hi hw⟩
  -- nothing but the controller touches the files
  exact fun _ _ => ⟨trivial, fun _ _ => ⟨trivial, fun _ _ => ⟨trivial, fun _ _ => ⟨trivial,
    fun _ _ => ⟨trivial, fun _ _ => ⟨trivial, fun _ _ => ⟨trivial, fun _ _ => ⟨trivial,
      fun _ _ => ⟨trivial, trivial⟩⟩⟩⟩⟩⟩⟩⟩⟩

theorem success_means_ran_sample :
    ∃ (w : Cluster Unit) (x : Exchange) (resp : ResponseWithValue String),
      x ∈ w.exchanges ∧ x.outcome = some (.ok resp) ∧ resp.errorCode = .success ∧
      ∃ sent adhoc cfg, x.sent = some sent ∧ w.SawStorage x.control adhoc ∧
        w.Ran x.control sent adhoc cfg resp := by
  obtain ⟨w, dir, hrun, -, sent, rpc, hx, -⟩ := deployedAt_sample
  have hmem := List.mem_of_getElem? hx
  exact ⟨w, _, _, hmem, rfl, rfl, success_means_ran ⟨_, hrun⟩ hmem rfl rfl⟩

end Sample

end Cluster

end Scord
