/-
  Scord.Plugin.Registration

  What a registration of the Slurm plugin has created when it stops, at whichever
  step it stops: which handles there are, and which requests of it the server has
  carried out.
-/
import Scord.Plugin.SlurmJob
import Scord.Server.History

namespace Scord.Plugin

open ExitSteps StepSystem
open ExceptLoop (bind_eq_ok)

variable {H : Type}

/-! ## What the plugin has caused -/

/-- The requests of the clean-up. -/
def isRemoval : Request → Bool
  | .removeJob _ => true
  | .terminateAdhocStorage _ => true
  | _ => false

/-- A `register_job` that has created this job. -/
def Sent.Registers (e : Sent H) (id : JobId) : Prop :=
  ∃ res req slurmId s, e.request = .registerJob res req slurmId ∧ e.handledBy = some s ∧
    s.Registers req ∧ s.jobManager.jobs.currentId = id

/-- A deployment of this adhoc storage that its controller has carried out. -/
def Sent.Deploys (e : Sent H) (id : AdhocId) : Prop :=
  ∃ s adhoc r, e.request = .deployAdhocStorage id ∧ e.handledBy = some s ∧
    s.Registered id adhoc ∧ Server.deployReply e.env adhoc = some r ∧ r.errorCode = .success

namespace Session

def RegisteredJob (w : Session H) (id : JobId) : Prop := ∃ e ∈ w.sent, e.Registers id

def DeployedStorage (w : Session H) (id : AdhocId) : Prop := ∃ e ∈ w.sent, e.Deploys id

end Session

/-! ## Requests that do not matter -/

/-- A request that neither registers a job nor deploys, and is no removal. -/
def Quiet : Request → Bool
  | .registerJob _ _ _ => false
  | .deployAdhocStorage _ => false
  | .removeJob _ => false
  | .terminateAdhocStorage _ => false
  | _ => true

theorem Sent.Registers.not_quiet {e : Sent H} {id : JobId} (h : e.Registers id) :
    Quiet e.request = false := by
  obtain ⟨res, req, slurmId, s, hrequest, -⟩ := h
  rw [hrequest]
  rfl

theorem Sent.Deploys.not_quiet {e : Sent H} {id : AdhocId} (h : e.Deploys id) :
    Quiet e.request = false := by
  obtain ⟨s, adhoc, r, hrequest, -⟩ := h
  rw [hrequest]
  rfl

namespace Session

section Cons

variable {w w' : Session H} {e : Sent H}

theorem registeredJob_cons (h : w'.sent = e :: w.sent) {id : JobId} :
    w'.RegisteredJob id ↔ e.Registers id ∨ w.RegisteredJob id := by
  unfold RegisteredJob
  rw [h]
  exact List.exists_mem_cons_iff ..

theorem deployedStorage_cons (h : w'.sent = e :: w.sent) {id : AdhocId} :
    w'.DeployedStorage id ↔ e.Deploys id ∨ w.DeployedStorage id := by
  unfold DeployedStorage
  rw [h]
  exact List.exists_mem_cons_iff ..

theorem RegisteredJob.of_cons {id : JobId} (hid : w'.RegisteredJob id)
    (h : w'.sent = e :: w.sent)
    (he : ∀ res req slurmId, e.request ≠ .registerJob res req slurmId) :
    w.RegisteredJob id := by
  rcases (registeredJob_cons h).mp hid with ⟨res, req, slurmId, s, hrequest, -⟩ | hold
  · exact absurd hrequest (he res req slurmId)
  · exact hold

theorem DeployedStorage.of_cons {id : AdhocId} (hid : w'.DeployedStorage id)
    (h : w'.sent = e :: w.sent) (he : ∀ id, e.request ≠ .deployAdhocStorage id) :
    w.DeployedStorage id := by
  rcases (deployedStorage_cons h).mp hid with ⟨s, adhoc, r, hrequest, -⟩ | hold
  · exact absurd hrequest (he id)
  · exact hold

end Cons

/-- Only such requests have been added. -/
def AddsQuiet (w w' : Session H) : Prop :=
  ∃ added, w'.sent = added ++ w.sent ∧ ∀ e ∈ added, Quiet e.request = true

theorem AddsQuiet.refl (w : Session H) : AddsQuiet w w :=
  ⟨[], rfl, fun _ he => absurd he List.not_mem_nil⟩

theorem AddsQuiet.trans {w w' w'' : Session H} (h : AddsQuiet w w') (h' : AddsQuiet w' w'') :
    AddsQuiet w w'' := by
  obtain ⟨added, hsent, hquiet⟩ := h
  obtain ⟨added', hsent', hquiet'⟩ := h'
  refine ⟨added' ++ added, ?_, fun e he => ?_⟩
  · rw [hsent', hsent, List.append_assoc]
  · rcases List.mem_append.mp he with h | h
    · exact hquiet' e h
    · exact hquiet e h

theorem addsQuiet_send {ρ : Type} (w : Session H) (c : Call H) (request : Request)
    (handler : Server H → Handled H ρ) (hquiet : Quiet request = true) :
    AddsQuiet w (w.send c request handler).1 := by
  obtain ⟨e, hsent, hrequest, -⟩ := send_sent w c request handler
  refine ⟨[e], hsent, fun f hf => ?_⟩
  rw [List.mem_singleton.mp hf, hrequest]
  exact hquiet

/-- Any other request was there before. -/
theorem AddsQuiet.mem_iff {w w' : Session H} (h : AddsQuiet w w') {e : Sent H}
    (he : Quiet e.request = false) : e ∈ w'.sent ↔ e ∈ w.sent := by
  obtain ⟨added, hsent, hquiet⟩ := h
  rw [hsent, List.mem_append]
  refine ⟨fun hmem => hmem.resolve_left fun hadded => ?_, Or.inr⟩
  rw [hquiet e hadded] at he
  cases he

theorem AddsQuiet.registeredJob {w w' : Session H} (h : AddsQuiet w w') {id : JobId} :
    w'.RegisteredJob id → w.RegisteredJob id := by
  rintro ⟨e, he, hregisters⟩
  exact ⟨e, (h.mem_iff hregisters.not_quiet).mp he, hregisters⟩

theorem AddsQuiet.deployedStorage {w w' : Session H} (h : AddsQuiet w w') {id : AdhocId} :
    w'.DeployedStorage id → w.DeployedStorage id := by
  rintro ⟨e, he, hdeploys⟩
  exact ⟨e, (h.mem_iff hdeploys.not_quiet).mp he, hdeploys⟩

/-- The plugin has asked for no removal yet. -/
def NoRemoval (w : Session H) : Prop := ∀ e ∈ w.sent, isRemoval e.request = false

theorem NoRemoval.cons {w w' : Session H} {e : Sent H} (hno : w.NoRemoval)
    (h : w'.sent = e :: w.sent) (he : isRemoval e.request = false) : w'.NoRemoval := by
  intro f hf
  rw [h] at hf
  rcases List.mem_cons.mp hf with rfl | hold
  · exact he
  · exact hno f hold

theorem AddsQuiet.noRemoval {w w' : Session H} (h : AddsQuiet w w') (hno : w.NoRemoval) :
    w'.NoRemoval := by
  intro e he
  cases hquiet : Quiet e.request with
  -- what is not quiet was there before, and what is quiet removes nothing
  | false => exact hno e ((h.mem_iff hquiet).mp he)
  | true =>
      revert hquiet
      cases e.request <;> simp [Quiet, isRemoval]

theorem addsQuiet_pollTransfer {w : Session H} {c : Call H} {jobId : JobId} {txId : TransferId}
    {r : Session H × Option ErrorCode} (h : w.pollTransfer c jobId txId = .ok r) :
    AddsQuiet w r.1 := by
  obtain ⟨rv, -, hrv⟩ := bind_eq_ok.mp h
  have hsend := addsQuiet_send w c (.queryTransfer jobId txId)
    (fun s => s.queryTransfer c.env jobId txId) rfl
  cases rv with
  | error ec =>
      cases hrv
      exact hsend
  | ok status =>
      cases hrv
      exact hsend

theorem addsQuiet_waitTransfer {w : Session H} {jobId : JobId} {txId : TransferId}
    {polls : List (Call H)} {r : Session H × ErrorCode}
    (h : w.waitTransfer jobId txId polls = .ok r) : AddsQuiet w r.1 := by
  induction polls generalizing w with
  | nil =>
      obtain ⟨q, hq, hr⟩ := bind_eq_ok.mp h
      cases hr
      exact addsQuiet_pollTransfer hq
  | cons c cs ih =>
      obtain ⟨⟨w₁, done⟩, hq, hr⟩ := bind_eq_ok.mp h
      cases done with
      | some ec =>
          cases hr
          exact addsQuiet_pollTransfer hq
      | none => exact (addsQuiet_pollTransfer hq).trans (ih hr)

/-- A transfer, waited for or not, matters to none of it. -/
theorem addsQuiet_admTransferDatasets1 {w : Session H} {c : Call H} {polls : List (Call H)}
    {server : Option AdmServer} {job : Option Job} {sources targets : List Dataset}
    {limit : UInt64} {limitsLen : Nat} {mapping : TransferMapping} {r : Session H × ErrorCode}
    (h : w.admTransferDatasets1 c polls server job sources targets limit limitsLen mapping
      = .ok r) : AddsQuiet w r.1 := by
  obtain ⟨sv, -, h⟩ := bind_eq_ok.mp h
  obtain ⟨j, -, h⟩ := bind_eq_ok.mp h
  obtain ⟨rv, -, h⟩ := bind_eq_ok.mp h
  have hsend := addsQuiet_send w c
    (.transferDatasets j.id sources targets ((convertLimit limit limitsLen).getD []) mapping)
    (fun s => s.transferDatasets c.env j.id sources targets
      ((convertLimit limit limitsLen).getD [])) rfl
  cases rv with
  | error ec =>
      cases h
      exact hsend
  | ok txId => exact hsend.trans (addsQuiet_waitTransfer h)

end Session

/-! ## One function at a time -/

/-- The id in the response is that of the job that was created. -/
theorem registerJob_id {s : Server H} {env : Env H} {res : JobResources} {req : JobRequirements}
    {slurmId : SlurmJobId} (hreg : s.Registers req) {opId : UInt64} {id : JobId}
    (hout : (s.registerJob env res req slurmId).outcome = .ok ⟨opId, .success, some id⟩) :
    s.jobManager.jobs.currentId = id := by
  have hs : s.step (env, .registerJob res req slurmId)
      = some (s.registerJob env res req slurmId).server := by
    show (s.registerJob env res req slurmId).next = _
    unfold Handled.next
    rw [hout]
  have haccepted := Server.registerJob_accepted hs hreg
  simp only [Server.accepted, hout] at haccepted
  cases haccepted
  rfl

namespace Session

section Functions

variable {w w' : Session H} {c : Call H} {allocates : Bool} {server : Option AdmServer}

theorem admRegisterAdhocStorage_spec {name : String} {type : AdhocStorageType}
    {ctx : Option AdhocCtx} {resources : Option AdhocResources}
    {rv : Except ErrorCode (Option AdhocStorage)}
    (h : w.admRegisterAdhocStorage c allocates server name type ctx resources = .ok (w', rv)) :
    server ≠ none ∧ AddsQuiet w w' := by
  obtain ⟨sv, hsv, h⟩ := bind_eq_ok.mp h
  obtain ⟨ctx', -, h⟩ := bind_eq_ok.mp h
  obtain ⟨resources', -, h⟩ := bind_eq_ok.mp h
  obtain ⟨answer, -, h⟩ := bind_eq_ok.mp h
  obtain ⟨rfl, -⟩ := Prod.mk.inj (Except.ok.inj h)
  exact ⟨ne_none_of_handle hsv, addsQuiet_send w c _ _ rfl⟩

/-- The job handle, if there is one, is that of the job that was created. -/
theorem admRegisterJob_spec {res : Option JobResources} {reqs : Option JobRequirements}
    {slurmId : SlurmJobId} {rv : Except ErrorCode (Option Job)}
    (h : w.admRegisterJob c allocates server res reqs slurmId = .ok (w', rv)) :
    ∃ e, w'.sent = e :: w.sent ∧ (∃ res req, e.request = .registerJob res req slurmId) ∧
      ∀ job, rv = .ok (some job) → ∀ id, e.Registers id → job.id = id := by
  obtain ⟨sv, -, h⟩ := bind_eq_ok.mp h
  obtain ⟨res', -, h⟩ := bind_eq_ok.mp h
  obtain ⟨reqs', -, h⟩ := bind_eq_ok.mp h
  obtain ⟨converted, -, h⟩ := bind_eq_ok.mp h
  obtain ⟨answer, hanswer, h⟩ := bind_eq_ok.mp h
  obtain ⟨hw, hrv⟩ := Prod.mk.inj (Except.ok.inj h)
  obtain ⟨e, hsent, hrequest, -⟩ := send_sent w c (.registerJob res' converted slurmId)
    (fun s => s.registerJob c.env res' converted slurmId)
  refine ⟨e, hw ▸ hsent, ⟨res', converted, hrequest⟩, ?_⟩
  rintro job rfl id ⟨res₁, req₁, slurmId₁, s, hrequest₁, hs, hregisters, hid⟩
  cases hrequest.symm.trans hrequest₁
  cases answer with
  | error ec => cases hrv
  | ok id' =>
      obtain ⟨-, hjob⟩ := Option.ite_none_right_eq_some.mp (Except.ok.inj hrv)
      obtain rfl := Option.some.inj hjob
      -- the id was read off the response of the server that handled the request
      obtain ⟨opId, hresp⟩ := valueOf_eq_ok.mp hanswer
      have hout := (send_handled hsent hs).2 _ hresp
      rw [← hid]
      exact (registerJob_id hregisters hout).symm

theorem admDeployAdhocStorage_spec {adhocStorage : Option AdhocStorage} {path : Option String}
    {ec : ErrorCode}
    (h : w.admDeployAdhocStorage c allocates server adhocStorage = .ok (w', path, ec)) :
    server ≠ none ∧ ∃ st e, adhocStorage = some st ∧ w'.sent = e :: w.sent ∧
      e.request = .deployAdhocStorage st.id := by
  obtain ⟨sv, hsv, h⟩ := bind_eq_ok.mp h
  obtain ⟨st, hst, h⟩ := bind_eq_ok.mp h
  obtain ⟨answer, -, h⟩ := bind_eq_ok.mp h
  obtain ⟨e, hsent, hrequest, -⟩ := send_sent w c (.deployAdhocStorage st.id)
    (fun s => s.deployAdhocStorage c.env st.id)
  have hw : (w.send c (.deployAdhocStorage st.id)
      (fun s => s.deployAdhocStorage c.env st.id)).1 = w' := by
    cases answer with
    | error ec' => exact congrArg Prod.fst (Except.ok.inj h)
    | ok path' => exact congrArg Prod.fst (Except.ok.inj h)
  exact ⟨ne_none_of_handle hsv, st, e, handle_eq_ok.mp hst, hw ▸ hsent, hrequest⟩

end Functions

end Session

/-! ## What the registration creates -/

/-- However far the registration got: its job handle is that of the job it has
    registered, and likewise for the storage; the job was made from a server and
    requirements with the output routes of the options; a path is that of a
    storage. -/
structure Made (o : Options) (p : Process H) : Prop where
  job : ∀ id, p.session.RegisteredJob id → ∀ j, p.handles.scordJob = some j → j.id = id
  storage : ∀ id, p.session.DeployedStorage id →
    ∀ st, p.handles.adhocStorage = some st → st.id = id
  noRemoval : p.session.NoRemoval
  jobNeeds : p.handles.scordJob ≠ none → p.handles.scordServer ≠ none ∧
    ∃ reqs, p.handles.scordReqs = some reqs ∧ reqs.outputs = o.outputDatasets
  pathNeeds : p.handles.adhocPath ≠ none → p.handles.scordServer ≠ none ∧
    p.handles.adhocStorage ≠ none

/-- Before the adhoc storage is registered. -/
structure Fresh (p : Process H) : Prop where
  sent : p.session.sent = []
  storage : p.handles.adhocStorage = none
  reqs : p.handles.scordReqs = none
  job : p.handles.scordJob = none
  path : p.handles.adhocPath = none

/-- Before the job is registered. -/
structure NoJob (p : Process H) : Prop where
  quiet : (⟨false, none, []⟩ : Session H).AddsQuiet p.session
  job : p.handles.scordJob = none
  path : p.handles.adhocPath = none

theorem Fresh.noJob {p : Process H} (h : Fresh p) : NoJob p :=
  ⟨⟨[], h.sent, fun _ he => absurd he List.not_mem_nil⟩, h.job, h.path⟩

theorem NoJob.not_registeredJob {p : Process H} (h : NoJob p) {id : JobId} :
    ¬ p.session.RegisteredJob id := by
  intro hid
  obtain ⟨e, he, -⟩ := h.quiet.registeredJob hid
  exact absurd he List.not_mem_nil

theorem NoJob.not_deployedStorage {p : Process H} (h : NoJob p) {id : AdhocId} :
    ¬ p.session.DeployedStorage id := by
  intro hid
  obtain ⟨e, he, -⟩ := h.quiet.deployedStorage hid
  exact absurd he List.not_mem_nil

theorem NoJob.noRemoval {p : Process H} (h : NoJob p) : p.session.NoRemoval :=
  h.quiet.noRemoval fun _ he => absurd he List.not_mem_nil

theorem NoJob.made {p : Process H} (h : NoJob p) (o : Options) : Made o p where
  job _ hid := absurd hid h.not_registeredJob
  storage _ hid := absurd hid h.not_deployedStorage
  noRemoval := h.noRemoval
  jobNeeds hjob := absurd h.job hjob
  pathNeeds hpath := absurd h.path hpath

section Steps

variable (o : Options) (env : RegisterEnv H)

/-- A step that creates none of the handles in question. -/
theorem triple_create {α : Type} {object : Option α} {set : Handles → Option α → Handles}
    (hset : ∀ h x, (set h x).adhocStorage = h.adhocStorage ∧ (set h x).scordReqs = h.scordReqs ∧
      (set h x).scordJob = h.scordJob ∧ (set h x).adhocPath = h.adhocPath) :
    Triple (Fresh (H := H)) (create object set) Fresh (Made o) := by
  refine .of_either (fun {p p' goesOn} h hp => ?_) fun p h => h.noJob.made o
  cases hp
  obtain ⟨hstorage, hreqs, hjob, hpath⟩ := hset p.handles object
  exact ⟨h.sent, hstorage.trans h.storage, hreqs.trans h.reqs, hjob.trans h.job,
    hpath.trans h.path⟩

theorem triple_createServer : Triple (Fresh (H := H)) (createServer o env) Fresh (Made o) :=
  triple_create o fun _ _ => ⟨rfl, rfl, rfl, rfl⟩

theorem triple_checkNodecount : Triple (Fresh (H := H)) (checkNodecount o) Fresh (Made o) := by
  refine .of_either (fun h hp => ?_) fun p h => h.noJob.made o
  cases hp
  exact h

theorem triple_createJobResources :
    Triple (Fresh (H := H)) (createJobResources o env) Fresh (Made o) :=
  triple_create o fun _ _ => ⟨rfl, rfl, rfl, rfl⟩

theorem triple_createAdhocResources :
    Triple (Fresh (H := H)) (createAdhocResources o env) Fresh (Made o) :=
  triple_create o fun _ _ => ⟨rfl, rfl, rfl, rfl⟩

theorem triple_createAdhocContext (ctlAddress : String) :
    Triple (Fresh (H := H)) (createAdhocContext o env ctlAddress) Fresh (Made o) :=
  triple_create o fun _ _ => ⟨rfl, rfl, rfl, rfl⟩

/-- The server is known, and the requirements are still to be created. -/
def StorageStage (p : Process H) : Prop := NoJob p ∧ p.handles.scordServer ≠ none

theorem triple_registerAdhocStorage :
    Triple Fresh (registerAdhocStorage o env) StorageStage (Made o) := by
  refine .of_either (fun {p p' goesOn} h hp => ?_) fun p h => h.1.made o
  obtain ⟨⟨w, rv⟩, hw, hp⟩ := bind_eq_ok.mp hp
  obtain ⟨hne, hquiet⟩ := Session.admRegisterAdhocStorage_spec hw
  have hadds := h.noJob.quiet.trans hquiet
  cases rv with
  | error ec =>
      cases hp
      exact ⟨⟨hadds, h.job, h.path⟩, hne⟩
  | ok st =>
      cases hp
      exact ⟨⟨hadds, h.job, h.path⟩, hne⟩

/-- The server and the requirements are known, and the job is still to be
    registered. -/
def JobStage (p : Process H) : Prop :=
  NoJob p ∧ p.handles.scordServer ≠ none ∧
    ∃ reqs, p.handles.scordReqs = some reqs ∧ reqs.outputs = o.outputDatasets

theorem triple_createRequirements :
    Triple StorageStage (createRequirements o env) (JobStage o) (Made o) := by
  have hnojob : ∀ {p p' : Process H} {goesOn : Bool}, NoJob p →
      createRequirements o env p = .ok (p', goesOn) → NoJob p' := by
    intro p p' goesOn h hp
    cases hp
    exact ⟨h.quiet, h.job, h.path⟩
  refine ⟨fun {p p'} h hp => ⟨hnojob h.1 hp, ?_⟩, fun h hp => (hnojob h.1 hp).made o⟩
  obtain ⟨hp', hsome⟩ := Prod.mk.inj (Except.ok.inj hp)
  subst hp'
  refine ⟨h.2, ?_⟩
  -- it goes on only with requirements, and they are those of the options
  cases hallocates : env.allocates .jobRequirements with
  | false =>
      rw [hallocates] at hsome
      cases hsome
  | true =>
      rw [if_pos rfl]
      exact ⟨_, rfl, rfl⟩

/-- The adhoc storage is still to be deployed. -/
structure DeployStage (p : Process H) : Prop where
  made : Made o p
  path : p.handles.adhocPath = none
  notDeployed : ∀ id, ¬ p.session.DeployedStorage id

theorem triple_registerJob :
    Triple (JobStage o) (registerJob o env) (DeployStage o) (Made o) := by
  refine .of_either (fun {p p' goesOn} h hp => ?_) fun p h => h.made
  obtain ⟨hno, hneeds⟩ := h
  obtain ⟨⟨w, rv⟩, hw, hp⟩ := bind_eq_ok.mp hp
  obtain ⟨e, hsent, ⟨res, req, hrequest⟩, hid⟩ := Session.admRegisterJob_spec hw
  have hnot : ∀ id, ¬ w.DeployedStorage id := by
    intro id hdeployed
    refine hno.not_deployedStorage (hdeployed.of_cons hsent fun id' => ?_)
    rw [hrequest]
    exact Request.noConfusion
  have hremoval : w.NoRemoval := hno.noRemoval.cons hsent (by rw [hrequest]; rfl)
  -- this was the first job to be registered
  have hregistered : ∀ job, rv = .ok (some job) → ∀ id, w.RegisteredJob id → job.id = id := by
    intro job hjob id hregistered
    rcases (Session.registeredJob_cons hsent).mp hregistered with hregisters | hold
    · exact hid job hjob id hregisters
    · exact absurd hold hno.not_registeredJob
  cases rv with
  | error ec =>
      cases hp
      refine ⟨⟨fun id _ job hjob => ?_, fun id hdeployed => absurd hdeployed (hnot id), hremoval,
        fun _ => hneeds, fun hpath => absurd hno.path hpath⟩, hno.path, hnot⟩
      cases hno.job.symm.trans hjob
  | ok job =>
      cases hp
      refine ⟨⟨fun id hid job' hjob => ?_, fun id hdeployed => absurd hdeployed (hnot id),
        hremoval, fun _ => hneeds, fun hpath => absurd hno.path hpath⟩, hno.path, hnot⟩
      exact hregistered job' (congrArg Except.ok hjob) id hid

theorem triple_deployAdhocStorage :
    Triple (DeployStage o) (deployAdhocStorage env) (Made o) (Made o) := by
  refine .of_either (fun {p p' goesOn} h hp => ?_) fun _ => id
  obtain ⟨⟨w, path, ec⟩, hw, hp⟩ := bind_eq_ok.mp hp
  obtain ⟨hserver, st, e, hst, hsent, hrequest⟩ := Session.admDeployAdhocStorage_spec hw
  have hregistered : ∀ {id}, w.RegisteredJob id → p.session.RegisteredJob id := by
    intro id hid
    refine hid.of_cons hsent fun res req slurmId => ?_
    rw [hrequest]
    exact Request.noConfusion
  have hremoval : w.NoRemoval := h.made.noRemoval.cons hsent (by rw [hrequest]; rfl)
  cases hp
  refine ⟨fun id hid => h.made.job id (hregistered hid), fun id hid st' hst' => ?_, hremoval,
    h.made.jobNeeds, fun _ => ⟨hserver, ?_⟩⟩
  · obtain rfl : st' = st := Option.some.inj (hst'.symm.trans hst)
    rcases (Session.deployedStorage_cons hsent).mp hid with ⟨_, _, _, hrequest', -⟩ | hold
    · cases hrequest.symm.trans hrequest'
      rfl
    · exact absurd hold (h.notDeployed id)
  · show p.handles.adhocStorage ≠ none
    rw [hst]
    exact Option.some_ne_none st

theorem triple_setEnvironment : Triple (Made o) (setEnvironment (H := H) o) (Made o) (Made o) := by
  refine .of_either (fun h hp => ?_) fun _ => id
  cases hp
  exact ⟨h.job, h.storage, h.noRemoval, h.jobNeeds, h.pathNeeds⟩

/-- Quiet requests change nothing of it. -/
theorem Made.addsQuiet {p : Process H} (h : Made o p) {w : Session H}
    (hquiet : p.session.AddsQuiet w) : Made o { p with session := w } where
  job id hid := h.job id (hquiet.registeredJob hid)
  storage id hid := h.storage id (hquiet.deployedStorage hid)
  noRemoval := hquiet.noRemoval h.noRemoval
  jobNeeds := h.jobNeeds
  pathNeeds := h.pathNeeds

theorem triple_stageIn : Triple (Made o) (stageIn o env) (Made o) (Made o) := by
  refine .of_either (fun {p p' goesOn} h hp => ?_) fun _ => id
  unfold stageIn at hp
  split at hp
  · cases hp
    exact h
  · obtain ⟨reqs, -, hp⟩ := bind_eq_ok.mp hp
    obtain ⟨datasets, -, hp⟩ := bind_eq_ok.mp hp
    obtain ⟨r, hr, hp⟩ := bind_eq_ok.mp hp
    cases hp
    exact h.addsQuiet o (Session.addsQuiet_admTransferDatasets1 hr)

/-- **Wherever the registration stops**, what it has made fits together. -/
theorem made_of_scordRegisterJob {logger : Bool} {s : Server H} {p : Process H} {rc : Int}
    (h : scordRegisterJob o env (Process.start logger s) = .ok (p, rc)) : Made o p := by
  have hfresh : Fresh (Process.start logger s) := ⟨rfl, rfl, rfl, rfl, rfl⟩
  unfold scordRegisterJob at h
  split at h
  case h_1 =>
    cases h
    exact hfresh.noJob.made o
  case h_2 ctlAddress _ =>
    obtain ⟨⟨q, goesOn⟩, hseq, h⟩ := bind_eq_ok.mp h
    cases h
    -- one triple for each step, in the order of the function
    have htriple : Triple Fresh (seq (registerSteps o env ctlAddress)) (Made o) (Made o) :=
      (triple_createServer o env).cons <|
      (triple_checkNodecount o).cons <|
      (triple_createJobResources o env).cons <|
      (triple_createAdhocResources o env).cons <|
      (triple_createAdhocContext o env ctlAddress).cons <|
      (triple_registerAdhocStorage o env).cons <|
      (triple_createRequirements o env).cons <|
      (triple_registerJob o env).cons <|
      (triple_deployAdhocStorage o env).cons <|
      (triple_setEnvironment o).cons <|
      (triple_stageIn o env).cons <|
      Triple.nil fun _ hq => hq
    exact htriple.either hfresh hseq

end Steps

end Scord.Plugin
