/-
  Scord.Plugin.CleanUp

  What `scord_unregister_job` leaves behind, for every point at which the
  registration may have stopped and for every outcome of the stage-out.

  The clean-up goes through only when the registration got past the deployment:
  it passes on whatever handles there are, null or not.  Where it leaves early,
  it leaves everything.
-/
import Scord.Plugin.Registration
import Scord.Transfers.Invariant

namespace Scord.Plugin

open ObjectStore StepSystem
open ExceptLoop (bind_eq_ok)

variable {H : Type}

/-! ## Cleaned up -/

namespace Session

/-- The server holds a job under this id. -/
def HoldsJob (w : Session H) (id : JobId) : Prop :=
  ∃ s, w.server = some s ∧ s.jobManager.jobs.find? id ≠ none

def AskedToTerminate (w : Session H) (id : AdhocId) : Prop :=
  ∃ e ∈ w.sent, e.request = .terminateAdhocStorage id

/-- The server has answered the removal requests. -/
def RemovalsAnswered (w : Session H) : Prop :=
  ∀ e ∈ w.sent, isRemoval e.request = true → e.answered = true

/-- The server holds no job that the plugin has registered, and an adhoc storage
    that was deployed has been asked to terminate. -/
structure CleanedUp (w : Session H) : Prop where
  jobs : ∀ id, w.RegisteredJob id → ¬ w.HoldsJob id
  storages : ∀ id, w.DeployedStorage id → w.AskedToTerminate id

/-- The server holds no job that the plugin has registered, and no adhoc storage
    was deployed. -/
structure NothingLeft (w : Session H) : Prop where
  jobs : ∀ id, w.RegisteredJob id → ¬ w.HoldsJob id
  storages : ∀ id, ¬ w.DeployedStorage id

end Session

/-- The function returns, having passed or read no null handle on its way, and if
    the server has answered the removal requests, all is cleaned up. -/
def CleansUp (r : Outcome (Process H × Int)) : Prop :=
  ∃ p rc, r = .ok (p, rc) ∧ (p.session.RemovalsAnswered → p.session.CleanedUp)

/-! ## The stage-out returns -/

/-- The call returns, unless the library has a logger and ends the process over a
    response without a value. -/
def Returns {α : Type} (logger : Bool) (x : Outcome α) : Prop :=
  (∃ a, x = .ok a) ∨ logger = true ∧ x = .error .terminates

theorem Returns.of_ok {α : Type} {logger : Bool} {a : α} : Returns logger (.ok a) := .inl ⟨a, rfl⟩

theorem Returns.bind {α β : Type} {logger : Bool} {x : Outcome α} {f : α → Outcome β}
    (hx : Returns logger x) (hf : ∀ a, x = .ok a → Returns logger (f a)) :
    Returns logger (x >>= f) := by
  rcases hx with ⟨a, rfl⟩ | ⟨hlogger, rfl⟩
  · exact hf a rfl
  · exact .inr ⟨hlogger, rfl⟩

/-- A success that comes back carries its value. -/
theorem returns_valueOf {ν : Type} (logger : Bool) (answer : Option (ResponseWithValue ν))
    (h : ∀ resp, answer = some resp → resp.errorCode = .success → resp.value ≠ none) :
    Returns logger (valueOf logger answer) := by
  unfold valueOf
  cases answer with
  | none => exact .of_ok
  | some resp =>
      show Returns logger (if _ then _ else _)
      split
      case isTrue hprints =>
        exact .inr ⟨(Bool.and_eq_true_iff.mp hprints).1, rfl⟩
      case isFalse =>
        cases hec : resp.errorCode.toBool with
        | false => exact .of_ok
        | true =>
            obtain ⟨v, hv⟩ := Option.ne_none_iff_exists'.mp
              (h resp rfl (ErrorCode.toBool_eq_true.mp hec))
            simp only [hv, Bool.not_true, Bool.false_eq_true, if_false]
            exact .of_ok

theorem transferDatasets_value {s : Server H} {env : Env H} {jobId : JobId}
    {sources targets : List Dataset} {limits : List QosLimit} {resp : ResponseWithId}
    (h : (s.transferDatasets env jobId sources targets limits).outcome = .ok resp)
    (hec : resp.errorCode = .success) : resp.value ≠ none := by
  rcases Server.transferDatasets_cases env s jobId sources targets limits with
    ⟨_, _, -, -, -, hhandled⟩ | ⟨hfails, -⟩
  · rw [hhandled] at h
    cases h
    exact Option.some_ne_none _
  · exact absurd hec (hfails resp h)

theorem queryTransfer_value {s : Server H} {env : Env H} {jobId : JobId} {txId : TransferId}
    {resp : ResponseWithValue TransferState}
    (h : (s.queryTransfer env jobId txId).outcome = .ok resp)
    (hec : resp.errorCode = .success) : resp.value ≠ none := by
  unfold Server.queryTransfer at h
  simp only [show s.createRpc.1.dataStagerOf jobId = s.dataStagerOf jobId from rfl] at h
  split at h
  case h_1 => cases h
  case h_2 ec hstager =>
    cases h
    exact absurd hec (Server.dataStagerOf_error hstager)
  case h_3 =>
    split at h
    case h_1 ec hfind =>
      cases h
      -- the only error of a lookup is `no_such_entity`
      cases hid : s.transferManager.find? txId with
      | none =>
          rw [show TransferManager.find s.createRpc.1.transferManager txId
            = .error .noSuchEntity from TransferManager.find_of_none hid] at hfind
          cases hfind
          cases hec
      | some p =>
          rw [show TransferManager.find s.createRpc.1.transferManager txId = .ok p
            from TransferManager.find_of_find? hid] at hfind
          cases hfind
    case h_2 p hfind =>
      cases hstate : s.createRpc.1.transferStateOf env p with
      | error fault =>
          rw [hstate] at h
          cases h
      | ok st =>
          rw [hstate] at h
          cases h
          exact Option.some_ne_none st

namespace Session

/-- A response is one that the handler has sent. -/
theorem send_response {ρ : Type} {w : Session H} {c : Call H} {request : Request}
    {handler : Server H → Handled H ρ} {resp : ρ}
    (h : (w.send c request handler).2 = some resp) : ∃ s, (handler s).outcome = .ok resp := by
  rcases send_cases w c request handler with ⟨server, hlost⟩ | ⟨s, answer, hhandled, hanswer⟩
  · rw [hlost] at h
    cases h
  · rw [hhandled] at h
    exact ⟨s, hanswer resp h⟩

theorem returns_pollTransfer (w : Session H) (c : Call H) (jobId : JobId) (txId : TransferId) :
    Returns w.logger (w.pollTransfer c jobId txId) := by
  refine (returns_valueOf w.logger _ fun resp hresp hec => ?_).bind fun rv _ => ?_
  · obtain ⟨s, hout⟩ := send_response hresp
    exact queryTransfer_value hout hec
  · cases rv with
    | error ec => exact .of_ok
    | ok status => exact .of_ok

theorem pollTransfer_logger {w : Session H} {c : Call H} {jobId : JobId} {txId : TransferId}
    {r : Session H × Option ErrorCode} (h : w.pollTransfer c jobId txId = .ok r) :
    r.1.logger = w.logger := by
  obtain ⟨rv, -, h⟩ := bind_eq_ok.mp h
  cases rv with
  | error ec =>
      cases h
      exact send_logger
  | ok status =>
      cases h
      exact send_logger

theorem returns_waitTransfer (w : Session H) (jobId : JobId) (txId : TransferId)
    (polls : List (Call H)) : Returns w.logger (w.waitTransfer jobId txId polls) := by
  induction polls generalizing w with
  | nil => exact (w.returns_pollTransfer Call.lost jobId txId).bind fun _ _ => .of_ok
  | cons c cs ih =>
      refine (w.returns_pollTransfer c jobId txId).bind fun r hr => ?_
      obtain ⟨w', done⟩ := r
      cases done with
      | some ec => exact .of_ok
      | none =>
          -- the loop goes on with the same logger
          have hlogger : w'.logger = w.logger := pollTransfer_logger hr
          exact hlogger ▸ ih w'

/-- With a server and a job, the transfer function returns. -/
theorem returns_admTransferDatasets1 (w : Session H) (c : Call H) (polls : List (Call H))
    (server : AdmServer) (job : Job) (sources targets : List Dataset) (limit : UInt64)
    (limitsLen : Nat) (mapping : TransferMapping) :
    Returns w.logger (w.admTransferDatasets1 c polls (some server) (some job) sources targets
      limit limitsLen mapping) := by
  let limits := (convertLimit limit limitsLen).getD []
  let sent := w.send c (.transferDatasets job.id sources targets limits mapping)
    fun s => s.transferDatasets c.env job.id sources targets limits
  have hvalue : Returns w.logger (valueOf w.logger sent.2) := by
    refine returns_valueOf w.logger sent.2 fun resp hresp hec => ?_
    obtain ⟨s, hout⟩ := send_response hresp
    exact transferDatasets_value hout hec
  refine hvalue.bind fun rv _ => ?_
  cases rv with
  | error ec => exact .of_ok
  | ok txId =>
      have hlogger : sent.1.logger = w.logger := send_logger
      exact hlogger ▸ sent.1.returns_waitTransfer job.id txId polls

end Session

section StageOut

variable {o : Options} {env : UnregisterEnv H} {p p' : Process H} {ec : ErrorCode}

/-- It touches no handle. -/
theorem stageOut_session (h : stageOut o env p = .ok (p', ec)) :
    ∃ w, p' = { p with session := w } ∧ p.session.AddsQuiet w := by
  unfold stageOut at h
  split at h
  · cases h
    exact ⟨p.session, rfl, .refl _⟩
  · obtain ⟨reqs, -, h⟩ := bind_eq_ok.mp h
    obtain ⟨datasets, -, h⟩ := bind_eq_ok.mp h
    obtain ⟨r, hr, h⟩ := bind_eq_ok.mp h
    cases h
    exact ⟨r.1, rfl, Session.addsQuiet_admTransferDatasets1 hr⟩

/-- Only a transfer can fail, and it is one of a job. -/
theorem stageOut_fails (h : stageOut o env p = .ok (p', ec)) (hec : ec ≠ .success) :
    p.handles.scordJob ≠ none := by
  unfold stageOut at h
  split at h
  · cases h
    exact absurd rfl hec
  · obtain ⟨reqs, -, h⟩ := bind_eq_ok.mp h
    obtain ⟨datasets, -, h⟩ := bind_eq_ok.mp h
    obtain ⟨r, hr, -⟩ := bind_eq_ok.mp h
    obtain ⟨sv, -, hr⟩ := bind_eq_ok.mp hr
    obtain ⟨job, hjob, -⟩ := bind_eq_ok.mp hr
    exact ne_none_of_handle hjob

/-- The loop over the routes finds them all. -/
theorem exists_splitRoutes (routes : List DatasetRoute) :
    ∃ datasets, splitRoutes routes routes.length = .ok datasets := by
  obtain ⟨rs, hrs⟩ := CMemory.exists_collect_eq_ok.mpr fun i (hi : i < routes.length) =>
    ⟨routes[i], CMemory.readAt_eq_ok.mpr (List.getElem?_eq_getElem hi)⟩
  refine ⟨(rs.map DatasetRoute.source, rs.map DatasetRoute.destination), ?_⟩
  unfold splitRoutes
  rw [hrs]
  rfl

theorem returns_stageOut (hmade : Made o p) (hjob : p.handles.scordJob ≠ none) :
    Returns p.session.logger (stageOut o env p) := by
  obtain ⟨job, hjob'⟩ := Option.ne_none_iff_exists'.mp hjob
  obtain ⟨hserver, reqs, hreqs, houtputs⟩ := hmade.jobNeeds hjob
  obtain ⟨server, hserver'⟩ := Option.ne_none_iff_exists'.mp hserver
  unfold stageOut
  split
  case isTrue => exact .of_ok
  case isFalse =>
    -- the requirements hold the output routes of the options
    obtain ⟨datasets, hdatasets⟩ := exists_splitRoutes reqs.outputs
    rw [hreqs, hserver', hjob', ← houtputs]
    refine Returns.bind (.inl ⟨reqs, rfl⟩) fun reqs' hreqs' => ?_
    obtain rfl : reqs = reqs' := Except.ok.inj hreqs'
    refine Returns.bind (.inl ⟨datasets, hdatasets⟩) fun datasets' _ => ?_
    exact (p.session.returns_admTransferDatasets1 ..).bind fun _ _ => .of_ok

end StageOut

/-! ## The removals -/

/-- Once it has answered, the server does not hold the job. -/
theorem removeJob_next {s s' : Server H} {id : JobId} (h : (s.removeJob id).next = some s') :
    s'.jobManager.jobs.find? id = none := by
  obtain rfl := Server.next_eq_some h
  cases hfind : s.jobManager.jobs.find? id with
  | none =>
      rw [Server.removeJob_of_none s hfind]
      exact hfind
  | some jp =>
      obtain ⟨j, hj⟩ := JobManager.live_of_find? hfind
      rw [Server.removeJob_server_of_live s hj, JobManager.remove_of_live hj]
      exact (Registry.find?_erase ..).trans (if_pos rfl)

/-- An answered request was handled, and the server is as its handler left it. -/
theorem Session.not_holdsJob_of_removeJob {w : Session H} {c : Call H} {id : JobId} {e : Sent H}
    (hsent : (w.send c (.removeJob id) fun s => s.removeJob id).1.sent = e :: w.sent)
    (hanswered : e.answered = true) :
    ¬ (w.send c (.removeJob id) fun s => s.removeJob id).1.HoldsJob id := by
  rintro ⟨s', hs', hholds⟩
  obtain ⟨s, hs⟩ := send_answered hsent hanswered
  have hnext := (send_handled hsent hs).1
  exact hholds (removeJob_next (hnext.symm.trans hs'))

section Removals

variable {o : Options} {env : UnregisterEnv H} {p q : Process H}

/-- The handles that it passes on. -/
theorem removeAll_handles (h : removeAll env p = .ok q) :
    p.handles.adhocPath ≠ none ∧ p.handles.scordJob ≠ none := by
  obtain ⟨r, -, h⟩ := bind_eq_ok.mp h
  obtain ⟨path, hpath, h⟩ := bind_eq_ok.mp h
  obtain ⟨r', hr', -⟩ := bind_eq_ok.mp h
  obtain ⟨sv, -, hr'⟩ := bind_eq_ok.mp hr'
  obtain ⟨job, hjob, -⟩ := bind_eq_ok.mp hr'
  exact ⟨ne_none_of_handle hpath, ne_none_of_handle hjob⟩

/-- **With a path and a job, the removals clean up.** -/
theorem removeAll_cleansUp (hmade : Made o p) (hpath : p.handles.adhocPath ≠ none)
    (hjob : p.handles.scordJob ≠ none) :
    ∃ q, removeAll env p = .ok q ∧ (q.session.RemovalsAnswered → q.session.CleanedUp) := by
  obtain ⟨path, hpath'⟩ := Option.ne_none_iff_exists'.mp hpath
  obtain ⟨job, hjob'⟩ := Option.ne_none_iff_exists'.mp hjob
  obtain ⟨hserver, hstorage⟩ := hmade.pathNeeds hpath
  obtain ⟨server, hserver'⟩ := Option.ne_none_iff_exists'.mp hserver
  obtain ⟨storage, hstorage'⟩ := Option.ne_none_iff_exists'.mp hstorage
  -- the session after each of the two requests
  let w₁ := (p.session.send env.terminate (.terminateAdhocStorage storage.id)
    fun s => s.terminateAdhocStorage env.terminate.env storage.id).1
  let w₂ := (w₁.send env.removeJob (.removeJob job.id) fun s => s.removeJob job.id).1
  refine ⟨{ p with session := w₂ }, ?_, fun hanswered => ?_⟩
  · unfold removeAll
    rw [hpath', hjob', hserver', hstorage']
    rfl
  · obtain ⟨e₁, hsent₁, hrequest₁, -⟩ := p.session.send_sent env.terminate
      (.terminateAdhocStorage storage.id)
      fun s => s.terminateAdhocStorage env.terminate.env storage.id
    obtain ⟨e₂, hsent₂, hrequest₂, -⟩ := w₁.send_sent env.removeJob (.removeJob job.id)
      fun s => s.removeJob job.id
    have hsent₁ : w₁.sent = e₁ :: p.session.sent := hsent₁
    have hsent₂ : w₂.sent = e₂ :: w₁.sent := hsent₂
    -- the removals have registered no job and deployed nothing
    have hregistered : ∀ id, w₂.RegisteredJob id → p.session.RegisteredJob id := by
      intro id hid
      refine (hid.of_cons hsent₂ fun _ _ _ => ?_).of_cons hsent₁ fun _ _ _ => ?_
      · rw [hrequest₂]
        exact Request.noConfusion
      · rw [hrequest₁]
        exact Request.noConfusion
    have hdeployed : ∀ id, w₂.DeployedStorage id → p.session.DeployedStorage id := by
      intro id hid
      refine (hid.of_cons hsent₂ fun _ => ?_).of_cons hsent₁ fun _ => ?_
      · rw [hrequest₂]
        exact Request.noConfusion
      · rw [hrequest₁]
        exact Request.noConfusion
    refine ⟨fun id hid => ?_, fun id hid => ⟨e₁, ?_, ?_⟩⟩
    · obtain rfl : job.id = id := hmade.job id (hregistered id hid) job hjob'
      have hmem : e₂ ∈ w₂.sent := hsent₂ ▸ List.mem_cons_self
      have hremoval : isRemoval e₂.request = true := by
        rw [hrequest₂]
        rfl
      exact Session.not_holdsJob_of_removeJob hsent₂ (hanswered e₂ hmem hremoval)
    · show e₁ ∈ w₂.sent
      rw [hsent₂, hsent₁]
      exact List.mem_cons_of_mem _ List.mem_cons_self
    · rw [hrequest₁, hmade.storage id (hdeployed id hid) storage hstorage']

end Removals

/-! ## When the clean-up cleans up -/

/-- A clean-up that leaves early has removed nothing. -/
theorem cleanedUp_of_noRemoval {w : Session H} (h : w.NoRemoval) :
    (w.RemovalsAnswered → w.CleanedUp) ↔ w.NothingLeft := by
  refine ⟨fun hclean => ?_, fun hnothing _ => ⟨hnothing.jobs, fun id hid =>
    absurd hid (hnothing.storages id)⟩⟩
  have hclean : w.CleanedUp := hclean fun e he hremoval => by
    rw [h e he] at hremoval
    cases hremoval
  refine ⟨hclean.jobs, fun id hid => ?_⟩
  -- a deployed storage would have been asked to terminate
  obtain ⟨e, he, hrequest⟩ := hclean.storages id hid
  have hremoval := h e he
  rw [hrequest] at hremoval
  cases hremoval

/-- When `scord_unregister_job` cleans up.  Either it leaves early, since there is
    no address or the stage-out failed, and nothing was left to remove; or it does
    not, and the registration got past the deployment.  A stage-out, and the
    removal of the job, want the job handle; and a logger may end the process in
    the stage-out. -/
def Tidies (o : Options) (env : UnregisterEnv H) (p : Process H) : Prop :=
  match margoAddressCreate env.resolveHost o.scordctlInfo o.nodelist with
  | none => p.session.NothingLeft
  | some _ => p.handles.scordJob ≠ none ∧ stageOut o env p ≠ .error .terminates ∧
      ∀ p' ec, stageOut o env p = .ok (p', ec) →
        if ec = .success then p.handles.adhocPath ≠ none else p'.session.NothingLeft

theorem Made.wait {o : Options} {p : Process H} (h : Made o p) (others : List (Env H × Request)) :
    Made o (p.wait others) :=
  ⟨h.job, h.storage, h.noRemoval, h.jobNeeds, h.pathNeeds⟩

section CleansUp

variable {o : Options} {env : UnregisterEnv H} {p p' : Process H} {ec : ErrorCode}

theorem scordUnregisterJob_of_none
    (haddress : margoAddressCreate env.resolveHost o.scordctlInfo o.nodelist = none) :
    scordUnregisterJob o env p = .ok (p, -1) := by
  unfold scordUnregisterJob
  rw [haddress]

theorem scordUnregisterJob_eq_ok {address : String}
    (haddress : margoAddressCreate env.resolveHost o.scordctlInfo o.nodelist = some address)
    {r : Process H × Int} : scordUnregisterJob o env p = .ok r ↔
      ∃ p' ec, stageOut o env p = .ok (p', ec) ∧
        if ec = .success then ∃ q, removeAll env p' = .ok q ∧ r = (q, 0) else r = (p', -1) := by
  have hunfold : scordUnregisterJob o env p = (stageOut o env p >>= fun r =>
      if r.2 = .success then removeAll env r.1 >>= fun p => .ok (p, 0) else .ok (r.1, -1)) := by
    unfold scordUnregisterJob
    rw [haddress]
    rfl
  rw [hunfold, bind_eq_ok, Prod.exists]
  refine exists_congr fun p' => exists_congr fun ec => and_congr_right fun _ => ?_
  by_cases hec : ec = .success
  · simp only [if_pos hec, bind_eq_ok, Except.ok.injEq]
    exact exists_congr fun q => and_congr_right fun _ => eq_comm
  · simp only [if_neg hec, Except.ok.injEq]
    exact eq_comm

/-- A clean-up after a stage-out that failed is no clean-up. -/
theorem Made.cleanedUp_of_stageOut (h : Made o p) (hout : stageOut o env p = .ok (p', ec)) :
    (p'.session.RemovalsAnswered → p'.session.CleanedUp) ↔ p'.session.NothingLeft := by
  obtain ⟨w, rfl, hquiet⟩ := stageOut_session hout
  exact cleanedUp_of_noRemoval (hquiet.noRemoval h.noRemoval)

/-- The handles are there if it cleans up. -/
theorem Made.tidies (h : Made o p) (hclean : CleansUp (scordUnregisterJob o env p)) :
    Tidies o env p := by
  obtain ⟨q, rc, hq, hclean⟩ := hclean
  unfold Tidies
  cases haddress : margoAddressCreate env.resolveHost o.scordctlInfo o.nodelist with
  | none =>
      rw [scordUnregisterJob_of_none haddress] at hq
      cases hq
      exact (cleanedUp_of_noRemoval h.noRemoval).mp hclean
  | some address =>
      obtain ⟨p', ec, hout, hq⟩ := (scordUnregisterJob_eq_ok haddress).mp hq
      have hreturned : stageOut o env p ≠ .error .terminates := by
        intro haborts
        cases hout.symm.trans haborts
      by_cases hec : ec = .success
      · rw [if_pos hec] at hq
        obtain ⟨q', hq', -⟩ := hq
        -- the stage-out leaves the handles alone
        obtain ⟨hpath, hjob⟩ := removeAll_handles hq'
        obtain ⟨w, rfl, -⟩ := stageOut_session hout
        refine ⟨hjob, hreturned, fun p'' ec' hout' => ?_⟩
        cases hout.symm.trans hout'
        rw [if_pos hec]
        exact hpath
      · rw [if_neg hec] at hq
        cases hq
        refine ⟨stageOut_fails hout hec, hreturned, fun p'' ec' hout' => ?_⟩
        cases hout.symm.trans hout'
        rw [if_neg hec]
        exact (h.cleanedUp_of_stageOut hout).mp hclean

/-- With the handles, it cleans up. -/
theorem Made.cleansUp (h : Made o p) (htidy : Tidies o env p) :
    CleansUp (scordUnregisterJob o env p) := by
  unfold Tidies at htidy
  cases haddress : margoAddressCreate env.resolveHost o.scordctlInfo o.nodelist with
  | none =>
      rw [haddress] at htidy
      exact ⟨p, -1, scordUnregisterJob_of_none haddress,
        (cleanedUp_of_noRemoval h.noRemoval).mpr htidy⟩
  | some address =>
      rw [haddress] at htidy
      obtain ⟨hjob, hreturned, htidy⟩ := htidy
      have hreturns : Returns p.session.logger (stageOut o env p) := returns_stageOut h hjob
      obtain ⟨⟨p', ec⟩, hout⟩ := hreturns.resolve_right fun haborts => hreturned haborts.2
      have htidy := htidy p' ec hout
      by_cases hec : ec = .success
      · rw [if_pos hec] at htidy
        obtain ⟨w, rfl, hquiet⟩ := stageOut_session hout
        have hremoves : ∃ q, removeAll env { p with session := w } = .ok q ∧
            (q.session.RemovalsAnswered → q.session.CleanedUp) :=
          removeAll_cleansUp (h.addsQuiet o hquiet) htidy hjob
        obtain ⟨q, hq, hclean⟩ := hremoves
        refine ⟨q, 0, (scordUnregisterJob_eq_ok haddress).mpr ⟨_, ec, hout, ?_⟩, hclean⟩
        rw [if_pos hec]
        exact ⟨q, hq, rfl⟩
      · rw [if_neg hec] at htidy
        refine ⟨p', -1, (scordUnregisterJob_eq_ok haddress).mpr ⟨p', ec, hout, ?_⟩,
          (h.cleanedUp_of_stageOut hout).mpr htidy⟩
        rw [if_neg hec]

end CleansUp

/-- **The clean-up of a run cleans up exactly when it tidies.**  `others` are the
    requests that the server handles between the two functions. -/
theorem scordUnregisterJob_cleansUp_iff {o : Options} {renv : RegisterEnv H} {logger : Bool}
    {s : Server H} {p : Process H} {rc : Int}
    (hreg : scordRegisterJob o renv (Process.start logger s) = .ok (p, rc))
    (others : List (Env H × Request)) (env : UnregisterEnv H) :
    CleansUp (scordUnregisterJob o env (p.wait others)) ↔ Tidies o env (p.wait others) := by
  have hmade : Made o (p.wait others) := (made_of_scordRegisterJob o renv hreg).wait others
  exact ⟨hmade.tidies, hmade.cleansUp⟩

/-! ## Two runs -/

/-- A job on one node, without datasets. -/
def sampleOptions : Options where
  scordInfo := ⟨"127.0.0.1:52000", "ofi+tcp", 52000⟩
  scordctlInfo := ⟨"", "ofi+tcp", 52001⟩
  cargoInfo := ⟨"", "ofi+tcp", 62000⟩
  nodelist := [⟨"n0", .regular⟩]
  jobid := 7
  adhocNnodes := 1
  adhocWalltime := 10
  adhocMode := .inJobShared
  adhocType := .gekkofs
  inputDatasets := []
  outputDatasets := []
  expectedOutputDatasets := []
  limit := 0

/-- The server gets the request at once, and answers it. -/
def Call.answered : Call Unit where
  others := []
  delivered := true
  env := Server.obligingEnv
  returned := true

/-- The registration of the adhoc storage goes as given, and the rest goes well. -/
def sampleRegisterEnv (registerAdhoc : Call Unit) : RegisterEnv Unit where
  resolveHost := some
  allocates _ := true
  registerAdhoc := registerAdhoc
  registerJob := Call.answered
  deploy := Call.answered
  stageIn := Call.answered
  stageInPolls := []

def sampleUnregisterEnv : UnregisterEnv Unit where
  resolveHost := some
  stageOut := Call.answered
  stageOutPolls := []
  terminate := Call.answered
  removeJob := Call.answered

/-- A registration that succeeds is cleaned up after. -/
theorem scordUnregisterJob_cleansUp_iff_sample :
    ∃ p, scordRegisterJob sampleOptions (sampleRegisterEnv Call.answered)
        (Process.start false (Server.init true)) = .ok (p, 0) ∧
      (CleansUp (scordUnregisterJob sampleOptions sampleUnregisterEnv (p.wait [])) ↔
        Tidies sampleOptions sampleUnregisterEnv (p.wait [])) ∧
      CleansUp (scordUnregisterJob sampleOptions sampleUnregisterEnv (p.wait [])) := by
  obtain ⟨p, hp⟩ : ∃ p, scordRegisterJob sampleOptions (sampleRegisterEnv Call.answered)
      (Process.start false (Server.init true)) = .ok (p, 0) := ⟨_, rfl⟩
  have hiff := scordUnregisterJob_cleansUp_iff hp [] sampleUnregisterEnv
  refine ⟨p, hp, hiff, hiff.mpr ⟨?_, ?_, fun p' ec hout => ?_⟩⟩
  · cases hp
    exact Option.some_ne_none _
  · exact fun haborts => by cases haborts
  · cases hp
    cases hout
    exact Option.some_ne_none _

/-- The server cannot be reached when the adhoc storage is to be registered.  The
    clean-up passes on a null storage. -/
theorem not_cleansUp_lostRegistration :
    ∃ p, scordRegisterJob sampleOptions (sampleRegisterEnv Call.lost)
        (Process.start false (Server.init true)) = .ok (p, -1) ∧
      ¬ CleansUp (scordUnregisterJob sampleOptions sampleUnregisterEnv (p.wait [])) := by
  obtain ⟨p, hp⟩ : ∃ p, scordRegisterJob sampleOptions (sampleRegisterEnv Call.lost)
      (Process.start false (Server.init true)) = .ok (p, -1) := ⟨_, rfl⟩
  refine ⟨p, hp, ?_⟩
  rintro ⟨q, rc, hq, -⟩
  cases hp
  cases hq

end Scord.Plugin
