/-
  Scord.Transfers.Preservation

  Every event keeps the invariant.  The events are taken party by party: first
  what each of them can do to the world, then why the invariant survives it.
-/
import Mathlib.Data.List.Perm.Basic
import Scord.Transfers.Invariant

namespace Scord

open FloatArith ObjectStore StepSystem

namespace World

variable {w w' : World}

theorem inv_init (redis logger : Bool) : (init redis logger).Inv where
  server := Server.wf_init redis
  handles h := by cases h
  entries h := by cases h
  started r hr := by cases hr
  sched := trivial
  client := trivial

/-- **The rule for events that start no transfer and remove none.**  They owe
    only what they do to the scheduler and to the client. -/
theorem Inv.later (hi : w.Inv) (hwf : w'.server.WF)
    (hhandles : ∀ {p t}, w'.server.transferManager.get? p = some t →
      t.handle < w'.cargo.length)
    (hl : Later w.server.transferManager w.cargo w'.server.transferManager w'.cargo)
    (hfind : ∀ id, w'.server.transferManager.find? id = w.server.transferManager.find? id)
    (hj : JobsKept w.server.jobManager.jobs w'.server.jobManager.jobs)
    (hstarted : w'.started = w.started)
    (hsched : SchedulerInv w'.server.transferManager w'.cargo w'.sched)
    (hclient : w'.client = w.client) : w'.Inv := by
  have hk : EntriesKept w.server.transferManager w'.server.transferManager :=
    fun id _ hp => (hfind id).trans hp
  refine ⟨hwf, hhandles, ?_, ?_, hsched, ?_⟩
  · intro id p hp
    rw [hstarted]
    exact hi.entries ((hfind id).symm.trans hp)
  · intro r hr
    rw [hstarted] at hr
    exact (hi.started r hr).later hl hk hj
  · rw [hclient, hstarted]
    exact hi.client.later hl fun r hr => hr

/-- An event that changes the client only. -/
theorem Inv.of_client (hi : w.Inv) {client : Client}
    (hc : ClientInv w.cargo w.started client) : World.Inv { w with client := client } :=
  ⟨hi.server, hi.handles, hi.entries, hi.started, hi.sched, hc⟩

/-- An event that changes the server, but not its transfers. -/
theorem Inv.of_server (hi : w.Inv) {s : Server Handle} (hwf : s.WF)
    (hs : SameTransfers w.server.transferManager s.transferManager)
    (hj : JobsKept w.server.jobManager.jobs s.jobManager.jobs) :
    World.Inv { w with server := s } := by
  have hl := hs.later w.cargo
  refine hi.later hwf ?_ hl hs.find hj rfl (hi.sched.later hl hs.entriesKept) rfl
  intro p t ht
  exact hi.handles ((hs.get p).symm.trans ht)

theorem Inv.createRpc (hi : w.Inv) : World.Inv { w with server := w.server.createRpc.1 } :=
  hi.of_server (hi.server.of_managers rfl rfl) (.refl _) fun h => ⟨_, h, rfl⟩

/-! ### Starting a transfer -/

/-- What a `transfer_datasets` request that starts a transfer does to the world:
    the entry, the object and the Cargo transfer are new. -/
structure Starts (w : World) (jobId : JobId) (r : Started) (w' : World) : Prop where
  own : r.jobId = jobId
  job : ∃ j ap, w.server.jobManager.Live jobId r.jobPtr j ∧ j.adhocMetadataPtr = some ap
  jobs : w'.server.jobManager = w.server.jobManager
  adhocs : w'.server.adhocManager = w.server.adhocManager
  free : w.server.transferManager.find? r.tx = none
  ptr : r.ptr = w.server.transferManager.next
  handle : r.handle = w.cargo.length
  find : ∀ id, w'.server.transferManager.find? id
    = if id = r.tx then some r.ptr else w.server.transferManager.find? id
  get : ∃ limits : List QosLimit, ∀ p, w'.server.transferManager.get? p
    = if p = r.ptr then some { id := r.tx, handle := r.handle, qos := limits }
      else w.server.transferManager.get? p
  cargo : w'.cargo = w.cargo ++ [⟨.pending, -1⟩]
  started : w'.started = r :: w.started
  sched : w'.sched = w.sched
  client : w'.client = w.client
  logger : w'.logger = w.logger

/-- What one that starts none does: Cargo may have a transfer that nobody
    knows. -/
structure StartsNone (w w' : World) : Prop where
  jobs : w'.server.jobManager = w.server.jobManager
  adhocs : w'.server.adhocManager = w.server.adhocManager
  same : SameTransfers w.server.transferManager w'.server.transferManager
  cargo : w'.cargo = w.cargo ∨ w'.cargo = w.cargo ++ [⟨.pending, -1⟩]
  started : w'.started = w.started
  sched : w'.sched = w.sched
  client : w'.client = w.client
  logger : w'.logger = w.logger

theorem cargoAfter_cases (w : World) (env : Env Handle) (jobId : JobId)
    (sources targets : List Dataset) :
    w.cargoAfter env jobId sources targets = w.cargo ∨
      w.cargoAfter env jobId sources targets = w.cargo ++ [⟨.pending, -1⟩] := by
  unfold cargoAfter
  split
  · split
    · exact .inr rfl
    · exact .inl rfl
  · exact .inl rfl

theorem startedBy_eq_none (w : World) (jobId : JobId) {h : Handled Handle ResponseWithId}
    (hcode : ∀ resp, h.outcome = .ok resp → resp.errorCode ≠ .success) :
    w.startedBy jobId h = none := by
  unfold startedBy
  split
  case h_1 opId tx hout => exact absurd rfl (hcode _ hout)
  case h_2 => rfl

section Handled

variable (w : World) (env : Env Handle) (jobId : JobId) (sources targets : List Dataset)
  (limits : List QosLimit)

theorem transferDatasets_server : (w.transferDatasets env jobId sources targets limits).1.server
    = (w.server.transferDatasets (w.env env) jobId sources targets limits).server := rfl

theorem transferDatasets_snd : (w.transferDatasets env jobId sources targets limits).2
    = w.server.transferDatasets (w.env env) jobId sources targets limits := rfl

theorem transferDatasets_started : (w.transferDatasets env jobId sources targets limits).1.started
    = (w.startedBy jobId (w.server.transferDatasets (w.env env) jobId sources targets
        limits)).toList ++ w.started := rfl

end Handled

/-- With a free id, the table has one more entry, for the new object. -/
theorem find?_newTransfer
    (hfree : w.server.transferManager.find? w.server.transferManager.currentId = none)
    (t : TransferMetadata Handle) (id : TransferId) :
    (w.server.transferManager.fetchId.1.emplace w.server.transferManager.currentId t).1.find? id
      = if id = w.server.transferManager.currentId then some w.server.transferManager.next
        else w.server.transferManager.find? id := by
  rw [Registry.find?_emplace]
  simp only [Registry.find?_fetchId, hfree, Option.getD_none]
  rfl

/-- A request that is not answered success, and that draws an id at most. -/
theorem startsNone_of_server {env : Env Handle} {jobId : JobId} {sources targets : List Dataset}
    {limits : List QosLimit} {tm : TransferManager Handle}
    (hcode : ∀ resp, (w.server.transferDatasets (w.env env) jobId sources targets limits).outcome
      = .ok resp → resp.errorCode ≠ .success)
    (htm : tm = w.server.transferManager ∨ tm = w.server.transferManager.fetchId.1)
    (hserver : (w.server.transferDatasets (w.env env) jobId sources targets limits).server
      = { w.server.createRpc.1 with transferManager := tm }) :
    StartsNone w (w.transferDatasets env jobId sources targets limits).1 := by
  have hnone := startedBy_eq_none w jobId hcode
  have hserver' := transferDatasets_server w env jobId sources targets limits
  rw [hserver] at hserver'
  constructor
  case jobs =>
    rw [hserver']
    rfl
  case adhocs =>
    rw [hserver']
    rfl
  case same =>
    rw [hserver']
    rcases htm with rfl | rfl
    · exact SameTransfers.refl _
    · exact ⟨fun _ => rfl, fun _ => rfl⟩
  case cargo => exact cargoAfter_cases w env jobId sources targets
  case started =>
    rw [transferDatasets_started, hnone]
    rfl
  case sched => rfl
  case client => rfl
  case logger => rfl

/-- **A `transfer_datasets` request starts one transfer, and answers with its id,
    or it starts none and answers with an error.** -/
theorem transferDatasets_starts (w : World) (env : Env Handle) (jobId : JobId)
    (sources targets : List Dataset) (limits : List QosLimit) :
    (∃ r, w.startedBy jobId (w.transferDatasets env jobId sources targets limits).2 = some r ∧
      (w.transferDatasets env jobId sources targets limits).2.outcome
        = .ok ⟨w.server.rpcCount, .success, some r.tx⟩ ∧
      Starts w jobId r (w.transferDatasets env jobId sources targets limits).1) ∨
    (w.startedBy jobId (w.transferDatasets env jobId sources targets limits).2 = none ∧
      (∀ resp, (w.transferDatasets env jobId sources targets limits).2.outcome = .ok resp →
        resp.errorCode ≠ .success) ∧
      StartsNone w (w.transferDatasets env jobId sources targets limits).1) := by
  rcases Server.transferDatasets_cases (w.env env) w.server jobId sources targets limits with
    ⟨dataStager, tx, hstager, hstart, hfree, heq⟩ | ⟨hcode, tm, htm, hserver⟩
  · left
    obtain ⟨p, j, ap, hlive, hptr⟩ := Server.dataStagerOf_ok hstager
    obtain ⟨tx', hstart', rfl⟩ : ∃ tx', env.transferDatasets dataStager
        (sources.map fun src => Server.datasetProcess src.id)
        (targets.map fun tgt => Server.datasetProcess tgt.id) = some tx' ∧
          w.cargo.length = tx := by
      exact Option.map_eq_some_iff.mp hstart
    have hcargo : w.cargoAfter env jobId sources targets = w.cargo ++ [⟨.pending, -1⟩] := by
      unfold cargoAfter
      simp only [hstager, hstart']
    have hstarted : w.startedBy jobId
        (w.server.transferDatasets (w.env env) jobId sources targets limits)
        = some ⟨jobId, p, w.server.transferManager.currentId, w.server.transferManager.next,
            w.cargo.length⟩ := by
      rw [heq]
      unfold startedBy
      simp only [hlive.1, find?_newTransfer hfree, if_true]
    have hserver := transferDatasets_server w env jobId sources targets limits
    rw [heq] at hserver
    refine ⟨_, hstarted, by rw [transferDatasets_snd, heq], ?_⟩
    constructor
    case own => rfl
    case job => exact ⟨j, ap, hlive, hptr⟩
    case jobs =>
      rw [hserver]
      rfl
    case adhocs =>
      rw [hserver]
      rfl
    case free => exact hfree
    case ptr => rfl
    case handle => rfl
    case find =>
      intro id
      rw [hserver]
      exact find?_newTransfer hfree _ id
    case get =>
      refine ⟨limits, fun q => ?_⟩
      rw [hserver]
      exact Registry.get?_emplace ..
    case cargo => exact hcargo
    case started =>
      rw [transferDatasets_started, hstarted]
      rfl
    case sched => rfl
    case client => rfl
    case logger => rfl
  · right
    exact ⟨startedBy_eq_none w jobId hcode, hcode, startsNone_of_server hcode htm hserver⟩

theorem Starts.later {jobId : JobId} {r : Started} (h : Starts w jobId r w') :
    Later w.server.transferManager w.cargo w'.server.transferManager w'.cargo := by
  obtain ⟨limits, hget⟩ := h.get
  have happ := Later.append w.server.transferManager w.cargo ⟨.pending, -1⟩
  rw [← h.cargo] at happ
  refine ⟨?_, happ.status, happ.length⟩
  intro p t ht
  -- an object that exists is not at the address of the new one
  have hne : p ≠ r.ptr := h.ptr ▸ Registry.ne_next_of_get? ht
  rw [hget, if_neg hne]
  exact ⟨t, ht, rfl⟩

theorem Starts.entriesKept {jobId : JobId} {r : Started} (h : Starts w jobId r w') :
    EntriesKept w.server.transferManager w'.server.transferManager := by
  intro id p hp
  have hne : id ≠ r.tx := by
    rintro rfl
    rw [h.free] at hp
    cases hp
  rw [h.find, if_neg hne]
  exact hp

theorem Inv.starts (hi : w.Inv) {jobId : JobId} {r : Started} (h : Starts w jobId r w') :
    w'.Inv := by
  have hl := h.later
  obtain ⟨limits, hget⟩ := h.get
  have hlength : w'.cargo.length = w.cargo.length + 1 := by
    rw [h.cargo]
    simp
  refine ⟨?_, ?_, ?_, ?_, ?_, ?_⟩
  · exact hi.server.of_managers h.jobs h.adhocs
  · intro p t ht
    rw [hget] at ht
    rw [hlength]
    split at ht
    · cases ht
      show r.handle < _
      rw [h.handle]
      exact Nat.lt_succ_self _
    · exact Nat.lt_succ_of_lt (hi.handles ht)
  · intro id p hp
    rw [h.started]
    rw [h.find] at hp
    split at hp
    case isTrue hid =>
      cases hp
      exact ⟨r, List.mem_cons_self, hid.symm, rfl⟩
    case isFalse =>
      obtain ⟨r', hr', hown⟩ := hi.entries hp
      exact ⟨r', List.mem_cons_of_mem _ hr', hown⟩
  · intro r' hr'
    rw [h.started] at hr'
    rcases List.mem_cons.mp hr' with rfl | hold
    · -- the new one: all that is asked of it is there from the start
      obtain ⟨j, ap, hlive, hptr⟩ := h.job
      refine ⟨?_, ⟨j, ap, ?_, hptr⟩, ⟨_, (hget _).trans (if_pos rfl), rfl⟩, fun _ => ?_⟩
      · rw [hlength, h.handle]
        exact Nat.lt_succ_self _
      · rw [h.jobs]
        exact hlive.2
      · rw [h.find, if_pos rfl]
    · refine (hi.started r' hold).later hl h.entriesKept fun hj => ?_
      rw [h.jobs]
      exact ⟨_, hj, rfl⟩
  · rw [h.sched]
    exact hi.sched.later hl h.entriesKept
  · rw [h.client]
    refine hi.client.later hl fun r' hr' => ?_
    rw [h.started]
    exact List.mem_cons_of_mem _ hr'

theorem StartsNone.later (h : StartsNone w w') :
    Later w.server.transferManager w.cargo w'.server.transferManager w'.cargo := by
  have hsame := h.same.later w.cargo
  rcases h.cargo with hc | hc
  · rw [hc]
    exact hsame
  · have happ := Later.append w.server.transferManager w.cargo ⟨.pending, -1⟩
    rw [hc]
    exact ⟨hsame.object, happ.status, happ.length⟩

theorem Inv.startsNone (hi : w.Inv) (h : StartsNone w w') : w'.Inv := by
  have hl := h.later
  refine hi.later ?_ ?_ hl h.same.find ?_ h.started ?_ h.client
  · exact hi.server.of_managers h.jobs h.adhocs
  · intro p t ht
    rw [h.same.get] at ht
    exact Nat.lt_of_lt_of_le (hi.handles ht) hl.length
  · intro p j hj
    rw [h.jobs]
    exact ⟨j, hj, rfl⟩
  · rw [h.sched]
    exact hi.sched.later hl h.same.entriesKept

/-! ### Requests -/

/-- A request that starts no transfer leaves the transfers alone. -/
theorem sameTransfers_of_effect {env : Env Handle} {r : Request} {s s' : Server Handle}
    (h : Server.Effect env r s s')
    (hr : ∀ jobId sources targets limits mapping,
      r ≠ .transferDatasets jobId sources targets limits mapping) :
    SameTransfers s.transferManager s'.transferManager := by
  have hsame : s'.transferManager = s.transferManager ∨
      s'.transferManager = s.transferManager.fetchId.1 := by
    cases h with
    | unchanged _ _ tm => exact .inl tm
    | jobIdSpent _ _ tm => exact .inl tm
    | jobCreated _ _ _ _ _ _ _ _ _ tm => exact .inl tm
    | jobUpdated _ _ _ _ _ _ _ tm => exact .inl tm
    | jobRemoved _ _ _ _ _ _ _ tm => exact .inl tm
    | adhocIdSpent _ _ tm => exact .inl tm
    | adhocCreated _ _ _ _ _ _ _ _ tm => exact .inl tm
    | adhocUpdated _ _ _ _ _ _ _ tm => exact .inl tm
    | adhocRemoved _ _ _ _ tm => exact .inl tm
    | transferIdSpent _ _ tm => exact .inr tm
    | transferCreated jobId sources targets limits mapping _ _ request =>
        exact absurd request (hr jobId sources targets limits mapping)
  rcases hsame with htm | htm
  · rw [htm]
    exact SameTransfers.refl _
  · rw [htm]
    exact ⟨fun _ => rfl, fun _ => rfl⟩

/-- A request starts a transfer, or it changes the server without a change to
    its transfers. -/
theorem request_cases {env : Env Handle} {r : Request} (h : w.request env r = some w') :
    (∃ jobId sources targets limits,
      w' = (w.transferDatasets env jobId sources targets limits).1) ∨
    ∃ s, Server.Effect (w.env env) r w.server s ∧
      SameTransfers w.server.transferManager s.transferManager ∧
      w' = { w with server := s } := by
  cases r with
  | transferDatasets jobId sources targets limits mapping =>
      obtain ⟨-, h⟩ := Option.ite_none_left_eq_some.mp h
      obtain ⟨s, -, rfl⟩ := Option.map_eq_some_iff.mp h
      exact .inl ⟨jobId, sources, targets, limits, rfl⟩
  | queryTransfer jobId tx =>
      obtain ⟨-, h⟩ := Option.ite_none_left_eq_some.mp h
      obtain ⟨s, hs, rfl⟩ := Option.map_eq_some_iff.mp h
      have heffect := Server.step_effect hs
      exact .inr ⟨s, heffect, sameTransfers_of_effect heffect nofun, rfl⟩
  | _ =>
      simp only [World.request, Option.map_eq_some_iff] at h
      obtain ⟨s, hs, rfl⟩ := h
      have heffect := Server.step_effect hs
      exact .inr ⟨s, heffect, sameTransfers_of_effect heffect nofun, rfl⟩

theorem Inv.request (hi : w.Inv) {env : Env Handle} {r : Request}
    (h : w.request env r = some w') : w'.Inv := by
  rcases request_cases h with ⟨jobId, sources, targets, limits, rfl⟩ | ⟨s, heffect, hs, rfl⟩
  · rcases transferDatasets_starts w env jobId sources targets limits with
      ⟨r, -, -, hstarts⟩ | ⟨-, -, hnone⟩
    · exact hi.starts hstarts
    · exact hi.startsNone hnone
  · refine hi.of_server (heffect.wf hi.server) hs fun hj => ?_
    obtain ⟨j', hj', -, -, hptr⟩ := heffect.job_kept hj
    exact ⟨j', hj', hptr⟩

/-- The library call polls for the transfer it started, or it does not poll. -/
theorem call_cases {env : Env Handle} {jobId : JobId} {sources targets : List Dataset}
    {limits : List QosLimit} (h : w.call env jobId sources targets limits = some w') :
    (∃ w₁ r, Starts w jobId r w₁ ∧
      w' = { w₁ with client := .polling (.library r) jobId r.tx .jobLookup }) ∨
    ∃ w₁ client, StartsNone w w₁ ∧
      (client = .aborted ∨ ∃ ec, ec ≠ .success ∧ client = .returned none ec) ∧
      w' = { w₁ with client := client } := by
  unfold call at h
  rcases transferDatasets_starts w env jobId sources targets limits with
    ⟨r, hr, hout, hstarts⟩ | ⟨-, hcode, hnone⟩
  · left
    generalize w.transferDatasets env jobId sources targets limits = result at h hr hout hstarts
    obtain ⟨w₁, handled⟩ := result
    have hout : handled.outcome = .ok ⟨w.server.rpcCount, .success, some r.tx⟩ := hout
    have hr : w.startedBy jobId handled = some r := hr
    simp only [hout, hr, ErrorCode.toBool_eq_true, if_true, Option.map_some,
      Option.some.injEq] at h
    exact ⟨w₁, r, hstarts, h.symm⟩
  · right
    generalize w.transferDatasets env jobId sources targets limits = result at h hcode hnone
    obtain ⟨w₁, handled⟩ := result
    simp only at h
    split at h
    · exact ⟨w₁, _, hnone, .inr ⟨.other, by decide, rfl⟩, (Option.some.inj h).symm⟩
    · cases h
    case h_3 resp hout =>
      have hne := hcode resp hout
      rw [if_neg (by rw [ErrorCode.toBool_eq_true]; exact hne)] at h
      split at h
      · exact ⟨w₁, _, hnone, .inl rfl, (Option.some.inj h).symm⟩
      · exact ⟨w₁, _, hnone, .inr ⟨_, hne, rfl⟩, (Option.some.inj h).symm⟩

theorem Inv.call (hi : w.Inv) {env : Env Handle} {jobId : JobId}
    {sources targets : List Dataset} {limits : List QosLimit}
    (h : w.call env jobId sources targets limits = some w') : w'.Inv := by
  rcases call_cases h with ⟨w₁, r, hstarts, rfl⟩ | ⟨w₁, client, hnone, hclient, rfl⟩
  · refine (hi.starts hstarts).of_client ⟨nofun, ?_, hstarts.own.symm, rfl, nofun⟩
    rw [hstarts.started]
    exact List.mem_cons_self
  · refine (hi.startsNone hnone).of_client ?_
    rcases hclient with rfl | ⟨ec, -, rfl⟩
    · trivial
    · trivial

/-! ### Polls -/

theorem pollJob_cases (h : w.pollJob = some w') :
    ∃ k jobId tx, w.client = .polling k jobId tx .jobLookup ∧
      ((∃ ec, w.server.dataStagerOf jobId = .ok (.error ec) ∧
          w' = { w with
            server := w.server.createRpc.1
            client := Client.react w.logger k jobId tx none (.error ec) }) ∨
        ∃ dataStager, w.server.dataStagerOf jobId = .ok (.ok dataStager) ∧
          w' = { w with
            server := w.server.createRpc.1
            client := .polling k jobId tx .transferLookup }) := by
  unfold pollJob at h
  split at h
  case h_2 => cases h
  case h_1 k jobId tx hclient =>
    refine ⟨k, jobId, tx, hclient, ?_⟩
    have hsame : w.server.createRpc.1.dataStagerOf jobId = w.server.dataStagerOf jobId := rfl
    simp only [hsame] at h
    split at h
    · cases h
    case h_2 ec hstager => exact .inl ⟨ec, hstager, (Option.some.inj h).symm⟩
    case h_3 dataStager hstager => exact .inr ⟨dataStager, hstager, (Option.some.inj h).symm⟩

theorem pollTransfer_cases (h : w.pollTransfer = some w') :
    ∃ k jobId tx, w.client = .polling k jobId tx .transferLookup ∧
      ((w.server.transferManager.find? tx = none ∧
          w' = { w with
            client := Client.react w.logger k jobId tx none (.error .noSuchEntity) }) ∨
        ∃ p, w.server.transferManager.find? tx = some p ∧
          w' = { w with client := .polling k jobId tx (.status p) }) := by
  unfold pollTransfer at h
  split at h
  case h_2 => cases h
  case h_1 k jobId tx hclient =>
    refine ⟨k, jobId, tx, hclient, ?_⟩
    obtain ⟨-, h⟩ := Option.ite_none_left_eq_some.mp h
    cases hfind : w.server.transferManager.find? tx with
    | none =>
        rw [TransferManager.find_of_none hfind] at h
        exact .inl ⟨rfl, (Option.some.inj h).symm⟩
    | some p =>
        rw [TransferManager.find_of_find? hfind] at h
        exact .inr ⟨p, rfl, (Option.some.inj h).symm⟩

theorem pollStatus_cases (h : w.pollStatus = some w') :
    ∃ k jobId tx p t status, w.client = .polling k jobId tx (.status p) ∧
      w.server.transferManager.get? p = some t ∧ w.cargo[t.handle]? = some status ∧
      w' = { w with
        client := Client.react w.logger k jobId tx (some p)
          (.ok status.state.toTransferState) } := by
  unfold pollStatus at h
  split at h
  case h_2 => cases h
  case h_1 k jobId tx p hclient =>
    unfold Server.transferStateOf at h
    cases ht : w.server.transferManager.get? p with
    | none =>
        simp only [ht] at h
        cases h
    | some t =>
        simp only [ht] at h
        cases hstatus : w.cargo[t.handle]? with
        | none =>
            simp only [env, hstatus] at h
            cases h
        | some status =>
            simp only [env, hstatus, Option.some.injEq] at h
            exact ⟨k, jobId, tx, p, t, status, hclient, ht, hstatus, h.symm⟩

theorem Inv.pollJob (hi : w.Inv) (h : w.pollJob = some w') : w'.Inv := by
  obtain ⟨k, jobId, tx, hclient, hcases⟩ := pollJob_cases h
  have hc := hi.client
  rw [hclient] at hc
  rcases hcases with ⟨ec, -, rfl⟩ | ⟨dataStager, -, rfl⟩
  · exact hi.createRpc.of_client (hc.react w.logger nofun)
  · refine hi.createRpc.of_client ?_
    cases k with
    | library r => exact ⟨nofun, hc.2.1, hc.2.2.1, hc.2.2.2.1, nofun⟩
    | tool first => exact ⟨nofun, trivial⟩

theorem Inv.pollTransfer (hi : w.Inv) (h : w.pollTransfer = some w') : w'.Inv := by
  obtain ⟨k, jobId, tx, hclient, hcases⟩ := pollTransfer_cases h
  have hc := hi.client
  rw [hclient] at hc
  rcases hcases with ⟨-, rfl⟩ | ⟨p, hfind, rfl⟩
  · exact hi.of_client (hc.react w.logger nofun)
  · refine hi.of_client ⟨?_, ?_⟩
    · rintro q ⟨⟩
      exact hi.entries hfind
    · cases k with
      | library r =>
          obtain ⟨-, hr, hjob, htx, -⟩ := hc
          refine ⟨hr, hjob, htx, ?_⟩
          rintro q ⟨⟩ hnot
          -- while Cargo is not done, the entry is the one that was made
          have hkept := (hi.started r hr).kept hnot
          rw [← htx, hfind] at hkept
          exact Option.some.inj hkept
      | tool first => trivial

theorem Inv.pollStatus (hi : w.Inv) (h : w.pollStatus = some w') : w'.Inv := by
  obtain ⟨k, jobId, tx, p, t, status, hclient, ht, hstatus, rfl⟩ := pollStatus_cases h
  have hc := hi.client
  rw [hclient] at hc
  refine hi.of_client (hc.react w.logger fun hfinished => ?_)
  obtain ⟨r, hr, htx, rfl⟩ := hc.1 p rfl
  obtain ⟨t', ht', hhandle⟩ := (hi.started r hr).object
  obtain rfl := Option.some.inj (ht.symm.trans ht')
  refine ⟨r, hr, htx, rfl, status, hhandle ▸ hstatus, ?_⟩
  cases hstate : status.state with
  | completed => rfl
  | _ =>
      rw [hstate] at hfinished
      cases hfinished

/-! ### Cargo -/

theorem progress_cases {h : Handle} {status : CargoStatus} (hs : w.progress h status = some w') :
    ∃ old, w.cargo[h]? = some old ∧ ¬ old.state.terminal = true ∧
      w' = { w with cargo := w.cargo.set h status } := by
  unfold progress at hs
  cases hold : w.cargo[h]? with
  | none =>
      simp only [hold] at hs
      cases hs
  | some old =>
      simp only [hold] at hs
      obtain ⟨hnot, hs⟩ := Option.ite_none_left_eq_some.mp hs
      exact ⟨old, rfl, fun hterminal => hnot (.inl hterminal), (Option.some.inj hs).symm⟩

theorem Inv.progress (hi : w.Inv) {h : Handle} {status : CargoStatus}
    (hs : w.progress h status = some w') : w'.Inv := by
  obtain ⟨old, hold, hnot, rfl⟩ := progress_cases hs
  have hl := Later.set w.server.transferManager hold hnot status
  have hsched := hi.sched.later hl (.refl _)
  refine hi.later hi.server ?_ hl (fun _ => rfl) (fun h => ⟨_, h, rfl⟩) rfl hsched rfl
  intro p t ht
  show t.handle < (w.cargo.set h status).length
  rw [List.length_set]
  exact hi.handles ht

/-! ### The scheduler thread -/

/-- A step of the scheduler that does not touch the transfers. -/
theorem Inv.of_sched (hi : w.Inv) {sched : SchedulerState}
    (hs : SchedulerInv w.server.transferManager w.cargo sched) :
    World.Inv { w with sched := sched } :=
  ⟨hi.server, hi.handles, hi.entries, hi.started, hs, hi.client⟩

theorem tickLock_cases (h : w.tickLock = some w') :
    w' = { w with
      sched := .scanning (TransferManager.transfer w.server.transferManager) [] } := by
  unfold tickLock at h
  split at h
  · exact (Option.some.inj h).symm
  · cases h

theorem Inv.tickLock (hi : w.Inv) (h : w.tickLock = some w') : w'.Inv := by
  obtain rfl := tickLock_cases h
  refine hi.of_sched ⟨?_, ?_, nofun⟩
  · rw [List.append_nil]
    exact TransferManager.nodup_transfer _
  · intro e he
    exact TransferManager.find?_of_mem_transfer he

theorem tickVisit_cases {i : Nat} (h : w.tickVisit i = some w') :
    ∃ todo vIds id p t status, w.sched = .scanning todo vIds ∧ todo[i]? = some (id, p) ∧
      w.server.transferManager.get? p = some t ∧ w.cargo[t.handle]? = some status ∧
      w' = { w with
        server := { w.server with
          transferManager := (Scheduler.visit binary32 w.server.transferManager status p).1 }
        sched := .scanning (todo.eraseIdx i)
          (if status.state.terminal then vIds ++ [id] else vIds) } := by
  unfold tickVisit at h
  split at h
  case h_2 => cases h
  case h_1 todo vIds hsched =>
    split at h
    · cases h
    case h_2 id p hentry =>
      split at h
      · cases h
      case h_2 status hstatus =>
        obtain ⟨t, ht, hstatus⟩ := Option.bind_eq_some_iff.mp hstatus
        simp only [visit_done, Option.some.injEq] at h
        exact ⟨todo, vIds, id, p, t, status, hsched, hentry, ht, hstatus, h.symm⟩

/-- The visited id moves from the copied table to `v_ids`, or is dropped. -/
theorem nodup_visit {todo : List (TransferId × TransferPtr Handle)} {vIds : List TransferId}
    (hnodup : (todo.map Prod.fst ++ vIds).Nodup) {i : Nat} {e : TransferId × TransferPtr Handle}
    (he : todo[i]? = some e) (done : Bool) :
    ((todo.eraseIdx i).map Prod.fst ++ if done then vIds ++ [e.1] else vIds).Nodup := by
  have hperm : (e :: todo.eraseIdx i).Perm todo := by
    obtain ⟨hi, rfl⟩ := List.getElem?_eq_some_iff.mp he
    exact List.getElem_cons_eraseIdx_perm hi
  have hmap := (hperm.map Prod.fst).append_right vIds
  rw [← hmap.nodup_iff] at hnodup
  cases done with
  | true =>
      rw [if_pos rfl, ← List.append_assoc]
      exact (List.perm_append_singleton _ _).nodup_iff.mpr hnodup
  | false => exact (List.nodup_cons.mp hnodup).2

theorem Inv.tickVisit (hi : w.Inv) {i : Nat} (h : w.tickVisit i = some w') : w'.Inv := by
  obtain ⟨todo, vIds, id, p, t, status, hsched, hentry, ht, hstatus, rfl⟩ := tickVisit_cases h
  have hs := hi.sched
  rw [hsched] at hs
  obtain ⟨hnodup, htodo, hvIds⟩ := hs
  have hl := Later.visit binary32 w.server.transferManager w.cargo status p
  have hfind := find?_visit binary32 w.server.transferManager status p
  refine hi.later (hi.server.of_managers rfl rfl) ?_ hl hfind (fun h => ⟨_, h, rfl⟩) rfl ?_ rfl
  · intro q u hu
    obtain ⟨u₀, hu₀, hhandle⟩ := visit_origin hu
    rw [← hhandle]
    exact hi.handles hu₀
  · refine ⟨nodup_visit hnodup hentry _, ?_, ?_⟩
    · intro e he
      exact (hfind e.1).trans (htodo e (List.mem_of_mem_eraseIdx he))
    · intro id' hid'
      by_cases hterminal : status.state.terminal = true
      · rw [if_pos hterminal] at hid'
        rcases List.mem_append.mp hid' with hold | hnew
        · exact (hvIds id' hold).later hl (hfind id')
        · obtain rfl := List.mem_singleton.mp hnew
          have hp := htodo _ (List.mem_of_getElem? hentry)
          exact Done.later ⟨p, t, hp, ht, status, hstatus, hterminal⟩ hl (hfind _)
      · rw [if_neg hterminal] at hid'
        exact (hvIds id' hid').later hl (hfind id')

theorem tickUnlock_cases (h : w.tickUnlock = some w') :
    ∃ vIds, w.sched = .scanning [] vIds ∧ w' = { w with sched := .removing vIds } := by
  unfold tickUnlock at h
  split at h
  case h_1 vIds hsched => exact ⟨vIds, hsched, (Option.some.inj h).symm⟩
  case h_2 => cases h

theorem Inv.tickUnlock (hi : w.Inv) (h : w.tickUnlock = some w') : w'.Inv := by
  obtain ⟨vIds, hsched, rfl⟩ := tickUnlock_cases h
  have hs := hi.sched
  rw [hsched] at hs
  exact hi.of_sched ⟨hs.1, hs.2.2⟩

theorem tickRemove_cases (h : w.tickRemove = some w') :
    (∃ id vIds, w.sched = .removing (id :: vIds) ∧
      w' = { w with
        server := { w.server with
          transferManager := (TransferManager.remove w.server.transferManager id).1 }
        sched := .removing vIds }) ∨
    (w.sched = .removing [] ∧ w' = { w with sched := .sleeping }) := by
  unfold tickRemove at h
  split at h
  case h_1 id vIds hsched => exact .inl ⟨id, vIds, hsched, (Option.some.inj h).symm⟩
  case h_2 hsched => exact .inr ⟨hsched, (Option.some.inj h).symm⟩
  case h_3 => cases h

/-- The objects stay, so a removal is `Later`. -/
theorem later_remove (tm : TransferManager Handle) (cargo : List CargoStatus)
    (id : TransferId) : Later tm cargo (TransferManager.remove tm id).1 cargo :=
  ⟨fun ht => ⟨_, (TransferManager.get?_remove ..).trans ht, rfl⟩, fun hst _ => hst,
    Nat.le_refl _⟩

theorem Inv.tickRemove (hi : w.Inv) (h : w.tickRemove = some w') : w'.Inv := by
  rcases tickRemove_cases h with ⟨id, vIds, hsched, rfl⟩ | ⟨-, rfl⟩
  · have hs := hi.sched
    rw [hsched] at hs
    obtain ⟨hnodup, hdone⟩ := hs
    have hl := later_remove w.server.transferManager w.cargo id
    refine ⟨hi.server.of_managers rfl rfl, ?_, ?_, ?_, ?_, ?_⟩
    · intro p t ht
      exact hi.handles ((TransferManager.get?_remove ..).symm.trans ht)
    · intro id' p hp
      have hp : (TransferManager.remove w.server.transferManager id).1.find? id' = some p := hp
      rw [TransferManager.find?_remove] at hp
      obtain ⟨-, hp⟩ := Option.ite_none_left_eq_some.mp hp
      exact hi.entries hp
    · intro r hr
      have hold := hi.started r hr
      refine ⟨hold.bound, hold.job, ?_, fun hnot => ?_⟩
      · obtain ⟨t, ht, hhandle⟩ := hold.object
        exact ⟨t, (TransferManager.get?_remove ..).trans ht, hhandle⟩
      · -- the removed transfer is done, so it is not this one
        have hkept := hold.kept hnot
        have hne : r.tx ≠ id := by
          rintro rfl
          obtain ⟨p, t, hp, ht, hterminal⟩ := hdone _ List.mem_cons_self
          obtain ⟨t', ht', hhandle⟩ := hold.object
          obtain rfl := Option.some.inj (hkept.symm.trans hp)
          obtain rfl := Option.some.inj (ht.symm.trans ht')
          exact hnot (hhandle ▸ hterminal)
        show (TransferManager.remove w.server.transferManager id).1.find? r.tx = _
        rw [TransferManager.find?_remove, if_neg hne]
        exact hkept
    · refine ⟨(List.nodup_cons.mp hnodup).2, fun id' hid' => ?_⟩
      have hne : id' ≠ id := by
        rintro rfl
        exact (List.nodup_cons.mp hnodup).1 hid'
      refine (hdone id' (List.mem_cons_of_mem _ hid')).later hl ?_
      rw [TransferManager.find?_remove, if_neg hne]
    · exact hi.client.later hl fun r hr => hr
  · exact hi.of_sched trivial

/-! ## Every event -/

theorem inv_step {e : Event} (hi : w.Inv) (h : w.step e = some w') : w'.Inv := by
  cases e with
  | request env r => exact hi.request h
  | call env jobId sources targets limits =>
      simp only [step] at h
      split at h
      case h_1 limits' _ _ _ => exact hi.call h
      case h_2 => cases h
  | wait jobId tx =>
      simp only [step] at h
      split at h
      · obtain rfl := Option.some.inj h
        exact hi.of_client ⟨nofun, trivial⟩
      · cases h
  | pollJob => exact hi.pollJob h
  | pollTransfer => exact hi.pollTransfer h
  | pollStatus => exact hi.pollStatus h
  | pollFails =>
      simp only [step] at h
      split at h
      case h_1 k _ tx _ _ =>
        obtain rfl := Option.some.inj h
        refine hi.of_client ?_
        cases k with
        | library r => trivial
        | tool first => exact nofun
      case h_2 => cases h
  | progress handle status => exact hi.progress h
  | tickLock => exact hi.tickLock h
  | tickVisit i => exact hi.tickVisit h
  | tickUnlock => exact hi.tickUnlock h
  | tickRemove => exact hi.tickRemove h

/-- What an event keeps of the transfers: all of it, but for the entry that the
    scheduler removes. -/
structure Keeps (w : World) (e : Event) (w' : World) : Prop where
  later : Later w.server.transferManager w.cargo w'.server.transferManager w'.cargo
  entries : e ≠ .tickRemove →
    EntriesKept w.server.transferManager w'.server.transferManager
  started : ∀ r ∈ w.started, r ∈ w'.started

/-- The usual case: only the server, the client or the scheduler's own state
    changes. -/
theorem Keeps.of_same {e : Event}
    (hs : SameTransfers w.server.transferManager w'.server.transferManager)
    (hc : w'.cargo = w.cargo) (hr : w'.started = w.started) : Keeps w e w' where
  later := hc ▸ hs.later w.cargo
  entries _ := hs.entriesKept
  started _ h := hr ▸ h

theorem Starts.keeps {jobId : JobId} {r : Started} (h : Starts w jobId r w') (e : Event) :
    Keeps w e w' where
  later := h.later
  entries _ := h.entriesKept
  started _ hr := h.started ▸ List.mem_cons_of_mem _ hr

theorem StartsNone.keeps (h : StartsNone w w') (e : Event) : Keeps w e w' where
  later := h.later
  entries _ := h.same.entriesKept
  started _ hr := h.started ▸ hr

theorem step_keeps {e : Event} (h : w.step e = some w') : Keeps w e w' := by
  cases e with
  | request env r =>
      rcases request_cases h with ⟨jobId, sources, targets, limits, rfl⟩ | ⟨s, -, hs, rfl⟩
      · rcases transferDatasets_starts w env jobId sources targets limits with
          ⟨r, -, -, hstarts⟩ | ⟨-, -, hnone⟩
        · exact hstarts.keeps _
        · exact hnone.keeps _
      · exact .of_same hs rfl rfl
  | call env jobId sources targets limits =>
      simp only [step] at h
      split at h
      case h_2 => cases h
      case h_1 =>
        rcases call_cases h with ⟨w₁, r, hstarts, rfl⟩ | ⟨w₁, client, hnone, -, rfl⟩
        · have hkeeps := hstarts.keeps (.call env jobId sources targets limits)
          exact ⟨hkeeps.later, hkeeps.entries, hkeeps.started⟩
        · have hkeeps := hnone.keeps (.call env jobId sources targets limits)
          exact ⟨hkeeps.later, hkeeps.entries, hkeeps.started⟩
  | wait jobId tx =>
      simp only [step] at h
      split at h
      · obtain rfl := Option.some.inj h
        exact .of_same (.refl _) rfl rfl
      · cases h
  | pollJob =>
      obtain ⟨k, jobId, tx, -, ⟨ec, -, rfl⟩ | ⟨dataStager, -, rfl⟩⟩ := pollJob_cases h
      · exact .of_same (.refl _) rfl rfl
      · exact .of_same (.refl _) rfl rfl
  | pollTransfer =>
      obtain ⟨k, jobId, tx, -, ⟨-, rfl⟩ | ⟨p, -, rfl⟩⟩ := pollTransfer_cases h
      · exact .of_same (.refl _) rfl rfl
      · exact .of_same (.refl _) rfl rfl
  | pollStatus =>
      obtain ⟨k, jobId, tx, p, t, status, -, -, -, rfl⟩ := pollStatus_cases h
      exact .of_same (.refl _) rfl rfl
  | pollFails =>
      simp only [step] at h
      split at h
      · obtain rfl := Option.some.inj h
        exact .of_same (.refl _) rfl rfl
      · cases h
  | progress handle status =>
      obtain ⟨old, hold, hnot, rfl⟩ := progress_cases h
      exact ⟨Later.set _ hold hnot status, fun _ => .refl _, fun _ hr => hr⟩
  | tickLock =>
      obtain rfl := tickLock_cases h
      exact .of_same (.refl _) rfl rfl
  | tickVisit i =>
      obtain ⟨todo, vIds, id, p, t, status, -, -, -, -, rfl⟩ := tickVisit_cases h
      exact ⟨Later.visit _ _ _ status p, fun _ => .visit _ _ status p, fun _ hr => hr⟩
  | tickUnlock =>
      obtain ⟨vIds, -, rfl⟩ := tickUnlock_cases h
      exact .of_same (.refl _) rfl rfl
  | tickRemove =>
      rcases tickRemove_cases h with ⟨id, vIds, -, rfl⟩ | ⟨-, rfl⟩
      · exact ⟨later_remove _ _ id, fun hne => absurd rfl hne, fun _ hr => hr⟩
      · exact .of_same (.refl _) rfl rfl

/-- The events of the waiting client. -/
def Event.ofClient : Event → Bool
  | .call _ _ _ _ _ => true
  | .wait _ _ => true
  | .pollJob => true
  | .pollTransfer => true
  | .pollStatus => true
  | .pollFails => true
  | _ => false

/-- The other parties do not touch the client. -/
theorem step_client {e : Event} (h : w.step e = some w') (he : e.ofClient = false) :
    w'.client = w.client := by
  cases e with
  | request env r =>
      rcases request_cases h with ⟨jobId, sources, targets, limits, rfl⟩ | ⟨s, -, -, rfl⟩
      · rfl
      · rfl
  | progress handle status =>
      obtain ⟨old, -, -, rfl⟩ := progress_cases h
      rfl
  | tickLock =>
      obtain rfl := tickLock_cases h
      rfl
  | tickVisit i =>
      obtain ⟨todo, vIds, id, p, t, status, -, -, -, -, rfl⟩ := tickVisit_cases h
      rfl
  | tickUnlock =>
      obtain ⟨vIds, -, rfl⟩ := tickUnlock_cases h
      rfl
  | tickRemove =>
      rcases tickRemove_cases h with ⟨id, vIds, -, rfl⟩ | ⟨-, rfl⟩
      · rfl
      · rfl
  | _ => cases he

/-- **The invariant holds in every world that a run leads to.** -/
theorem inv_of_reachable {redis logger : Bool} (h : Reachable step (init redis logger) w) :
    w.Inv :=
  h.invariant (inv_init redis logger) fun _ _ _ hi hs => inv_step hi hs

end World

end Scord
