/-
  Scord.Server.Invariants

  What holds of the managers in every reachable state of the server: a job
  carries its own id, its resources and requirements are engaged, the slurm
  index leads to live jobs with the right slurm id, and the pointers between
  jobs and adhoc storages, where they are not null, do not dangle.
-/
import Scord.Lib.StepSystem
import Scord.Server.Effects

namespace Scord

open ObjectStore StepSystem

/-! ## The job manager -/

namespace JobManager

/-- The invariant of the job manager on its own. -/
structure WF (m : JobManager) : Prop where
  engaged : ∀ {p j}, m.jobs.get? p = some j → j.resources.isSome ∧ j.requirements.isSome
  ownId : ∀ {id p j}, m.Live id p j → j.job.id = id
  index : ∀ {slurmId id}, m.slurmToScord.lookup slurmId = some id →
    ∃ p j, m.Live id p j ∧ j.job.slurmId = slurmId

theorem wf_empty : empty.WF where
  engaged h := by cases h
  ownId h := by cases h.1
  index h := by
    rw [show empty.slurmToScord = ∅ from rfl, AList.lookup_empty] at h
    cases h

variable {m : JobManager} {id : JobId}

/-- Drawing an id changes neither the jobs nor the index. -/
theorem WF.fetchId (h : m.WF) : m.fetchId.1.WF := ⟨h.engaged, h.ownId, h.index⟩

/-- The jobs after a creation under a free id: the old ones, and the new one. -/
theorem live_createLocked (hfree : m.jobs.find? id = none) {slurmId : SlurmJobId}
    {res : JobResources} {req : JobRequirements} {ptr : Option AdhocPtr} {id' : JobId}
    {p : JobPtr} {j : JobMetadata} :
    (m.createLocked id slurmId res req ptr).1.Live id' p j ↔
      m.Live id' p j ∨
        (id' = id ∧ p = m.jobs.next ∧ j = JobMetadata.make ⟨id, slurmId⟩ res req ptr) := by
  rw [createLocked_of_free hfree]
  simp only [Live, Registry.find?_emplace, Registry.get?_emplace, hfree, Option.getD_none]
  by_cases hid : id' = id
  · subst hid
    rw [if_pos rfl, hfree]
    simp only [Option.some.injEq, reduceCtorEq, false_and, false_or, true_and]
    refine ⟨?_, ?_⟩
    · rintro ⟨rfl, hj⟩
      rw [if_pos rfl, Option.some.injEq] at hj
      exact ⟨rfl, hj.symm⟩
    · rintro ⟨rfl, rfl⟩
      exact ⟨rfl, if_pos rfl⟩
  · simp only [hid, if_false, false_and, or_false]
    refine and_congr_right fun hp => ?_
    -- an object that is registered is not at the address of the new one
    obtain ⟨j', hj'⟩ := live_of_find? hp
    rw [if_neg (Registry.ne_next_of_get? hj'.2)]

theorem WF.createLocked (h : m.WF) (slurmId : SlurmJobId) (res : JobResources)
    (req : JobRequirements) (ptr : Option AdhocPtr) :
    (m.createLocked id slurmId res req ptr).1.WF := by
  cases hfree : m.jobs.find? id with
  | some p =>
      rw [createLocked_of_taken hfree]
      exact h
  | none =>
      refine ⟨?_, ?_, ?_⟩
      · intro p j hj
        rw [createLocked_of_free hfree] at hj
        simp only [Registry.get?_emplace] at hj
        by_cases hp : p = m.jobs.next
        · rw [if_pos hp, Option.some.injEq] at hj
          subst hj
          exact ⟨rfl, rfl⟩
        · rw [if_neg hp] at hj
          exact h.engaged hj
      · intro id' p j hlive
        rcases (live_createLocked hfree).mp hlive with hold | ⟨rfl, -, rfl⟩
        · exact h.ownId hold
        · rfl
      · intro s id' hs
        rw [createLocked_of_free hfree, UMap.lookup_emplace] at hs
        by_cases hss : s = slurmId
        · subst hss
          rw [if_pos rfl, Option.some.injEq] at hs
          cases hl : m.slurmToScord.lookup s with
          | some id₀ =>
              -- `emplace` kept the entry of another job
              rw [hl, Option.getD_some] at hs
              subst hs
              obtain ⟨p, j, hlive, hj⟩ := h.index hl
              exact ⟨p, j, (live_createLocked hfree).mpr (.inl hlive), hj⟩
          | none =>
              rw [hl, Option.getD_none] at hs
              subst hs
              exact ⟨_, _, (live_createLocked hfree).mpr (.inr ⟨rfl, rfl, rfl⟩), rfl⟩
        · rw [if_neg hss] at hs
          obtain ⟨p, j, hlive, hj⟩ := h.index hs
          exact ⟨p, j, (live_createLocked hfree).mpr (.inl hlive), hj⟩

theorem WF.create (h : m.WF) (slurmId : SlurmJobId) (res : JobResources)
    (req : JobRequirements) (ptr : Option AdhocPtr) :
    (m.create slurmId res req ptr).1.WF :=
  h.fetchId.createLocked slurmId res req ptr

/-- An object after an update in place is an object before it, with the same
    job, requirements and adhoc storage. -/
theorem get?_modify_update {p q : JobPtr} {res : JobResources} {j : JobMetadata}
    (h : (m.jobs.modify q fun j => j.update res).get? p = some j) :
    ∃ j₀, m.jobs.get? p = some j₀ ∧ (j = j₀ ∨ p = q ∧ j = j₀.update res) := by
  rw [Registry.get?_modify] at h
  by_cases hp : p = q
  · rw [if_pos hp] at h
    obtain ⟨j₀, hj₀, rfl⟩ := Option.map_eq_some_iff.mp h
    exact ⟨j₀, hj₀, .inr ⟨hp, rfl⟩⟩
  · rw [if_neg hp] at h
    exact ⟨j, h, .inl rfl⟩

/-- The jobs before an update in place are there after it. -/
theorem get?_modify_of_get? {p : JobPtr} (q : JobPtr) (res : JobResources) {j : JobMetadata}
    (h : m.jobs.get? p = some j) :
    ∃ j', (m.jobs.modify q fun j => j.update res).get? p = some j' ∧
      (j' = j ∨ j' = j.update res) := by
  rw [Registry.get?_modify]
  by_cases hp : p = q
  · rw [if_pos hp, h]
    exact ⟨j.update res, rfl, .inr rfl⟩
  · rw [if_neg hp]
    exact ⟨j, h, .inl rfl⟩

theorem WF.modify (h : m.WF) (q : JobPtr) (res : JobResources) :
    JobManager.WF { m with jobs := m.jobs.modify q fun j => j.update res } := by
  refine ⟨?_, ?_, ?_⟩
  · intro p j hj
    obtain ⟨j₀, hj₀, rfl | ⟨-, rfl⟩⟩ := get?_modify_update hj
    · exact h.engaged hj₀
    · exact ⟨rfl, (h.engaged hj₀).2⟩
  · rintro id p j ⟨hfind, hj⟩
    obtain ⟨j₀, hj₀, rfl | ⟨-, rfl⟩⟩ := get?_modify_update hj
    · exact h.ownId ⟨hfind, hj₀⟩
    · exact h.ownId (j := j₀) ⟨hfind, hj₀⟩
  · intro s id hs
    obtain ⟨p, j, hlive, hj⟩ := h.index hs
    obtain ⟨j', hj', rfl | rfl⟩ := get?_modify_of_get? q res hlive.2
    · exact ⟨p, j', ⟨hlive.1, hj'⟩, hj⟩
    · exact ⟨p, _, ⟨hlive.1, hj'⟩, hj⟩

theorem WF.update (h : m.WF) (res : JobResources) : (m.update id res).1.WF := by
  cases hfind : m.jobs.find? id with
  | none =>
      rw [update_of_none hfind]
      exact h
  | some p =>
      rw [update_of_find? hfind]
      exact h.modify p res

/-- The jobs after a removal: all but the removed one. -/
theorem live_remove {p : JobPtr} {j : JobMetadata} (hlive : m.Live id p j) {id' : JobId}
    {q : JobPtr} {k : JobMetadata} :
    (m.remove id).1.Live id' q k ↔ id' ≠ id ∧ m.Live id' q k := by
  rw [remove_of_live hlive]
  simp only [Live, Registry.find?_erase, Registry.get?_erase]
  by_cases hid : id' = id
  · simp [hid]
  · simp [hid]

theorem lookup_remove {p : JobPtr} {j : JobMetadata} (hlive : m.Live id p j)
    (slurmId : SlurmJobId) :
    (m.remove id).1.slurmToScord.lookup slurmId
      = if slurmId = j.job.slurmId then none else m.slurmToScord.lookup slurmId := by
  rw [remove_of_live hlive]
  exact UMap.lookup_erase' m.slurmToScord j.job.slurmId slurmId

theorem get?_remove (m : JobManager) (id : JobId) (p : JobPtr) :
    (m.remove id).1.jobs.get? p = m.jobs.get? p := by
  cases hfind : m.jobs.find? id with
  | none => rw [remove_of_none hfind]
  | some q =>
      obtain ⟨j, hlive⟩ := live_of_find? hfind
      rw [remove_of_live hlive]
      rfl

theorem WF.remove (h : m.WF) : (m.remove id).1.WF := by
  cases hfind : m.jobs.find? id with
  | none =>
      rw [remove_of_none hfind]
      exact h
  | some p =>
      obtain ⟨j, hlive⟩ := live_of_find? hfind
      refine ⟨?_, ?_, ?_⟩
      · intro q k hk
        rw [get?_remove] at hk
        exact h.engaged hk
      · intro id' q k hk
        exact h.ownId ((live_remove hlive).mp hk).2
      · intro s id' hs
        rw [lookup_remove hlive] at hs
        by_cases hss : s = j.job.slurmId
        · rw [if_pos hss] at hs
          cases hs
        · rw [if_neg hss] at hs
          obtain ⟨q, k, hk, hks⟩ := h.index hs
          refine ⟨q, k, (live_remove hlive).mpr ⟨?_, hk⟩, hks⟩
          -- the removed job has the slurm id of the erased entry, `id'` another
          rintro rfl
          obtain rfl : q = p := Option.some.inj (hk.1.symm.trans hlive.1)
          obtain rfl : k = j := Option.some.inj (hk.2.symm.trans hlive.2)
          exact hss hks.symm

end JobManager

/-! ## The server -/

namespace Server

variable {H : Type}

/-- The invariant of the server. -/
structure WF (s : Server H) : Prop where
  jobs : s.jobManager.WF
  adhocPtr : ∀ {p j ap}, s.jobManager.jobs.get? p = some j → j.adhocMetadataPtr = some ap →
    ∃ a, s.adhocManager.get? ap = some a
  clientPtr : ∀ {ap a p}, s.adhocManager.get? ap = some a → a.clientInfo = some p →
    ∃ j, s.jobManager.jobs.get? p = some j

theorem wf_init (redis : Bool) : (init redis : Server H).WF where
  jobs := JobManager.wf_empty
  adhocPtr h := by cases h
  clientPtr h := by cases h

/-- The invariant is about the job and the adhoc storage managers only. -/
theorem WF.of_managers {s s' : Server H} (h : s.WF) (jm : s'.jobManager = s.jobManager)
    (am : s'.adhocManager = s.adhocManager) : s'.WF := by
  refine ⟨?_, ?_, ?_⟩
  · rw [jm]
    exact h.jobs
  · rw [jm, am]
    exact h.adhocPtr
  · rw [jm, am]
    exact h.clientPtr

/-- A job without an adhoc requirement gets no pointer, the others the pointer
    that is registered under the id they name. -/
theorem requiredAdhoc_eq_ok {s : Server H} {req : JobRequirements} {ptr : Option AdhocPtr} :
    s.requiredAdhoc req = .ok ptr ↔
      (req.adhocStorage = none ∧ ptr = none) ∨
        ∃ required p, req.adhocStorage = some required ∧
          s.adhocManager.find? required.id = some p ∧ ptr = some p := by
  unfold requiredAdhoc
  cases req.adhocStorage with
  | none => simp [eq_comm]
  | some required =>
      cases hfind : s.adhocManager.find? required.id with
      | none => simp [AdhocStorageManager.find_of_none hfind, hfind]
      | some p => simp [AdhocStorageManager.find_of_find? hfind, hfind, eq_comm]

/-- The lookup fails with one code only. -/
theorem requiredAdhoc_eq_error {s : Server H} {req : JobRequirements} {ec : ErrorCode}
    (h : s.requiredAdhoc req = .error ec) : ec = .noSuchEntity := by
  unfold requiredAdhoc at h
  cases hstorage : req.adhocStorage with
  | none =>
      rw [hstorage] at h
      cases h
  | some required =>
      rw [hstorage] at h
      cases hfind : s.adhocManager.find? required.id with
      | none =>
          simp only [AdhocStorageManager.find_of_none hfind, Except.error.injEq] at h
          exact h.symm
      | some p =>
          simp only [AdhocStorageManager.find_of_find? hfind] at h
          cases h

theorem adhocAt_requiredAdhoc {s : Server H} {req : JobRequirements} {ap : AdhocPtr}
    (h : s.requiredAdhoc req = .ok (some ap)) : ∃ a, s.adhocManager.get? ap = some a := by
  rcases requiredAdhoc_eq_ok.mp h with ⟨-, h'⟩ | ⟨required, p, -, hfind, h'⟩
  · cases h'
  · cases h'
    exact ⟨_, Registry.get?_eq_deref hfind⟩

/-! ### Adhoc storages before and after a request -/

theorem get?_bindClient (am : AdhocStorageManager) (ptr : Option AdhocPtr) (p : JobPtr)
    (ap : AdhocPtr) :
    (bindClient am ptr p).get? ap
      = if ptr = some ap then (am.get? ap).map fun a => (a.addClientInfo p).1
        else am.get? ap := by
  unfold bindClient
  cases ptr with
  | none => rfl
  | some ap₀ =>
      simp only [Registry.get?_modify, Option.some.injEq, eq_comm]

@[simp] theorem find?_bindClient (am : AdhocStorageManager) (ptr : Option AdhocPtr) (p : JobPtr)
    (id : AdhocId) : (bindClient am ptr p).find? id = am.find? id := by
  unfold bindClient
  cases ptr <;> rfl

@[simp] theorem find?_releaseClient (am : AdhocStorageManager) (required : Option AdhocStorage)
    (id : AdhocId) : (releaseClient am required).find? id = am.find? id := by
  unfold releaseClient
  cases required with
  | none => rfl
  | some r =>
      rcases Option.eq_none_or_eq_some (am.find? r.id) with hfind | ⟨q, hfind⟩
      · simp only [AdhocStorageManager.removeClientInfo_of_none hfind]
      · simp only [AdhocStorageManager.removeClientInfo_of_find? hfind, Registry.find?_modify]

/-- The slot that the removal of a job empties: the one of the storage that is
    registered under the id the job named. -/
theorem get?_releaseClient (am : AdhocStorageManager) (required : Option AdhocStorage)
    (ap : AdhocPtr) :
    (releaseClient am required).get? ap
      = if (required.bind fun r => am.find? r.id) = some ap
        then (am.get? ap).map AdhocStorageMetadata.removeClientInfo else am.get? ap := by
  unfold releaseClient
  cases required with
  | none => rfl
  | some r =>
      rcases Option.eq_none_or_eq_some (am.find? r.id) with hfind | ⟨q, hfind⟩
      · simp only [AdhocStorageManager.removeClientInfo_of_none hfind, Option.bind_some, hfind,
          reduceCtorEq, if_false]
      · simp only [AdhocStorageManager.removeClientInfo_of_find? hfind, Option.bind_some, hfind,
          Registry.get?_modify, Option.some.injEq, eq_comm]

/-- No request takes an adhoc storage object away, or changes its identity. -/
theorem Effect.adhoc_identity {env : Env H} {r : Request} {s s' : Server H}
    (h : Effect env r s s') {ap : AdhocPtr}
    {a : AdhocStorageMetadata} (ha : s.adhocManager.get? ap = some a) :
    ∃ a', s'.adhocManager.get? ap = some a' ∧ a'.SameIdentity a := by
  cases h with
  | unchanged _ am _ => exact ⟨a, am ▸ ha, .refl a⟩
  | jobIdSpent _ am _ => exact ⟨a, am ▸ ha, .refl a⟩
  | jobCreated slurmId res req ptr _ _ _ _ am _ =>
      rw [am, get?_bindClient, ha]
      split
      · exact ⟨_, rfl, .addClientInfo a _⟩
      · exact ⟨a, rfl, .refl a⟩
  | jobUpdated _ _ _ _ _ _ am _ => exact ⟨a, am ▸ ha, .refl a⟩
  | jobRemoved _ _ _ _ _ _ am _ =>
      rw [am, get?_releaseClient, ha]
      split
      · exact ⟨_, rfl, .removeClientInfo a⟩
      · exact ⟨a, rfl, .refl a⟩
  | adhocIdSpent _ am _ => exact ⟨a, am ▸ ha, .refl a⟩
  | adhocCreated _ _ _ _ _ _ _ am _ =>
      rw [am]
      exact ⟨a, Registry.get?_emplace_of_get? (r := s.adhocManager.fetchId.1) ha, .refl a⟩
  | adhocUpdated _ p res _ _ _ am _ =>
      rw [am, Registry.get?_modify, ha]
      split
      · exact ⟨_, rfl, .update a res⟩
      · exact ⟨a, rfl, .refl a⟩
  | adhocRemoved _ _ _ am _ => exact ⟨a, am ▸ ha, .refl a⟩
  | transferIdSpent _ am _ => exact ⟨a, am ▸ ha, .refl a⟩
  | transferCreated _ _ _ _ _ _ _ _ _ _ _ _ am _ => exact ⟨a, am ▸ ha, .refl a⟩

theorem Effect.adhoc_kept {env : Env H} {r : Request} {s s' : Server H}
    (h : Effect env r s s') {ap : AdhocPtr}
    {a : AdhocStorageMetadata} (ha : s.adhocManager.get? ap = some a) :
    ∃ a', s'.adhocManager.get? ap = some a' := by
  obtain ⟨a', ha', -⟩ := h.adhoc_identity ha
  exact ⟨a', ha'⟩

/-- Where a registered adhoc storage comes from: it was registered before the
    request, or the request registered it. -/
theorem Effect.registered_origin {env : Env H} {r : Request} {s s' : Server H}
    (h : Effect env r s s') {id : AdhocId} {ap : AdhocPtr}
    (hfind : s'.adhocManager.find? id = some ap) :
    s.adhocManager.find? id = some ap ∨
      (id = s.adhocManager.currentId ∧ ap = s.adhocManager.next ∧
        ∃ name type ctx res, r = .registerAdhocStorage name type ctx res ∧
          s'.adhocManager.get? ap
            = some (AdhocStorageMetadata.make (generateAdhocUuid type env.randomString)
              ⟨type, name, id, ctx, res⟩)) := by
  cases h with
  | unchanged _ am _ => exact .inl (am ▸ hfind)
  | jobIdSpent _ am _ => exact .inl (am ▸ hfind)
  | jobCreated slurmId res req ptr _ _ _ _ am _ =>
      rw [am, find?_bindClient] at hfind
      exact .inl hfind
  | jobUpdated _ _ _ _ _ _ am _ => exact .inl (am ▸ hfind)
  | jobRemoved _ _ _ _ _ _ am _ =>
      rw [am, find?_releaseClient] at hfind
      exact .inl hfind
  | adhocIdSpent _ am _ =>
      rw [am] at hfind
      exact .inl hfind
  | adhocCreated name type ctx res request free _ am _ =>
      rw [am, Registry.find?_emplace, Registry.find?_fetchId, free, Option.getD_none] at hfind
      split at hfind
      case isTrue hid =>
        subst hid
        obtain rfl := Option.some.inj hfind
        refine .inr ⟨rfl, rfl, name, type, ctx, res, request, ?_⟩
        rw [am]
        exact Registry.get?_emplace_next ..
      case isFalse => exact .inl hfind
  | adhocUpdated _ _ _ _ _ _ am _ =>
      rw [am] at hfind
      exact .inl hfind
  | adhocRemoved _ _ _ am _ =>
      rw [am, Registry.find?_erase] at hfind
      exact .inl (Option.ite_none_left_eq_some.mp hfind).2
  | transferIdSpent _ am _ => exact .inl (am ▸ hfind)
  | transferCreated _ _ _ _ _ _ _ _ _ _ _ _ am _ => exact .inl (am ▸ hfind)

/-- Where the client of a storage comes from: it was there before the request,
    or the request created it as a job for that storage. -/
theorem Effect.client_origin {env : Env H} {r : Request} {s s' : Server H}
    (h : Effect env r s s') {ap : AdhocPtr}
    {a' : AdhocStorageMetadata} {p : JobPtr} (ha' : s'.adhocManager.get? ap = some a')
    (hp : a'.clientInfo = some p) :
    (∃ a, s.adhocManager.get? ap = some a ∧ a.clientInfo = some p) ∨
      (p = s.jobManager.jobs.next ∧ ∃ j, s'.jobManager.jobs.get? p = some j) := by
  cases h with
  | unchanged _ am _ => exact .inl ⟨a', am ▸ ha', hp⟩
  | jobIdSpent _ am _ => exact .inl ⟨a', am ▸ ha', hp⟩
  | jobCreated slurmId res req ptr _ free _ jm am _ =>
      rw [am, get?_bindClient] at ha'
      split at ha'
      · obtain ⟨a, ha, rfl⟩ := Option.map_eq_some_iff.mp ha'
        rw [AdhocStorageMetadata.addClientInfo_clientInfo, Option.some.injEq] at hp
        cases hc : a.clientInfo with
        | some q =>
            -- the slot was taken: `add_client_info` kept its client
            rw [hc, Option.getD_some] at hp
            exact .inl ⟨a, ha, hp ▸ hc⟩
        | none =>
            rw [hc, Option.getD_none] at hp
            subst hp
            refine .inr ⟨rfl, ?_⟩
            rw [jm, JobManager.create_of_free free]
            exact ⟨_, Registry.get?_emplace_next ..⟩
      · exact .inl ⟨a', ha', hp⟩
  | jobUpdated _ _ _ _ _ _ am _ => exact .inl ⟨a', am ▸ ha', hp⟩
  | jobRemoved _ _ _ _ _ _ am _ =>
      rw [am, get?_releaseClient] at ha'
      split at ha'
      · -- the slot was emptied
        obtain ⟨a, -, rfl⟩ := Option.map_eq_some_iff.mp ha'
        cases hp
      · exact .inl ⟨a', ha', hp⟩
  | adhocIdSpent _ am _ =>
      rw [am] at ha'
      exact .inl ⟨a', ha', hp⟩
  | adhocCreated _ _ _ _ _ _ _ am _ =>
      rw [am, Registry.get?_emplace] at ha'
      split at ha'
      · -- a new storage has no client
        cases ha'
        cases hp
      · exact .inl ⟨a', ha', hp⟩
  | adhocUpdated _ q res _ _ _ am _ =>
      rw [am, Registry.get?_modify] at ha'
      split at ha'
      · obtain ⟨a, ha, rfl⟩ := Option.map_eq_some_iff.mp ha'
        exact .inl ⟨a, ha, hp⟩
      · exact .inl ⟨a', ha', hp⟩
  | adhocRemoved _ _ _ am _ =>
      rw [am] at ha'
      exact .inl ⟨a', ha', hp⟩
  | transferIdSpent _ am _ => exact .inl ⟨a', am ▸ ha', hp⟩
  | transferCreated _ _ _ _ _ _ _ _ _ _ _ _ am _ => exact .inl ⟨a', am ▸ ha', hp⟩

/-! ### Jobs before and after a request -/

/-- Where a job comes from: it was there before the request, perhaps with other
    resources, or the request created it. -/
theorem Effect.job_origin {env : Env H} {r : Request} {s s' : Server H}
    (h : Effect env r s s') {p : JobPtr} {j' : JobMetadata}
    (hj' : s'.jobManager.jobs.get? p = some j') :
    (∃ j, s.jobManager.jobs.get? p = some j ∧ j'.job = j.job ∧
        j'.requirements = j.requirements ∧ j'.adhocMetadataPtr = j.adhocMetadataPtr) ∨
      (p = s.jobManager.jobs.next ∧
        ∃ slurmId res req ptr, s.requiredAdhoc req = .ok ptr ∧
          j' = JobMetadata.make ⟨s.jobManager.jobs.currentId, slurmId⟩ res req ptr) := by
  cases h with
  | unchanged jm _ _ => exact .inl ⟨j', jm ▸ hj', rfl, rfl, rfl⟩
  | jobIdSpent jm _ _ =>
      rw [jm] at hj'
      exact .inl ⟨j', hj', rfl, rfl, rfl⟩
  | jobCreated slurmId res req ptr _ free required jm _ _ =>
      rw [jm, JobManager.create_of_free free, Registry.get?_emplace] at hj'
      split at hj'
      case isTrue hnew =>
        cases hj'
        exact .inr ⟨hnew, slurmId, res, req, ptr, required, rfl⟩
      case isFalse => exact .inl ⟨j', hj', rfl, rfl, rfl⟩
  | jobUpdated _ q res _ _ jm _ _ =>
      rw [jm] at hj'
      obtain ⟨j, hj, rfl | ⟨-, rfl⟩⟩ := JobManager.get?_modify_update hj'
      · exact .inl ⟨j', hj, rfl, rfl, rfl⟩
      · exact .inl ⟨j, hj, rfl, rfl, rfl⟩
  | jobRemoved id _ _ _ _ jm _ _ =>
      rw [jm, JobManager.get?_remove] at hj'
      exact .inl ⟨j', hj', rfl, rfl, rfl⟩
  | adhocIdSpent jm _ _ => exact .inl ⟨j', jm ▸ hj', rfl, rfl, rfl⟩
  | adhocCreated _ _ _ _ _ _ jm _ _ => exact .inl ⟨j', jm ▸ hj', rfl, rfl, rfl⟩
  | adhocUpdated _ _ _ _ _ jm _ _ => exact .inl ⟨j', jm ▸ hj', rfl, rfl, rfl⟩
  | adhocRemoved _ _ jm _ _ => exact .inl ⟨j', jm ▸ hj', rfl, rfl, rfl⟩
  | transferIdSpent jm _ _ => exact .inl ⟨j', jm ▸ hj', rfl, rfl, rfl⟩
  | transferCreated _ _ _ _ _ _ _ _ _ _ _ jm _ _ => exact .inl ⟨j', jm ▸ hj', rfl, rfl, rfl⟩

/-- No request takes a job object away, or changes the storage it is bound to. -/
theorem Effect.job_kept {env : Env H} {r : Request} {s s' : Server H}
    (h : Effect env r s s') {p : JobPtr} {j : JobMetadata}
    (hj : s.jobManager.jobs.get? p = some j) :
    ∃ j', s'.jobManager.jobs.get? p = some j' ∧ j'.job = j.job ∧
      j'.requirements = j.requirements ∧ j'.adhocMetadataPtr = j.adhocMetadataPtr := by
  cases h with
  | unchanged jm _ _ => exact ⟨j, jm ▸ hj, rfl, rfl, rfl⟩
  | jobIdSpent jm _ _ => exact ⟨j, jm ▸ hj, rfl, rfl, rfl⟩
  | jobCreated slurmId res req ptr _ free _ jm _ _ =>
      rw [jm, JobManager.create_of_free free]
      exact ⟨j, Registry.get?_emplace_of_get? (r := s.jobManager.jobs.fetchId.1) hj, rfl, rfl, rfl⟩
  | jobUpdated _ q res _ _ jm _ _ =>
      rw [jm]
      obtain ⟨j', hj', rfl | rfl⟩ := JobManager.get?_modify_of_get? q res hj
      · exact ⟨j', hj', rfl, rfl, rfl⟩
      · exact ⟨_, hj', rfl, rfl, rfl⟩
  | jobRemoved id _ _ _ _ jm _ _ =>
      rw [jm]
      exact ⟨j, (JobManager.get?_remove s.jobManager id p).trans hj, rfl, rfl, rfl⟩
  | adhocIdSpent jm _ _ => exact ⟨j, jm ▸ hj, rfl, rfl, rfl⟩
  | adhocCreated _ _ _ _ _ _ jm _ _ => exact ⟨j, jm ▸ hj, rfl, rfl, rfl⟩
  | adhocUpdated _ _ _ _ _ jm _ _ => exact ⟨j, jm ▸ hj, rfl, rfl, rfl⟩
  | adhocRemoved _ _ jm _ _ => exact ⟨j, jm ▸ hj, rfl, rfl, rfl⟩
  | transferIdSpent jm _ _ => exact ⟨j, jm ▸ hj, rfl, rfl, rfl⟩
  | transferCreated _ _ _ _ _ _ _ _ _ _ _ jm _ _ => exact ⟨j, jm ▸ hj, rfl, rfl, rfl⟩

/-! ### The invariant over runs -/

theorem Effect.jobs_wf {env : Env H} {r : Request} {s s' : Server H}
    (h : Effect env r s s') (hwf : s.jobManager.WF) :
    s'.jobManager.WF := by
  cases h with
  | unchanged jm _ _ => exact jm ▸ hwf
  | jobIdSpent jm _ _ => exact jm ▸ hwf.fetchId
  | jobCreated slurmId res req ptr _ _ _ jm _ _ => exact jm ▸ hwf.create slurmId res req ptr
  | jobUpdated _ p res _ _ jm _ _ => exact jm ▸ hwf.modify p res
  | jobRemoved _ _ _ _ _ jm _ _ => exact jm ▸ hwf.remove
  | adhocIdSpent jm _ _ => exact jm ▸ hwf
  | adhocCreated _ _ _ _ _ _ jm _ _ => exact jm ▸ hwf
  | adhocUpdated _ _ _ _ _ jm _ _ => exact jm ▸ hwf
  | adhocRemoved _ _ jm _ _ => exact jm ▸ hwf
  | transferIdSpent jm _ _ => exact jm ▸ hwf
  | transferCreated _ _ _ _ _ _ _ _ _ _ _ jm _ _ => exact jm ▸ hwf

theorem Effect.wf {env : Env H} {r : Request} {s s' : Server H}
    (h : Effect env r s s') (hwf : s.WF) : s'.WF := by
  refine ⟨h.jobs_wf hwf.jobs, ?_, ?_⟩
  · intro p j' ap hj' hap
    rcases h.job_origin hj' with ⟨j, hj, -, -, hptr⟩ | ⟨-, slurmId, res, req, ptr, hreq, rfl⟩
    · obtain ⟨a, ha⟩ := hwf.adhocPtr hj (hptr ▸ hap)
      exact h.adhoc_kept ha
    · -- the pointer of a new job was looked up in the same request
      obtain rfl : ptr = some ap := hap
      obtain ⟨a, ha⟩ := adhocAt_requiredAdhoc hreq
      exact h.adhoc_kept ha
  · intro ap a' p ha' hp
    rcases h.client_origin ha' hp with ⟨a, ha, hp⟩ | ⟨-, hj⟩
    · obtain ⟨j, hj⟩ := hwf.clientPtr ha hp
      obtain ⟨j', hj', -⟩ := h.job_kept hj
      exact ⟨j', hj'⟩
    · exact hj

theorem wf_step {s s' : Server H} {e : Env H × Request} (hwf : s.WF)
    (h : s.step e = some s') : s'.WF :=
  (step_effect h).wf hwf

/-- **The invariant holds in every reachable state.** -/
theorem wf_of_reachable {redis : Bool} {s : Server H}
    (h : Reachable step (init redis) s) : s.WF :=
  h.invariant (wf_init redis) fun _ _ _ hwf hs => wf_step hwf hs

end Server

end Scord
