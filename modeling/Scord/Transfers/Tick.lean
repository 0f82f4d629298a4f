/-
  Scord.Transfers.Tick

  One tick of the scheduler (`scheduler_update`): the signals that it sends to
  Cargo, and the table of transfers that it leaves behind.

  A tick copies the table under the lock, visits the entries of the copy, and
  removes by their ids those that Cargo is done with after it has released the
  lock.  Calls of `transfer_manager::create` come in between: the id is drawn at
  any time, the entry is made while the lock is free.
-/
import Mathlib.Tactic.Linarith
import Scord.Transfers.Preservation

namespace Scord

open FloatArith ObjectStore StepSystem

/-! ## The signal for a running transfer -/

namespace Scheduler

/-- A controller that pushes the bandwidth towards the limit: it slows down what
    is above the limit by more than the threshold, and speeds up what is below it
    by more than the threshold. -/
structure PushesTowards (qos : UInt64) (bw : Rat) (signal : Option Int) : Prop where
  slowDown : signal = some 1 ↔ bw - bw * threshold > qos.toNat
  speedUp : signal = some (-1) ↔ bw + bw * threshold < qos.toNat
  quiet : ¬ bw - bw * threshold > qos.toNat → ¬ bw + bw * threshold < qos.toNat → signal = none
  notSlowed : bw < qos.toNat → signal ≠ some 1

/-- The limit is outside of the band around the bandwidth, or both are zero. -/
def OutsideBand (qos : UInt64) (bw : Rat) : Prop :=
  (qos.toNat : Rat) < bw - bw * threshold ∨ bw + bw * threshold < qos.toNat ∨
    bw = 0 ∧ qos = 0

/-- The signal that is sent on a visit of a running transfer. -/
theorem visit_signal {H : Type} {round : Rounding} {tm : TransferManager H}
    {status : CargoStatus} {p : TransferPtr H} {t : TransferMetadata H}
    (hget : tm.get? p = some t) (hrunning : status.state = .running) :
    (visit round tm status p).2.2 = runningSignal round (t.update status.bw) := by
  have hmodified : (tm.modify p fun t => t.update status.bw).get? p
      = some (t.update status.bw) := by
    rw [Registry.get?_modify, if_pos rfl, hget, Option.map_some]
  unfold visit
  rw [hrunning]
  simp only [hmodified, Option.bind_some]

/-- With a limit and a bandwidth that was measured, the controller decides. -/
theorem runningSignal_of_limit {H : Type} {round : Rounding} {t : TransferMetadata H}
    {limit : QosLimit} {limits : List QosLimit} (hqos : t.qos = limit :: limits)
    (hbw : t.measuredBandwidth ≠ -1) :
    runningSignal round t = controlSignal round t.measuredBandwidth limit.value := by
  unfold runningSignal
  rw [hqos]
  simp only [if_neg hbw]

section Controller

variable {qos : UInt64} {bw : Rat}

/-- Over exact numbers the comparisons are those of the numbers. -/
theorem aboveQos_exact :
    aboveQos exact (.finite bw) qos = true ↔ (qos.toNat : Rat) < bw + bw * threshold := by
  simp [aboveQos, Value.exact_eq]

theorem belowQos_exact :
    belowQos exact (.finite bw) qos = true ↔ bw - bw * threshold < qos.toNat := by
  simp [belowQos, Value.exact_eq]

/-- The band is around the bandwidth. -/
theorem tolerance_nonneg (hbw : 0 ≤ bw) : 0 ≤ bw * threshold :=
  mul_nonneg hbw (by decide +kernel)

/-- Slowing down is right above the band, -/
theorem pushesTowards_slow_iff (hbw : 0 ≤ bw) :
    PushesTowards qos bw (some 1) ↔ (qos.toNat : Rat) < bw - bw * threshold := by
  refine ⟨fun hp => hp.slowDown.mp rfl, fun habove => ⟨⟨fun _ => habove, fun _ => rfl⟩, ?_, ?_, ?_⟩⟩
  · have hband := tolerance_nonneg hbw
    exact iff_of_false (by decide) (by linarith)
  · exact fun hnot => absurd habove hnot
  · intro hlt
    have hband := tolerance_nonneg hbw
    linarith

/-- and speeding up is right below it. -/
theorem pushesTowards_fast_iff (hbw : 0 ≤ bw) :
    PushesTowards qos bw (some (-1)) ↔ bw + bw * threshold < qos.toNat := by
  refine ⟨fun hp => hp.speedUp.mp rfl, fun hbelow => ⟨?_, ⟨fun _ => hbelow, fun _ => rfl⟩, ?_, ?_⟩⟩
  · have hband := tolerance_nonneg hbw
    exact iff_of_false (by decide) (by linarith)
  · exact fun _ hnot => absurd hbelow hnot
  · exact fun _ => by decide

/-- The comparisons have the tolerance with the wrong sign: what is inside the
    band is slowed down. -/
theorem controlSignal_pushesTowards_iff (hbw : 0 ≤ bw) :
    PushesTowards qos bw (controlSignal exact (.finite bw) qos) ↔ OutsideBand qos bw := by
  have hzero : qos = 0 ↔ (qos.toNat : Rat) = 0 := by
    rw [Nat.cast_eq_zero, ← UInt64.toNat_inj]
    rfl
  have hqos : (0 : Rat) ≤ qos.toNat := Nat.cast_nonneg _
  have hband := tolerance_nonneg hbw
  unfold OutsideBand controlSignal
  simp only [hzero, aboveQos_exact, belowQos_exact]
  by_cases hslow : (qos.toNat : Rat) < bw + bw * threshold
  · rw [if_pos hslow, pushesTowards_slow_iff hbw]
    refine ⟨Or.inl, ?_⟩
    rintro (habove | hbelow | ⟨hbw0, hqos0⟩)
    · exact habove
    · linarith
    · rw [hbw0, hqos0] at hslow
      simp at hslow
  · rw [if_neg hslow]
    by_cases hfast : bw - bw * threshold < qos.toNat
    · rw [if_pos hfast, pushesTowards_fast_iff hbw]
      refine ⟨fun hbelow => Or.inr (Or.inl hbelow), ?_⟩
      rintro (habove | hbelow | ⟨hbw0, hqos0⟩)
      · linarith
      · exact hbelow
      · rw [hbw0, hqos0] at hfast
        simp at hfast
    · rw [if_neg hfast]
      -- neither comparison holds: then nothing is measured, and the limit is zero
      have hnone : bw * threshold = 0 := by linarith
      have hbw0 : bw = 0 := (mul_eq_zero.mp hnone).resolve_right (by decide +kernel)
      have hqos0 : (qos.toNat : Rat) = 0 := by linarith
      refine iff_of_true ⟨?_, ?_, fun _ _ => rfl, fun _ => by decide⟩ (by simp [hbw0, hqos0])
      · exact iff_of_false (by decide) (by simp [hbw0, hqos0])
      · exact iff_of_false (by decide) (by simp [hbw0, hqos0])

end Controller

/-- **The controller pushes the bandwidth towards the limit exactly when the limit
    is outside of the band around the bandwidth**, over exact numbers. -/
theorem visit_pushesTowards_iff {H : Type} {tm : TransferManager H} {status : CargoStatus}
    {p : TransferPtr H} {t : TransferMetadata H} {limit : QosLimit} {limits : List QosLimit}
    {bw : Rat} (hget : tm.get? p = some t) (hqos : t.qos = limit :: limits)
    (hrunning : status.state = .running) (hstatus : status.bw = .finite bw) (hbw : 0 ≤ bw) :
    PushesTowards limit.value bw (visit exact tm status p).2.2 ↔ OutsideBand limit.value bw := by
  have hmeasured : (t.update status.bw).measuredBandwidth ≠ -1 := by
    show status.bw ≠ -1
    rw [hstatus]
    intro h
    rw [Value.finite.inj h] at hbw
    exact absurd hbw (by decide)
  have hlimit : (t.update status.bw).qos = limit :: limits := hqos
  rw [visit_signal hget hrunning, runningSignal_of_limit hlimit hmeasured]
  show PushesTowards limit.value bw (controlSignal exact status.bw limit.value) ↔ _
  rw [hstatus]
  exact controlSignal_pushesTowards_iff hbw

/-- A table with one transfer that has a limit of 100. -/
def sampleManager : TransferManager Handle :=
  (TransferManager.create Registry.empty 0 [⟨none, .bandwidth, 100⟩]).1

/-- Cargo reports a running transfer with a bandwidth of 200, and it is slowed down. -/
theorem visit_pushesTowards_sample :
    PushesTowards 100 200 (visit exact sampleManager ⟨.running, 200⟩ ⟨0⟩).2.2 :=
  (@visit_pushesTowards_iff Handle sampleManager ⟨.running, 200⟩ ⟨0⟩ _ ⟨none, .bandwidth, 100⟩ []
    200 rfl rfl rfl rfl (by decide)).mpr (Or.inl (by decide +kernel))

/-- With a bandwidth of 95 the transfer is below its limit, and slowed down. -/
theorem not_pushesTowards_below_limit :
    ¬ PushesTowards 100 95 (visit exact sampleManager ⟨.running, 95⟩ ⟨0⟩).2.2 := by
  intro h
  have hsignal : (visit exact sampleManager ⟨.running, 95⟩ ⟨0⟩).2.2 = some 1 := by decide +kernel
  refine h.notSlowed ?_ hsignal
  decide +kernel

end Scheduler

/-! ## A tick and the calls of `create` -/

/-- A transfer that `create` has put into the table. -/
structure Created where
  tx : TransferId
  ptr : TransferPtr Handle
  object : TransferMetadata Handle

/-- A tick since it has taken the lock: the table it has copied, what Cargo
    answers for each transfer, the signals sent, and the transfers created. -/
structure TickRecord where
  before : TransferManager Handle
  answer : TransferId → CargoStatus
  signals : List (TransferId × Int)
  created : List Created

namespace TickRecord

/-- Cargo reports the transfer as pending or running. -/
def unfinished (k : TickRecord) (id : TransferId) : Bool :=
  (k.answer id).state = .pending ∨ (k.answer id).state = .running

/-- Cargo is not done with it. -/
theorem unfinished_eq (k : TickRecord) (id : TransferId) :
    k.unfinished id = !(k.answer id).state.terminal := by
  unfold unfinished
  cases (k.answer id).state <;> rfl

/-- A transfer after it was visited: a running one has the reported bandwidth. -/
def measured (k : TickRecord) (id : TransferId) (t : TransferMetadata Handle) :
    TransferMetadata Handle :=
  if (k.answer id).state = .running then t.update (k.answer id).bw else t

/-- The transfer was there, it is running, and it has limits and a bandwidth. -/
def Limited (k : TickRecord) (id : TransferId) : Prop :=
  ∃ p t, k.before.find? id = some p ∧ k.before.get? p = some t ∧
    (k.answer id).state = .running ∧ t.qos ≠ [] ∧ (k.answer id).bw ≠ -1

end TickRecord

namespace SchedulerState

/-- The entries of the copied table that were not visited yet. -/
def todo : SchedulerState → List (TransferId × TransferPtr Handle)
  | sleeping => []
  | scanning todo _ => todo
  | removing _ => []

/-- The entries that are still to be removed. -/
def vIds : SchedulerState → List TransferId
  | sleeping => []
  | scanning _ vIds => vIds
  | removing vIds => vIds

/-- The lock of the transfer manager is held. -/
def locked : SchedulerState → Bool
  | sleeping => false
  | scanning _ _ => true
  | removing _ => false

end SchedulerState

/-- The transfer manager, its scheduler thread, and the callers of `create` that
    have drawn an id and wait for the lock. -/
structure Ticking where
  manager : TransferManager Handle
  sched : SchedulerState
  drawn : List TransferId
  record : TickRecord

namespace Ticking

/-- No transfers yet. -/
def init : Ticking where
  manager := Registry.empty
  sched := .sleeping
  drawn := []
  record := ⟨Registry.empty, fun _ => ⟨.pending, -1⟩, [], []⟩

inductive Event
  | draw
  /-- the `i`-th of the waiting callers gets the lock -/
  | insert (i : Nat) (tx : Handle) (limits : List QosLimit)
  /-- a tick begins; `answer` is what `status()` will say -/
  | lock (answer : TransferId → CargoStatus)
  | visit (i : Nat)
  | unlock
  | remove

/-- `create`, up to the lock. -/
def draw (s : Ticking) : Ticking :=
  { s with manager := s.manager.fetchId.1, drawn := s.drawn ++ [s.manager.fetchId.2] }

/-- `create`, under the lock and with the drawn id. -/
def createLocked (s : Ticking) (id : TransferId) (tx : Handle) (limits : List QosLimit) :
    Ticking :=
  let t : TransferMetadata Handle := { id := id, handle := tx, qos := limits }
  match createAt s.manager id t with
  | (manager, .ok p) =>
      { s with
        manager := manager
        record := { s.record with created := s.record.created ++ [⟨id, p, t⟩] } }
  | (manager, .error _) => { s with manager := manager }

def insert (s : Ticking) (i : Nat) (tx : Handle) (limits : List QosLimit) : Option Ticking :=
  if s.sched.locked then none
  else
    s.drawn[i]?.map fun id =>
      { s.createLocked id tx limits with drawn := s.drawn.eraseIdx i }

/-- Take the lock and copy the table. -/
def lock (s : Ticking) (answer : TransferId → CargoStatus) : Option Ticking :=
  match s.sched with
  | .sleeping =>
      some { s with
        sched := .scanning (TransferManager.transfer s.manager) []
        record := ⟨s.manager, answer, [], []⟩ }
  | _ => none

/-- Visit the `i`-th of the remaining entries. -/
def visit (s : Ticking) (i : Nat) : Option Ticking :=
  match s.sched with
  | .scanning todo vIds =>
      todo[i]?.map fun (id, p) =>
        let (manager, done, signal) := Scheduler.visit binary32 s.manager (s.record.answer id) p
        { s with
          manager := manager
          sched := .scanning (todo.eraseIdx i) (if done then vIds ++ [id] else vIds)
          record := { s.record with
            signals := s.record.signals ++ (signal.map fun g => (id, g)).toList } }
  | _ => none

/-- All entries were seen: release the lock. -/
def unlock (s : Ticking) : Option Ticking :=
  match s.sched with
  | .scanning [] vIds => some { s with sched := .removing vIds }
  | _ => none

/-- Remove the next of the completed and failed transfers, or go to sleep. -/
def remove (s : Ticking) : Option Ticking :=
  match s.sched with
  | .removing (id :: vIds) =>
      some { s with
        manager := (TransferManager.remove s.manager id).1
        sched := .removing vIds }
  | .removing [] => some { s with sched := .sleeping }
  | _ => none

def step (s : Ticking) : Event → Option Ticking
  | .draw => some s.draw
  | .insert i tx limits => s.insert i tx limits
  | .lock answer => s.lock answer
  | .visit i => s.visit i
  | .unlock => s.unlock
  | .remove => s.remove

end Ticking

/-- What a tick that has removed everything has done. -/
structure TickResult (k : TickRecord) (m : TransferManager Handle) : Prop where
  /-- the unfinished transfers and the new ones are in the table, each of them
      once, and nothing else is -/
  table : (TransferManager.transfer m).Perm
    ((TransferManager.transfer k.before).filter (fun e => k.unfinished e.1)
      ++ k.created.map fun c => (c.tx, c.ptr))
  /-- the bandwidth has changed for the running transfers only, to the reported one -/
  bandwidth : ∀ e ∈ TransferManager.transfer k.before, ∀ t, k.before.get? e.2 = some t →
    m.get? e.2 = some (k.measured e.1 t)
  created : ∀ c ∈ k.created, m.get? c.ptr = some c.object
  /-- at most one signal for each transfer -/
  signalsOnce : (k.signals.map Prod.fst).Nodup
  signalsTo : ∀ g ∈ k.signals, k.Limited g.1

/-! ## The loop body -/

namespace Scheduler

variable {round : Rounding} {tm : TransferManager Handle} {status : CargoStatus}
  {p q : TransferPtr Handle}

/-- A visit changes nothing but the bandwidth of a running transfer. -/
theorem get?_visit :
    (visit round tm status p).1.get? q
      = if q = p ∧ status.state = .running then (tm.get? p).map fun t => t.update status.bw
        else tm.get? q := by
  unfold visit
  cases hstate : status.state with
  | running =>
      simp only [Registry.get?_modify, and_true]
      by_cases hqp : q = p
      · rw [if_pos hqp, if_pos hqp, hqp]
      · rw [if_neg hqp, if_neg hqp]
  | _ => simp

/-- Only a running transfer with limits and a bandwidth gets a signal. -/
theorem visit_signalled {t : TransferMetadata Handle} {g : Int} (hget : tm.get? p = some t)
    (h : (visit round tm status p).2.2 = some g) :
    status.state = .running ∧ t.qos ≠ [] ∧ status.bw ≠ -1 := by
  have hrunning : status.state = .running := by
    unfold visit at h
    cases hstate : status.state with
    | running => rfl
    | _ => simp [hstate] at h
  rw [visit_signal hget hrunning] at h
  refine ⟨hrunning, ?_, ?_⟩
  · intro hqos
    have hnone : runningSignal round (t.update status.bw) = none := by
      unfold runningSignal
      rw [show (t.update status.bw).qos = [] from hqos]
    rw [hnone] at h
    cases h
  · intro hbw
    have hnone : runningSignal round (t.update status.bw) = none := by
      unfold runningSignal
      split
      · rfl
      · exact if_pos hbw
    rw [hnone] at h
    cases h

end Scheduler

/-- An entry of the copy is an entry of the table. -/
theorem TransferManager.mem_transfer {m : TransferManager Handle} {id : TransferId}
    {p : TransferPtr Handle} : (id, p) ∈ TransferManager.transfer m ↔ m.find? id = some p := by
  refine ⟨fun h => TransferManager.find?_of_mem_transfer h, fun h => ?_⟩
  exact List.mem_map.mpr ⟨⟨id, p⟩, AList.mem_lookup_iff.mp h, rfl⟩

/-- The ids of the entries that are left when the one at `i` was taken out. -/
theorem mem_ids_eraseIdx {todo : List (TransferId × TransferPtr Handle)} {i : Nat}
    {e : TransferId × TransferPtr Handle} (hnodup : (todo.map Prod.fst).Nodup)
    (he : todo[i]? = some e) {id : TransferId} :
    id ∈ (todo.eraseIdx i).map Prod.fst ↔ id ∈ todo.map Prod.fst ∧ id ≠ e.1 := by
  have hperm : (e :: todo.eraseIdx i).Perm todo := by
    obtain ⟨hi, rfl⟩ := List.getElem?_eq_some_iff.mp he
    exact List.getElem_cons_eraseIdx_perm hi
  have hids := hperm.map Prod.fst
  rw [← hids.mem_iff, List.map_cons, List.mem_cons]
  rw [← hids.nodup_iff, List.map_cons, List.nodup_cons] at hnodup
  refine ⟨fun hid => ⟨Or.inr hid, ?_⟩, fun ⟨hid, hne⟩ => hid.resolve_left hne⟩
  rintro rfl
  exact hnodup.1 hid

/-! ## The invariant of a tick -/

/-- No two ids have the same object. -/
def Distinct (m : TransferManager Handle) : Prop :=
  ∀ ⦃id id' p⦄, m.find? id = some p → m.find? id' = some p → id = id'

/-- What the tick has found under the id is still in the table: it was not
    visited yet, it is unfinished, or it waits to be removed. -/
def TickRecord.Kept (k : TickRecord) (todo : List (TransferId × TransferPtr Handle))
    (vIds : List TransferId) (id : TransferId) : Prop :=
  id ∈ todo.map Prod.fst ∨ k.unfinished id = true ∨ id ∈ vIds

/-- The table `m` in a tick, with what is still to be visited and to be removed. -/
structure TickInv (k : TickRecord) (m : TransferManager Handle)
    (todo : List (TransferId × TransferPtr Handle)) (vIds : List TransferId) : Prop where
  distinct : Distinct m
  before : Distinct k.before
  ids : (todo.map Prod.fst ++ vIds).Nodup
  copied : ∀ e ∈ todo, k.before.find? e.1 = some e.2
  done : ∀ id ∈ vIds, k.unfinished id = false ∧ ∃ p, k.before.find? id = some p
  table : ∀ id p, m.find? id = some p ↔
    k.before.find? id = some p ∧ k.Kept todo vIds id ∨ ∃ c ∈ k.created, c.tx = id ∧ c.ptr = p
  -- a created transfer can have the id of one that was removed
  createdNew : ∀ c ∈ k.created, ∀ p, k.before.find? c.tx = some p → ¬ k.Kept todo vIds c.tx
  createdOnce : (k.created.map Created.tx).Nodup
  createdObject : ∀ c ∈ k.created, m.get? c.ptr = some c.object
  object : ∀ id p t, k.before.find? id = some p → k.before.get? p = some t →
    m.get? p = some (if id ∈ todo.map Prod.fst then t else k.measured id t)
  signalsOnce : (k.signals.map Prod.fst).Nodup
  signalsTo : ∀ g ∈ k.signals, g.1 ∉ todo.map Prod.fst ∧ k.Limited g.1

section Table

variable {k : TickRecord} {m : TransferManager Handle}
  {todo : List (TransferId × TransferPtr Handle)} {vIds : List TransferId}

/-- A visit keeps what is kept: a transfer that Cargo is done with is to be removed
    from then on. -/
theorem kept_visit (hnodup : (todo.map Prod.fst).Nodup) {i : Nat}
    {e : TransferId × TransferPtr Handle} (he : todo[i]? = some e) (id : TransferId) :
    k.Kept (todo.eraseIdx i)
      (if (k.answer e.1).state.terminal then vIds ++ [e.1] else vIds) id ↔ k.Kept todo vIds id := by
  have hmem : e.1 ∈ todo.map Prod.fst := List.mem_map_of_mem (List.mem_of_getElem? he)
  have hunfinished := k.unfinished_eq e.1
  unfold TickRecord.Kept
  rw [mem_ids_eraseIdx hnodup he]
  by_cases hid : id = e.1
  · subst hid
    cases hterminal : (k.answer e.1).state.terminal <;> simp [hmem, hunfinished, hterminal]
  · cases (k.answer e.1).state.terminal <;> simp [hid]

section Visit

variable {i : Nat} {id : TransferId} {p : TransferPtr Handle}

theorem TickInv.nodup_todo (hi : TickInv k m todo vIds) : (todo.map Prod.fst).Nodup :=
  List.Nodup.of_append_left hi.ids

theorem mem_ids (he : todo[i]? = some (id, p)) : id ∈ todo.map Prod.fst :=
  List.mem_map.mpr ⟨(id, p), List.mem_of_getElem? he, rfl⟩

/-- The entry that is visited, and its object, which is as the tick has found it. -/
theorem TickInv.visited (hi : TickInv k m todo vIds) (he : todo[i]? = some (id, p)) :
    k.before.find? id = some p ∧ ∃ t, k.before.get? p = some t ∧ m.get? p = some t := by
  have hbefore : k.before.find? id = some p := hi.copied (id, p) (List.mem_of_getElem? he)
  have hget := Registry.get?_eq_deref hbefore
  have hnow := hi.object id p _ hbefore hget
  rw [if_pos (mem_ids he)] at hnow
  exact ⟨hbefore, _, hget, hnow⟩

/-- What is to be removed is over, also the id that is new in `vIds`. -/
theorem TickInv.done_visit (hi : TickInv k m todo vIds) (he : todo[i]? = some (id, p)) :
    ∀ id' ∈ if (k.answer id).state.terminal then vIds ++ [id] else vIds,
      k.unfinished id' = false ∧ ∃ p, k.before.find? id' = some p := by
  intro id' hid'
  have hunfinished := k.unfinished_eq id
  cases hterminal : (k.answer id).state.terminal with
  | false =>
      rw [hterminal] at hid'
      exact hi.done id' hid'
  | true =>
      rw [hterminal] at hid' hunfinished
      rcases List.mem_append.mp hid' with hold | hnew
      · exact hi.done id' hold
      · rw [List.mem_singleton.mp hnew]
        exact ⟨hunfinished, p, (hi.visited he).1⟩

/-- The visited object has the reported bandwidth; the object of another id is
    another one. -/
theorem TickInv.object_visit (hi : TickInv k m todo vIds) (he : todo[i]? = some (id, p))
    {id' : TransferId} {q : TransferPtr Handle} {u : TransferMetadata Handle}
    (hq : k.before.find? id' = some q) (hu : k.before.get? q = some u) :
    (Scheduler.visit binary32 m (k.answer id) p).1.get? q
      = some (if id' ∈ (todo.eraseIdx i).map Prod.fst then u else k.measured id' u) := by
  obtain ⟨hbefore, t, hget, hnow⟩ := hi.visited he
  have hleft : id' ∈ (todo.eraseIdx i).map Prod.fst ↔ id' ∈ todo.map Prod.fst ∧ id' ≠ id :=
    mem_ids_eraseIdx hi.nodup_todo he
  rw [Scheduler.get?_visit]
  by_cases hid : id' = id
  · subst hid
    obtain rfl : p = q := Option.some.inj (hbefore.symm.trans hq)
    obtain rfl : t = u := Option.some.inj (hget.symm.trans hu)
    have hseen : id' ∉ (todo.eraseIdx i).map Prod.fst := fun h => (hleft.mp h).2 rfl
    rw [if_neg hseen, hnow, Option.map_some]
    unfold TickRecord.measured
    by_cases hrunning : (k.answer id').state = .running
    · rw [if_pos ⟨rfl, hrunning⟩, if_pos hrunning]
    · rw [if_neg fun h => hrunning h.2, if_neg hrunning]
  · have hne : q ≠ p := by
      rintro rfl
      exact hid (hi.before hq hbefore)
    have hsame : id' ∈ (todo.eraseIdx i).map Prod.fst ↔ id' ∈ todo.map Prod.fst :=
      hleft.trans (and_iff_left hid)
    rw [if_neg fun h => hne h.1, hi.object id' q u hq hu, if_congr hsame rfl rfl]

/-- What has a signal was visited before, so the visited transfer has none yet. -/
theorem TickInv.nodup_signals (hi : TickInv k m todo vIds) (he : todo[i]? = some (id, p))
    (signal : Option Int) :
    ((k.signals ++ (signal.map fun g => (id, g)).toList).map Prod.fst).Nodup := by
  cases signal with
  | none => simpa using hi.signalsOnce
  | some g =>
      show ((k.signals ++ [(id, g)]).map Prod.fst).Nodup
      rw [List.map_append, List.map_singleton, List.nodup_append]
      refine ⟨hi.signalsOnce, List.nodup_singleton _, ?_⟩
      intro id₁ h₁ id₂ h₂ heq
      rw [heq, List.mem_singleton.mp h₂] at h₁
      obtain ⟨g', hg', hid'⟩ := List.mem_map.mp h₁
      apply (hi.signalsTo g' hg').1
      rw [hid']
      exact mem_ids he

/-- A visit takes one entry from the copied table. -/
theorem TickInv.visit (hi : TickInv k m todo vIds) (hnone : k.created = [])
    (he : todo[i]? = some (id, p)) :
    TickInv
      { k with signals := k.signals ++
          ((Scheduler.visit binary32 m (k.answer id) p).2.2.map fun g => (id, g)).toList }
      (Scheduler.visit binary32 m (k.answer id) p).1 (todo.eraseIdx i)
      (if (k.answer id).state.terminal then vIds ++ [id] else vIds) := by
  refine
    { hi with
      distinct := ?distinct
      ids := World.nodup_visit hi.ids he _
      copied := ?copied
      done := hi.done_visit he
      table := ?table
      createdNew := ?createdNew
      createdObject := ?createdObject
      object := ?object
      signalsOnce := hi.nodup_signals he _
      signalsTo := ?signalsTo }
  case distinct =>
    intro id₁ id₂ q h₁ h₂
    rw [find?_visit] at h₁ h₂
    exact hi.distinct h₁ h₂
  case copied => exact fun e' he' => hi.copied e' (List.mem_of_mem_eraseIdx he')
  case table =>
    intro id' q
    rw [find?_visit, hi.table id' q]
    exact or_congr (and_congr Iff.rfl (kept_visit hi.nodup_todo he id').symm) Iff.rfl
  case createdNew =>
    intro c hc
    rw [hnone] at hc
    cases hc
  case createdObject =>
    intro c hc
    rw [hnone] at hc
    cases hc
  case object => exact fun id' q u hq hu => hi.object_visit he hq hu
  case signalsTo =>
    intro g hg
    rcases List.mem_append.mp hg with hg | hg
    · obtain ⟨hseen, hlimited⟩ := hi.signalsTo g hg
      exact ⟨fun h => hseen ((mem_ids_eraseIdx hi.nodup_todo he).mp h).1, hlimited⟩
    · obtain ⟨g', hg', rfl⟩ := Option.map_eq_some_iff.mp (Option.mem_toList.mp hg)
      obtain ⟨hbefore, t, hget, hnow⟩ := hi.visited he
      refine ⟨fun h => ((mem_ids_eraseIdx hi.nodup_todo he).mp h).2 rfl, ?_⟩
      exact ⟨p, t, hbefore, hget, Scheduler.visit_signalled hnow hg'⟩

end Visit

/-- The entry of a transfer that Cargo is done with goes. -/
theorem TickInv.remove {id : TransferId} (hi : TickInv k m [] (id :: vIds)) :
    TickInv k (TransferManager.remove m id).1 [] vIds := by
  have hfind := TransferManager.find?_remove m id
  obtain ⟨hid, hids⟩ := List.nodup_cons.mp hi.ids
  obtain ⟨hfinished, p, hp⟩ := hi.done id List.mem_cons_self
  have hkept : ∀ id', id' ≠ id → (k.Kept [] vIds id' ↔ k.Kept [] (id :: vIds) id') := by
    intro id' hne
    unfold TickRecord.Kept
    simp [hne]
  -- nothing that was created has the id: it was taken all the time
  have hnotCreated : ∀ c ∈ k.created, c.tx ≠ id := by
    rintro c hc rfl
    exact hi.createdNew c hc p hp (Or.inr (Or.inr List.mem_cons_self))
  refine
    { hi with
      distinct := ?distinct
      ids := hids
      copied := nofun
      done := ?done
      table := ?table
      createdNew := ?createdNew
      createdObject := ?createdObject
      object := ?object }
  case distinct =>
    intro id₁ id₂ q h₁ h₂
    rw [hfind] at h₁ h₂
    split at h₁
    · cases h₁
    · split at h₂
      · cases h₂
      · exact hi.distinct h₁ h₂
  case done => exact fun id' hid' => hi.done id' (List.mem_cons_of_mem _ hid')
  case table =>
    intro id' q
    rw [hfind]
    by_cases hid' : id' = id
    · subst hid'
      rw [if_pos rfl]
      refine iff_of_false nofun ?_
      rintro (⟨-, h | h | h⟩ | ⟨c, hc, htx, -⟩)
      · cases h
      · rw [hfinished] at h
        cases h
      · exact hid h
      · exact hnotCreated c hc htx
    · rw [if_neg hid', hi.table id' q, hkept id' hid']
  case createdNew =>
    intro c hc q hq
    rw [hkept c.tx (hnotCreated c hc)]
    exact hi.createdNew c hc q hq
  case createdObject =>
    intro c hc
    rw [TransferManager.get?_remove]
    exact hi.createdObject c hc
  case object =>
    intro id' q t hq ht
    rw [TransferManager.get?_remove]
    exact hi.object id' q t hq ht

section Create

variable {id : TransferId}

/-- A new entry leads to a new object. -/
theorem Distinct.emplace (h : Distinct m) (hfree : m.find? id = none)
    (t : TransferMetadata Handle) : Distinct (m.emplace id t).1 := by
  -- an entry that was there leads to an object, which the new one is not
  have hold : ∀ {id' p}, m.find? id' = some p → p ≠ m.next := by
    intro id' p hp
    exact Registry.ne_next_of_get? (Registry.get?_eq_deref hp)
  intro id₁ id₂ p h₁ h₂
  rw [Registry.find?_emplace_of_free _ hfree] at h₁ h₂
  by_cases hid₁ : id₁ = id
  · by_cases hid₂ : id₂ = id
    · rw [hid₁, hid₂]
    · rw [if_pos hid₁, Option.some.injEq] at h₁
      rw [if_neg hid₂] at h₂
      exact absurd h₁.symm (hold h₂)
  · rw [if_neg hid₁] at h₁
    by_cases hid₂ : id₂ = id
    · rw [if_pos hid₂, Option.some.injEq] at h₂
      exact absurd h₂.symm (hold h₁)
    · rw [if_neg hid₂] at h₂
      exact h h₁ h₂

/-- Nothing that is kept has a free id, -/
theorem TickInv.not_kept_of_free (hi : TickInv k m todo vIds) (hfree : m.find? id = none)
    {p : TransferPtr Handle} (hp : k.before.find? id = some p) : ¬ k.Kept todo vIds id := by
  intro hkept
  have htaken := (hi.table id p).mpr (Or.inl ⟨hp, hkept⟩)
  rw [hfree] at htaken
  cases htaken

/-- and nothing that was created. -/
theorem TickInv.not_created_of_free (hi : TickInv k m todo vIds) (hfree : m.find? id = none) :
    id ∉ k.created.map Created.tx := by
  intro hid
  obtain ⟨c, hc, rfl⟩ := List.mem_map.mp hid
  have htaken := (hi.table c.tx c.ptr).mpr (Or.inr ⟨c, hc, rfl, rfl⟩)
  rw [hfree] at htaken
  cases htaken

/-- A transfer is created under a free id. -/
theorem TickInv.create (hi : TickInv k m todo vIds) (hfree : m.find? id = none)
    (t : TransferMetadata Handle) :
    TickInv { k with created := k.created ++ [⟨id, m.next, t⟩] } (m.emplace id t).1 todo vIds := by
  have hnotCreated := hi.not_created_of_free hfree
  refine
    { hi with
      distinct := hi.distinct.emplace hfree t
      table := ?table
      createdNew := ?createdNew
      createdOnce := ?createdOnce
      createdObject := ?createdObject
      object := ?object }
  case table =>
    intro id' p
    simp only [List.mem_append, List.mem_singleton]
    rw [Registry.find?_emplace_of_free _ hfree]
    by_cases hid : id' = id
    · subst hid
      rw [if_pos rfl, Option.some.injEq]
      constructor
      · rintro rfl
        exact Or.inr ⟨_, Or.inr rfl, rfl, rfl⟩
      · rintro (⟨hp, hkept⟩ | ⟨c, hc | rfl, htx, rfl⟩)
        · exact absurd hkept (hi.not_kept_of_free hfree hp)
        · exact absurd (List.mem_map.mpr ⟨c, hc, htx⟩) hnotCreated
        · rfl
    · rw [if_neg hid, hi.table id' p]
      apply or_congr Iff.rfl
      constructor
      · rintro ⟨c, hc, howns⟩
        exact ⟨c, Or.inl hc, howns⟩
      · rintro ⟨c, hc | rfl, htx, hptr⟩
        · exact ⟨c, hc, htx, hptr⟩
        · exact absurd htx.symm hid
  case createdNew =>
    intro c hc p hp
    rcases List.mem_append.mp hc with hc | hc
    · exact hi.createdNew c hc p hp
    · cases List.mem_singleton.mp hc
      exact hi.not_kept_of_free hfree hp
  case createdOnce =>
    rw [List.map_append, List.map_singleton, List.nodup_append]
    refine ⟨hi.createdOnce, List.nodup_singleton _, ?_⟩
    intro id₁ h₁ id₂ h₂ heq
    rw [heq, List.mem_singleton.mp h₂] at h₁
    exact hnotCreated h₁
  case createdObject =>
    intro c hc
    rcases List.mem_append.mp hc with hc | hc
    · exact Registry.get?_emplace_of_get? (hi.createdObject c hc)
    · cases List.mem_singleton.mp hc
      exact Registry.get?_emplace_next ..
  case object =>
    intro id' p u hp hget
    exact Registry.get?_emplace_of_get? (hi.object id' p u hp hget)

end Create

/-- The table when nothing is left to be visited or removed. -/
theorem TickInv.perm_table (hi : TickInv k m [] []) :
    (TransferManager.transfer m).Perm
      ((TransferManager.transfer k.before).filter (fun e => k.unfinished e.1)
        ++ k.created.map fun c => (c.tx, c.ptr)) := by
  have hkept : ∀ id, k.Kept [] [] id ↔ k.unfinished id = true := by
    intro id
    unfold TickRecord.Kept
    simp
  have hcreated : (k.created.map fun c => (c.tx, c.ptr)).Nodup := by
    apply List.Nodup.of_map Prod.fst
    rw [List.map_map]
    exact hi.createdOnce
  have hbefore := List.Nodup.of_map _ (TransferManager.nodup_transfer k.before)
  have hnodup := List.Nodup.of_map _ (TransferManager.nodup_transfer m)
  rw [List.perm_ext_iff_of_nodup hnodup]
  · rintro ⟨id, p⟩
    rw [TransferManager.mem_transfer, hi.table, hkept, List.mem_append, List.mem_filter,
      TransferManager.mem_transfer, List.mem_map]
    simp only [Prod.mk.injEq]
  · rw [List.nodup_append]
    refine ⟨hbefore.filter _, hcreated, ?_⟩
    intro e he e' he' heq
    obtain ⟨c, hc, rfl⟩ := List.mem_map.mp he'
    rw [heq, List.mem_filter, TransferManager.mem_transfer] at he
    exact hi.createdNew c hc c.ptr he.1 ((hkept c.tx).mpr he.2)

end Table

namespace Ticking

structure Inv (s : Ticking) : Prop where
  tick : TickInv s.record s.manager s.sched.todo s.sched.vIds
  createdUnlocked : s.sched.locked = true → s.record.created = []

theorem inv_init : init.Inv where
  tick :=
    { distinct := nofun
      before := nofun
      ids := List.nodup_nil
      copied := nofun
      done := nofun
      table := fun id p => by simp [init]
      createdNew := nofun
      createdOnce := List.nodup_nil
      createdObject := nofun
      object := nofun
      signalsOnce := List.nodup_nil
      signalsTo := nofun }
  createdUnlocked _ := rfl

section Steps

variable {s s' : Ticking}

theorem createLocked_of_taken {id : TransferId} {p : TransferPtr Handle}
    (h : s.manager.find? id = some p) (tx : Handle) (limits : List QosLimit) :
    s.createLocked id tx limits = s := by
  simp only [createLocked, createAt_of_taken h]

theorem createLocked_of_free {id : TransferId} (h : s.manager.find? id = none) (tx : Handle)
    (limits : List QosLimit) :
    s.createLocked id tx limits
      = { s with
          manager := (s.manager.emplace id ⟨id, tx, limits, -1⟩).1
          record := { s.record with
            created := s.record.created ++ [⟨id, s.manager.next, ⟨id, tx, limits, -1⟩⟩] } } := by
  simp only [createLocked, createAt_of_free h]

/-- Both halves of `create`, one right after the other, are `create`. -/
theorem createLocked_draw (s : Ticking) (tx : Handle) (limits : List QosLimit) :
    (s.draw.createLocked s.manager.currentId tx limits).manager
      = (TransferManager.create s.manager tx limits).1 := by
  simp only [TransferManager.create, Registry.fetchId_snd]
  cases hfree : s.manager.find? s.manager.currentId with
  | some p =>
      have htaken : s.draw.manager.find? s.manager.currentId = some p := hfree
      rw [createLocked_of_taken htaken, createAt_of_taken (r := s.manager.fetchId.1) hfree]
      rfl
  | none =>
      have hnew : s.draw.manager.find? s.manager.currentId = none := hfree
      rw [createLocked_of_free hnew, createAt_of_free (r := s.manager.fetchId.1) hfree]
      rfl

/-- A caller gets the lock, while no tick has it. -/
theorem insert_cases {i : Nat} {tx : Handle} {limits : List QosLimit}
    (h : s.insert i tx limits = some s') :
    s.sched.locked = false ∧
      ∃ id, s' = { s.createLocked id tx limits with drawn := s.drawn.eraseIdx i } := by
  unfold insert at h
  split at h
  · cases h
  case isFalse hlocked =>
    obtain ⟨id, -, rfl⟩ := Option.map_eq_some_iff.mp h
    exact ⟨by simpa using hlocked, id, rfl⟩

/-- A refused `create` changes nothing, and another one makes its entry. -/
theorem Inv.createLocked (hi : s.Inv) (hlocked : s.sched.locked = false) (id : TransferId)
    (tx : Handle) (limits : List QosLimit) : (s.createLocked id tx limits).Inv := by
  cases hfree : s.manager.find? id with
  | some p =>
      rw [createLocked_of_taken hfree]
      exact hi
  | none =>
      rw [createLocked_of_free hfree]
      refine ⟨hi.tick.create hfree _, fun hl => ?_⟩
      rw [show s.sched.locked = true from hl] at hlocked
      cases hlocked

theorem Inv.insert (hi : s.Inv) {i : Nat} {tx : Handle} {limits : List QosLimit}
    (h : s.insert i tx limits = some s') : s'.Inv := by
  obtain ⟨hlocked, id, rfl⟩ := insert_cases h
  have hnext := hi.createLocked hlocked id tx limits
  exact ⟨hnext.tick, hnext.createdUnlocked⟩

/-- A tick begins with everything as it is. -/
theorem Inv.lock (hi : s.Inv) {answer : TransferId → CargoStatus}
    (h : s.lock answer = some s') : s'.Inv := by
  unfold Ticking.lock at h
  cases hsched : s.sched with
  | scanning todo vIds => simp [hsched] at h
  | removing vIds => simp [hsched] at h
  | sleeping =>
      simp only [hsched, Option.some.injEq] at h
      subst h
      have hmem : ∀ {id p}, s.manager.find? id = some p →
          id ∈ (TransferManager.transfer s.manager).map Prod.fst := by
        intro id p hp
        exact List.mem_map.mpr ⟨(id, p), TransferManager.mem_transfer.mpr hp, rfl⟩
      have hdistinct := hi.tick.distinct
      refine ⟨
        { distinct := hdistinct
          before := hdistinct
          ids := ?ids
          copied := ?copied
          done := nofun
          table := ?table
          createdNew := nofun
          createdOnce := List.nodup_nil
          createdObject := nofun
          object := ?object
          signalsOnce := List.nodup_nil
          signalsTo := nofun }, fun _ => rfl⟩
      case ids =>
        show ((TransferManager.transfer s.manager).map Prod.fst ++ []).Nodup
        rw [List.append_nil]
        exact TransferManager.nodup_transfer _
      case copied => exact fun e he => TransferManager.find?_of_mem_transfer he
      case table =>
        intro id p
        refine ⟨fun hp => Or.inl ⟨hp, Or.inl (hmem hp)⟩, ?_⟩
        rintro (⟨hp, -⟩ | ⟨c, hc, -⟩)
        · exact hp
        · cases hc
      case object =>
        intro id p t hp ht
        exact ht.trans (congrArg some (if_pos (hmem hp)).symm)

theorem visit_cases {i : Nat} (h : s.visit i = some s') :
    ∃ todo vIds e, s.sched = .scanning todo vIds ∧ todo[i]? = some e ∧
      s' = { s with
        manager := (Scheduler.visit binary32 s.manager (s.record.answer e.1) e.2).1
        sched := .scanning (todo.eraseIdx i)
          (if (s.record.answer e.1).state.terminal then vIds ++ [e.1] else vIds)
        record := { s.record with
          signals := s.record.signals ++
            ((Scheduler.visit binary32 s.manager (s.record.answer e.1) e.2).2.2.map
              fun g => (e.1, g)).toList } } := by
  unfold Ticking.visit at h
  cases hsched : s.sched with
  | sleeping => simp [hsched] at h
  | removing vIds => simp [hsched] at h
  | scanning todo vIds =>
      simp only [hsched, visit_done] at h
      obtain ⟨e, he, rfl⟩ := Option.map_eq_some_iff.mp h
      exact ⟨todo, vIds, e, rfl, he, rfl⟩

theorem Inv.visit (hi : s.Inv) {i : Nat} (h : s.visit i = some s') : s'.Inv := by
  obtain ⟨todo, vIds, ⟨id, p⟩, hsched, he, rfl⟩ := visit_cases h
  have ht := hi.tick
  have hnone := hi.createdUnlocked (by rw [hsched]; rfl)
  rw [hsched] at ht
  exact ⟨ht.visit hnone he, fun _ => hnone⟩

theorem Inv.unlock (hi : s.Inv) (h : s.unlock = some s') : s'.Inv := by
  unfold Ticking.unlock at h
  split at h
  case h_2 => cases h
  case h_1 vIds hsched =>
    cases h
    have ht := hi.tick
    rw [hsched] at ht
    exact ⟨ht, nofun⟩

theorem Inv.remove (hi : s.Inv) (h : s.remove = some s') : s'.Inv := by
  have ht := hi.tick
  unfold Ticking.remove at h
  split at h
  case h_3 => cases h
  case h_2 hsched =>
    cases h
    rw [hsched] at ht
    exact ⟨ht, nofun⟩
  case h_1 id vIds hsched =>
    cases h
    rw [hsched] at ht
    exact ⟨ht.remove, nofun⟩

theorem Inv.step (hi : s.Inv) {e : Event} (h : s.step e = some s') : s'.Inv := by
  cases e with
  | draw =>
      cases h
      -- a drawn id changes the counter alone
      exact ⟨{ hi.tick with }, hi.createdUnlocked⟩
  | insert i tx limits => exact hi.insert h
  | lock answer => exact hi.lock h
  | visit i => exact hi.visit h
  | unlock => exact hi.unlock h
  | remove => exact hi.remove h

theorem inv_of_reachable (h : Reachable Ticking.step init s) : s.Inv :=
  h.invariant inv_init fun _ _ _ hi hs => hi.step hs

/-- **A tick keeps exactly the unfinished transfers**: whatever is in the table
    when it begins, whatever Cargo answers, and whatever is created meanwhile. -/
theorem tickResult_of_reachable (h : Reachable Ticking.step init s)
    (hs : s.sched = .sleeping) : TickResult s.record s.manager := by
  have hi := (inv_of_reachable h).tick
  rw [hs] at hi
  refine ⟨hi.perm_table, ?_, hi.createdObject, hi.signalsOnce, fun g hg => (hi.signalsTo g hg).2⟩
  rintro ⟨id, p⟩ he t ht
  have hobject := hi.object id p t (TransferManager.mem_transfer.mp he) ht
  exact hobject.trans (congrArg some (if_neg List.not_mem_nil))

end Steps

/-- Cargo reports transfer 0 as running with a bandwidth of 200, and all others
    as completed. -/
def sampleAnswer (id : TransferId) : CargoStatus :=
  if id = 0 then ⟨.running, 200⟩ else ⟨.completed, 50⟩

/-- Two transfers, a tick that sees both, and a third one that is created before
    the second one is removed. -/
theorem tickResult_sample :
    ∃ s, run Ticking.step init
        [.draw, .draw, .insert 0 7 [⟨none, .bandwidth, 100⟩], .insert 0 8 [], .lock sampleAnswer,
          .draw, .visit 1, .visit 0, .unlock, .insert 0 9 [], .remove, .remove] = some s ∧
      s.sched = .sleeping ∧ TickResult s.record s.manager := by
  obtain ⟨s, hs⟩ : ∃ s, run Ticking.step init
        [.draw, .draw, .insert 0 7 [⟨none, .bandwidth, 100⟩], .insert 0 8 [], .lock sampleAnswer,
          .draw, .visit 1, .visit 0, .unlock, .insert 0 9 [], .remove, .remove] = some s :=
    ⟨_, rfl⟩
  have hsleeping : s.sched = .sleeping := by
    cases hs
    rfl
  exact ⟨s, hs, hsleeping, tickResult_of_reachable ⟨_, hs⟩ hsleeping⟩

end Ticking

end Scord
