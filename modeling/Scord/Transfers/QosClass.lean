/-
  Scord.Transfers.QosClass

  The class of a QoS limit: what the scheduler's signal would be without the
  limits that are not about bandwidth, and when that makes no difference.

  The limits come from the client with their classes, and the scheduler takes the
  first one for a bandwidth.
-/
import Scord.Transfers.Tick

namespace Scord

open FloatArith ObjectStore

def QosLimit.isBandwidth (limit : QosLimit) : Bool := limit.subclass = .bandwidth

/-- The transfer without the limits of other classes. -/
def TransferMetadata.onlyBandwidth {H : Type} (t : TransferMetadata H) : TransferMetadata H :=
  { t with qos := t.qos.filter QosLimit.isBandwidth }

namespace Scheduler

variable {H : Type}

/-- Limits of other classes make no difference to the signal, and without a limit
    of the bandwidth there is none. -/
structure SteeredByBandwidth (round : Rounding) (tm : TransferManager H) (status : CargoStatus)
    (p : TransferPtr H) (limits : List QosLimit) : Prop where
  unchanged : (visit round tm status p).2.2
    = (visit round (tm.modify p TransferMetadata.onlyBandwidth) status p).2.2
  unlimited : limits.filter QosLimit.isBandwidth = [] → (visit round tm status p).2.2 = none

/-- The comparisons come out alike for both values: the bandwidth is above both of
    them or above none, and in the latter case below both of them or below none. -/
def SameSide (round : Rounding) (bw : Bandwidth) (q q' : UInt64) : Prop :=
  (aboveQos round bw q = true ↔ aboveQos round bw q' = true) ∧
    (aboveQos round bw q = false → (belowQos round bw q = true ↔ belowQos round bw q' = true))

/-- The first limit is one of the bandwidth, or it does not matter: no bandwidth is
    known, or its value is on the same side as that of the first limit of the
    bandwidth, or there is none and the bandwidth is neither above nor below it. -/
def FirstLimitServes (round : Rounding) (bw : Bandwidth) : List QosLimit → Prop
  | [] => True
  | first :: limits =>
      first.isBandwidth = true ∨ bw = -1 ∨
        match limits.filter QosLimit.isBandwidth with
        | [] => aboveQos round bw first.value = false ∧ belowQos round bw first.value = false
        | limit :: _ => SameSide round bw first.value limit.value

/-! ## The signal as a function of the value -/

section Controller

variable {round : Rounding} {bw : Bandwidth} {q q' : UInt64}

theorem controlSignal_of_above (h : aboveQos round bw q = true) :
    controlSignal round bw q = some 1 := if_pos h

theorem controlSignal_of_below (h : aboveQos round bw q = false)
    (hbelow : belowQos round bw q = true) : controlSignal round bw q = some (-1) := by
  simp [controlSignal, h, hbelow]

theorem controlSignal_of_neither (h : aboveQos round bw q = false)
    (hbelow : belowQos round bw q = false) : controlSignal round bw q = none := by
  simp [controlSignal, h, hbelow]

/-- No signal is sent only where neither comparison holds. -/
theorem controlSignal_eq_none_iff :
    controlSignal round bw q = none ↔
      aboveQos round bw q = false ∧ belowQos round bw q = false := by
  cases habove : aboveQos round bw q with
  | true => simp [controlSignal_of_above habove]
  | false =>
      cases hbelow : belowQos round bw q with
      | true => simp [controlSignal_of_below habove hbelow]
      | false => simp [controlSignal_of_neither habove hbelow]

/-- Two values lead to one signal exactly when they are on the same side. -/
theorem controlSignal_eq_iff :
    controlSignal round bw q = controlSignal round bw q' ↔ SameSide round bw q q' := by
  unfold SameSide controlSignal
  cases aboveQos round bw q <;> cases aboveQos round bw q' <;>
    cases belowQos round bw q <;> cases belowQos round bw q' <;> simp

/-- The rounding decides: a bandwidth of about 10/11, with the tolerance added, is
    above a limit of 1, but not as a `float`. -/
example : controlSignal exact (.finite (15252015 / 16777216)) 1 = some 1 ∧
    controlSignal binary32 (.finite (15252015 / 16777216)) 1 = some (-1) := by
  decide +kernel

end Controller

/-! ## The signal of a visit -/

/-- The signal of limits, for a bandwidth that was reported. -/
theorem runningSignal_eq (round : Rounding) (t : TransferMetadata H) :
    runningSignal round t = t.qos.head?.bind fun limit =>
      if t.measuredBandwidth = -1 then none
      else controlSignal round t.measuredBandwidth limit.value := by
  unfold runningSignal
  cases t.qos <;> rfl

theorem visit_onlyBandwidth {round : Rounding} {tm : TransferManager H} {status : CargoStatus}
    {p : TransferPtr H} {t : TransferMetadata H} (hget : tm.get? p = some t)
    (hrunning : status.state = .running) :
    (visit round (tm.modify p TransferMetadata.onlyBandwidth) status p).2.2
      = runningSignal round (t.onlyBandwidth.update status.bw) := by
  refine visit_signal ?_ hrunning
  rw [Registry.get?_modify, if_pos rfl, hget, Option.map_some]

/-- **Only limits of the bandwidth steer it exactly when the first limit serves**,
    whatever the numbers are rounded to. -/
theorem visit_steeredByBandwidth_iff {round : Rounding} {tm : TransferManager H}
    {status : CargoStatus} {p : TransferPtr H} {t : TransferMetadata H}
    (hget : tm.get? p = some t) (hrunning : status.state = .running) :
    SteeredByBandwidth round tm status p t.qos ↔ FirstLimitServes round status.bw t.qos := by
  have hsplit : SteeredByBandwidth round tm status p t.qos ↔
      runningSignal round (t.update status.bw)
          = runningSignal round (t.onlyBandwidth.update status.bw) ∧
      (t.qos.filter QosLimit.isBandwidth = [] →
        runningSignal round (t.update status.bw) = none) := by
    rw [← visit_signal hget hrunning, ← visit_onlyBandwidth hget hrunning]
    exact ⟨fun h => ⟨h.unchanged, h.unlimited⟩, fun h => ⟨h.1, h.2⟩⟩
  rw [hsplit, runningSignal_eq, runningSignal_eq]
  simp only [TransferMetadata.update, TransferMetadata.onlyBandwidth]
  cases hqos : t.qos with
  | nil => simp [FirstLimitServes]
  | cons first limits =>
      cases hfirst : first.isBandwidth with
      | true =>
          -- it stays in front
          rw [List.filter_cons_of_pos hfirst]
          exact iff_of_true ⟨rfl, fun hnone => (nomatch hnone)⟩ (Or.inl hfirst)
      | false =>
          -- it is dropped, and the first limit of the bandwidth takes its place
          rw [List.filter_cons_of_neg (by simp [hfirst])]
          by_cases hbw : status.bw = -1
          · cases limits.filter QosLimit.isBandwidth <;> simp [FirstLimitServes, hbw]
          · cases hlimits : limits.filter QosLimit.isBandwidth with
            | nil =>
                simp only [FirstLimitServes, hfirst, hlimits, hbw, List.head?_cons,
                  Option.bind_some, if_false, List.head?_nil, Option.bind_none, forall_const,
                  and_self, Bool.false_eq_true, false_or]
                exact controlSignal_eq_none_iff
            | cons limit rest =>
                simp only [FirstLimitServes, hfirst, hlimits, hbw, List.head?_cons,
                  Option.bind_some, if_false, reduceCtorEq, false_implies, and_true,
                  Bool.false_eq_true, false_or]
                exact controlSignal_eq_iff

/-- A table with one transfer that has these limits. -/
def sampleLimited (limits : List QosLimit) : TransferManager Handle :=
  (TransferManager.create Registry.empty 0 limits).1

/-- A bandwidth of 200 is above a limit of 9 operations per second, and above the
    limit of 100 for it that comes next. -/
theorem visit_steeredByBandwidth_sample :
    SteeredByBandwidth binary32 (sampleLimited [⟨none, .iops, 9⟩, ⟨none, .bandwidth, 100⟩])
      ⟨.running, 200⟩ ⟨0⟩ [⟨none, .iops, 9⟩, ⟨none, .bandwidth, 100⟩] :=
  (@visit_steeredByBandwidth_iff Handle binary32
    (sampleLimited [⟨none, .iops, 9⟩, ⟨none, .bandwidth, 100⟩]) ⟨.running, 200⟩ ⟨0⟩
    ⟨0, 0, [⟨none, .iops, 9⟩, ⟨none, .bandwidth, 100⟩], -1⟩ rfl rfl).mpr
    (Or.inr (Or.inr ⟨by decide +kernel, by decide +kernel⟩))

/-- A limit of 9 operations per second alone: a transfer with a bandwidth of 200 is
    slowed down. -/
theorem not_steeredByBandwidth_iops :
    ¬ SteeredByBandwidth binary32 (sampleLimited [⟨none, .iops, 9⟩]) ⟨.running, 200⟩ ⟨0⟩
      [⟨none, .iops, 9⟩] := by
  intro h
  have hsignal : (visit binary32 (sampleLimited [⟨none, .iops, 9⟩]) ⟨.running, 200⟩ ⟨0⟩).2.2
      = some 1 := by
    decide +kernel
  cases hsignal.symm.trans (h.unlimited rfl)

end Scheduler

end Scord
