/-
  Scord.Lib.FreshMap

  A partial map whose keys are drawn from a 64-bit counter that wraps around,
  shared by any number of callers.  To create an entry, a caller draws a key in
  one atomic step, and inserts under that key in another, some time later.

  `Spec.step` is the abstract map.  An `Impl` offers the same operations over
  its own state, and `Impl.Simulates` says, operation by operation, that it does
  what the map does.  From that, every interleaving of its callers is one of the
  abstract map, with the same answers.
-/
import Mathlib.Algebra.Group.Nat.Defs
import Mathlib.Logic.Function.Basic
import Scord.Lib.StepSystem

namespace FreshMap

open StepSystem

abbrev Key := UInt64

/-- A step of one caller.  An entry is created from an `α`, and updated with
    an `υ`. -/
inductive Call (α υ : Type)
  | draw
  | create (k : Key) (a : α)
  | update (k : Key) (u : υ)
  | find (k : Key)
  | remove (k : Key)

/-- The answer to a call, over entries in `ν` and error codes in `ε`. -/
inductive Answer (ν ε : Type)
  | key (k : Key)
  | entry (v : ν)
  | done
  | refused (e : ε)
  /-- an entry was promised, and what was handed out leads to none -/
  | dangling

/-- What the entries of a map are made of.  An entry carries its key, which an
    update does not change. -/
structure Spec (α υ ν ε : Type) where
  make : Key → α → ν
  set : υ → ν → ν
  keyOf : ν → Key
  /-- the code for a key that has an entry already -/
  taken : ε
  /-- the code for a key that has no entry -/
  missing : ε
  keyOf_make : ∀ k a, keyOf (make k a) = k
  keyOf_set : ∀ u v, keyOf (set u v) = keyOf v

/-- The map, the counter, and the keys that are drawn and not used yet. -/
structure State (ν : Type) where
  entries : Key → Option ν
  counter : Key
  drawn : List Key

abbrev Log (α υ ν ε : Type) := List (Call α υ × Answer ν ε)

variable {M α υ ν ε : Type}

def State.empty : State ν := ⟨fun _ => none, 0, []⟩

namespace Spec

variable (K : Spec α υ ν ε)

/-- One step of one caller of the abstract map. -/
def step (s : State ν) : Call α υ → Option (State ν × Answer ν ε)
  | .draw => some (⟨s.entries, s.counter + 1, s.counter :: s.drawn⟩, .key s.counter)
  | .create k a =>
      if k ∈ s.drawn then
        match s.entries k with
        | none =>
            some (⟨Function.update s.entries k (some (K.make k a)), s.counter, s.drawn.erase k⟩,
              .entry (K.make k a))
        | some _ => some (⟨s.entries, s.counter, s.drawn.erase k⟩, .refused K.taken)
      else none
  | .update k u =>
      match s.entries k with
      | none => some (s, .refused K.missing)
      | some v =>
          some (⟨Function.update s.entries k (some (K.set u v)), s.counter, s.drawn⟩, .done)
  | .find k =>
      match s.entries k with
      | none => some (s, .refused K.missing)
      | some v => some (s, .entry v)
  | .remove k =>
      match s.entries k with
      | none => some (s, .refused K.missing)
      | some _ => some (⟨Function.update s.entries k none, s.counter, s.drawn⟩, .done)

/-- Every entry carries its own key. -/
def OwnKeys (s : State ν) : Prop := ∀ k v, s.entries k = some v → K.keyOf v = k

/-- What the log says about the entry of a key: how it was created, with the
    updates since that were answered with success, unless it was removed. -/
def latest : Log α υ ν ε → Key → Option ν
  | [], _ => none
  | (.create k' a, .entry _) :: log, k => if k = k' then some (K.make k a) else latest log k
  | (.update k' u, .done) :: log, k =>
      if k = k' then (latest log k).map (K.set u) else latest log k
  | (.remove k', .done) :: log, k => if k = k' then none else latest log k
  | _ :: log, k => latest log k

/-- How many keys were drawn. -/
def draws : Log α υ ν ε → Nat
  | [] => 0
  | (.draw, _) :: log => draws log + 1
  | _ :: log => draws log

/-! ## What one step does -/

section Steps

variable {K} {s s' : State ν} {ans : Answer ν ε} {k : Key}

/-- An insertion under a drawn key either makes the entry or finds one there. -/
theorem step_create {a : α} (h : K.step s (.create k a) = some (s', ans)) :
    k ∈ s.drawn ∧ s'.counter = s.counter ∧ s'.drawn = s.drawn.erase k ∧
      ((s.entries k = none ∧ ans = .entry (K.make k a) ∧
          s'.entries = Function.update s.entries k (some (K.make k a))) ∨
        ((∃ v, s.entries k = some v) ∧ ans = .refused K.taken ∧ s'.entries = s.entries)) := by
  unfold step at h
  obtain ⟨hk, h⟩ := Option.ite_none_right_eq_some.mp h
  refine ⟨hk, ?_⟩
  cases hentry : s.entries k with
  | none =>
      rw [hentry] at h
      cases h
      exact ⟨rfl, rfl, .inl ⟨rfl, rfl, rfl⟩⟩
  | some v =>
      rw [hentry] at h
      cases h
      exact ⟨rfl, rfl, .inr ⟨⟨v, rfl⟩, rfl, rfl⟩⟩

theorem step_update {u : υ} (h : K.step s (.update k u) = some (s', ans)) :
    (s.entries k = none ∧ ans = .refused K.missing ∧ s' = s) ∨
      ∃ v, s.entries k = some v ∧ ans = .done ∧
        s' = ⟨Function.update s.entries k (some (K.set u v)), s.counter, s.drawn⟩ := by
  unfold step at h
  cases hentry : s.entries k with
  | none =>
      simp only [hentry] at h
      cases h
      exact .inl ⟨rfl, rfl, rfl⟩
  | some v =>
      simp only [hentry] at h
      cases h
      exact .inr ⟨v, rfl, rfl, rfl⟩

theorem step_find (h : K.step s (.find k : Call α υ) = some (s', ans)) : s' = s := by
  unfold step at h
  cases hentry : s.entries k with
  | none =>
      simp only [hentry] at h
      cases h
      rfl
  | some v =>
      simp only [hentry] at h
      cases h
      rfl

theorem step_remove (h : K.step s (.remove k : Call α υ) = some (s', ans)) :
    (s.entries k = none ∧ ans = .refused K.missing ∧ s' = s) ∨
      (ans = .done ∧ s' = ⟨Function.update s.entries k none, s.counter, s.drawn⟩) := by
  unfold step at h
  cases hentry : s.entries k with
  | none =>
      simp only [hentry] at h
      cases h
      exact .inl ⟨rfl, rfl, rfl⟩
  | some v =>
      simp only [hentry] at h
      cases h
      exact .inr ⟨rfl, rfl⟩

end Steps

/-! ## Entries carry their own keys -/

theorem OwnKeys.update {K : Spec α υ ν ε} {s s' : State ν} {k : Key} {o : Option ν}
    (h : K.OwnKeys s) (heq : s'.entries = Function.update s.entries k o)
    (ho : ∀ v, o = some v → K.keyOf v = k) : K.OwnKeys s' := by
  intro k' v hv
  rw [heq, Function.update_apply] at hv
  split at hv
  case isTrue hk => exact hk ▸ ho v hv
  case isFalse => exact h k' v hv

theorem ownKeys_step {K : Spec α υ ν ε} {s s' : State ν} {c : Call α υ} {ans : Answer ν ε}
    (h : K.OwnKeys s) (hs : K.step s c = some (s', ans)) : K.OwnKeys s' := by
  cases c with
  | draw =>
      cases hs
      exact h
  | create k a =>
      obtain ⟨-, -, -, ⟨-, -, heq⟩ | ⟨-, -, heq⟩⟩ := step_create hs
      · refine h.update heq fun v hv => ?_
        rw [← Option.some.inj hv, K.keyOf_make]
      · intro k' v hv
        exact h k' v (heq ▸ hv)
  | update k u =>
      obtain ⟨-, -, rfl⟩ | ⟨v, hv, -, rfl⟩ := step_update hs
      · exact h
      · refine h.update rfl fun w hw => ?_
        rw [← Option.some.inj hw, K.keyOf_set]
        exact h k v hv
  | find k =>
      obtain rfl := step_find hs
      exact h
  | remove k =>
      obtain ⟨-, -, rfl⟩ | ⟨-, rfl⟩ := step_remove hs
      · exact h
      · refine h.update rfl fun v hv => ?_
        cases hv

/-! ## The log tells the entries -/

theorem latest_step {K : Spec α υ ν ε} {s s' : State ν} {c : Call α υ} {ans : Answer ν ε}
    {log : Log α υ ν ε} (h : ∀ k, s.entries k = K.latest log k)
    (hs : K.step s c = some (s', ans)) (k : Key) :
    s'.entries k = K.latest ((c, ans) :: log) k := by
  cases c with
  | draw =>
      cases hs
      exact h k
  | create k' a =>
      obtain ⟨-, -, -, ⟨-, rfl, heq⟩ | ⟨-, rfl, heq⟩⟩ := step_create hs
      · rw [heq, Function.update_apply, latest]
        split
        case isTrue hk => rw [hk]
        case isFalse => exact h k
      · rw [heq]
        exact h k
  | update k' u =>
      obtain ⟨-, rfl, rfl⟩ | ⟨v, hv, rfl, rfl⟩ := step_update hs
      · exact h k
      · show Function.update s.entries k' (some (K.set u v)) k = _
        rw [latest, Function.update_apply]
        split
        case isTrue hk => rw [hk, ← h k', hv, Option.map_some]
        case isFalse => exact h k
  | find k' =>
      obtain rfl := step_find hs
      exact h k
  | remove k' =>
      obtain ⟨-, rfl, rfl⟩ | ⟨rfl, rfl⟩ := step_remove hs
      · exact h k
      · show Function.update s.entries k' none k = _
        rw [latest, Function.update_apply]
        split
        · rfl
        · exact h k

/-! ## Drawn keys are fresh until the counter wraps -/

/-- The counter tells how many keys were drawn, and as long as it has not come
    round, the keys that are waiting are different ones without an entry. -/
structure Fresh (s : State ν) (n : Nat) : Prop where
  counter : s.counter = UInt64.ofNat n
  nodup : n ≤ 2 ^ 64 → s.drawn.Nodup
  waiting : n ≤ 2 ^ 64 → ∀ k ∈ s.drawn, k.toNat < n ∧ s.entries k = none
  used : n ≤ 2 ^ 64 → ∀ k v, s.entries k = some v → k.toNat < n

theorem fresh_empty : Fresh (State.empty : State ν) 0 where
  counter := rfl
  nodup _ := List.nodup_nil
  waiting _ k hk := absurd hk List.not_mem_nil
  used _ k v hv := by cases hv

/-- The next key is different from all that are in use. -/
theorem Fresh.draw {s : State ν} {n : Nat} (h : Fresh s n) :
    Fresh ⟨s.entries, s.counter + 1, s.counter :: s.drawn⟩ (n + 1) := by
  have hnext : n + 1 ≤ 2 ^ 64 → s.counter.toNat = n := by
    intro hn
    rw [h.counter, UInt64.toNat_ofNat_of_lt']
    show n < 2 ^ 64
    omega
  refine ⟨?_, ?_, ?_, ?_⟩
  · rw [h.counter]
    apply UInt64.toNat_inj.mp
    simp
  · intro hn
    refine List.nodup_cons.mpr ⟨fun hmem => ?_, h.nodup (by omega)⟩
    have hlt := (h.waiting (by omega) _ hmem).1
    have heq := hnext hn
    omega
  · intro hn k hk
    rcases List.mem_cons.mp hk with rfl | hk
    · have heq := hnext hn
      refine ⟨by omega, ?_⟩
      -- an entry under the next key would be one too many
      cases hentry : s.entries s.counter with
      | none => rfl
      | some v =>
          have hlt := h.used (by omega) _ v hentry
          omega
    · have hk' := h.waiting (by omega) k hk
      exact ⟨by omega, hk'.2⟩
  · intro hn k v hv
    have hlt := h.used (by omega) k v hv
    omega

/-- Whatever changes an entry that is there, or takes one away, leaves the
    waiting keys fresh. -/
theorem Fresh.of_used {s s' : State ν} {n : Nat} (h : Fresh s n) (hc : s'.counter = s.counter)
    (hd : s'.drawn = s.drawn)
    (he : ∀ k v, s'.entries k = some v → ∃ w, s.entries k = some w) : Fresh s' n := by
  refine ⟨hc.trans h.counter, fun hn => hd ▸ h.nodup hn, ?_, ?_⟩
  · intro hn k hk
    obtain ⟨hlt, hnone⟩ := h.waiting hn k (hd ▸ hk)
    refine ⟨hlt, Option.eq_none_iff_forall_not_mem.mpr fun v hv => ?_⟩
    obtain ⟨w, hw⟩ := he k v hv
    rw [hnone] at hw
    cases hw
  · intro hn k v hv
    obtain ⟨w, hw⟩ := he k v hv
    exact h.used hn k w hw

theorem Fresh.update {s : State ν} {n : Nat} (h : Fresh s n) {k : Key} {v : ν}
    (hv : s.entries k = some v) (o : Option ν) :
    Fresh ⟨Function.update s.entries k o, s.counter, s.drawn⟩ n := by
  refine h.of_used rfl rfl fun k' w hw => ?_
  simp only [Function.update_apply] at hw
  split at hw
  case isTrue hk => exact ⟨v, hk ▸ hv⟩
  case isFalse => exact ⟨w, hw⟩

/-- The inserted key is no longer waiting. -/
theorem Fresh.create {s s' : State ν} {n : Nat} (h : Fresh s n) {k : Key} {v : ν}
    (hk : k ∈ s.drawn) (hc : s'.counter = s.counter) (hd : s'.drawn = s.drawn.erase k)
    (he : s'.entries = Function.update s.entries k (some v)) : Fresh s' n := by
  refine ⟨hc.trans h.counter, fun hn => hd ▸ (h.nodup hn).erase k, ?_, ?_⟩
  · intro hn k' hk'
    rw [hd, (h.nodup hn).mem_erase_iff] at hk'
    rw [he, Function.update_of_ne hk'.1]
    exact h.waiting hn k' hk'.2
  · intro hn k' w hw
    rw [he, Function.update_apply] at hw
    split at hw
    case isTrue heq => exact heq ▸ (h.waiting hn k hk).1
    case isFalse => exact h.used hn k' w hw

theorem Fresh.refused {s s' : State ν} {n : Nat} (h : Fresh s n) {k : Key}
    (hc : s'.counter = s.counter) (hd : s'.drawn = s.drawn.erase k)
    (he : s'.entries = s.entries) : Fresh s' n := by
  refine ⟨hc.trans h.counter, fun hn => hd ▸ (h.nodup hn).erase k, ?_, ?_⟩
  · intro hn k' hk'
    rw [he]
    exact h.waiting hn k' (List.mem_of_mem_erase (hd ▸ hk'))
  · rw [he]
    exact h.used

theorem fresh_step {K : Spec α υ ν ε} {s s' : State ν} {c : Call α υ} {ans : Answer ν ε}
    {log : Log α υ ν ε} (h : Fresh s (draws log)) (hs : K.step s c = some (s', ans)) :
    Fresh s' (draws ((c, ans) :: log)) := by
  cases c with
  | draw =>
      cases hs
      exact h.draw
  | create k a =>
      obtain ⟨hk, hc, hd, ⟨-, -, he⟩ | ⟨-, -, he⟩⟩ := step_create hs
      · exact h.create hk hc hd he
      · exact h.refused hc hd he
  | update k u =>
      obtain ⟨-, -, rfl⟩ | ⟨v, hv, -, rfl⟩ := step_update hs
      · exact h
      · exact h.update hv _
  | find k =>
      obtain rfl := step_find hs
      exact h
  | remove k =>
      obtain ⟨-, -, rfl⟩ | ⟨-, rfl⟩ := step_remove hs
      · exact h
      · refine h.of_used rfl rfl fun k' v hv => ?_
        simp only [Function.update_apply] at hv
        exact ⟨v, (Option.ite_none_left_eq_some.mp hv).2⟩

/-- **The abstract map, over every interleaving of its callers.** -/
theorem inv_of_reachable {s : State ν} {log : Log α υ ν ε}
    (h : Reachable (logged K.step) (State.empty, []) (s, log)) :
    K.OwnKeys s ∧ (∀ k, s.entries k = K.latest log k) ∧ Fresh s (draws log) := by
  refine h.invariant (I := fun t => K.OwnKeys t.1 ∧ (∀ k, t.1.entries k = K.latest t.2 k) ∧
    Fresh t.1 (draws t.2)) ⟨?_, fun _ => rfl, fresh_empty⟩ ?_
  · intro k v hv
    cases hv
  · rintro ⟨t, l⟩ c t' ⟨hown, hlatest, hfresh⟩ hs
    obtain ⟨s', ans, hstep, rfl⟩ := logged_eq_some.mp hs
    exact ⟨ownKeys_step hown hstep, latest_step hlatest hstep, fresh_step hfresh hstep⟩

end Spec

/-! ## Implementations -/

/-- An implementation over its own state: the operations as it offers them, and
    the entry that its state holds for a key. -/
structure Impl (M α υ ν ε : Type) where
  init : M
  counter : M → Key
  view : M → Key → Option ν
  draw : M → M × Key
  create : M → Key → α → M × Answer ν ε
  update : M → Key → υ → M × Answer ν ε
  find : M → Key → Answer ν ε
  remove : M → Key → M × Answer ν ε

namespace Impl

variable (I : Impl M α υ ν ε)

/-- One step of one caller of the implementation.  An insertion needs a drawn
    key. -/
def step (s : M × List Key) : Call α υ → Option ((M × List Key) × Answer ν ε)
  | .draw => some (((I.draw s.1).1, (I.draw s.1).2 :: s.2), .key (I.draw s.1).2)
  | .create k a =>
      if k ∈ s.2 then some (((I.create s.1 k a).1, s.2.erase k), (I.create s.1 k a).2) else none
  | .update k u => some (((I.update s.1 k u).1, s.2), (I.update s.1 k u).2)
  | .find k => some (s, I.find s.1 k)
  | .remove k => some (((I.remove s.1 k).1, s.2), (I.remove s.1 k).2)

/-- The abstract map that a state of the implementation stands for. -/
def abs (s : M × List Key) : State ν := ⟨I.view s.1, I.counter s.1, s.2⟩

/-- Operation by operation, the implementation does what the abstract map does.
    An update may rely on the entries carrying their keys. -/
structure Simulates (K : Spec α υ ν ε) : Prop where
  view_init : ∀ k, I.view I.init k = none
  counter_init : I.counter I.init = 0
  draw : ∀ m, (I.draw m).2 = I.counter m ∧ I.counter (I.draw m).1 = I.counter m + 1 ∧
    I.view (I.draw m).1 = I.view m
  create_free : ∀ {m k} a, I.view m k = none →
    (I.create m k a).2 = .entry (K.make k a) ∧ I.counter (I.create m k a).1 = I.counter m ∧
      I.view (I.create m k a).1 = Function.update (I.view m) k (some (K.make k a))
  create_taken : ∀ {m k v} a, I.view m k = some v → I.create m k a = (m, .refused K.taken)
  update_missing : ∀ {m k} u, I.view m k = none → I.update m k u = (m, .refused K.missing)
  update_entry : ∀ {m k v} u, (∀ k' w, I.view m k' = some w → K.keyOf w = k') →
    I.view m k = some v →
    (I.update m k u).2 = .done ∧ I.counter (I.update m k u).1 = I.counter m ∧
      I.view (I.update m k u).1 = Function.update (I.view m) k (some (K.set u v))
  find_missing : ∀ {m k}, I.view m k = none → I.find m k = .refused K.missing
  find_entry : ∀ {m k v}, I.view m k = some v → I.find m k = .entry v
  remove_missing : ∀ {m k}, I.view m k = none → I.remove m k = (m, .refused K.missing)
  remove_entry : ∀ {m k v}, I.view m k = some v →
    (I.remove m k).2 = .done ∧ I.counter (I.remove m k).1 = I.counter m ∧
      I.view (I.remove m k).1 = Function.update (I.view m) k none

/-- What a caller can rely on in a state `(m, drawn)` that the callers have
    reached with this log. -/
structure Contract (K : Spec α υ ν ε) (m : M) (drawn : List Key) (log : Log α υ ν ε) :
    Prop where
  /-- the run so far is one of the abstract map, with the same answers -/
  refines : Reachable (logged K.step) (State.empty, []) (I.abs (m, drawn), log)
  ownKey : ∀ k v, I.view m k = some v → K.keyOf v = k
  create_entry : ∀ k a v, (I.create m k a).2 = .entry v ↔ I.view m k = none ∧ v = K.make k a
  create_adds : ∀ k a, I.view m k = none →
    I.view (I.create m k a).1 = Function.update (I.view m) k (some (K.make k a))
  create_taken : ∀ k a, I.view m k ≠ none → I.create m k a = (m, .refused K.taken)
  /-- a drawn key is taken only after the counter has come round -/
  fresh : Spec.draws log ≤ 2 ^ 64 → ∀ k ∈ drawn, I.view m k = none
  update_refused : ∀ k u, (I.update m k u).2 = .refused K.missing ↔ I.view m k = none
  update_missing : ∀ k u, I.view m k = none → (I.update m k u).1 = m
  update_entry : ∀ k u v, I.view m k = some v → (I.update m k u).2 = .done ∧
    I.view (I.update m k u).1 = Function.update (I.view m) k (some (K.set u v))
  remove_refused : ∀ k, (I.remove m k).2 = .refused K.missing ↔ I.view m k = none
  remove_missing : ∀ k, I.view m k = none → (I.remove m k).1 = m
  remove_entry : ∀ k v, I.view m k = some v → (I.remove m k).2 = .done ∧
    I.view (I.remove m k).1 = Function.update (I.view m) k none
  find_refused : ∀ k, I.find m k = .refused K.missing ↔ I.view m k = none
  /-- what is found is the latest successful update -/
  find_entry : ∀ k v, I.find m k = .entry v ↔ K.latest log k = some v

/-- The contract holds in every state that any number of interleaved callers
    reach. -/
def Refines (K : Spec α υ ν ε) : Prop :=
  ∀ ⦃m drawn log⦄, Reachable (logged I.step) ((I.init, []), []) ((m, drawn), log) →
    I.Contract K m drawn log

namespace Simulates

variable {I} {K : Spec α υ ν ε} (h : I.Simulates K)

include h

theorem abs_init : I.abs (I.init, []) = State.empty := by
  show (⟨I.view I.init, I.counter I.init, []⟩ : State ν) = ⟨fun _ => none, 0, []⟩
  rw [h.counter_init, show I.view I.init = fun _ => none from funext h.view_init]

/-- Every step of the implementation is one of the abstract map, with the same
    answer. -/
theorem step_abs {s s' : M × List Key} {c : Call α υ} {ans : Answer ν ε}
    (hown : K.OwnKeys (I.abs s)) (hs : I.step s c = some (s', ans)) :
    K.step (I.abs s) c = some (I.abs s', ans) := by
  obtain ⟨m, drawn⟩ := s
  cases c with
  | draw =>
      obtain ⟨hkey, hcounter, hview⟩ := h.draw m
      cases hs
      simp only [Spec.step, abs, hkey, hcounter, hview]
  | create k a =>
      obtain ⟨hk, hs⟩ := Option.ite_none_right_eq_some.mp hs
      cases hs
      have hk' : k ∈ drawn := hk
      cases hentry : I.view m k with
      | none =>
          obtain ⟨hans, hcounter, hview⟩ := h.create_free a hentry
          simp only [Spec.step, abs, if_pos hk', hentry, hans, hcounter, hview]
      | some v => simp only [Spec.step, abs, if_pos hk', hentry, h.create_taken a hentry]
  | update k u =>
      cases hs
      cases hentry : I.view m k with
      | none => simp only [Spec.step, abs, hentry, h.update_missing u hentry]
      | some v =>
          obtain ⟨hans, hcounter, hview⟩ := h.update_entry u hown hentry
          simp only [Spec.step, abs, hentry, hans, hcounter, hview]
  | find k =>
      cases hs
      cases hentry : I.view m k with
      | none => simp only [Spec.step, abs, hentry, h.find_missing hentry]
      | some v => simp only [Spec.step, abs, hentry, h.find_entry hentry]
  | remove k =>
      cases hs
      cases hentry : I.view m k with
      | none => simp only [Spec.step, abs, hentry, h.remove_missing hentry]
      | some v =>
          obtain ⟨hans, hcounter, hview⟩ := h.remove_entry hentry
          simp only [Spec.step, abs, hentry, hans, hcounter, hview]

/-- **Every interleaving of the implementation's callers is one of the abstract
    map, with the same answers.** -/
theorem refines {s : M × List Key} {log : Log α υ ν ε}
    (hr : Reachable (logged I.step) ((I.init, []), []) (s, log)) :
    Reachable (logged K.step) (State.empty, []) (I.abs s, log) := by
  rw [← h.abs_init]
  refine hr.simulates (fun t => (I.abs t.1, t.2)) ?_
  rintro ⟨t, l⟩ c t' hreach hs
  have hreach' : Reachable (logged K.step) (I.abs (I.init, []), []) (I.abs t, l) := hreach
  rw [h.abs_init] at hreach'
  have hown := (Spec.inv_of_reachable K hreach').1
  obtain ⟨s', ans, hstep, rfl⟩ := logged_eq_some.mp hs
  exact logged_eq_some.mpr ⟨_, ans, h.step_abs hown hstep, rfl⟩

/-- **The contract holds in every state that the callers reach.** -/
theorem contract : I.Refines K := by
  intro m drawn log hr
  have habs := h.refines hr
  obtain ⟨hown, hlatest, hfresh⟩ := Spec.inv_of_reachable K habs
  have hown : ∀ k v, I.view m k = some v → K.keyOf v = k := hown
  have hlatest : ∀ k, I.view m k = K.latest log k := hlatest
  -- whether a key has an entry decides each of the answers
  have hcases : ∀ k, I.view m k = none ∨ ∃ v, I.view m k = some v := fun k =>
    Option.eq_none_or_eq_some _
  constructor
  case refines => exact habs
  case ownKey => exact hown
  case fresh => exact fun hn k hk => (hfresh.waiting hn k hk).2
  case create_entry =>
    intro k a v
    rcases hcases k with hk | ⟨w, hk⟩
    · simp only [(h.create_free a hk).1, hk, true_and, Answer.entry.injEq, eq_comm]
    · simp only [h.create_taken a hk, hk, reduceCtorEq, false_and]
  case create_adds => exact fun k a hk => (h.create_free a hk).2.2
  case create_taken =>
    intro k a hk
    obtain ⟨v, hv⟩ := Option.ne_none_iff_exists'.mp hk
    exact h.create_taken a hv
  case update_refused =>
    intro k u
    rcases hcases k with hk | ⟨v, hk⟩
    · simp only [h.update_missing u hk, hk]
    · simp only [(h.update_entry u hown hk).1, hk, reduceCtorEq]
  case update_missing => exact fun k u hk => congrArg Prod.fst (h.update_missing u hk)
  case update_entry =>
    intro k u v hv
    obtain ⟨hdone, -, hview⟩ := h.update_entry u hown hv
    exact ⟨hdone, hview⟩
  case remove_refused =>
    intro k
    rcases hcases k with hk | ⟨v, hk⟩
    · simp only [h.remove_missing hk, hk]
    · simp only [(h.remove_entry hk).1, hk, reduceCtorEq]
  case remove_missing => exact fun k hk => congrArg Prod.fst (h.remove_missing hk)
  case remove_entry =>
    intro k v hv
    obtain ⟨hdone, -, hview⟩ := h.remove_entry hv
    exact ⟨hdone, hview⟩
  case find_refused =>
    intro k
    rcases hcases k with hk | ⟨v, hk⟩
    · simp only [h.find_missing hk, hk]
    · simp only [h.find_entry hk, hk, reduceCtorEq]
  case find_entry =>
    intro k v
    rw [← hlatest k]
    rcases hcases k with hk | ⟨w, hk⟩
    · simp only [h.find_missing hk, hk, reduceCtorEq]
    · simp only [h.find_entry hk, hk, Answer.entry.injEq, Option.some.injEq]

end Simulates

end Impl

end FreshMap
