/-
  Scord.Abt.LockRuns

  Sequences of operations on the lock guards: no mutex is leaked and none is
  released twice.

  The invariant counts a temporary guard beside the guards of the program, since
  the move operations build one.  There is one rule for each thing that happens to
  it or to them, and the operations are put together from these rules.
-/
import Scord.Abt.LockGuards
import Scord.Lib.StepSystem

namespace Abt

open StepSystem

variable {M : Type}

/-! ## The invariant -/

section Invariant

variable [DecidableEq M]

/-- With a temporary guard beside the others: on every mutex, the acquisitions are
    as many as the releases, the detached ones and the owners together, and whoever
    owns has a mutex. -/
structure Inv (kind : Kind) (temp : Guard M) (s : State M) : Prop where
  balance : ∀ p m, count p m .acquired s.log
    = count p m .released s.log + count p m .detached s.log + owners p m s
      + weight p m kind temp
  sound : ∀ k i g, s.guardAt k i = some g → g.Sound
  temp : temp.Sound

variable {kind k : Kind} {i : Nat} {temp g g' : Guard M} {s s' : State M}

theorem inv_start (kind : Kind) : Inv kind {} (State.start : State M) where
  balance p m := by simp [State.start, owners, count]
  sound k i g h := by
    rw [State.guardAt_eq_some] at h
    cases h
  temp := Guard.sound_empty

/-- Without a temporary its class does not matter. -/
theorem Inv.of_empty (h : Inv kind {} s) (k : Kind) : Inv k {} s where
  balance p m := by simpa using h.balance p m
  sound := h.sound
  temp := h.temp

/-- A member function of one guard. -/
theorem Inv.update (hi : Inv k temp s) (hg : s.guardAt kind i = some g)
    {events : List (Event M)} (hb : Balances kind g events g') :
    Inv k temp ((s.put kind i g').perform events) where
  balance p m := by
    have hput := State.owners_put (p := p) (m := m) hg g'
    have hcount := hb.count p m
    have hold := hi.balance p m
    show count p m .acquired (s.log ++ events) = count p m .released (s.log ++ events)
      + count p m .detached (s.log ++ events) + owners p m (s.put kind i g') + weight p m k temp
    rw [count_append, count_append, count_append]
    omega
  sound := State.sound_put hi.sound hg hb.sound
  temp := hi.temp

/-- A temporary that owns nothing. -/
theorem Inv.withTemp (hi : Inv k {} s) (howns : temp.owns = false) : Inv kind temp s where
  balance p m := by
    have hold := hi.balance p m
    simp only [weight_empty] at hold
    simp [weight, howns, hold]
  sound := hi.sound
  temp h := by cases howns.symm.trans h

/-- A member function of the temporary. -/
theorem Inv.updateTemp (hi : Inv kind temp s) {events : List (Event M)}
    (hb : Balances kind temp events g') : Inv kind g' (s.perform events) where
  balance p m := by
    have hcount := hb.count p m
    have hold := hi.balance p m
    show count p m .acquired (s.log ++ events) = count p m .released (s.log ++ events)
      + count p m .detached (s.log ++ events) + owners p m s + weight p m kind g'
    rw [count_append, count_append, count_append]
    omega
  sound := hi.sound
  temp := hb.sound

/-- The temporary and a guard are exchanged. -/
theorem Inv.swapTemp (hi : Inv kind temp s) (hg : s.guardAt kind i = some g) :
    Inv kind g (s.put kind i temp) where
  balance p m := by
    have hput := State.owners_put (p := p) (m := m) hg temp
    have hold := hi.balance p m
    show count p m .acquired s.log = count p m .released s.log + count p m .detached s.log
      + owners p m (s.put kind i temp) + weight p m kind g
    omega
  sound := State.sound_put hi.sound hg hi.temp
  temp := hi.sound kind i g hg

/-- The temporary becomes a guard of the program. -/
theorem Inv.add (hi : Inv kind temp s) (k : Kind) : Inv k {} (s.add kind temp) where
  balance p m := by
    have hold := hi.balance p m
    show count p m .acquired s.log = count p m .released s.log + count p m .detached s.log
      + owners p m (s.add kind temp) + weight p m k {}
    rw [State.owners_add, weight_empty]
    omega
  sound := State.sound_add hi.sound hi.temp
  temp := Guard.sound_empty

/-- A guard is destroyed. -/
theorem Inv.remove (hi : Inv k {} s) (hg : s.guardAt kind i = some g) {events : List (Event M)}
    (hb : Balances kind g events {}) : Inv k {} ((s.remove i).perform events) where
  balance p m := by
    have hremove := State.owners_remove (p := p) (m := m) hg
    have hcount := hb.count p m
    have hold := hi.balance p m
    show count p m .acquired (s.log ++ events) = count p m .released (s.log ++ events)
      + count p m .detached (s.log ++ events) + owners p m (s.remove i) + weight p m k {}
    rw [count_append, count_append, count_append]
    rw [weight_empty] at *
    omega
  sound := State.sound_remove hi.sound
  temp := Guard.sound_empty

/-- `operator=` of `unique_lock`, also from a guard to itself. -/
theorem Inv.moveAssignUnique (hi : Inv k {} s) {this u : Nat} {gu : Guard M}
    (hg : s.guardAt .unique this = some g) (hu : s.guardAt .unique u = some gu) :
    ∃ s', s.moveAssignUnique this u = some s' ∧ Inv k {} s' := by
  have hsound := hi.sound _ _ _ hg
  simp only [State.moveAssignUnique, hg, Option.bind_eq_bind, Option.bind_some]
  generalize he : (if g.owns = true then UniqueLock.unlock g else { guard := g } : Effect M) = e
  obtain ⟨hb, howns⟩ : Balances .unique g e.events e.guard ∧ e.guard.owns = false := by
    subst he
    rcases hsound.cases with ⟨device, rfl⟩ | ⟨m, rfl⟩
    · exact ⟨balances_refl .unique hsound, rfl⟩
    · exact ⟨UniqueLock.unlock_balances hsound, rfl⟩
  -- the guard gives up its mutex
  have h₁ := (hi.update hg hb).of_empty .unique
  generalize hs₁ : (s.put .unique this e.guard).perform e.events = s₁ at h₁ ⊢
  have hat₁ : ∀ j, s₁.guardAt .unique j
      = if this = j then some e.guard else s.guardAt .unique j := by
    intro j
    rw [← hs₁]
    exact State.guardAt_put_kind hg
  -- the temporary takes the fields of the other one
  obtain ⟨temp, hu₁⟩ : ∃ temp, s₁.guardAt .unique u = some temp := by
    rw [hat₁, hu]
    split <;> exact ⟨_, rfl⟩
  have h₂ := h₁.swapTemp hu₁
  rw [State.moveOut_eq hu₁, Option.bind_some]
  generalize hs₂ : s₁.put .unique u {} = s₂ at h₂ ⊢
  have hat₂ : ∀ j, s₂.guardAt .unique j = if u = j then some {} else s₁.guardAt .unique j := by
    intro j
    rw [← hs₂]
    exact State.guardAt_put_kind hu₁
  -- they are exchanged, and the temporary is destroyed
  obtain ⟨old, hthis₂⟩ : ∃ old, s₂.guardAt .unique this = some old := by
    rw [hat₂, hat₁, if_pos rfl]
    split <;> exact ⟨_, rfl⟩
  have h₃ := h₂.swapTemp hthis₂
  have h₄ := h₃.updateTemp (UniqueLock.destroy_balances h₃.temp)
  rw [State.swapTemp_eq hthis₂, Option.bind_some]
  refine ⟨_, rfl, ?_⟩
  -- what is left in the other one owns nothing
  obtain ⟨left, hleft, hnone⟩ : ∃ left,
      ((s₂.put .unique this temp).perform (UniqueLock.destroy old)).guardAt .unique u = some left ∧
        left.owns = false := by
    rw [State.guardAt_perform, State.guardAt_put_kind hthis₂]
    by_cases hself : this = u
    · subst hself
      rw [hat₁, if_pos rfl] at hu₁
      rw [if_pos rfl]
      exact ⟨temp, rfl, Option.some.inj hu₁ ▸ howns⟩
    · rw [if_neg hself, hat₂, if_pos rfl]
      exact ⟨{}, rfl, rfl⟩
  have h₅ := h₄.update hleft (balances_clear hnone)
  rw [State.perform_nil] at h₅
  exact h₅.of_empty k

/-- `operator=` of `shared_lock`, which leaves a guard as it is that is assigned to
    itself. -/
theorem Inv.moveAssignShared (hi : Inv k {} s) {this sl : Nat} {gu : Guard M}
    (hg : s.guardAt .shared this = some g) (hu : s.guardAt .shared sl = some gu) :
    ∃ s', s.moveAssignShared this sl = some s' ∧ Inv k {} s' := by
  -- to begin with, the temporary has the fields of the other guard
  have h₁ := (hi.of_empty .shared).swapTemp hu
  simp only [State.moveAssignShared, State.moveOut_eq hu, Option.bind_eq_bind, Option.bind_some]
  generalize hs₁ : s.put .shared sl {} = s₁ at h₁ ⊢
  obtain ⟨old, hthis₁⟩ : ∃ old, s₁.guardAt .shared this = some old := by
    rw [← hs₁, State.guardAt_put_kind hu, hg]
    split <;> exact ⟨_, rfl⟩
  -- then those of the guard itself, and its destructor acts on these
  have h₂ := h₁.swapTemp hthis₁
  obtain ⟨events, hevents, hb⟩ := SharedLock.exists_destroy h₂.temp
  rw [State.swapTemp_eq hthis₁, Option.bind_some, hevents]
  exact ⟨_, rfl, (h₂.updateTemp hb).of_empty k⟩

/-- `swap`, also of a guard with itself. -/
theorem Inv.swap (hi : Inv k {} s) {this other : Nat} {gu : Guard M}
    (hg : s.guardAt kind this = some g) (hu : s.guardAt kind other = some gu) :
    Inv k {} ((s.put kind this gu).put kind other g) := by
  -- between the two writes there are two copies of the other guard
  have hu₁ : (s.put kind this gu).guardAt kind other = some gu := by
    rw [State.guardAt_put_kind hg, hu]
    split <;> rfl
  refine ⟨fun p m => ?_, State.sound_put (State.sound_put hi.sound hg (hi.sound _ _ _ hu)) hu₁
    (hi.sound _ _ _ hg), Guard.sound_empty⟩
  have hput := State.owners_put (p := p) (m := m) hg gu
  have hput₁ := State.owners_put (p := p) (m := m) hu₁ g
  have hold := hi.balance p m
  show count p m .acquired s.log = count p m .released s.log + count p m .detached s.log
    + owners p m ((s.put kind this gu).put kind other g) + weight p m k {}
  omega

end Invariant

/-! ## One operation -/

/-- The guards that the operation names are there, and of its class. -/
def WellTyped (s : State M) : Op M → Prop
  | .construct _ _ => True
  | .default _ => True
  | .lock kind this => ∃ g, s.guardAt kind this = some g
  | .unlock kind this => ∃ g, s.guardAt kind this = some g
  | .moveConstruct kind other => ∃ g, s.guardAt kind other = some g
  | .moveAssign kind this other =>
      (∃ g, s.guardAt kind this = some g) ∧ ∃ g, s.guardAt kind other = some g
  | .swap kind this other =>
      (∃ g, s.guardAt kind this = some g) ∧ ∃ g, s.guardAt kind other = some g
  | .release kind this => ∃ g, s.guardAt kind this = some g
  | .destroy kind this => ∃ g, s.guardAt kind this = some g

section Step

variable {s s' : State M} {op : Op M} {kind : Kind} {g : Guard M}

/-- A member function that throws because of the state of its guard has done
    nothing before. -/
def Effect.Strong (e : Effect M) (g : Guard M) : Prop :=
  e.thrown ≠ none → e.guard = g ∧ e.events = []

theorem lockGuard_strong (kind : Kind) (g : Guard M) : (lockGuard kind g).Strong g := by
  intro h
  unfold lockGuard at h ⊢
  split
  · exact ⟨rfl, rfl⟩
  · split
    · exact ⟨rfl, rfl⟩
    · next m hdevice howns =>
        simp [hdevice, howns] at h

theorem UniqueLock.unlock_strong (g : Guard M) : (unlock g).Strong g := by
  intro h
  unfold unlock at h ⊢
  split
  · exact ⟨rfl, rfl⟩
  · next howns =>
      rw [if_neg howns] at h
      split at h <;> exact absurd rfl h

theorem SharedLock.unlock_strong {e : Effect M} (he : unlock g = some e) : e.Strong g := by
  intro h
  unfold unlock at he
  split at he
  · cases he
    exact ⟨rfl, rfl⟩
  · obtain ⟨m, -, rfl⟩ := Option.map_eq_some_iff.mp he
    exact absurd rfl h

/-- Its call throws only where nothing has changed. -/
theorem State.apply_throws {i : Nat} (hg : s.guardAt kind i = some g) {e : Effect M}
    (hstrong : e.Strong g) {err : Errc} (h : (s.apply kind i e).2 = .throws err) :
    (s.apply kind i e).1 = s := by
  have hthrown : e.thrown ≠ none := by
    intro hnone
    unfold State.apply at h
    rw [hnone] at h
    cases h
  obtain ⟨hguard, hevents⟩ := hstrong hthrown
  show (s.put kind i e.guard).perform e.events = s
  rw [hguard, hevents, State.perform_nil, State.put_self hg]

/-- Without its guards there is no operation. -/
theorem wellTyped_of_step {r : State M × Outcome M} (h : step s op = some r) :
    WellTyped s op := by
  have hsome : ∀ {kind i} {f : Guard M → Option (State M × Outcome M)},
      (s.guardAt kind i).bind f = some r → ∃ g, s.guardAt kind i = some g := by
    intro kind i f hf
    obtain ⟨g, hg, -⟩ := Option.bind_eq_some_iff.mp hf
    exact ⟨g, hg⟩
  cases op with
  | construct kind m => trivial
  | default kind => trivial
  | lock kind this => cases kind <;> exact hsome h
  | unlock kind this => cases kind <;> exact hsome h
  | release kind this => exact hsome h
  | destroy kind this => cases kind <;> exact hsome h
  | swap kind this other =>
      obtain ⟨g, hg, hrest⟩ := Option.bind_eq_some_iff.mp h
      exact ⟨⟨g, hg⟩, hsome hrest⟩
  | moveConstruct kind other =>
      obtain ⟨r, hr, -⟩ := Option.bind_eq_some_iff.mp h
      obtain ⟨g, hg, -⟩ := State.exists_of_moveOut hr
      exact ⟨g, hg⟩
  | moveAssign kind this other =>
      cases kind with
      | unique =>
          obtain ⟨t, ht, -⟩ := Option.bind_eq_some_iff.mp h
          obtain ⟨g, hg, hrest⟩ := Option.bind_eq_some_iff.mp ht
          obtain ⟨r, hr, -⟩ := Option.bind_eq_some_iff.mp hrest
          obtain ⟨gu, hu, -⟩ := State.exists_of_moveOut hr
          exact ⟨⟨g, hg⟩, State.exists_of_guardAt_put hg ⟨gu, hu⟩⟩
      | shared =>
          obtain ⟨t, ht, -⟩ := Option.bind_eq_some_iff.mp h
          obtain ⟨r, hr, hrest⟩ := Option.bind_eq_some_iff.mp ht
          obtain ⟨gu, hu, rfl⟩ := State.exists_of_moveOut hr
          obtain ⟨r', hr', -⟩ := Option.bind_eq_some_iff.mp hrest
          obtain ⟨g, hg, -⟩ := State.exists_of_swapTemp hr'
          exact ⟨State.exists_of_guardAt_put hu ⟨g, hg⟩, gu, hu⟩

variable [DecidableEq M]

/-- An operation is defined, no null device is used, the invariant is kept, and
    nothing changes where the operation throws. -/
def Safe (s : State M) (r : Option (State M × Outcome M)) : Prop :=
  ∃ s' o, r = some (s', o) ∧ Inv .unique {} s' ∧ ∀ e, o = .throws e → s' = s

theorem safe_returns (h : Inv .unique {} s') : Safe s (some (s', .returns)) :=
  ⟨s', .returns, rfl, h, fun e he => by cases he⟩

theorem Inv.safe_apply (hi : Inv .unique {} s) {i : Nat} (hg : s.guardAt kind i = some g)
    {e : Effect M} (hb : Balances kind g e.events e.guard) (hstrong : e.Strong g) :
    Safe s (some (s.apply kind i e)) :=
  ⟨_, _, rfl, hi.update hg hb, fun _ h => State.apply_throws hg hstrong h⟩

/-- The constructors, which acquire the mutex first. -/
theorem Inv.construct (hi : Inv .unique {} s) (kind : Kind) (m : M) :
    Inv .unique {} ((s.add kind ⟨some m, true⟩).perform [⟨.acquired, kind, m⟩]) := by
  -- `m_owns` is set after the mutex has been locked
  have htemp : Inv kind (⟨some m, false⟩ : Guard M) s := hi.withTemp rfl
  exact (htemp.updateTemp (balances_acquired rfl rfl)).add .unique

theorem Inv.moveConstruct (hi : Inv .unique {} s) {other : Nat}
    (hg : s.guardAt kind other = some g) :
    Inv .unique {} ((s.put kind other {}).add kind g) :=
  ((hi.of_empty kind).swapTemp hg).add .unique

/-- Every operation whose guards are there is safe; case by case over the
    operations, and over the classes where these differ. -/
theorem Inv.step_safe (hi : Inv .unique {} s) (hw : WellTyped s op) : Safe s (step s op) := by
  cases op with
  | construct kind m =>
      cases kind with
      | unique => exact safe_returns (hi.construct .unique m)
      | shared => exact safe_returns (hi.construct .shared m)
  | default kind => exact safe_returns ((hi.of_empty kind).add .unique)
  | lock kind this =>
      obtain ⟨g, hg⟩ := hw
      have hb := lockGuard_balances kind (hi.sound _ _ _ hg)
      have hsafe := hi.safe_apply hg hb (lockGuard_strong kind g)
      cases kind with
      | unique =>
          simp only [step, hg]
          exact hsafe
      | shared =>
          simp only [step, hg]
          exact hsafe
  | unlock kind this =>
      obtain ⟨g, hg⟩ := hw
      have hsound := hi.sound _ _ _ hg
      cases kind with
      | unique =>
          simp only [step, hg]
          exact hi.safe_apply hg (UniqueLock.unlock_balances hsound) (UniqueLock.unlock_strong g)
      | shared =>
          obtain ⟨e, he, hb⟩ := SharedLock.exists_unlock hsound
          simp only [step, hg, he, Option.bind_eq_bind, Option.bind_some]
          exact hi.safe_apply hg hb (SharedLock.unlock_strong he)
  | moveConstruct kind other =>
      obtain ⟨g, hg⟩ := hw
      simp only [step, State.moveOut_eq hg]
      exact safe_returns (hi.moveConstruct hg)
  | moveAssign kind this other =>
      obtain ⟨⟨g, hg⟩, gu, hu⟩ := hw
      cases kind with
      | unique =>
          obtain ⟨s', hs', hi'⟩ := hi.moveAssignUnique hg hu
          simp only [step, hs']
          exact safe_returns hi'
      | shared =>
          obtain ⟨s', hs', hi'⟩ := hi.moveAssignShared hg hu
          simp only [step, hs']
          exact safe_returns hi'
  | swap kind this other =>
      obtain ⟨⟨g, hg⟩, gu, hu⟩ := hw
      simp only [step, hg, hu]
      exact safe_returns (hi.swap hg hu)
  | release kind this =>
      obtain ⟨g, hg⟩ := hw
      simp only [step, hg]
      refine ⟨_, _, rfl, hi.update hg (releaseGuard_balances kind (hi.sound _ _ _ hg)), ?_⟩
      intro e he
      cases he
  | destroy kind this =>
      obtain ⟨g, hg⟩ := hw
      have hsound := hi.sound _ _ _ hg
      cases kind with
      | unique =>
          simp only [step, hg]
          exact safe_returns (hi.remove hg (UniqueLock.destroy_balances hsound))
      | shared =>
          obtain ⟨events, hevents, hb⟩ := SharedLock.exists_destroy hsound
          simp only [step, hg, hevents, Option.bind_eq_bind, Option.bind_some]
          exact safe_returns (hi.remove hg hb)

end Step

/-! ## Sequences of operations -/

section Runs

variable [DecidableEq M] {s : State M}

/-- The state after an operation, whether it returns or throws. -/
def next (s : State M) (op : Op M) : Option (State M) := (step s op).map Prod.fst

theorem inv_of_reachable (h : Reachable next State.start s) : Inv .unique {} s := by
  refine h.invariant (inv_start .unique) ?_
  intro t op t' hi ht
  obtain ⟨⟨t', o⟩, hstep, rfl⟩ := Option.map_eq_some_iff.mp ht
  obtain ⟨u, o', hsafe, hi', -⟩ := hi.step_safe (wellTyped_of_step hstep)
  rw [hstep] at hsafe
  cases hsafe
  exact hi'

/-- After every sequence of operations: on every mutex, and through the guards of
    whichever classes, the acquisitions without the releases are the live guards
    that own it and those that were detached with `release()`; a guard that owns has
    a mutex; an operation that throws changes nothing; and none uses a null device. -/
theorem guards_balanced (h : Reachable next State.start s) :
    (∀ p m, (count p m .acquired s.log : Int) - count p m .released s.log
        = owners p m s + count p m .detached s.log) ∧
      (∀ kind i g, s.guardAt kind i = some g → g.owns = true → ∃ m, g.device = some m) ∧
      (∀ op s' e, step s op = some (s', .throws e) → s' = s) ∧
      ∀ op, WellTyped s op → ∃ r, step s op = some r := by
  have hi := inv_of_reachable h
  refine ⟨fun p m => ?_, hi.sound, ?_, ?_⟩
  · have hbalance := hi.balance p m
    rw [weight_empty] at hbalance
    omega
  · intro op s' e hstep
    obtain ⟨t, o, hsafe, -, hthrows⟩ := hi.step_safe (wellTyped_of_step hstep)
    rw [hstep] at hsafe
    cases hsafe
    exact hthrows e rfl
  · intro op hw
    obtain ⟨s', o, hsafe, -, -⟩ := hi.step_safe hw
    exact ⟨_, hsafe⟩

/-- One guard assigned to another that owns a mutex, and a third that is detached. -/
def assignedAndDetached : List (Op Nat) :=
  [.construct .unique 0, .construct .unique 1, .moveAssign .unique 0 1,
    .construct .shared 0, .release .shared 2]

def afterAssignedAndDetached : State Nat where
  places := [some (.unique, ⟨some 1, true⟩), some (.unique, {}), some (.shared, {})]
  log :=
    [⟨.acquired, .unique, 0⟩, ⟨.acquired, .unique, 1⟩, ⟨.released, .unique, 0⟩,
      ⟨.acquired, .shared, 0⟩, ⟨.detached, .shared, 0⟩]

theorem guards_balanced_sample :
    run next State.start assignedAndDetached = some afterAssignedAndDetached ∧
      ∀ m, (count (fun _ => true) m .acquired afterAssignedAndDetached.log : Int)
          - count (fun _ => true) m .released afterAssignedAndDetached.log
        = owners (fun _ => true) m afterAssignedAndDetached
          + count (fun _ => true) m .detached afterAssignedAndDetached.log :=
  ⟨rfl, (guards_balanced ⟨assignedAndDetached, rfl⟩).1 fun _ => true⟩

end Runs

end Abt
