/-
  Scord.Abt.LockGuards

  The lock guards of the Argobots wrappers (`unique_lock` and `shared_lock` in
  `shared_mutex.hpp`), and what their member functions do to the counts of the
  mutexes.

  A mutex appears by what is done to it, as a log of acquisitions and releases.
  The operations that the source builds from temporaries, swaps and destructors
  are built so here.
-/
namespace Abt

variable {M : Type}

/-! ## Guards -/

/-- `unique_lock` or `shared_lock`: which class a guard is of, and which of its two
    ways a mutex is acquired and released in. -/
inductive Kind
  | unique
  | shared
deriving DecidableEq, Repr

/-- What happens to a mutex.  A guard that owns it and gives it up with `release()`
    leaves it acquired. -/
inductive Action
  | acquired
  | released
  | detached
deriving DecidableEq, Repr

structure Event (M : Type) where
  action : Action
  kind : Kind
  mutex : M
deriving DecidableEq, Repr

/-- `std::errc`, as far as the guards throw it. -/
inductive Errc
  | operationNotPermitted
  | resourceDeadlockWouldOccur
deriving DecidableEq, Repr

/-- `m_device` and `m_owns`; the default is what the default constructor makes. -/
structure Guard (M : Type) where
  device : Option M := none
  owns : Bool := false
deriving DecidableEq, Repr

/-- A member function of a guard: the guard afterwards, what it does to mutexes, and
    what it throws. -/
structure Effect (M : Type) where
  guard : Guard M
  events : List (Event M) := []
  thrown : Option Errc := none

/-- `lock()`, which both classes have, with the checks in the same order. -/
def lockGuard (kind : Kind) (g : Guard M) : Effect M :=
  match g.device with
  | none => { guard := g, thrown := some .operationNotPermitted }
  | some m =>
      if g.owns then { guard := g, thrown := some .resourceDeadlockWouldOccur }
      else { guard := { g with owns := true }, events := [⟨.acquired, kind, m⟩] }

/-- `release()`: the guard is empty afterwards, and its mutex is left as it is. -/
def releaseGuard (kind : Kind) (g : Guard M) : Effect M where
  guard := {}
  events :=
    match g.device with
    | some m => if g.owns then [⟨.detached, kind, m⟩] else []
    | none => []

namespace UniqueLock

def lock (g : Guard M) : Effect M := lockGuard .unique g

/-- `unique_lock(m)`, which sets `m_owns` after `lock()` again. -/
def construct (m : M) : Effect M :=
  let e := lock { device := some m }
  { e with guard := { e.guard with owns := true } }

def unlock (g : Guard M) : Effect M :=
  if g.owns = false then { guard := g, thrown := some .operationNotPermitted }
  else
    match g.device with
    | some m => { guard := { g with owns := false }, events := [⟨.released, .unique, m⟩] }
    -- the device is null, and the guard goes on owning
    | none => { guard := g }

/-- `~unique_lock()` -/
def destroy (g : Guard M) : List (Event M) := if g.owns then (unlock g).events else []

end UniqueLock

namespace SharedLock

/-- `shared_lock(m)` -/
def construct (m : M) : Effect M where
  guard := { device := some m, owns := true }
  events := [⟨.acquired, .shared, m⟩]

def lock (g : Guard M) : Effect M := lockGuard .shared g

/-- Nothing comes of it if the device is null, and used. -/
def unlock (g : Guard M) : Option (Effect M) :=
  if g.owns = false then some { guard := g, thrown := some .resourceDeadlockWouldOccur }
  else g.device.map fun m =>
    { guard := { g with owns := false }, events := [⟨.released, .shared, m⟩] }

/-- `~shared_lock()` -/
def destroy (g : Guard M) : Option (List (Event M)) :=
  if g.owns then g.device.map fun m => [⟨.released, .shared, m⟩] else some []

end SharedLock

/-! ## The guards of a program -/

/-- The places of the guards, empty after their destruction, and the log of the
    mutexes. -/
structure State (M : Type) where
  places : List (Option (Kind × Guard M))
  log : List (Event M)

namespace State

def start : State M := ⟨[], []⟩

/-- The guard of this class at a place. -/
def guardAt (s : State M) (kind : Kind) (i : Nat) : Option (Guard M) :=
  match s.places[i]? with
  | some (some (k, g)) => if k = kind then some g else none
  | _ => none

/-- A write to the fields of a guard. -/
def put (s : State M) (kind : Kind) (i : Nat) (g : Guard M) : State M :=
  { s with places := s.places.set i (some (kind, g)) }

/-- The end of a guard's life. -/
def remove (s : State M) (i : Nat) : State M := { s with places := s.places.set i none }

/-- The beginning of one. -/
def add (s : State M) (kind : Kind) (g : Guard M) : State M :=
  { s with places := s.places ++ [some (kind, g)] }

def perform (s : State M) (events : List (Event M)) : State M := { s with log := s.log ++ events }

end State

inductive Op (M : Type)
  | construct (kind : Kind) (m : M)
  | default (kind : Kind)
  | lock (kind : Kind) (this : Nat)
  | unlock (kind : Kind) (this : Nat)
  | moveConstruct (kind : Kind) (other : Nat)
  | moveAssign (kind : Kind) (this other : Nat)
  | swap (kind : Kind) (this other : Nat)
  | release (kind : Kind) (this : Nat)
  | destroy (kind : Kind) (this : Nat)

inductive Outcome (M : Type)
  | returns
  | returnsMutex (device : Option M)
  | throws (e : Errc)
deriving DecidableEq, Repr

namespace State

/-- A member function that works on its own guard. -/
def apply (s : State M) (kind : Kind) (this : Nat) (e : Effect M) : State M × Outcome M :=
  ((s.put kind this e.guard).perform e.events, e.thrown.elim .returns .throws)

/-- `swap`, of a guard with a temporary: the temporary afterwards. -/
def swapTemp (s : State M) (kind : Kind) (temp : Guard M) (this : Nat) :
    Option (Guard M × State M) := do
  let g ← s.guardAt kind this
  return (g, s.put kind this temp)

/-- `unique_lock(unique_lock&& u)`, which takes the fields of `u`, and
    `shared_lock(shared_lock&& sl)`, which swaps those of a default guard for them:
    the new guard. -/
def moveOut (s : State M) (kind : Kind) (u : Nat) : Option (Guard M × State M) :=
  match kind with
  | .unique => do
      let g ← s.guardAt .unique u
      return (g, s.put .unique u {})
  | .shared => s.swapTemp .shared {} u

/-- `operator=(unique_lock&& u)` -/
def moveAssignUnique (s : State M) (this u : Nat) : Option (State M) := do
  let g ← s.guardAt .unique this
  let e : Effect M := if g.owns then UniqueLock.unlock g else { guard := g }
  let s := (s.put .unique this e.guard).perform e.events
  -- `unique_lock(std::move(u)).swap(*this)`
  let (temp, s) ← s.moveOut .unique u
  let (temp, s) ← s.swapTemp .unique temp this
  let s := s.perform (UniqueLock.destroy temp)
  return s.put .unique u {}

/-- `operator=(shared_lock&& sl)` -/
def moveAssignShared (s : State M) (this sl : Nat) : Option (State M) := do
  -- `shared_lock(std::move(sl)).swap(*this)`
  let (temp, s) ← s.moveOut .shared sl
  let (temp, s) ← s.swapTemp .shared temp this
  -- the temporary has what the guard had, and its destructor gives it up
  let events ← SharedLock.destroy temp
  return s.perform events

end State

/-- One operation; there is none without guards of the class at the places, and
    nothing comes of one that uses a null device. -/
def step (s : State M) : Op M → Option (State M × Outcome M)
  | .construct .unique m =>
      let e := UniqueLock.construct m
      some ((s.add .unique e.guard).perform e.events, .returns)
  | .construct .shared m =>
      let e := SharedLock.construct m
      some ((s.add .shared e.guard).perform e.events, .returns)
  | .default kind => some (s.add kind {}, .returns)
  | .lock .unique this => do
      let g ← s.guardAt .unique this
      return s.apply .unique this (UniqueLock.lock g)
  | .lock .shared this => do
      let g ← s.guardAt .shared this
      return s.apply .shared this (SharedLock.lock g)
  | .unlock .unique this => do
      let g ← s.guardAt .unique this
      return s.apply .unique this (UniqueLock.unlock g)
  | .unlock .shared this => do
      let g ← s.guardAt .shared this
      let e ← SharedLock.unlock g
      return s.apply .shared this e
  | .moveConstruct kind other => do
      let (g, s) ← s.moveOut kind other
      return (s.add kind g, .returns)
  | .moveAssign .unique this other => do
      let s ← s.moveAssignUnique this other
      return (s, .returns)
  | .moveAssign .shared this other => do
      let s ← s.moveAssignShared this other
      return (s, .returns)
  | .swap kind this other => do
      let g ← s.guardAt kind this
      let u ← s.guardAt kind other
      return ((s.put kind this u).put kind other g, .returns)
  | .release kind this => do
      let g ← s.guardAt kind this
      let e := releaseGuard kind g
      return ((s.put kind this e.guard).perform e.events, .returnsMutex g.device)
  | .destroy .unique this => do
      let g ← s.guardAt .unique this
      return ((s.remove this).perform (UniqueLock.destroy g), .returns)
  | .destroy .shared this => do
      let g ← s.guardAt .shared this
      let events ← SharedLock.destroy g
      return ((s.remove this).perform events, .returns)

/-! ## Counting -/

/-- A guard that owns has a mutex. -/
def Guard.Sound (g : Guard M) : Prop := g.owns = true → ∃ m, g.device = some m

theorem Guard.sound_empty : ({} : Guard M).Sound := fun h => by cases h

/-- A sound guard owns nothing, or a mutex. -/
theorem Guard.Sound.cases {g : Guard M} (h : g.Sound) :
    (∃ device, g = ⟨device, false⟩) ∨ ∃ m, g = ⟨some m, true⟩ := by
  obtain ⟨device, owns⟩ := g
  cases owns with
  | false => exact Or.inl ⟨device, rfl⟩
  | true =>
      obtain ⟨m, rfl⟩ : ∃ m, device = some m := h rfl
      exact Or.inr ⟨m, rfl⟩

section Counts

variable [DecidableEq M] (p : Kind → Bool) (m : M)

/-- How often this happens to the mutex, through guards of the classes in `p`. -/
def count (action : Action) (events : List (Event M)) : Nat :=
  events.countP fun e => decide (e.action = action ∧ p e.kind = true ∧ e.mutex = m)

/-- Whether the guard owns the mutex, as a number. -/
def weight (kind : Kind) (g : Guard M) : Nat :=
  if p kind = true ∧ g.owns = true ∧ g.device = some m then 1 else 0

/-- At this place there is a guard of these classes that owns the mutex. -/
def ownedAt (place : Option (Kind × Guard M)) : Bool :=
  place.any fun x => decide (p x.1 = true ∧ x.2.owns = true ∧ x.2.device = some m)

/-- The live guards of these classes that own the mutex. -/
def owners (s : State M) : Nat := s.places.countP (ownedAt p m)

@[simp] theorem count_nil (action : Action) : count p m action [] = 0 := rfl

@[simp] theorem count_append (action : Action) (events events' : List (Event M)) :
    count p m action (events ++ events') = count p m action events + count p m action events' :=
  List.countP_append

@[simp] theorem count_singleton (action : Action) (e : Event M) :
    count p m action [e]
      = if e.action = action ∧ p e.kind = true ∧ e.mutex = m then 1 else 0 := by
  simp [count, List.countP_singleton]

@[simp] theorem weight_empty (kind : Kind) : weight p m kind {} = 0 := by
  simp [weight]

end Counts

namespace State

variable {s : State M} {kind k : Kind} {i j : Nat} {g g' : Guard M}

theorem guardAt_eq_some : s.guardAt kind i = some g ↔ s.places[i]? = some (some (kind, g)) := by
  unfold guardAt
  split
  · next k g₀ hplace =>
      rw [hplace]
      by_cases hk : k = kind <;> simp [hk]
  · next hplace =>
      refine ⟨fun h => (nomatch h), fun h => absurd h ?_⟩
      exact hplace kind g

/-- A place after a write to another guard, or to the one that is there. -/
theorem guardAt_put (h : s.guardAt kind i = some g) :
    (s.put kind i g').guardAt k j
      = if i = j then (if kind = k then some g' else none) else s.guardAt k j := by
  have hlt : i < s.places.length := by
    obtain ⟨hlt, -⟩ := List.getElem?_eq_some_iff.mp (guardAt_eq_some.mp h)
    exact hlt
  unfold guardAt put
  rw [List.getElem?_set]
  by_cases hij : i = j
  · subst hij
    simp [hlt]
  · simp [hij]

/-- Among the guards of one class. -/
theorem guardAt_put_kind (h : s.guardAt kind i = some g) :
    (s.put kind i g').guardAt kind j = if i = j then some g' else s.guardAt kind j := by
  rw [guardAt_put h, if_pos rfl]

/-- A write to a guard makes no other one. -/
theorem exists_of_guardAt_put (h : s.guardAt kind i = some g)
    (hput : ∃ u, (s.put kind i g').guardAt kind j = some u) : ∃ u, s.guardAt kind j = some u := by
  obtain ⟨u, hu⟩ := hput
  rw [guardAt_put_kind h] at hu
  split at hu
  · next hij => exact ⟨g, hij ▸ h⟩
  · exact ⟨u, hu⟩

@[simp] theorem guardAt_perform (events : List (Event M)) :
    (s.perform events).guardAt kind i = s.guardAt kind i := rfl

theorem sound_put (hsound : ∀ k i g, s.guardAt k i = some g → g.Sound)
    (hg : s.guardAt kind i = some g) (hg' : g'.Sound) :
    ∀ k j h, (s.put kind i g').guardAt k j = some h → h.Sound := by
  intro k j h hh
  rw [guardAt_put hg] at hh
  split at hh
  · split at hh
    · cases hh
      exact hg'
    · cases hh
  · exact hsound k j h hh

theorem sound_add (hsound : ∀ k i g, s.guardAt k i = some g → g.Sound) (hg : g.Sound) :
    ∀ k j h, (s.add kind g).guardAt k j = some h → h.Sound := by
  intro k j h hh
  have hmem : some (k, h) ∈ s.places ++ [some (kind, g)] :=
    List.mem_of_getElem? (guardAt_eq_some.mp hh)
  rcases List.mem_append.mp hmem with hold | hnew
  · obtain ⟨i, hi⟩ := List.mem_iff_getElem?.mp hold
    exact hsound k i h (guardAt_eq_some.mpr hi)
  · cases List.mem_singleton.mp hnew
    exact hg

theorem sound_remove (hsound : ∀ k i g, s.guardAt k i = some g → g.Sound) :
    ∀ k j h, (s.remove i).guardAt k j = some h → h.Sound := by
  intro k j h hh
  have hplace := guardAt_eq_some.mp hh
  unfold remove at hplace
  rw [List.getElem?_set] at hplace
  split at hplace
  · split at hplace <;> cases hplace
  · exact hsound k j h (guardAt_eq_some.mpr hplace)

/-- Writing what is there already. -/
theorem put_self (h : s.guardAt kind i = some g) : s.put kind i g = s := by
  obtain ⟨hlt, hget⟩ := List.getElem?_eq_some_iff.mp (guardAt_eq_some.mp h)
  unfold put
  rw [← hget, List.set_getElem_self hlt]

theorem perform_nil (s : State M) : s.perform [] = s := by
  unfold perform
  rw [List.append_nil]

theorem swapTemp_eq {temp : Guard M} (hg : s.guardAt kind i = some g) :
    s.swapTemp kind temp i = some (g, s.put kind i temp) := by
  unfold swapTemp
  rw [hg]
  rfl

theorem exists_of_swapTemp {temp : Guard M} {r : Guard M × State M}
    (h : s.swapTemp kind temp i = some r) :
    ∃ g, s.guardAt kind i = some g ∧ r = (g, s.put kind i temp) := by
  obtain ⟨g, hg, hr⟩ := Option.bind_eq_some_iff.mp h
  exact ⟨g, hg, (Option.some.inj hr).symm⟩

theorem moveOut_eq (hg : s.guardAt kind i = some g) :
    s.moveOut kind i = some (g, s.put kind i {}) := by
  cases kind with
  | unique =>
      unfold moveOut
      rw [hg]
      rfl
  | shared => exact swapTemp_eq hg

theorem exists_of_moveOut {r : Guard M × State M} (h : s.moveOut kind i = some r) :
    ∃ g, s.guardAt kind i = some g ∧ r = (g, s.put kind i {}) := by
  cases kind with
  | unique =>
      obtain ⟨g, hg, hr⟩ := Option.bind_eq_some_iff.mp h
      exact ⟨g, hg, (Option.some.inj hr).symm⟩
  | shared => exact exists_of_swapTemp h

variable [DecidableEq M] {p : Kind → Bool} {m : M}

theorem owners_set {place : Option (Kind × Guard M)} (h : s.places[i]? = some place)
    (place' : Option (Kind × Guard M)) :
    owners p m { s with places := s.places.set i place' } + (if ownedAt p m place then 1 else 0)
      = owners p m s + if ownedAt p m place' then 1 else 0 := by
  obtain ⟨hlt, hget⟩ := List.getElem?_eq_some_iff.mp h
  -- what is taken off was counted
  have hle := List.boole_getElem_le_countP (p := ownedAt p m) hlt
  unfold owners
  rw [List.countP_set hlt, hget]
  rw [hget] at hle
  omega

/-- A write to a guard. -/
theorem owners_put (h : s.guardAt kind i = some g) (g' : Guard M) :
    owners p m (s.put kind i g') + weight p m kind g = owners p m s + weight p m kind g' := by
  have hset := owners_set (p := p) (m := m) (guardAt_eq_some.mp h) (some (kind, g'))
  simpa [put, weight, ownedAt] using hset

/-- The end of a guard. -/
theorem owners_remove (h : s.guardAt kind i = some g) :
    owners p m (s.remove i) + weight p m kind g = owners p m s := by
  have hset := owners_set (p := p) (m := m) (guardAt_eq_some.mp h) none
  simpa [remove, weight, ownedAt] using hset

/-- A new guard. -/
theorem owners_add : owners p m (s.add kind g) = owners p m s + weight p m kind g := by
  unfold owners add weight
  rw [List.countP_append]
  simp [List.countP_singleton, ownedAt]

@[simp] theorem owners_perform (events : List (Event M)) :
    owners p m (s.perform events) = owners p m s := rfl

end State

/-! ## What one member function does -/

section Effects

variable [DecidableEq M]

/-- What a guard owned before and what it has acquired is what it has released or
    detached and what it owns now. -/
structure Balances (kind : Kind) (g : Guard M) (events : List (Event M)) (g' : Guard M) :
    Prop where
  count : ∀ p m, weight p m kind g + count p m .acquired events
    = count p m .released events + count p m .detached events + weight p m kind g'
  sound : g'.Sound

variable {kind : Kind} {g : Guard M} {m : M}

theorem balances_refl (kind : Kind) (h : g.Sound) : Balances kind g [] g :=
  ⟨fun p m => by simp, h⟩

/-- A guard that owns nothing may be emptied. -/
theorem balances_clear (howns : g.owns = false) : Balances kind g [] {} :=
  ⟨fun p m => by simp [weight, howns], Guard.sound_empty⟩

theorem balances_acquired (howns : g.owns = false) (hdevice : g.device = some m) :
    Balances kind g [⟨.acquired, kind, m⟩] { g with owns := true } := by
  refine ⟨fun p m' => ?_, fun _ => ⟨m, hdevice⟩⟩
  simp [weight, howns, hdevice]

theorem balances_released (howns : g.owns = true) (hdevice : g.device = some m) :
    Balances kind g [⟨.released, kind, m⟩] { g with owns := false } := by
  refine ⟨fun p m' => ?_, fun h => by cases h⟩
  simp [weight, howns, hdevice]

theorem lockGuard_balances (kind : Kind) (h : g.Sound) :
    Balances kind g (lockGuard kind g).events (lockGuard kind g).guard := by
  unfold lockGuard
  split
  · exact balances_refl kind h
  · next m hdevice =>
      cases howns : g.owns with
      | true => exact balances_refl kind h
      | false => exact balances_acquired howns hdevice

theorem releaseGuard_balances (kind : Kind) (h : g.Sound) :
    Balances kind g (releaseGuard kind g).events {} := by
  refine ⟨fun p m' => ?_, Guard.sound_empty⟩
  rcases h.cases with ⟨device, rfl⟩ | ⟨m, rfl⟩
  · cases device <;> simp [releaseGuard, weight]
  · simp [releaseGuard, weight]

namespace UniqueLock

theorem unlock_balances (h : g.Sound) :
    Balances .unique g (unlock g).events (unlock g).guard := by
  rcases h.cases with ⟨device, rfl⟩ | ⟨m, rfl⟩
  · exact balances_refl .unique h
  · exact balances_released rfl rfl

/-- The destructor gives up what the guard owns. -/
theorem destroy_balances (h : g.Sound) : Balances .unique g (destroy g) {} := by
  refine ⟨fun p m' => ?_, Guard.sound_empty⟩
  rcases h.cases with ⟨device, rfl⟩ | ⟨m, rfl⟩
  · simp [destroy, weight]
  · simp [destroy, unlock, weight]

end UniqueLock

namespace SharedLock

/-- No null device is used, -/
theorem exists_unlock (h : g.Sound) :
    ∃ e, unlock g = some e ∧ Balances .shared g e.events e.guard := by
  rcases h.cases with ⟨device, rfl⟩ | ⟨m, rfl⟩
  · exact ⟨_, rfl, balances_refl .shared h⟩
  · exact ⟨_, rfl, balances_released rfl rfl⟩

/-- nor by the destructor. -/
theorem exists_destroy (h : g.Sound) :
    ∃ events, destroy g = some events ∧ Balances .shared g events {} := by
  rcases h.cases with ⟨device, rfl⟩ | ⟨m, rfl⟩
  · exact ⟨[], rfl, fun p m => by simp [weight], Guard.sound_empty⟩
  · exact ⟨_, rfl, fun p m' => by simp [weight], Guard.sound_empty⟩

end SharedLock

end Effects

end Abt
