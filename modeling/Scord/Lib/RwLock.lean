/-
  Scord.Lib.RwLock

  Methods of shared objects under readers-writer locks, run by any number of
  threads.

  Every lock protects one part of the state.  A method reaches that part only
  while it holds the lock, in single accesses, and `step` lets one thread go on
  by one of them.  In `atomicStep` a thread goes through a whole critical section
  at once.  What the locks say about their holders is `Counted`, and kept.
-/
import Mathlib.Logic.Function.Basic
import Scord.Lib.StepSystem

namespace RwLock

open StepSystem

/-! ## Locks -/

/-- A readers-writer lock: what it knows, and its operations.  Whoever gets `none` has
    to wait.  Of whether a writer is in, and how many readers are, the operations say
    as much as it takes for a writer to be alone. -/
structure Lock where
  State : Type
  free : State
  rdlock : State → Option State
  wrlock : State → Option State
  /-- the one operation to leave -/
  unlock : State → State
  writer : State → Bool
  readers : State → Nat
  writer_free : writer free = false
  readers_free : readers free = 0
  of_rdlock : ∀ {l l'}, rdlock l = some l' →
    writer l = false ∧ writer l' = false ∧ readers l' = readers l + 1
  of_wrlock : ∀ {l l'}, wrlock l = some l' →
    writer l = false ∧ readers l = 0 ∧ writer l' = true ∧ readers l' = 0
  unlock_writer : ∀ {l}, writer l = true →
    writer (unlock l) = false ∧ readers (unlock l) = readers l
  unlock_reader : ∀ {l}, writer l = false →
    writer (unlock l) = false ∧ readers (unlock l) = readers l - 1

/-- A reader gets in unless a writer is in, whoever else is waiting, and a writer gets
    in when nobody is. -/
structure Lock.Admits (K : Lock) : Prop where
  reader : ∀ l, K.writer l = false → ∃ l', K.rdlock l = some l'
  writer : ∀ l, K.writer l = false → K.readers l = 0 → ∃ l', K.wrlock l = some l'

/-- Who is in. -/
structure Count where
  writer : Bool
  readers : Nat

/-- The lock that knows who is in, and nothing else. -/
def Lock.counting : Lock where
  State := Count
  free := ⟨false, 0⟩
  rdlock l := if l.writer then none else some { l with readers := l.readers + 1 }
  wrlock l := if l.writer = false ∧ l.readers = 0 then some { l with writer := true } else none
  -- the flag tells who leaves
  unlock l := if l.writer then { l with writer := false } else { l with readers := l.readers - 1 }
  writer := Count.writer
  readers := Count.readers
  writer_free := rfl
  readers_free := rfl
  of_rdlock := by
    rintro ⟨writer, readers⟩ l' h
    cases writer with
    | true => cases h
    | false =>
        cases h
        exact ⟨rfl, rfl, rfl⟩
  of_wrlock := by
    rintro ⟨writer, readers⟩ l' h
    obtain ⟨⟨hw, hr⟩, h⟩ := Option.ite_none_right_eq_some.mp h
    cases h
    exact ⟨hw, hr, rfl, hr⟩
  unlock_writer := by
    rintro ⟨writer, readers⟩ rfl
    exact ⟨rfl, rfl⟩
  unlock_reader := by
    rintro ⟨writer, readers⟩ rfl
    exact ⟨rfl, rfl⟩

theorem Lock.counting_admits : Lock.counting.Admits where
  reader := by
    rintro ⟨writer, readers⟩ rfl
    exact ⟨_, rfl⟩
  writer := by
    rintro ⟨writer, readers⟩ rfl rfl
    exact ⟨_, rfl⟩

/-! ## Methods -/

/-- What a thread holds: nothing, one lock shared, which it may have taken `again`
    more times, or one lock for itself. -/
inductive Hold (L : Type)
  | nothing
  | shared (ℓ : L) (again : Nat)
  | unique (ℓ : L)

/-- The rest of a method, by what its thread holds when it gets there.  Outside the
    locks there are the atomic variables `α`; a lock protects a `σ ℓ`; the method
    returns a `ρ`. -/
inductive Code {L : Type} (α : Type) (σ : L → Type) (ρ : Type) : Hold L → Type
  | ret (r : ρ) : Code α σ ρ .nothing
  | atomic (write : α → α) (next : α → Code α σ ρ .nothing) : Code α σ ρ .nothing
  | rdlock (ℓ : L) (next : Code α σ ρ (.shared ℓ 0)) : Code α σ ρ .nothing
  | wrlock (ℓ : L) (next : Code α σ ρ (.unique ℓ)) : Code α σ ρ .nothing
  | read {ℓ : L} {n : Nat} (next : σ ℓ → Code α σ ρ (.shared ℓ n)) : Code α σ ρ (.shared ℓ n)
  | rdlockAgain {ℓ : L} {n : Nat} (next : Code α σ ρ (.shared ℓ (n + 1))) :
      Code α σ ρ (.shared ℓ n)
  | unlockAgain {ℓ : L} {n : Nat} (next : Code α σ ρ (.shared ℓ n)) :
      Code α σ ρ (.shared ℓ (n + 1))
  | unlockShared {ℓ : L} (next : Code α σ ρ .nothing) : Code α σ ρ (.shared ℓ 0)
  | access {ℓ : L} (write : σ ℓ → σ ℓ) (next : σ ℓ → Code α σ ρ (.unique ℓ)) :
      Code α σ ρ (.unique ℓ)
  | unlock {ℓ : L} (next : Code α σ ρ .nothing) : Code α σ ρ (.unique ℓ)

/-- A thread, with the rest of the method that it runs, if any. -/
abbrev Thread {L : Type} (α : Type) (σ : L → Type) (ρ : Type) := Option (Sigma (Code α σ ρ))

/-- A call of a method, or a return from it, by the thread at this place. -/
inductive Visible (μ ρ : Type)
  | called (i : Nat) (m : μ)
  | returned (i : Nat) (r : ρ)

inductive Event (μ : Type)
  | call (i : Nat) (m : μ)
  | goOn (i : Nat)

variable {K : Lock} {L : Type} [DecidableEq L] {α : Type} {σ : L → Type} {ρ μ : Type}

/-- What the locks protect. -/
abbrev Shared (σ : L → Type) := (ℓ : L) → σ ℓ

/-- The rest of the critical section that a thread is in: what it leaves behind, and
    how the method goes on after it. -/
def settle : {h : Hold L} → Code α σ ρ h → Shared σ → Shared σ × Code α σ ρ .nothing
  | .nothing, c, s => (s, c)
  | .shared ℓ _, .read next, s => settle (next (s ℓ)) s
  | .shared _ _, .rdlockAgain next, s => settle next s
  | .shared _ _, .unlockAgain next, s => settle next s
  | .shared _ _, .unlockShared next, s => (s, next)
  | .unique ℓ, .access write next, s => settle (next (s ℓ)) (Function.update s ℓ (write (s ℓ)))
  | .unique _, .unlock next, s => (s, next)

/-! ## Access by access -/

/-- The threads, and everything that they share. -/
structure State (K : Lock) {L : Type} (α : Type) (σ : L → Type) (ρ μ : Type) where
  atomics : α
  shared : Shared σ
  locks : L → K.State
  threads : List (Thread α σ ρ)
  history : List (Visible μ ρ)

namespace State

/-- `n` threads that run nothing yet. -/
def init (a : α) (s : Shared σ) (n : Nat) : State K α σ ρ μ where
  atomics := a
  shared := s
  locks _ := K.free
  threads := List.replicate n none
  history := []

/-- The thread at `i` has come to `c`. -/
def put (s : State K α σ ρ μ) (i : Nat) {h : Hold L} (c : Code α σ ρ h) : State K α σ ρ μ :=
  { s with threads := s.threads.set i (some ⟨h, c⟩) }

def setLock (s : State K α σ ρ μ) (ℓ : L) (l : K.State) : State K α σ ρ μ :=
  { s with locks := Function.update s.locks ℓ l }

/-- One access or one operation of a lock, by the thread at `i`, which may have to
    wait for the lock. -/
def goOn (s : State K α σ ρ μ) (i : Nat) :
    {h : Hold L} → Code α σ ρ h → Option (State K α σ ρ μ)
  | .nothing, .ret r =>
      some { s with
        threads := s.threads.set i none
        history := .returned i r :: s.history }
  | .nothing, .atomic write next =>
      some { s.put i (next s.atomics) with atomics := write s.atomics }
  | .nothing, .rdlock ℓ next => (K.rdlock (s.locks ℓ)).map fun l => (s.put i next).setLock ℓ l
  | .nothing, .wrlock ℓ next => (K.wrlock (s.locks ℓ)).map fun l => (s.put i next).setLock ℓ l
  | .shared ℓ _, .read next => some (s.put i (next (s.shared ℓ)))
  | .shared ℓ _, .rdlockAgain next =>
      (K.rdlock (s.locks ℓ)).map fun l => (s.put i next).setLock ℓ l
  | .shared ℓ _, .unlockAgain next => some ((s.put i next).setLock ℓ (K.unlock (s.locks ℓ)))
  | .shared ℓ _, .unlockShared next => some ((s.put i next).setLock ℓ (K.unlock (s.locks ℓ)))
  | .unique ℓ, .access write next =>
      some { s.put i (next (s.shared ℓ)) with
        shared := Function.update s.shared ℓ (write (s.shared ℓ)) }
  | .unique ℓ, .unlock next => some ((s.put i next).setLock ℓ (K.unlock (s.locks ℓ)))

end State

/-- An idle thread calls a method, or a thread that runs one goes on. -/
def step (method : μ → Code α σ ρ .nothing) (s : State K α σ ρ μ) :
    Event μ → Option (State K α σ ρ μ)
  | .call i m =>
      match s.threads[i]? with
      | some none => some { s.put i (method m) with history := .called i m :: s.history }
      | _ => none
  | .goOn i =>
      match s.threads[i]? with
      | some (some ⟨_, c⟩) => s.goOn i c
      | _ => none

section Step

variable {method : μ → Code α σ ρ .nothing} {s s' : State K α σ ρ μ} {i : Nat}

theorem step_call_eq_some {m : μ} :
    step method s (.call i m) = some s' ↔
      s.threads[i]? = some none ∧
        s' = { s.put i (method m) with history := .called i m :: s.history } := by
  simp only [step]
  rcases s.threads[i]? with - | - | c <;> simp [eq_comm]

theorem step_goOn_eq_some :
    step method s (.goOn i) = some s' ↔
      ∃ h, ∃ c : Code α σ ρ h, s.threads[i]? = some (some ⟨h, c⟩) ∧ s.goOn i c = some s' := by
  simp only [step]
  rcases s.threads[i]? with - | - | ⟨h, c⟩
  · simp
  · simp
  · refine ⟨fun hs => ⟨h, c, rfl, hs⟩, ?_⟩
    rintro ⟨h', c', heq, hs⟩
    cases heq
    exact hs

end Step

/-! ## Section by section -/

structure Atomic {L : Type} (α : Type) (σ : L → Type) (ρ μ : Type) where
  atomics : α
  shared : Shared σ
  threads : List (Option (Code α σ ρ .nothing))
  history : List (Visible μ ρ)

namespace Atomic

def init (a : α) (s : Shared σ) (n : Nat) : Atomic α σ ρ μ where
  atomics := a
  shared := s
  threads := List.replicate n none
  history := []

def put (t : Atomic α σ ρ μ) (i : Nat) (c : Code α σ ρ .nothing) : Atomic α σ ρ μ :=
  { t with threads := t.threads.set i (some c) }

/-- A whole critical section at once. -/
def runSection (t : Atomic α σ ρ μ) (i : Nat) {h : Hold L} (c : Code α σ ρ h) :
    Atomic α σ ρ μ :=
  { t.put i (settle c t.shared).2 with shared := (settle c t.shared).1 }

def goOn (t : Atomic α σ ρ μ) (i : Nat) : Code α σ ρ .nothing → Atomic α σ ρ μ
  | .ret r =>
      { t with
        threads := t.threads.set i none
        history := .returned i r :: t.history }
  | .atomic write next => { t.put i (next t.atomics) with atomics := write t.atomics }
  | .rdlock _ next => t.runSection i next
  | .wrlock _ next => t.runSection i next

end Atomic

def atomicStep (method : μ → Code α σ ρ .nothing) (t : Atomic α σ ρ μ) :
    Event μ → Option (Atomic α σ ρ μ)
  | .call i m =>
      match t.threads[i]? with
      | some none => some { t.put i (method m) with history := .called i m :: t.history }
      | _ => none
  | .goOn i =>
      match t.threads[i]? with
      | some (some c) => some (t.goOn i c)
      | _ => none

/-! ## What the rest of a section depends on -/

namespace Hold

/-- The lock that is held. -/
def lock? : Hold L → Option L
  | .nothing => none
  | .shared ℓ _ => some ℓ
  | .unique ℓ => some ℓ

/-- How many times `ℓ` is held shared. -/
def reads (ℓ : L) : Hold L → Nat
  | .nothing => 0
  | .shared ℓ' n => if ℓ' = ℓ then n + 1 else 0
  | .unique _ => 0

/-- How many times `ℓ` is held by the thread for itself. -/
def writes (ℓ : L) : Hold L → Nat
  | .nothing => 0
  | .shared _ _ => 0
  | .unique ℓ' => if ℓ' = ℓ then 1 else 0

end Hold

@[simp] theorem settle_nothing (c : Code α σ ρ .nothing) (s : Shared σ) :
    settle c s = (s, c) := by
  cases c <;> rfl

/-- Of a critical section, what follows depends on the part of its own lock only. -/
theorem settle_congr {h : Hold L} (c : Code α σ ρ h) {s s' : Shared σ}
    (heq : ∀ ℓ, h.lock? = some ℓ → s ℓ = s' ℓ) :
    (settle c s).2 = (settle c s').2 ∧
      ∀ ℓ, h.lock? = some ℓ → (settle c s).1 ℓ = (settle c s').1 ℓ := by
  induction c generalizing s s' with
  | ret r => exact ⟨rfl, nofun⟩
  | atomic write next => exact ⟨rfl, nofun⟩
  | rdlock ℓ next => exact ⟨rfl, nofun⟩
  | wrlock ℓ next => exact ⟨rfl, nofun⟩
  | @read ℓ n next ih =>
      have hℓ : s ℓ = s' ℓ := heq ℓ rfl
      simp only [settle, hℓ]
      exact ih (s' ℓ) heq
  | rdlockAgain next ih => exact ih heq
  | unlockAgain next ih => exact ih heq
  | unlockShared next => exact ⟨rfl, heq⟩
  | @access ℓ write next ih =>
      have hℓ : s ℓ = s' ℓ := heq ℓ rfl
      simp only [settle, hℓ]
      apply ih
      rintro ℓ' hℓ'
      obtain rfl : ℓ = ℓ' := Option.some.inj hℓ'
      simp
  | unlock next => exact ⟨rfl, heq⟩

/-- It leaves the parts of the other locks alone. -/
theorem settle_frame {h : Hold L} (c : Code α σ ρ h) (s : Shared σ) {ℓ : L}
    (hne : h.lock? ≠ some ℓ) : (settle c s).1 ℓ = s ℓ := by
  induction c generalizing s with
  | ret r => rfl
  | atomic write next => rfl
  | rdlock ℓ' next => rfl
  | wrlock ℓ' next => rfl
  | read next ih => exact ih _ s hne
  | rdlockAgain next ih => exact ih s hne
  | unlockAgain next ih => exact ih s hne
  | unlockShared next => rfl
  | @access ℓ' write next ih =>
      have hℓ : ℓ ≠ ℓ' := fun heq => hne (congrArg some heq.symm)
      show (settle (next (s ℓ')) _).1 ℓ = s ℓ
      rw [ih _ _ hne, Function.update_of_ne hℓ]
  | unlock next => rfl

/-- A reader leaves everything as it is. -/
theorem settle_of_not_unique {h : Hold L} (c : Code α σ ρ h) (s : Shared σ)
    (hno : ∀ ℓ, h ≠ .unique ℓ) : (settle c s).1 = s := by
  induction c generalizing s with
  | ret r => rfl
  | atomic write next => rfl
  | rdlock ℓ next => rfl
  | wrlock ℓ next => rfl
  | read next ih => exact ih _ s nofun
  | rdlockAgain next ih => exact ih s nofun
  | unlockAgain next ih => exact ih s nofun
  | unlockShared next => rfl
  | access write next => exact absurd rfl (hno _)
  | unlock next => exact absurd rfl (hno _)

/-! ## The locks know who holds them -/

/-- How many times a thread holds `ℓ` shared. -/
def Thread.reads (ℓ : L) (t : Thread α σ ρ) : Nat := t.elim 0 fun c => c.1.reads ℓ

/-- How many times it holds `ℓ` for itself. -/
def Thread.writes (ℓ : L) (t : Thread α σ ρ) : Nat := t.elim 0 fun c => c.1.writes ℓ

section Lists

variable {β : Type}

/-- The sum of `f` over a list. -/
def total (f : β → Nat) : List β → Nat
  | [] => 0
  | a :: l => f a + total f l

/-- A sum over the threads after one of them has moved. -/
theorem total_set (f : β → Nat) {l : List β} {i : Nat} {a : β} (h : l[i]? = some a) (b : β) :
    total f (l.set i b) + f a = total f l + f b := by
  induction l generalizing i with
  | nil => simp at h
  | cons x l ih =>
      cases i with
      | zero =>
          obtain rfl : x = a := by simpa using h
          simp only [List.set_cons_zero, total]
          omega
      | succ i =>
          have hsum := ih (i := i) (by simpa using h)
          simp only [List.set_cons_succ, total]
          omega

theorem le_total (f : β → Nat) {l : List β} {i : Nat} {a : β} (h : l[i]? = some a) :
    f a ≤ total f l := by
  induction l generalizing i with
  | nil => simp at h
  | cons x l ih =>
      simp only [total]
      cases i with
      | zero =>
          obtain rfl : x = a := by simpa using h
          omega
      | succ i =>
          have hle := ih (i := i) (by simpa using h)
          omega

/-- Two places count both. -/
theorem add_le_total (f : β → Nat) {l : List β} {i j : Nat} {a b : β} (hne : i ≠ j)
    (hi : l[i]? = some a) (hj : l[j]? = some b) : f a + f b ≤ total f l := by
  induction l generalizing i j with
  | nil => simp at hi
  | cons x l ih =>
      simp only [total]
      cases i with
      | zero =>
          obtain rfl : x = a := by simpa using hi
          obtain ⟨j, rfl⟩ := Nat.exists_eq_succ_of_ne_zero hne.symm
          have hle := le_total f (l := l) (i := j) (a := b) (by simpa using hj)
          omega
      | succ i =>
          have hl : l[i]? = some a := by simpa using hi
          cases j with
          | zero =>
              obtain rfl : x = b := by simpa using hj
              have hle := le_total f hl
              omega
          | succ j =>
              have hle := ih (fun heq => hne (congrArg Nat.succ heq)) hl (by simpa using hj)
              omega

theorem total_eq_zero {f : β → Nat} {l : List β} (h : ∀ a ∈ l, f a = 0) : total f l = 0 := by
  induction l with
  | nil => rfl
  | cons x l ih =>
      have hx := h x List.mem_cons_self
      have hl := ih fun a ha => h a (List.mem_cons_of_mem x ha)
      simp only [total]
      omega

/-- What is in a list after one place was set. -/
theorem getElem?_set_cases {l : List β} {i j : Nat} {a b : β} (h : (l.set i b)[j]? = some a) :
    i = j ∧ b = a ∨ i ≠ j ∧ l[j]? = some a := by
  by_cases hij : i = j
  · subst hij
    refine .inl ⟨rfl, ?_⟩
    have hlt : i < (l.set i b).length := (List.getElem?_eq_some_iff.mp h).1
    rw [List.length_set] at hlt
    rw [List.getElem?_set_self hlt] at h
    exact Option.some.inj h
  · exact .inr ⟨hij, (List.getElem?_set_ne hij).symm.trans h⟩

end Lists

/-- What the locks say is what the threads hold. -/
structure Counted (s : State K α σ ρ μ) : Prop where
  readers : ∀ ℓ, K.readers (s.locks ℓ) = total (Thread.reads ℓ) s.threads
  writer : ∀ ℓ, (K.writer (s.locks ℓ)).toNat = total (Thread.writes ℓ) s.threads
  exclusive : ∀ ℓ, K.writer (s.locks ℓ) = true → K.readers (s.locks ℓ) = 0

namespace Counted

variable {s s' : State K α σ ρ μ} {i j : Nat} {h h' : Hold L} {c : Code α σ ρ h}
  {c' : Code α σ ρ h'} {ℓ : L} {old new : Thread α σ ρ}

theorem init (a : α) (s : Shared σ) (n : Nat) :
    Counted (State.init a s n : State K α σ ρ μ) := by
  have hzero : ∀ f : Thread α σ ρ → Nat, f none = 0 →
      0 = total f (List.replicate n (none : Thread α σ ρ)) := by
    intro f hf
    symm
    apply total_eq_zero
    intro t ht
    rw [List.eq_of_mem_replicate ht, hf]
  refine ⟨fun ℓ => ?_, fun ℓ => ?_, fun ℓ _ => K.readers_free⟩
  · show K.readers K.free = _
    rw [K.readers_free]
    exact hzero _ rfl
  · show (K.writer K.free).toNat = _
    rw [K.writer_free]
    exact hzero _ rfl

theorem writer_of_unique (hc : Counted s) {c : Code α σ ρ (.unique ℓ)}
    (hi : s.threads[i]? = some (some ⟨_, c⟩)) : K.writer (s.locks ℓ) = true := by
  have hle := le_total (Thread.writes ℓ) hi
  have hone : Thread.writes ℓ (some ⟨_, c⟩) = 1 := if_pos rfl
  have hsum := hc.writer ℓ
  cases hw : K.writer (s.locks ℓ) with
  | true => rfl
  | false =>
      rw [hw, Bool.toNat_false] at hsum
      omega

theorem not_writer_of_shared (hc : Counted s) {n : Nat} {c : Code α σ ρ (.shared ℓ n)}
    (hi : s.threads[i]? = some (some ⟨_, c⟩)) :
    K.writer (s.locks ℓ) = false ∧ n < K.readers (s.locks ℓ) := by
  have hle := le_total (Thread.reads ℓ) hi
  have hn : Thread.reads ℓ (some ⟨_, c⟩) = n + 1 := if_pos rfl
  have hsum := hc.readers ℓ
  refine ⟨?_, by omega⟩
  cases hw : K.writer (s.locks ℓ) with
  | false => rfl
  | true =>
      have hzero := hc.exclusive ℓ hw
      omega

/-- Nobody else is at what a thread holds for itself. -/
theorem alone (hc : Counted s) {c : Code α σ ρ (.unique ℓ)}
    (hi : s.threads[i]? = some (some ⟨_, c⟩)) (hne : i ≠ j)
    (hj : s.threads[j]? = some (some ⟨h', c'⟩)) : h'.lock? ≠ some ℓ := by
  intro hlock
  have hw := hc.writer_of_unique hi
  cases h' with
  | nothing => cases hlock
  | shared ℓ' n =>
      obtain rfl : ℓ' = ℓ := Option.some.inj hlock
      have hno := (hc.not_writer_of_shared hj).1
      rw [hw] at hno
      cases hno
  | unique ℓ' =>
      obtain rfl : ℓ' = ℓ := Option.some.inj hlock
      have hle := add_le_total (Thread.writes ℓ') hne hi hj
      have hone : Thread.writes ℓ' (some ⟨_, c⟩) = 1 := if_pos rfl
      have hone' : Thread.writes ℓ' (some ⟨_, c'⟩) = 1 := if_pos rfl
      have hsum := hc.writer ℓ'
      have hbool := Bool.toNat_le (K.writer (s.locks ℓ'))
      omega

/-- One thread moves, and the locks change by what it holds then. -/
theorem move (hc : Counted s) (hi : s.threads[i]? = some old)
    (hthreads : s'.threads = s.threads.set i new)
    (hreads : ∀ ℓ, K.readers (s'.locks ℓ) + old.reads ℓ = K.readers (s.locks ℓ) + new.reads ℓ)
    (hwrites : ∀ ℓ,
      (K.writer (s'.locks ℓ)).toNat + old.writes ℓ = (K.writer (s.locks ℓ)).toNat + new.writes ℓ)
    (hexclusive : ∀ ℓ, K.writer (s'.locks ℓ) = true → K.readers (s'.locks ℓ) = 0) :
    Counted s' := by
  refine ⟨fun ℓ => ?_, fun ℓ => ?_, hexclusive⟩
  · have hset := total_set (Thread.reads ℓ) hi new
    have hsum := hc.readers ℓ
    have hmove := hreads ℓ
    rw [hthreads]
    omega
  · have hset := total_set (Thread.writes ℓ) hi new
    have hsum := hc.writer ℓ
    have hmove := hwrites ℓ
    rw [hthreads]
    omega

/-- It holds what it has held. -/
theorem stay (hc : Counted s) (hi : s.threads[i]? = some old)
    (hthreads : s'.threads = s.threads.set i new) (hlocks : s'.locks = s.locks)
    (hhold : ∀ ℓ, new.reads ℓ = old.reads ℓ ∧ new.writes ℓ = old.writes ℓ) : Counted s' := by
  refine hc.move hi hthreads (fun ℓ => ?_) (fun ℓ => ?_) (fun ℓ => ?_)
  · rw [hlocks, (hhold ℓ).1]
  · rw [hlocks, (hhold ℓ).2]
  · rw [hlocks]
    exact hc.exclusive ℓ

/-- It takes or leaves the lock `ℓ`. -/
theorem turn (hc : Counted s) (hi : s.threads[i]? = some old)
    (hthreads : s'.threads = s.threads.set i new) {l : K.State}
    (hlocks : s'.locks = Function.update s.locks ℓ l)
    (hother : ∀ ℓ', ℓ' ≠ ℓ → new.reads ℓ' = old.reads ℓ' ∧ new.writes ℓ' = old.writes ℓ')
    (hreads : K.readers l + old.reads ℓ = K.readers (s.locks ℓ) + new.reads ℓ)
    (hwrites : (K.writer l).toNat + old.writes ℓ = (K.writer (s.locks ℓ)).toNat + new.writes ℓ)
    (hexclusive : K.writer l = true → K.readers l = 0) : Counted s' := by
  have hsplit : ∀ ℓ', (ℓ' = ℓ ∧ s'.locks ℓ' = l) ∨ (ℓ' ≠ ℓ ∧ s'.locks ℓ' = s.locks ℓ') := by
    intro ℓ'
    rw [hlocks]
    by_cases heq : ℓ' = ℓ
    · subst heq
      exact .inl ⟨rfl, Function.update_self ..⟩
    · exact .inr ⟨heq, Function.update_of_ne heq ..⟩
  refine hc.move hi hthreads (fun ℓ' => ?_) (fun ℓ' => ?_) (fun ℓ' => ?_)
  · rcases hsplit ℓ' with ⟨rfl, hl⟩ | ⟨hne, hl⟩
    · rw [hl, hreads]
    · rw [hl, (hother ℓ' hne).1]
  · rcases hsplit ℓ' with ⟨rfl, hl⟩ | ⟨hne, hl⟩
    · rw [hl, hwrites]
    · rw [hl, (hother ℓ' hne).2]
  · rcases hsplit ℓ' with ⟨rfl, hl⟩ | ⟨hne, hl⟩
    · rw [hl]
      exact hexclusive
    · rw [hl]
      exact hc.exclusive ℓ'

/-- A thread that is in no section takes a lock, in whichever way. -/
theorem enter (hc : Counted s) {n : Hold L} {c : Code α σ ρ .nothing} {d : Code α σ ρ n}
    (hi : s.threads[i]? = some (some ⟨_, c⟩)) (hn : n.lock? = some ℓ) {l : K.State}
    (hreads : K.readers l = K.readers (s.locks ℓ) + n.reads ℓ)
    (hwrites : (K.writer l).toNat = (K.writer (s.locks ℓ)).toNat + n.writes ℓ)
    (hexclusive : K.writer l = true → K.readers l = 0) :
    Counted ((s.put i d).setLock ℓ l) := by
  refine hc.turn (ℓ := ℓ) hi rfl rfl (fun ℓ' hne => ?_) ?_ ?_ hexclusive
  · show n.reads ℓ' = 0 ∧ n.writes ℓ' = 0
    cases n with
    | nothing => exact ⟨rfl, rfl⟩
    | shared ℓ'' m =>
        obtain rfl : ℓ'' = ℓ := Option.some.inj hn
        exact ⟨if_neg hne.symm, rfl⟩
    | unique ℓ'' =>
        obtain rfl : ℓ'' = ℓ := Option.some.inj hn
        exact ⟨rfl, if_neg hne.symm⟩
  · exact hreads
  · exact hwrites

/-- A reader leaves once. -/
theorem leave (hc : Counted s) {n : Nat} {c : Code α σ ρ (.shared ℓ n)} {k : Hold L}
    {d : Code α σ ρ k} (hi : s.threads[i]? = some (some ⟨_, c⟩)) (hreads : k.reads ℓ = n)
    (hwrites : k.writes ℓ = 0) (hother : ∀ ℓ', ℓ' ≠ ℓ → k.reads ℓ' = 0 ∧ k.writes ℓ' = 0) :
    Counted ((s.put i d).setLock ℓ (K.unlock (s.locks ℓ))) := by
  obtain ⟨hw, hr⟩ := hc.not_writer_of_shared hi
  obtain ⟨hw', hr'⟩ := K.unlock_reader hw
  refine hc.turn hi rfl rfl (fun ℓ' hne => ?_) ?_ ?_ fun h => by simp [hw'] at h
  · show k.reads ℓ' = (Hold.shared ℓ n).reads ℓ' ∧ k.writes ℓ' = 0
    have hheld : (Hold.shared ℓ n).reads ℓ' = 0 := if_neg hne.symm
    rw [hheld]
    exact hother ℓ' hne
  · show K.readers _ + (Hold.shared ℓ n).reads ℓ = K.readers (s.locks ℓ) + k.reads ℓ
    have hheld : (Hold.shared ℓ n).reads ℓ = n + 1 := if_pos rfl
    rw [hr', hreads]
    omega
  · show (K.writer _).toNat + 0 = (K.writer (s.locks ℓ)).toNat + k.writes ℓ
    rw [hw', hw, hwrites]

/-- **The locks go on saying what the threads hold.** -/
theorem goOn (hc : Counted s) (hi : s.threads[i]? = some (some ⟨h, c⟩))
    (hs : s.goOn i c = some s') : Counted s' := by
  cases c with
  | ret r =>
      cases hs
      exact hc.stay hi rfl rfl
        fun _ => ⟨rfl, rfl⟩
  | atomic write next =>
      cases hs
      exact hc.stay hi rfl rfl fun _ => ⟨rfl, rfl⟩
  | rdlock ℓ next =>
      obtain ⟨l, hl, rfl⟩ := Option.map_eq_some_iff.mp hs
      obtain ⟨hw, hw', hr⟩ := K.of_rdlock hl
      refine hc.enter hi rfl ?_ ?_ fun h => by simp [hw'] at h
      · simp [Hold.reads, hr]
      · simp [Hold.writes, hw, hw']
  | wrlock ℓ next =>
      obtain ⟨l, hl, rfl⟩ := Option.map_eq_some_iff.mp hs
      obtain ⟨hw, hr, hw', hr'⟩ := K.of_wrlock hl
      refine hc.enter hi rfl ?_ ?_ fun _ => hr'
      · simp [Hold.reads, hr, hr']
      · simp [Hold.writes, hw, hw']
  | read next =>
      cases hs
      exact hc.stay hi rfl rfl fun _ => ⟨rfl, rfl⟩
  | @rdlockAgain ℓ n next =>
      obtain ⟨l, hl, rfl⟩ := Option.map_eq_some_iff.mp hs
      obtain ⟨hw, hw', hr⟩ := K.of_rdlock hl
      refine hc.turn hi rfl rfl (fun ℓ' hne => ?_) ?_ ?_ fun h => by simp [hw'] at h
      · simp [Thread.reads, Thread.writes, Hold.reads, Hold.writes, hne.symm]
      · simp only [Thread.reads, Hold.reads, Option.elim_some, if_true, hr]
        omega
      · simp [Thread.writes, Hold.writes, hw, hw']
  | unlockAgain next =>
      cases hs
      exact hc.leave hi (if_pos rfl) rfl fun ℓ' hne => ⟨if_neg hne.symm, rfl⟩
  | unlockShared next =>
      cases hs
      exact hc.leave hi rfl rfl fun _ _ => ⟨rfl, rfl⟩
  | access write next =>
      cases hs
      exact hc.stay hi rfl rfl fun _ => ⟨rfl, rfl⟩
  | @unlock ℓ next =>
      cases hs
      have hw := hc.writer_of_unique hi
      have hr := hc.exclusive ℓ hw
      obtain ⟨hw', hr'⟩ := K.unlock_writer hw
      refine hc.turn hi rfl rfl (fun ℓ' hne => ?_) ?_ ?_ fun h => by simp [hw'] at h
      · simp [Thread.reads, Thread.writes, Hold.reads, Hold.writes, hne.symm]
      · simp [Thread.reads, Hold.reads, hr']
      · simp [Thread.writes, Hold.writes, hw, hw']

theorem step {method : μ → Code α σ ρ .nothing} {e : Event μ} (hc : Counted s)
    (hs : step method s e = some s') : Counted s' := by
  cases e with
  | call i m =>
      obtain ⟨hi, rfl⟩ := step_call_eq_some.mp hs
      exact hc.stay hi rfl rfl fun _ => ⟨rfl, rfl⟩
  | goOn i =>
      obtain ⟨h, c, hi, hs⟩ := step_goOn_eq_some.mp hs
      exact hc.goOn hi hs

end Counted

theorem counted_of_reachable {method : μ → Code α σ ρ .nothing} {a : α} {s₀ : Shared σ}
    {n : Nat} {s : State K α σ ρ μ} (hr : Reachable (step method) (.init a s₀ n) s) : Counted s :=
  hr.invariant (.init a s₀ n) fun _ _ _ hc hs => hc.step hs

end RwLock
