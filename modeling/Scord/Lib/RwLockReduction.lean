/-
  Scord.Lib.RwLockReduction

  The reduction rule for methods under readers-writer locks: every run that
  interleaves them access by access is one that interleaves them section by
  section, with the same calls and returns in the same order.

  A section takes effect, in the other system, when its thread gets the lock.  A
  state `Stands` for one in which every thread that is in a section has come out
  of it: what readers come out with cannot change while they are in, and what a
  writer has done so far nobody else can see.
-/
import Scord.Lib.RwLock

namespace RwLock

open StepSystem

variable {K : Lock} {L : Type} [DecidableEq L] {α : Type} {σ : L → Type} {ρ μ : Type}

/-- Where a thread comes out of the section that it is in. -/
def Thread.out (s : Shared σ) (t : Thread α σ ρ) : Option (Code α σ ρ .nothing) :=
  t.map fun c => (settle c.2 s).2

@[simp] theorem Thread.out_nothing (s : Shared σ) (c : Code α σ ρ .nothing) :
    Thread.out s (some ⟨_, c⟩) = some c := by
  simp [Thread.out]

/-- The state `t` of the one system stands for `s`: every thread that is in a
    section has come out of it already. -/
structure Stands (s : State K α σ ρ μ) (t : Atomic α σ ρ μ) : Prop where
  atomics : t.atomics = s.atomics
  history : t.history = s.history
  threads : t.threads = s.threads.map (Thread.out s.shared)
  free : ∀ ℓ, K.writer (s.locks ℓ) = false → t.shared ℓ = s.shared ℓ
  written : ∀ (i : Nat) ℓ (c : Code α σ ρ (.unique ℓ)), s.threads[i]? = some (some ⟨_, c⟩) →
    t.shared ℓ = (settle c s.shared).1 ℓ

/-- What comes out is the same, as long as the part of the lock is. -/
theorem Thread.out_congr {s s' : Shared σ} {h : Hold L} {c : Code α σ ρ h}
    (heq : ∀ ℓ, h.lock? = some ℓ → s ℓ = s' ℓ) :
    Thread.out s (some ⟨h, c⟩) = Thread.out s' (some ⟨h, c⟩) :=
  congrArg some (settle_congr c heq).1

section Lists

variable {β γ : Type}

/-- A change of one element that the function does not see. -/
theorem map_set_of_eq {f : β → γ} {l : List β} {i : Nat} {a b : β} (h : l[i]? = some a)
    (heq : f b = f a) : (l.set i b).map f = l.map f := by
  rw [List.map_set, heq]
  apply List.ext_getElem?
  intro j
  by_cases hj : i = j
  · subst hj
    rw [List.getElem?_set_self (by simpa using (List.getElem?_eq_some_iff.mp h).1),
      List.getElem?_map, h, Option.map_some]
  · rw [List.getElem?_set_ne hj]

end Lists

namespace Stands

variable {s s' : State K α σ ρ μ} {t : Atomic α σ ρ μ} {i : Nat} {h : Hold L}
  {c : Code α σ ρ h} {method : μ → Code α σ ρ .nothing}

theorem init (a : α) (s : Shared σ) (n : Nat) :
    Stands (State.init a s n : State K α σ ρ μ) (Atomic.init a s n) where
  atomics := rfl
  history := rfl
  threads := by
    show List.replicate n none = (List.replicate n none).map _
    rw [List.map_replicate]
    rfl
  free _ _ := rfl
  written i ℓ c hi := by
    have hmem := List.mem_of_getElem? hi
    rw [State.init, List.mem_replicate] at hmem
    cases hmem.2

/-- Where the thread at `i` is in the other system. -/
theorem getElem? (hst : Stands s t) (hi : s.threads[i]? = some (some ⟨h, c⟩)) :
    t.threads[i]? = some (some (settle c s.shared).2) := by
  rw [hst.threads, List.getElem?_map, hi]
  rfl

/-- A move that the other system does not make: the thread comes out where it came
    out before, and nothing that is protected has changed. -/
theorem silent (hst : Stands s t) {h' : Hold L} {c' : Code α σ ρ h'}
    (hi : s.threads[i]? = some (some ⟨h, c⟩)) (hatomics : s'.atomics = s.atomics)
    (hhistory : s'.history = s.history) (hshared : s'.shared = s.shared)
    (hthreads : s'.threads = s.threads.set i (some ⟨h', c'⟩))
    (hout : (settle c' s.shared).2 = (settle c s.shared).2)
    (hfree : ∀ ℓ, K.writer (s'.locks ℓ) = false → K.writer (s.locks ℓ) = false ∨
      t.shared ℓ = s.shared ℓ)
    (hno : ∀ ℓ, h' ≠ .unique ℓ) : Stands s' t where
  atomics := hst.atomics.trans hatomics.symm
  history := hst.history.trans hhistory.symm
  threads := by
    have hsame : Thread.out s.shared (some ⟨h', c'⟩) = Thread.out s.shared (some ⟨h, c⟩) :=
      congrArg some hout
    rw [hst.threads, hthreads, hshared, map_set_of_eq hi hsame]
  free ℓ hw := by
    rw [hshared]
    exact (hfree ℓ hw).elim (hst.free ℓ) id
  written j ℓ d hj := by
    rw [hthreads] at hj
    rw [hshared]
    rcases getElem?_set_cases hj with ⟨rfl, heq⟩ | ⟨-, hj⟩
    · cases heq
      exact absurd rfl (hno ℓ)
    · exact hst.written j ℓ d hj

/-- A thread enters a section, and in the other system it goes through it. -/
theorem enter (hst : Stands s t) (hc : Counted s) {n : Hold L} {d : Code α σ ρ n} {ℓ : L}
    {l : K.State} (hn : n.lock? = some ℓ) (hw : K.writer (s.locks ℓ) = false)
    (hl : K.writer l = false → ∀ ℓ, n ≠ .unique ℓ) :
    Stands ((s.put i d).setLock ℓ l) (t.runSection i d) := by
  have hsame : ∀ ℓ', n.lock? = some ℓ' → t.shared ℓ' = s.shared ℓ' := by
    intro ℓ' hℓ'
    obtain rfl : ℓ = ℓ' := Option.some.inj (hn.symm.trans hℓ')
    exact hst.free ℓ hw
  have hframe : ∀ ℓ', ℓ' ≠ ℓ → (settle d t.shared).1 ℓ' = t.shared ℓ' := by
    intro ℓ' hne
    apply settle_frame
    rw [hn]
    exact fun heq => hne (Option.some.inj heq).symm
  refine ⟨hst.atomics, hst.history, ?_, fun ℓ' hw' => ?_, fun j ℓ' e hj => ?_⟩
  · show t.threads.set i _ = (s.threads.set i _).map _
    rw [hst.threads, List.map_set, (settle_congr d hsame).1]
    rfl
  · show (settle d t.shared).1 ℓ' = s.shared ℓ'
    by_cases heq : ℓ' = ℓ
    · subst heq
      have hw' : K.writer l = false := by simpa [State.setLock] using hw'
      rw [settle_of_not_unique d _ (hl hw'), hst.free ℓ' hw]
    · have hw' : K.writer (s.locks ℓ') = false := by
        simpa [State.setLock, State.put, Function.update_of_ne heq] using hw'
      rw [hframe ℓ' heq, hst.free ℓ' hw']
  · show (settle d t.shared).1 ℓ' = (settle e s.shared).1 ℓ'
    rcases getElem?_set_cases hj with ⟨rfl, heq⟩ | ⟨-, hold⟩
    · cases heq
      exact (settle_congr e hsame).2 ℓ' rfl
    · -- a lock that somebody holds for itself is not the one that was free
      have hne : ℓ' ≠ ℓ := by
        rintro rfl
        rw [hc.writer_of_unique hold] at hw
        cases hw
      rw [hframe ℓ' hne, hst.written j ℓ' e hold]

/-- An access of a writer is not seen by anyone else. -/
theorem access (hst : Stands s t) (hc : Counted s) {ℓ : L} {write : σ ℓ → σ ℓ}
    {next : σ ℓ → Code α σ ρ (.unique ℓ)}
    (hi : s.threads[i]? = some (some ⟨_, .access write next⟩)) :
    Stands { s.put i (next (s.shared ℓ)) with
      shared := Function.update s.shared ℓ (write (s.shared ℓ)) } t := by
  have hother : ∀ ℓ', ℓ' ≠ ℓ →
      s.shared ℓ' = Function.update s.shared ℓ (write (s.shared ℓ)) ℓ' :=
    fun ℓ' hne => (Function.update_of_ne hne ..).symm
  have hlt := (List.getElem?_eq_some_iff.mp hi).1
  refine ⟨hst.atomics, hst.history, ?_, fun ℓ' hw => ?_, fun j ℓ' e hj => ?_⟩
  · show t.threads = (s.threads.set i _).map _
    rw [hst.threads]
    apply List.ext_getElem?
    intro j
    rw [List.getElem?_map, List.getElem?_map]
    by_cases hij : i = j
    · subst hij
      rw [List.getElem?_set_self hlt, hi]
      rfl
    · rw [List.getElem?_set_ne hij]
      rcases hj : s.threads[j]? with - | - | ⟨h', c'⟩
      · rfl
      · rfl
      · apply congrArg some
        apply Thread.out_congr
        intro ℓ' hℓ'
        apply hother
        rintro rfl
        exact hc.alone hi hij hj hℓ'
  · have hne : ℓ' ≠ ℓ := by
      rintro rfl
      have hw' : K.writer (s.locks ℓ') = false := hw
      rw [hc.writer_of_unique hi] at hw'
      cases hw'
    show t.shared ℓ' = Function.update s.shared ℓ (write (s.shared ℓ)) ℓ'
    rw [← hother ℓ' hne]
    exact hst.free ℓ' hw
  · show t.shared ℓ' = (settle e _).1 ℓ'
    rcases getElem?_set_cases hj with ⟨rfl, heq⟩ | ⟨hij, hold⟩
    · cases heq
      exact hst.written i ℓ _ hi
    · rw [hst.written j ℓ' e hold]
      apply (settle_congr e ?_).2 ℓ' rfl
      rintro ℓ'' hℓ''
      apply hother
      rintro rfl
      exact hc.alone hi hij hold hℓ''

/-- The writer flag of the other locks, and of one that nobody holds for itself. -/
theorem writer_setLock {ℓ ℓ' : L} {l : K.State} (hw : K.writer (s.locks ℓ) = false)
    (hl : K.writer ((s.setLock ℓ l).locks ℓ') = false) : K.writer (s.locks ℓ') = false := by
  by_cases heq : ℓ' = ℓ
  · exact heq ▸ hw
  · simpa [State.setLock, Function.update_of_ne heq] using hl

/-- **One step of a thread** is none of the other system, or one of the same
    thread. -/
theorem goOn (hst : Stands s t) (hc : Counted s) (hi : s.threads[i]? = some (some ⟨h, c⟩))
    (hs : s.goOn i c = some s') :
    Stands s' t ∨ Stands s' (t.goOn i (settle c s.shared).2) := by
  cases c with
  | ret r =>
      cases hs
      refine .inr ⟨hst.atomics, congrArg _ hst.history, ?_, hst.free, fun j ℓ d hj => ?_⟩
      · show t.threads.set i none = (s.threads.set i none).map _
        rw [hst.threads, List.map_set]
        rfl
      · rcases getElem?_set_cases hj with ⟨-, heq⟩ | ⟨-, hj⟩
        · cases heq
        · exact hst.written j ℓ d hj
  | atomic write next =>
      cases hs
      refine .inr ⟨congrArg write hst.atomics, hst.history, ?_, hst.free, fun j ℓ d hj => ?_⟩
      · show t.threads.set i (some (next t.atomics))
          = (s.threads.set i (some ⟨_, next s.atomics⟩)).map (Thread.out s.shared)
        rw [hst.threads, hst.atomics, List.map_set, Thread.out_nothing]
      · rcases getElem?_set_cases hj with ⟨-, heq⟩ | ⟨-, hj⟩
        · cases heq
        · exact hst.written j ℓ d hj
  | rdlock ℓ next =>
      obtain ⟨l, hl, rfl⟩ := Option.map_eq_some_iff.mp hs
      obtain ⟨hw, -⟩ := K.of_rdlock hl
      exact .inr (hst.enter hc rfl hw fun _ => nofun)
  | wrlock ℓ next =>
      obtain ⟨l, hl, rfl⟩ := Option.map_eq_some_iff.mp hs
      obtain ⟨hw, -, hw', -⟩ := K.of_wrlock hl
      exact .inr (hst.enter hc rfl hw fun h => by simp [hw'] at h)
  | read next =>
      cases hs
      exact .inl (hst.silent hi rfl rfl rfl rfl rfl (fun ℓ hw => .inl hw) nofun)
  | rdlockAgain next =>
      obtain ⟨l, hl, rfl⟩ := Option.map_eq_some_iff.mp hs
      have hw := (hc.not_writer_of_shared hi).1
      exact .inl (hst.silent hi rfl rfl rfl rfl rfl
        (fun ℓ' hw' => .inl (writer_setLock (s := s) hw hw')) nofun)
  | unlockAgain next =>
      cases hs
      have hw := (hc.not_writer_of_shared hi).1
      exact .inl (hst.silent hi rfl rfl rfl rfl rfl
        (fun ℓ' hw' => .inl (writer_setLock (s := s) hw hw')) nofun)
  | @unlockShared ℓ next =>
      cases hs
      have hw := (hc.not_writer_of_shared hi).1
      exact .inl (hst.silent hi rfl rfl rfl rfl (congrArg Prod.snd (settle_nothing next _))
        (fun ℓ' hw' => .inl (writer_setLock (s := s) hw hw')) nofun)
  | access write next =>
      cases hs
      exact .inl (hst.access hc hi)
  | @unlock ℓ next =>
      cases hs
      refine .inl (hst.silent hi rfl rfl rfl rfl (congrArg Prod.snd (settle_nothing next _))
        (fun ℓ' hw' => ?_) nofun)
      -- with the lock comes what was written under it
      by_cases heq : ℓ' = ℓ
      · subst heq
        exact .inr (hst.written i ℓ' _ hi)
      · refine .inl ?_
        simpa [State.setLock, State.put, Function.update_of_ne heq] using hw'

/-- **One step**, as none or one of the other system. -/
theorem step {e : Event μ} (hst : Stands s t) (hc : Counted s)
    (hs : step method s e = some s') :
    Stands s' t ∨ ∃ t', atomicStep method t e = some t' ∧ Stands s' t' := by
  cases e with
  | call i m =>
      obtain ⟨hi, rfl⟩ := step_call_eq_some.mp hs
      have hti : t.threads[i]? = some none := by
        rw [hst.threads, List.getElem?_map, hi]
        rfl
      refine .inr ⟨{ t.put i (method m) with history := .called i m :: t.history }, ?_, ?_⟩
      · simp only [atomicStep, hti]
      · refine ⟨hst.atomics, congrArg _ hst.history, ?_, hst.free, fun j ℓ d hj => ?_⟩
        · show t.threads.set i (some (method m))
            = (s.threads.set i (some ⟨_, method m⟩)).map (Thread.out s.shared)
          rw [hst.threads, List.map_set, Thread.out_nothing]
        · rcases getElem?_set_cases hj with ⟨-, heq⟩ | ⟨-, hj⟩
          · cases heq
          · exact hst.written j ℓ d hj
  | goOn i =>
      obtain ⟨h, c, hi, hs⟩ := step_goOn_eq_some.mp hs
      refine (hst.goOn hc hi hs).imp_right fun hst' => ⟨_, ?_, hst'⟩
      simp only [atomicStep, hst.getElem? hi]

end Stands

/-- **The reduction rule.**  Every state that the threads reach access by access
    stands for one that they reach section by section, with the same calls and
    returns in the same order. -/
theorem reachable_atomic {method : μ → Code α σ ρ .nothing} {a : α} {s₀ : Shared σ} {n : Nat}
    {s : State K α σ ρ μ} (hr : Reachable (step method) (.init a s₀ n) s) :
    ∃ t, Reachable (atomicStep method) (.init a s₀ n) t ∧ Stands s t := by
  have hboth : Counted s ∧ ∃ t, Reachable (atomicStep method) (.init a s₀ n) t ∧ Stands s t := by
    refine hr.invariant (I := fun s => Counted s ∧
      ∃ t, Reachable (atomicStep method) (.init a s₀ n) t ∧ Stands s t)
      ⟨.init a s₀ n, _, .refl _, .init a s₀ n⟩ ?_
    rintro s e s' ⟨hc, t, ht, hst⟩ hs
    refine ⟨hc.step hs, ?_⟩
    rcases hst.step hc hs with hst' | ⟨t', hstep, hst'⟩
    · exact ⟨t, ht, hst'⟩
    · exact ⟨t', ht.tail hstep, hst'⟩
  exact hboth.2

end RwLock
