/-
  Scord.Lib.RwLockProgress

  The progress rule for methods under readers-writer locks: from every state that
  the threads reach they can go on until all of their methods have returned.

  No thread takes a lock while it holds another one, so whoever is in a section
  can leave it: a reader that takes its lock once more is let in, whoever waits.
  That much is asked of the locks (`Lock.Admits`).
-/
import Scord.Lib.RwLock

namespace RwLock

open StepSystem

variable {K : Lock} {L : Type} [DecidableEq L] {α : Type} {σ : L → Type} {ρ μ : Type}

section Progress

variable {method : μ → Code α σ ρ .nothing} {s s' s'' : State K α σ ρ μ} {i : Nat} {h h' : Hold L}
  {c : Code α σ ρ h} {c' : Code α σ ρ h'} {P : Thread α σ ρ → Prop}

/-- What a thread holds. -/
def Thread.hold (t : Thread α σ ρ) : Hold L := t.elim .nothing Sigma.fst

/-- Threads go on from `s` to `s'`, and nothing is called. -/
def Goes (method : μ → Code α σ ρ .nothing) (s s' : State K α σ ρ μ) : Prop :=
  ∃ is : List Nat, run (step method) s (is.map Event.goOn) = some s'

theorem Goes.refl : Goes method s s := ⟨[], rfl⟩

theorem Goes.trans (h : Goes method s s') (h' : Goes method s' s'') : Goes method s s'' := by
  obtain ⟨is, his⟩ := h
  obtain ⟨js, hjs⟩ := h'
  refine ⟨is ++ js, ?_⟩
  rw [List.map_append, run_append, his]
  exact hjs

/-- The thread at `i` can go on by itself until `P` holds of it. -/
def Comes (method : μ → Code α σ ρ .nothing) (s : State K α σ ρ μ) (i : Nat)
    (P : Thread α σ ρ → Prop) : Prop :=
  ∃ s' t, Goes method s s' ∧ Counted s' ∧ s'.threads = s.threads.set i t ∧ P t

theorem Comes.here (hc : Counted s) {t : Thread α σ ρ} (hi : s.threads[i]? = some t) (hP : P t) :
    Comes method s i P := by
  obtain ⟨hlt, rfl⟩ := List.getElem?_eq_some_iff.mp hi
  exact ⟨s, _, .refl, hc, (List.set_getElem_self hlt).symm, hP⟩

/-- It can if it can after one step. -/
theorem Comes.after (hc : Counted s) (hi : s.threads[i]? = some (some ⟨h, c⟩))
    (hs : s.goOn i c = some s') {t : Thread α σ ρ} (hthreads : s'.threads = s.threads.set i t)
    (hrest : Counted s' → s'.threads[i]? = some t → Comes method s' i P) :
    Comes method s i P := by
  have hstep : Goes method s s' := by
    refine ⟨[i], ?_⟩
    show run (step method) s [.goOn i] = some s'
    rw [run_cons, step_goOn_eq_some.mpr ⟨h, c, hi, hs⟩]
    rfl
  have hself : s'.threads[i]? = some t := by
    rw [hthreads, List.getElem?_set_self (List.getElem?_eq_some_iff.mp hi).1]
  obtain ⟨s'', t', hgoes, hc'', hthreads'', hP⟩ := hrest (hc.goOn hi hs) hself
  refine ⟨s'', t', hstep.trans hgoes, hc'', ?_, hP⟩
  rw [hthreads'', hthreads, List.set_set]

/-- A thread that holds something can go on until it holds nothing. -/
theorem leaves (hK : K.Admits) (hc : Counted s) (hi : s.threads[i]? = some (some ⟨h, c⟩)) :
    Comes method s i fun t => t.hold = .nothing := by
  induction c generalizing s with
  | ret r => exact .here hc hi rfl
  | atomic write next => exact .here hc hi rfl
  | rdlock ℓ next => exact .here hc hi rfl
  | wrlock ℓ next => exact .here hc hi rfl
  | read next ih => exact .after hc hi rfl rfl fun hc' hi' => ih _ hc' hi'
  | rdlockAgain next ih =>
      -- a reader is in, so no writer is
      obtain ⟨l, hl⟩ := hK.reader _ (hc.not_writer_of_shared hi).1
      exact .after hc hi (congrArg (Option.map _) hl) rfl ih
  | unlockAgain next ih => exact .after hc hi rfl rfl ih
  | unlockShared next ih => exact .after hc hi rfl rfl ih
  | access write next ih => exact .after hc hi rfl rfl fun hc' hi' => ih _ hc' hi'
  | unlock next ih => exact .after hc hi rfl rfl ih

/-- The locks that nobody holds are free. -/
theorem Counted.free (hc : Counted s) (hall : ∀ t ∈ s.threads, t.hold = .nothing) (ℓ : L) :
    K.writer (s.locks ℓ) = false ∧ K.readers (s.locks ℓ) = 0 := by
  have hreads : total (Thread.reads ℓ) s.threads = 0 := by
    refine total_eq_zero fun t ht => ?_
    have hnothing := hall t ht
    cases t with
    | none => rfl
    | some c => exact congrArg (Hold.reads ℓ) hnothing
  have hwrites : total (Thread.writes ℓ) s.threads = 0 := by
    refine total_eq_zero fun t ht => ?_
    have hnothing := hall t ht
    cases t with
    | none => rfl
    | some c => exact congrArg (Hold.writes ℓ) hnothing
  have hr := hc.readers ℓ
  have hw := hc.writer ℓ
  refine ⟨?_, by omega⟩
  cases hb : K.writer (s.locks ℓ) with
  | false => rfl
  | true =>
      rw [hb, Bool.toNat_true] at hw
      omega

/-- The threads other than the one at `i` hold nothing. -/
def Quiet (s : State K α σ ρ μ) (i : Nat) : Prop :=
  ∀ (j : Nat) t, j ≠ i → s.threads[j]? = some t → t.hold = .nothing

omit [DecidableEq L] in
theorem Quiet.of_set (hq : Quiet s i) {t : Thread α σ ρ}
    (hthreads : s'.threads = s.threads.set i t) : Quiet s' i := by
  intro j u hne hj
  rw [hthreads, List.getElem?_set_ne hne.symm] at hj
  exact hq j u hne hj

/-- Then a thread that holds nothing finds every lock free. -/
theorem Quiet.free (hq : Quiet s i) (hc : Counted s) {c : Code α σ ρ .nothing}
    (hi : s.threads[i]? = some (some ⟨_, c⟩)) (ℓ : L) :
    K.writer (s.locks ℓ) = false ∧ K.readers (s.locks ℓ) = 0 := by
  apply hc.free
  intro t ht
  obtain ⟨j, hj⟩ := List.getElem?_of_mem ht
  by_cases hne : j = i
  · subst hne
    obtain rfl := Option.some.inj (hi.symm.trans hj)
    rfl
  · exact hq j t hne hj

/-- While the others hold nothing, a thread can go on until its method has
    returned. -/
theorem returns (hK : K.Admits) (hc : Counted s) (hi : s.threads[i]? = some (some ⟨h, c⟩))
    (hq : Quiet s i) :
    Comes method s i fun t => t = none := by
  induction c generalizing s with
  | ret r => exact .after hc hi rfl rfl fun hc' hi' => .here hc' hi' rfl
  | atomic write next ih =>
      exact .after hc hi rfl rfl fun hc' hi' => ih _ hc' hi' (hq.of_set rfl)
  | rdlock ℓ next ih =>
      obtain ⟨l, hl⟩ := hK.reader _ (hq.free hc hi ℓ).1
      exact .after hc hi (congrArg (Option.map _) hl) rfl fun hc' hi' =>
        ih hc' hi' (hq.of_set rfl)
  | wrlock ℓ next ih =>
      obtain ⟨hw, hr⟩ := hq.free hc hi ℓ
      obtain ⟨l, hl⟩ := hK.writer _ hw hr
      exact .after hc hi (congrArg (Option.map _) hl) rfl fun hc' hi' =>
        ih hc' hi' (hq.of_set rfl)
  | read next ih => exact .after hc hi rfl rfl fun hc' hi' => ih _ hc' hi' (hq.of_set rfl)
  | rdlockAgain next ih =>
      obtain ⟨l, hl⟩ := hK.reader _ (hc.not_writer_of_shared hi).1
      exact .after hc hi (congrArg (Option.map _) hl) rfl fun hc' hi' =>
        ih hc' hi' (hq.of_set rfl)
  | unlockAgain next ih => exact .after hc hi rfl rfl fun hc' hi' => ih hc' hi' (hq.of_set rfl)
  | unlockShared next ih => exact .after hc hi rfl rfl fun hc' hi' => ih hc' hi' (hq.of_set rfl)
  | access write next ih =>
      exact .after hc hi rfl rfl fun hc' hi' => ih _ hc' hi' (hq.of_set rfl)
  | unlock next ih => exact .after hc hi rfl rfl fun hc' hi' => ih hc' hi' (hq.of_set rfl)

/-- One thread after the other: where each of them can come to `Q` while `R` holds
    of all, all of them can. -/
theorem comes_all {Q R : Thread α σ ρ → Prop} (hQR : ∀ t, Q t → R t) (hc : Counted s)
    (hR : ∀ t ∈ s.threads, R t)
    (hone : ∀ (u : State K α σ ρ μ) (i : Nat) t, Counted u → (∀ t ∈ u.threads, R t) →
      u.threads[i]? = some t → Comes method u i Q) :
    ∃ s', Goes method s s' ∧ Counted s' ∧ ∀ t ∈ s'.threads, Q t := by
  have hsome : ∀ n, ∃ s', Goes method s s' ∧ Counted s' ∧ (∀ t ∈ s'.threads, R t) ∧
      s'.threads.length = s.threads.length ∧
      ∀ (j : Nat) t, j < n → s'.threads[j]? = some t → Q t := by
    intro n
    induction n with
    | zero => exact ⟨s, .refl, hc, hR, rfl, fun j t hj => absurd hj (Nat.not_lt_zero j)⟩
    | succ n ih =>
        obtain ⟨u, hu, hcu, hRu, hlen, hall⟩ := ih
        cases hn : u.threads[n]? with
        | none =>
            refine ⟨u, hu, hcu, hRu, hlen, fun j t hj ht => ?_⟩
            have hne : j ≠ n := by
              rintro rfl
              rw [hn] at ht
              cases ht
            exact hall j t (by omega) ht
        | some t =>
            obtain ⟨v, t', hv, hcv, hthreads, hQ⟩ := hone u n t hcu hRu hn
            refine ⟨v, hu.trans hv, hcv, fun r hr => ?_, ?_, fun j r hj hr => ?_⟩
            · rw [hthreads] at hr
              rcases List.mem_or_eq_of_mem_set hr with hr | rfl
              · exact hRu r hr
              · exact hQR r hQ
            · rw [hthreads, List.length_set, hlen]
            · rw [hthreads] at hr
              rcases getElem?_set_cases hr with ⟨-, rfl⟩ | ⟨hne, hr⟩
              · exact hQ
              · exact hall j r (by omega) hr
  obtain ⟨s', hs', hc', -, hlen, hall⟩ := hsome s.threads.length
  refine ⟨s', hs', hc', fun t ht => ?_⟩
  obtain ⟨j, hj⟩ := List.getElem?_of_mem ht
  have hlt := (List.getElem?_eq_some_iff.mp hj).1
  exact hall j t (by omega) hj

end Progress

/-- **The progress rule.**  From every state that the threads reach they can go on
    until all of their methods have returned, and nobody is in any lock. -/
theorem drains (hK : K.Admits) {method : μ → Code α σ ρ .nothing} {a : α} {s₀ : Shared σ}
    {n : Nat} {s : State K α σ ρ μ} (hr : Reachable (step method) (.init a s₀ n) s) :
    ∃ (is : List Nat) (s' : State K α σ ρ μ),
      run (step method) s (is.map Event.goOn) = some s' ∧ (∀ t ∈ s'.threads, t = none) ∧
      ∀ ℓ, K.writer (s'.locks ℓ) = false ∧ K.readers (s'.locks ℓ) = 0 := by
  -- first everybody leaves the section that they are in
  obtain ⟨u, hu, hcu, hout⟩ : ∃ u, Goes method s u ∧ Counted u ∧
      ∀ t ∈ u.threads, t.hold = .nothing := by
    refine comes_all (R := fun _ => True) (fun _ _ => trivial) (counted_of_reachable hr)
      (fun _ _ => trivial) fun v i t hcv _ hi => ?_
    cases t with
    | none => exact .here hcv hi rfl
    | some c => exact leaves hK hcv hi
  -- and then their methods return, one after the other
  obtain ⟨v, hv, hcv, hidle⟩ : ∃ v, Goes method u v ∧ Counted v ∧ ∀ t ∈ v.threads, t = none := by
    refine comes_all (R := fun t => t.hold = .nothing) (fun t ht => by rw [ht]; rfl) hcu hout
      fun v i t hcv hall hi => ?_
    cases t with
    | none => exact .here hcv hi rfl
    | some c => exact returns hK hcv hi fun j r _ hj => hall r (List.mem_of_getElem? hj)
  obtain ⟨is, his⟩ := hu.trans hv
  refine ⟨is, v, his, hidle, hcv.free fun t ht => ?_⟩
  rw [hidle t ht]
  rfl

end RwLock
