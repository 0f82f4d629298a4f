/-
  Scord.Lib.ExceptLoop

  Loops over a list that an exception can leave (`List.foldlM` in `Except`).

  Two questions are kept apart: which exception leaves the loop (`fault`), and
  what the state is when none does (`foldlM_invariant`).  Where a step fails or
  not regardless of the state, the loop fails as its first such step does.
-/
import Mathlib.Init

namespace ExceptLoop

variable {ε α β σ : Type _}

/-- The exception, if there is one. -/
def fault : Except ε σ → Option ε
  | .error e => some e
  | .ok _ => none

@[simp] theorem fault_ok (s : σ) : fault (.ok s : Except ε σ) = none := rfl

@[simp] theorem fault_error (e : ε) : fault (.error e : Except ε σ) = some e := rfl

theorem bind_eq_ok {x : Except ε σ} {f : σ → Except ε β} {b : β} :
    (x >>= f) = .ok b ↔ ∃ s, x = .ok s ∧ f s = .ok b := by
  cases x with
  | error e =>
      refine ⟨fun h => ?_, ?_⟩
      · cases h
      · rintro ⟨s, hs, -⟩
        cases hs
  | ok s =>
      refine ⟨fun h => ⟨s, rfl, h⟩, ?_⟩
      rintro ⟨s', hs', h⟩
      cases hs'
      exact h

section Loops

variable {step : σ → α → Except ε σ} {status : α → Option ε}

/-- **The first failing step** decides, where the state does not. -/
theorem fault_foldlM (h : ∀ s a, fault (step s a) = status a) (l : List α) (s : σ) :
    fault (l.foldlM step s) = l.findSome? status := by
  induction l generalizing s with
  | nil => rfl
  | cons a l ih =>
      rw [List.foldlM_cons, List.findSome?_cons, ← h s a]
      cases hstep : step s a with
      | error e => rfl
      | ok s' => exact ih s'

/-- **The invariant rule.**  The invariant speaks about the elements so far. -/
theorem foldlM_invariant {I : List α → σ → Prop} {l : List α} {s t : σ}
    (hl : l.foldlM step s = .ok t) (hinit : I [] s)
    (hstep : ∀ done a s s', a ∈ l → I done s → step s a = .ok s' → I (done ++ [a]) s') : I l t := by
  have hrest : ∀ (rest done : List α) (s : σ), rest.foldlM step s = .ok t → I done s →
      (∀ a ∈ rest, a ∈ l) → I (done ++ rest) t := by
    intro rest
    induction rest with
    | nil =>
        intro done s hs hdone _
        cases hs
        rwa [List.append_nil]
    | cons a rest ih =>
        intro done s hs hdone hmem
        rw [List.foldlM_cons] at hs
        obtain ⟨s', hs', hs⟩ := bind_eq_ok.mp hs
        have hnext := hstep done a s s' (hmem a List.mem_cons_self) hdone hs'
        have h := ih (done ++ [a]) s' hs hnext fun b hb => hmem b (List.mem_cons_of_mem _ hb)
        rwa [List.append_assoc] at h
  exact hrest l [] s hl hinit fun _ h => h

end Loops

/-- A loop in a loop is one over all that the inner ones go over. -/
theorem findSome?_flatMap (f : α → List β) (status : β → Option ε) (l : List α) :
    (l.flatMap f).findSome? status = l.findSome? fun a => (f a).findSome? status := by
  induction l with
  | nil => rfl
  | cons a l ih =>
      rw [List.flatMap_cons, List.findSome?_append, List.findSome?_cons, ih]
      cases (f a).findSome? status <;> rfl

end ExceptLoop
