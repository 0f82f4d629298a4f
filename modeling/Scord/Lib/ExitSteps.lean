/-
  Scord.Lib.ExitSteps

  C functions that go through a sequence of steps and leave it with `goto end`
  at the first one that fails.  A step works on a state, and may end the program
  with a fault.

  A triple speaks about both ways out of a step: `Q` holds when the function
  goes on, and `E` when it leaves.
-/
import Mathlib.Init

namespace ExitSteps

variable {ε σ : Type}

/-- The state after the step, and whether the function goes on. -/
abbrev Step (ε σ : Type) := σ → Except ε (σ × Bool)

/-- One step after the other, up to the first one that fails. -/
def seq : List (Step ε σ) → Step ε σ
  | [], s => .ok (s, true)
  | f :: fs, s =>
      match f s with
      | .ok (s', true) => seq fs s'
      | .ok (s', false) => .ok (s', false)
      | .error fault => .error fault

/-- From a state with `P`, a step that does not fault leads to `Q` when it goes
    on, and to `E` when it fails. -/
structure Triple (P : σ → Prop) (f : Step ε σ) (Q E : σ → Prop) : Prop where
  goesOn : ∀ {s s'}, P s → f s = .ok (s', true) → Q s'
  fails : ∀ {s s'}, P s → f s = .ok (s', false) → E s'

section Rules

variable {P Q R E : σ → Prop} {f : Step ε σ} {fs : List (Step ε σ)}

/-- No step is left. -/
theorem Triple.nil (h : ∀ s, P s → Q s) : Triple P (seq ([] : List (Step ε σ))) Q E where
  goesOn hp hs := by
    cases hs
    exact h _ hp
  fails hp hs := by
    cases hs

/-- **The sequence rule.**  All steps leave to the same `E`. -/
theorem Triple.cons (hf : Triple P f R E) (hfs : Triple R (seq fs) Q E) :
    Triple P (seq (f :: fs)) Q E where
  goesOn := by
    intro s s' hp hs
    unfold seq at hs
    split at hs
    case h_1 t ht => exact hfs.goesOn (hf.goesOn hp ht) hs
    case h_2 => cases hs
    case h_3 => cases hs
  fails := by
    intro s s' hp hs
    unfold seq at hs
    split at hs
    case h_1 t ht => exact hfs.fails (hf.goesOn hp ht) hs
    case h_2 t ht =>
      cases hs
      exact hf.fails hp ht
    case h_3 => cases hs

/-- A step with one way to describe both ways out of it. -/
theorem Triple.of_either (h : ∀ {s s' goesOn}, P s → f s = .ok (s', goesOn) → Q s')
    (hexit : ∀ s, Q s → E s) : Triple P f Q E where
  goesOn hp hs := h hp hs
  fails hp hs := hexit _ (h hp hs)

/-- Either way out. -/
theorem Triple.either (h : Triple P f Q Q) {s s' : σ} {goesOn : Bool} (hp : P s)
    (hs : f s = .ok (s', goesOn)) : Q s' := by
  cases goesOn with
  | true => exact h.goesOn hp hs
  | false => exact h.fails hp hs

end Rules

end ExitSteps
