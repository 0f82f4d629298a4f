/-
  Scord.Lib.UndoStack

  Stacks that are written by a sequence of pushes and pops, where a pop of the
  empty stack does nothing.

  How much is on the stack depends on the ends of the sequence: it is the largest
  surplus of pushes over pops in any of them (`length_run_le_iff`).

  A machine that only takes back its latest push is compared with the stack: the
  two agree until a pop is ignored that the stack carries out, and never again
  after that (`runOnce_eq_iff`).
-/
import Mathlib.Data.List.Infix

namespace UndoStack

variable {α : Type _}

inductive Action (α : Type _)
  | push (a : α)
  | pop
  | skip
deriving DecidableEq, Repr

/-! ## The stack -/

/-- One action on a stack whose top is at the end. -/
def step (stack : List α) : Action α → List α
  | .push a => stack ++ [a]
  | .pop => stack.dropLast
  | .skip => stack

/-- The stack after all of the actions. -/
def run (actions : List (Action α)) : List α := actions.foldl step []

def Action.isPush : Action α → Bool
  | .push _ => true
  | _ => false

def Action.isPop : Action α → Bool
  | .pop => true
  | _ => false

/-- No end of the sequence has more than `k` pushes over its pops. -/
def Leaves (k : Nat) (actions : List (Action α)) : Prop :=
  ∀ rest, rest <:+ actions → rest.countP Action.isPush ≤ rest.countP Action.isPop + k

/-- Every push is taken back. -/
abbrev Cancels (actions : List (Action α)) : Prop := Leaves 0 actions

@[simp] theorem run_nil : run ([] : List (Action α)) = [] := rfl

@[simp] theorem run_append_singleton (actions : List (Action α)) (x : Action α) :
    run (actions ++ [x]) = step (run actions) x := by
  simp [run]

/-- What is on the stack has been pushed. -/
theorem push_mem_of_mem_run {a : α} {actions : List (Action α)} (h : a ∈ run actions) :
    .push a ∈ actions := by
  induction actions using List.reverseRecOn with
  | nil => cases h
  | append_singleton actions x ih =>
      rw [run_append_singleton] at h
      cases x with
      | push b =>
          rcases List.mem_append.mp h with hold | hnew
          · exact List.mem_append_left _ (ih hold)
          · rw [List.mem_singleton.mp hnew]
            exact List.mem_concat_self
      | pop => exact List.mem_append_left _ (ih (List.mem_of_mem_dropLast h))
      | skip => exact List.mem_append_left _ (ih h)

/-! ## The height of the stack -/

section Height

variable {actions : List (Action α)} {k : Nat}

/-- The ends of a sequence with one more action: the empty one, and those of the
    sequence with the action behind them. -/
theorem leaves_append_singleton {x : Action α} :
    Leaves k (actions ++ [x]) ↔
      ∀ rest, rest <:+ actions → rest.countP Action.isPush + (if x.isPush then 1 else 0)
        ≤ rest.countP Action.isPop + (if x.isPop then 1 else 0) + k := by
  refine ⟨fun h rest hrest => ?_, fun h rest hrest => ?_⟩
  · have hend := h (rest ++ [x]) (List.suffix_concat_iff.mpr (Or.inr ⟨rest, rfl, hrest⟩))
    simpa [List.countP_append, List.countP_singleton] using hend
  · rcases List.suffix_concat_iff.mp hrest with rfl | ⟨rest', rfl, hrest'⟩
    · exact Nat.zero_le _
    · have hend := h rest' hrest'
      simpa [List.countP_append, List.countP_singleton] using hend

theorem leaves_append_push {a : α} :
    Leaves k (actions ++ [.push a]) ↔ 0 < k ∧ Leaves (k - 1) actions := by
  rw [leaves_append_singleton]
  simp only [Action.isPush, Action.isPop, if_true, Bool.false_eq_true, if_false]
  refine ⟨fun h => ?_, fun ⟨hk, h⟩ rest hrest => ?_⟩
  · have hk : 0 < k := by
      have hempty := h [] List.nil_suffix
      rw [List.countP_nil, List.countP_nil] at hempty
      omega
    refine ⟨hk, fun rest hrest => ?_⟩
    have hend := h rest hrest
    omega
  · have hend := h rest hrest
    omega

theorem leaves_append_pop : Leaves k (actions ++ [.pop]) ↔ Leaves (k + 1) actions := by
  rw [leaves_append_singleton]
  refine forall₂_congr fun rest _ => ?_
  simp only [Action.isPush, Action.isPop, if_true, Bool.false_eq_true, if_false]
  omega

theorem leaves_append_skip : Leaves k (actions ++ [.skip]) ↔ Leaves k actions :=
  leaves_append_singleton

/-- **The height of the stack** is at most `k` when no end of the sequence leaves
    more than that. -/
theorem length_run_le_iff (actions : List (Action α)) (k : Nat) :
    (run actions).length ≤ k ↔ Leaves k actions := by
  induction actions using List.reverseRecOn generalizing k with
  | nil =>
      refine iff_of_true (Nat.zero_le k) fun rest hrest => ?_
      rw [List.suffix_nil.mp hrest]
      exact Nat.zero_le _
  | append_singleton actions x ih =>
      rw [run_append_singleton]
      cases x with
      | push a =>
          rw [leaves_append_push, ← ih, step, List.length_append, List.length_singleton]
          omega
      | pop =>
          rw [leaves_append_pop, ← ih, step, List.length_dropLast]
          omega
      | skip =>
          rw [leaves_append_skip, ← ih]
          rfl

theorem run_eq_nil_iff : run actions = [] ↔ Cancels actions := by
  rw [Cancels, ← length_run_le_iff, Nat.le_zero, List.length_eq_zero_iff]

end Height

/-! ## Taking back the latest push alone -/

/-- One action of a machine that remembers whether its latest one was a push, and
    only takes that one back. -/
def stepOnce (s : List α × Bool) : Action α → List α × Bool
  | .push a => (s.1 ++ [a], true)
  | .pop => if s.2 then (s.1.dropLast, false) else s
  | .skip => s

def runOnce (actions : List (Action α)) : List α × Bool := actions.foldl stepOnce ([], false)

/-- The latest action, but for skips, was a push. -/
def EndsInPush (actions : List (Action α)) : Prop :=
  ∃ before a skips, actions = before ++ .push a :: skips ∧ ∀ x ∈ skips, x = .skip

/-- Every pop comes after a push, but for skips, or when there is nothing left. -/
def PopsOnce (actions : List (Action α)) : Prop :=
  ∀ before after, actions = before ++ .pop :: after → Cancels before ∨ EndsInPush before

@[simp] theorem runOnce_append_singleton (actions : List (Action α)) (x : Action α) :
    runOnce (actions ++ [x]) = stepOnce (runOnce actions) x := by
  simp [runOnce]

section Once

variable {actions : List (Action α)}

/-- A sequence with one more action, cut at one of its actions. -/
theorem append_singleton_cases {x y : Action α} {before after : List (Action α)}
    (h : actions ++ [x] = before ++ y :: after) :
    (after = [] ∧ y = x ∧ before = actions) ∨
      ∃ after', after = after' ++ [x] ∧ actions = before ++ y :: after' := by
  rcases List.eq_nil_or_concat after with rfl | ⟨after', z, rfl⟩
  · obtain ⟨rfl, hx⟩ := List.append_inj' h rfl
    exact Or.inl ⟨rfl, (List.cons.inj hx).1.symm, rfl⟩
  · have hend : actions ++ [x] = (before ++ y :: after') ++ [z] := by simpa using h
    obtain ⟨rfl, hx⟩ := List.append_inj' hend rfl
    obtain rfl := List.singleton_inj.mp hx
    exact Or.inr ⟨after', List.concat_eq_append, rfl⟩

theorem endsInPush_append_push (a : α) : EndsInPush (actions ++ [.push a]) :=
  ⟨actions, a, [], rfl, fun _ hx => absurd hx List.not_mem_nil⟩

theorem endsInPush_append_pop : ¬ EndsInPush (actions ++ [.pop]) := by
  rintro ⟨before, a, skips, heq, hskips⟩
  rcases append_singleton_cases heq with ⟨-, hpush, -⟩ | ⟨skips', rfl, -⟩
  · cases hpush
  · cases hskips .pop List.mem_concat_self

theorem endsInPush_append_skip : EndsInPush (actions ++ [.skip]) ↔ EndsInPush actions := by
  refine ⟨?_, ?_⟩
  · rintro ⟨before, a, skips, heq, hskips⟩
    rcases append_singleton_cases heq with ⟨-, hpush, -⟩ | ⟨skips', rfl, rfl⟩
    · cases hpush
    · exact ⟨before, a, skips', rfl, fun x hx => hskips x (List.mem_append_left _ hx)⟩
  · rintro ⟨before, a, skips, rfl, hskips⟩
    refine ⟨before, a, skips ++ [.skip], by simp, fun x hx => ?_⟩
    rcases List.mem_append.mp hx with hx | hx
    · exact hskips x hx
    · exact List.mem_singleton.mp hx

theorem popsOnce_append_singleton {x : Action α} :
    PopsOnce (actions ++ [x]) ↔
      PopsOnce actions ∧ (x = .pop → Cancels actions ∨ EndsInPush actions) := by
  refine ⟨fun h => ⟨?_, ?_⟩, fun ⟨hold, hnew⟩ before after heq => ?_⟩
  · rintro before after rfl
    exact h before (after ++ [x]) (by simp)
  · rintro rfl
    exact h actions [] rfl
  · rcases append_singleton_cases heq with ⟨-, rfl, rfl⟩ | ⟨after', -, rfl⟩
    · exact hnew rfl
    · exact hold before after' rfl

/-- The machine remembers how the sequence ends. -/
theorem runOnce_snd_iff (actions : List (Action α)) :
    (runOnce actions).2 = true ↔ EndsInPush actions := by
  induction actions using List.reverseRecOn with
  | nil =>
      refine iff_of_false (by simp [runOnce]) ?_
      rintro ⟨before, a, skips, heq, -⟩
      cases before <;> cases heq
  | append_singleton actions x ih =>
      rw [runOnce_append_singleton]
      cases x with
      | push a => exact iff_of_true rfl (endsInPush_append_push a)
      | pop =>
          refine iff_of_false ?_ endsInPush_append_pop
          cases hpush : (runOnce actions).2 <;> simp [stepOnce, hpush]
      | skip =>
          rw [endsInPush_append_skip]
          exact ih

/-- What was pushed last is on the stack. -/
theorem EndsInPush.run_ne_nil (h : EndsInPush actions) : run actions ≠ [] := by
  induction actions using List.reverseRecOn with
  | nil =>
      obtain ⟨before, a, skips, heq, -⟩ := h
      cases before <;> cases heq
  | append_singleton actions x ih =>
      rw [run_append_singleton]
      cases x with
      | push a => exact List.append_ne_nil_of_right_ne_nil _ (List.cons_ne_nil a [])
      | pop => exact absurd h endsInPush_append_pop
      | skip => exact ih (endsInPush_append_skip.mp h)

/-! A pop, in the machine. -/

theorem runOnce_append_pop_of_endsInPush (h : EndsInPush actions) :
    (runOnce (actions ++ [.pop])).1 = (runOnce actions).1.dropLast := by
  have hpush : (runOnce actions).2 = true := (runOnce_snd_iff actions).mpr h
  rw [runOnce_append_singleton, stepOnce, if_pos hpush]

theorem runOnce_append_pop_of_not (h : ¬ EndsInPush actions) :
    (runOnce (actions ++ [.pop])).1 = (runOnce actions).1 := by
  have hpush : ¬ (runOnce actions).2 = true := mt (runOnce_snd_iff actions).mp h
  rw [runOnce_append_singleton, stepOnce, if_neg hpush]

/-- As long as no pop is ignored that the stack carries out, the machine has what is
    on the stack, -/
theorem PopsOnce.runOnce_eq (h : PopsOnce actions) : (runOnce actions).1 = run actions := by
  induction actions using List.reverseRecOn with
  | nil => rfl
  | append_singleton actions x ih =>
      obtain ⟨hold, hnew⟩ := popsOnce_append_singleton.mp h
      have heq : (runOnce actions).1 = run actions := ih hold
      rw [run_append_singleton]
      cases x with
      | push a =>
          rw [runOnce_append_singleton]
          exact congrArg (· ++ [a]) heq
      | skip =>
          rw [runOnce_append_singleton]
          exact heq
      | pop =>
          by_cases hend : EndsInPush actions
          · rw [runOnce_append_pop_of_endsInPush hend, heq]
            rfl
          · have hempty : run actions = [] :=
              run_eq_nil_iff.mpr ((hnew rfl).resolve_right hend)
            rw [runOnce_append_pop_of_not hend, heq, hempty]
            rfl

/-- and more than that from then on. -/
theorem length_run_lt_of_not_popsOnce (h : ¬ PopsOnce actions) :
    (run actions).length < (runOnce actions).1.length := by
  induction actions using List.reverseRecOn with
  | nil =>
      refine absurd ?_ h
      intro before after heq
      cases before <;> cases heq
  | append_singleton actions x ih =>
      rw [popsOnce_append_singleton] at h
      rw [run_append_singleton]
      by_cases hold : PopsOnce actions
      · -- this is the first pop that the machine ignores
        have hnot : ¬ (x = .pop → Cancels actions ∨ EndsInPush actions) :=
          fun hnew => h ⟨hold, hnew⟩
        obtain ⟨rfl, hnone⟩ := Classical.not_imp.mp hnot
        obtain ⟨hcancels, hend⟩ := not_or.mp hnone
        have hpos : 0 < (run actions).length :=
          List.length_pos_of_ne_nil (mt run_eq_nil_iff.mp hcancels)
        rw [runOnce_append_pop_of_not hend, hold.runOnce_eq, step, List.length_dropLast]
        omega
      · have hlt : (run actions).length < (runOnce actions).1.length := ih hold
        cases x with
        | push a =>
            rw [runOnce_append_singleton, stepOnce, step, List.length_append, List.length_append]
            exact Nat.add_lt_add_right hlt 1
        | skip =>
            rw [runOnce_append_singleton]
            exact hlt
        | pop =>
            rw [step, List.length_dropLast]
            by_cases hend : EndsInPush actions
            · have hpos : 0 < (run actions).length := List.length_pos_of_ne_nil hend.run_ne_nil
              rw [runOnce_append_pop_of_endsInPush hend, List.length_dropLast]
              omega
            · rw [runOnce_append_pop_of_not hend]
              omega

/-- **The machine and the stack** have the same in the end exactly when every pop
    comes after a push, or when there is nothing left. -/
theorem runOnce_eq_iff : (runOnce actions).1 = run actions ↔ PopsOnce actions := by
  refine ⟨fun heq => ?_, PopsOnce.runOnce_eq⟩
  by_contra h
  have hlt := length_run_lt_of_not_popsOnce h
  rw [heq] at hlt
  exact absurd hlt (Nat.lt_irrefl _)

end Once

end UndoStack
