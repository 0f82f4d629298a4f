/-
  Scord.Lib.AdvisoryLock

  One file name, the files that it has named in turn, and the POSIX advisory
  locks on them: `open` with `O_CREAT` and without `O_TRUNC`, `lockf` with
  `F_TLOCK`, `write` at the beginning, `close`, and `unlink`.

  An open file is a number.  It stays what it is when the name is removed, and
  the name may lead to another file after that.  A lock belongs to a process and
  is gone when this process closes the file.
-/
import Mathlib.Logic.Function.Basic

namespace AdvisoryLock

/-- The files, over the type of the processes. -/
structure Files (P : Type) where
  /-- the file that the name leads to -/
  entry : Option Nat
  content : Nat → List Char
  owner : Nat → Option P
  /-- the next file that is created -/
  next : Nat

namespace Files

variable {P : Type}

/-- No lock is held; the name is free, or leads to a file with some content. -/
def start : Option (List Char) → Files P
  | none => ⟨none, fun _ => [], fun _ => none, 0⟩
  | some text => ⟨some 0, fun _ => text, fun _ => none, 1⟩

/-- `open(name, O_RDWR | O_CREAT)`: a file that is there keeps its content. -/
def openCreate (f : Files P) : Files P × Nat :=
  match f.entry with
  | some i => (f, i)
  | none =>
      ({ f with
          entry := some f.next
          content := Function.update f.content f.next []
          next := f.next + 1 }, f.next)

/-- `lockf(fd, F_TLOCK, 0)`: not granted while another process has the lock. -/
def tryLock [DecidableEq P] (f : Files P) (p : P) (i : Nat) : Option (Files P) :=
  match f.owner i with
  | none => some { f with owner := Function.update f.owner i (some p) }
  | some q => if q = p then some f else none

/-- `write` at the beginning of the file: what is behind the text stays. -/
def write (f : Files P) (i : Nat) (text : List Char) : Files P :=
  { f with content := Function.update f.content i (text ++ (f.content i).drop text.length) }

/-- `close`, or the end of the process: its lock on the file is released. -/
def close [DecidableEq P] (f : Files P) (p : P) (i : Nat) : Files P :=
  if f.owner i = some p then { f with owner := Function.update f.owner i none } else f

/-- `unlink(name)` -/
def unlink (f : Files P) : Files P := { f with entry := none }

/-! ## Rules -/

variable {f f' : Files P} {p q : P} {i j : Nat} {text : List Char}

theorem openCreate_of_entry (h : f.entry = some i) : f.openCreate = (f, i) := by
  unfold openCreate
  rw [h]

theorem owner_openCreate (f : Files P) : f.openCreate.1.owner = f.owner := by
  unfold openCreate
  split <;> rfl

@[simp] theorem entry_write : (f.write i text).entry = f.entry := rfl
@[simp] theorem owner_write : (f.write i text).owner = f.owner := rfl

/-- The file has the text alone when the text is as long as what it replaces. -/
theorem content_write_of_length_le (h : (f.content i).length ≤ text.length) :
    (f.write i text).content i = text := by
  unfold write
  simp only [Function.update_self]
  rw [List.drop_eq_nil_of_le h, List.append_nil]

@[simp] theorem owner_unlink : f.unlink.owner = f.owner := rfl

variable [DecidableEq P]

/-- A lock is granted to one process, which is the owner then. -/
theorem tryLock_cases (h : f.tryLock p i = some f') :
    (f.owner i = none ∨ f.owner i = some p) ∧ f'.owner = Function.update f.owner i (some p) ∧
      f'.entry = f.entry ∧ f'.content = f.content := by
  unfold tryLock at h
  cases howner : f.owner i with
  | none =>
      rw [howner, Option.some.injEq] at h
      subst h
      exact ⟨.inl rfl, rfl, rfl, rfl⟩
  | some q =>
      rw [howner] at h
      by_cases hq : q = p
      · simp only [if_pos hq, Option.some.injEq] at h
        subst h
        refine ⟨.inr (by rw [hq]), ?_, rfl, rfl⟩
        rw [← hq, ← howner, Function.update_eq_self]
      · simp only [if_neg hq] at h
        cases h

@[simp] theorem entry_close : (f.close p i).entry = f.entry := by
  unfold close
  split <;> rfl

@[simp] theorem content_close : (f.close p i).content = f.content := by
  unfold close
  split <;> rfl

/-- The locks of others are as they were. -/
theorem owner_close_iff (hq : q ≠ p) :
    (f.close p i).owner j = some q ↔ f.owner j = some q := by
  unfold close
  split
  case isTrue howner =>
      by_cases hj : j = i
      · subst hj
        simp [howner, hq.symm]
      · simp only [Function.update_of_ne hj]
  case isFalse => exact Iff.rfl

/-- A lock that is held after a close was held before. -/
theorem owner_of_close (h : (f.close p i).owner j = some q) :
    f.owner j = some q ∧ ¬ (j = i ∧ q = p) := by
  unfold close at h
  split at h
  case isTrue howner =>
      by_cases hj : j = i
      · subst hj
        simp only [Function.update_self] at h
        cases h
      · simp only [Function.update_of_ne hj] at h
        exact ⟨h, fun hji => hj hji.1⟩
  case isFalse howner =>
      refine ⟨h, ?_⟩
      rintro ⟨rfl, rfl⟩
      exact howner h

end Files

end AdvisoryLock
