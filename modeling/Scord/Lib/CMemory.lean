/-
  Scord.Lib.CMemory

  Pointers and arrays of C, as far as reading goes: a pointer is an `Option`,
  an array a list, and a read that C leaves undefined is a fault.  The loops
  that fill a vector or an array from such reads come with the exact condition
  under which they succeed.
-/
import Scord.Lib.ExceptLoop

namespace CMemory

open ExceptLoop (bind_eq_ok)

/-- What ends C code without a result. -/
inductive Fault
  /-- a null pointer is dereferenced -/
  | nullPointer
  /-- an array is read past its end -/
  | outOfBounds
  /-- a value that is no enumerator is taken for one -/
  | invalidEnum
deriving DecidableEq, Repr

abbrev Result (α : Type) := Except Fault α

variable {α β : Type}

def deref : Option α → Result α
  | some a => .ok a
  | none => .error .nullPointer

/-- `cells[i]` -/
def readAt (cells : List α) (i : Nat) : Result α :=
  match cells[i]? with
  | some a => .ok a
  | none => .error .outOfBounds

/-- `for(i = 0; i < n; ++i) v.push_back(read(i));` from an empty vector. -/
def collect (read : Nat → Result α) : Nat → Result (List α)
  | 0 => .ok []
  | n + 1 => do
      let v ← collect read n
      let a ← read n
      return v ++ [a]

/-- The same for a loop that is left as soon as an element is null. -/
def collectNonNull (read : Nat → Result (Option α)) : Nat → Result (Option (List α))
  | 0 => .ok (some [])
  | n + 1 => do
      match ← collectNonNull read n with
      | none => return none
      | some v =>
          match ← read n with
          | none => return none
          | some a => return some (v ++ [a])

/-! ## Rules -/

@[simp] theorem deref_some (a : α) : deref (some a) = .ok a := rfl

@[simp] theorem deref_none : deref (none : Option α) = .error .nullPointer := rfl

theorem deref_eq_ok {p : Option α} {a : α} : deref p = .ok a ↔ p = some a := by
  cases p <;> simp

theorem readAt_eq_ok {cells : List α} {i : Nat} {a : α} :
    readAt cells i = .ok a ↔ cells[i]? = some a := by
  unfold readAt
  cases cells[i]? <;> simp

theorem collect_succ {read : Nat → Result α} {n : Nat} {v : List α} :
    collect read (n + 1) = .ok v ↔
      ∃ v₀ a, collect read n = .ok v₀ ∧ read n = .ok a ∧ v = v₀ ++ [a] := by
  show (collect read n >>= fun v₀ => read n >>= fun a => pure (v₀ ++ [a])) = .ok v ↔ _
  simp only [bind_eq_ok]
  refine ⟨?_, ?_⟩
  · rintro ⟨v₀, hv₀, a, ha, h⟩
    cases h
    exact ⟨v₀, a, hv₀, ha, rfl⟩
  · rintro ⟨v₀, a, hv₀, ha, rfl⟩
    exact ⟨v₀, hv₀, a, ha, rfl⟩

/-- A loop succeeds exactly when all of its reads do. -/
theorem exists_collect_eq_ok {read : Nat → Result α} {n : Nat} :
    (∃ v, collect read n = .ok v) ↔ ∀ i < n, ∃ a, read i = .ok a := by
  induction n with
  | zero => exact ⟨fun _ i hi => absurd hi (Nat.not_lt_zero i), fun _ => ⟨[], rfl⟩⟩
  | succ n ih =>
      simp only [collect_succ]
      refine ⟨?_, ?_⟩
      · rintro ⟨v, v₀, a, hv₀, ha, -⟩ i hi
        rcases Nat.lt_succ_iff_lt_or_eq.mp hi with hlt | rfl
        · exact ih.mp ⟨v₀, hv₀⟩ i hlt
        · exact ⟨a, ha⟩
      · intro hall
        obtain ⟨v₀, hv₀⟩ := ih.mpr fun i hi => hall i (Nat.lt_succ_of_lt hi)
        obtain ⟨a, ha⟩ := hall n (Nat.lt_succ_self n)
        exact ⟨v₀ ++ [a], v₀, a, hv₀, ha, rfl⟩

/-- A loop over the first `n` cells of an array, with a conversion that does not
    fault: it succeeds exactly when the array has as many cells. -/
theorem collect_readAt {cells : List α} {convert : α → Result β} {f : α → β}
    (hconvert : ∀ a ∈ cells, convert a = .ok (f a)) {n : Nat} {v : List β} :
    (collect (fun i => readAt cells i >>= convert) n = .ok v) ↔
      n ≤ cells.length ∧ v = (cells.take n).map f := by
  induction n generalizing v with
  | zero =>
      refine ⟨?_, ?_⟩
      · intro h
        cases h
        exact ⟨Nat.zero_le _, rfl⟩
      · rintro ⟨-, rfl⟩
        rfl
  | succ n ih =>
      simp only [collect_succ, ih, bind_eq_ok, readAt_eq_ok]
      refine ⟨?_, ?_⟩
      · rintro ⟨v₀, b, ⟨hn, rfl⟩, ⟨a, ha, hb⟩, rfl⟩
        obtain ⟨hlt, rfl⟩ := List.getElem?_eq_some_iff.mp ha
        rw [hconvert _ (List.getElem_mem hlt)] at hb
        cases hb
        refine ⟨hlt, ?_⟩
        rw [List.take_succ_eq_append_getElem hlt, List.map_append]
        rfl
      · rintro ⟨hlt, rfl⟩
        -- there is one more cell, and it is converted last
        have hlt : n < cells.length := hlt
        refine ⟨_, f cells[n], ⟨Nat.le_of_lt hlt, rfl⟩, ⟨cells[n], ?_, ?_⟩, ?_⟩
        · exact List.getElem?_eq_getElem hlt
        · exact hconvert _ (List.getElem_mem hlt)
        · rw [List.take_succ_eq_append_getElem hlt, List.map_append]
          rfl

/-- A loop whose reads are all non-null. -/
theorem collectNonNull_of_some {read : Nat → Result (Option α)} {v : List α}
    (hread : ∀ i a, v[i]? = some a → read i = .ok (some a)) :
    collectNonNull read v.length = .ok (some v) := by
  -- generalized to the prefixes that the loop has read so far
  suffices h : ∀ n, n ≤ v.length → collectNonNull read n = .ok (some (v.take n)) by
    have hall := h v.length (Nat.le_refl _)
    rwa [List.take_length] at hall
  intro n
  induction n with
  | zero =>
      intro _
      rfl
  | succ n ih =>
      intro hn
      have hlt : n < v.length := hn
      have hprev := ih (Nat.le_of_lt hlt)
      have hcell := hread n v[n] (List.getElem?_eq_getElem hlt)
      rw [List.take_succ_eq_append_getElem hlt, collectNonNull, hprev]
      show (read n >>= _) = _
      rw [hcell]
      rfl

end CMemory
