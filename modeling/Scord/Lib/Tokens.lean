/-
  Scord.Lib.Tokens

  Two ways to take a text apart at a separator.

    * `split` is the loop over `find` and `substr`: it gives all of the tokens,
      one more than there are separators (`split_eq_splitOn`).
    * `getlines` is the loop over `getline`: it does not give an empty token at
      the end (`splitOn_eq_getlines`).
-/
import Mathlib.Data.List.TakeWhile

namespace Tokens

variable {α : Type} [DecidableEq α]

/-- No token contains the separator. -/
theorem not_mem_of_mem_splitOn {sep : α} {text token : List α}
    (h : token ∈ text.splitOn sep) : sep ∉ token := by
  induction text generalizing token with
  | nil =>
      rw [List.splitOn_nil, List.mem_singleton] at h
      rw [h]
      exact List.not_mem_nil
  | cons c text ih =>
      rw [List.splitOn_cons_eq_if_modifyHead] at h
      by_cases hc : c = sep
      · rw [if_pos (beq_iff_eq.mpr hc), List.mem_cons] at h
        rcases h with rfl | h
        · exact List.not_mem_nil
        · exact ih h
      · rw [if_neg (by simpa using hc)] at h
        -- the character goes to the front of the first token
        cases htokens : text.splitOn sep with
        | nil => exact absurd htokens (List.splitOn_ne_nil sep text)
        | cons first others =>
            rw [htokens] at h ih
            rcases List.mem_cons.mp h with rfl | h
            · rw [List.mem_cons, not_or]
              exact ⟨Ne.symm hc, ih List.mem_cons_self⟩
            · exact ih (List.mem_cons_of_mem _ h)

/-! ## Up to the first separator -/

theorem not_mem_takeWhile_ne (sep : α) (text : List α) :
    sep ∉ text.takeWhile fun c => c ≠ sep := by
  intro hmem
  have hne := List.mem_takeWhile_imp hmem
  simp at hne

theorem eq_of_dropWhile_ne {sep c : α} {text rest : List α}
    (h : (text.dropWhile fun c => c ≠ sep) = c :: rest) : c = sep := by
  have hhead := List.head?_dropWhile_not (fun c => decide (c ≠ sep)) text
  rw [h] at hhead
  simpa using hhead

section First

variable {sep : α} {token : List α}

theorem takeWhile_ne_append (h : sep ∉ token) (rest : List α) :
    ((token ++ sep :: rest).takeWhile fun c => c ≠ sep) = token := by
  have hall : ∀ c ∈ token, decide (c ≠ sep) = true := by
    intro c hc
    apply decide_eq_true
    rintro rfl
    exact h hc
  rw [List.takeWhile_append_of_pos hall, List.takeWhile_cons_of_neg (by simp), List.append_nil]

theorem dropWhile_ne_append (h : sep ∉ token) (rest : List α) :
    ((token ++ sep :: rest).dropWhile fun c => c ≠ sep) = sep :: rest := by
  have hsplit := List.takeWhile_append_dropWhile
    (p := fun c => decide (c ≠ sep)) (l := token ++ sep :: rest)
  rw [takeWhile_ne_append h] at hsplit
  exact List.append_cancel_left hsplit

end First

/-! ## The loop over `find` -/

/-- `text.find(sep, start)`; there is none when the result is `npos`. -/
def find (text : List α) (sep : α) (start : Nat) : Option Nat :=
  ((text.drop start).findIdx? fun c => c = sep).map fun i => start + i

/-- The separator is where it is found, and not before. -/
theorem find_eq_some {text : List α} {sep : α} {start stop : Nat}
    (h : find text sep start = some stop) :
    ∃ token rest, text.drop start = token ++ sep :: rest ∧ sep ∉ token ∧
      stop = start + token.length := by
  obtain ⟨i, hi, rfl⟩ := Option.map_eq_some_iff.mp h
  obtain ⟨hlt, hsep, hbefore⟩ := List.findIdx?_eq_some_iff_getElem.mp hi
  refine ⟨(text.drop start).take i, (text.drop start).drop (i + 1), ?_, ?_, ?_⟩
  · have hcell : (text.drop start)[i] = sep := by simpa using hsep
    calc text.drop start
        = (text.drop start).take i ++ (text.drop start).drop i := (List.take_append_drop ..).symm
      _ = (text.drop start).take i ++ sep :: (text.drop start).drop (i + 1) := by
          rw [List.drop_eq_getElem_cons hlt, hcell]
  · intro hmem
    obtain ⟨j, hj, hcell⟩ := List.mem_take_iff_getElem.mp hmem
    have hji : j < i := by omega
    have hnot := hbefore j hji
    simp [hcell] at hnot
  · rw [List.length_take, Nat.min_eq_left (Nat.le_of_lt hlt)]

theorem find_eq_none {text : List α} {sep : α} {start : Nat}
    (h : find text sep start = none) : sep ∉ text.drop start := by
  intro hmem
  have hnone := List.findIdx?_eq_none_iff.mp (Option.map_eq_none_iff.mp h) sep hmem
  simp at hnone

/-- The `while` loop of `split`: the tokens from `start` on. -/
def splitFrom (text : List α) (sep : α) (start : Nat) : List (List α) :=
  match h : find text sep start with
  | none => [text.drop start]
  | some stop => (text.drop start).take (stop - start) :: splitFrom text sep (stop + 1)
termination_by text.length - start
decreasing_by
  obtain ⟨token, rest, hdrop, -, rfl⟩ := find_eq_some h
  have hlength := congrArg List.length hdrop
  rw [List.length_drop, List.length_append, List.length_cons] at hlength
  omega

def split (text : List α) (sep : α) : List (List α) := splitFrom text sep 0

/-- The loop gives all of the tokens of what is left. -/
theorem splitFrom_eq_splitOn (text : List α) (sep : α) (start : Nat) :
    splitFrom text sep start = (text.drop start).splitOn sep := by
  induction start using splitFrom.induct text sep with
  | case1 start hnone =>
      rw [splitFrom, List.splitOn_eq_singleton (find_eq_none hnone)]
      split
      · rfl
      · next stop hstop => cases hnone.symm.trans hstop
  | case2 start stop hstop ih =>
      obtain ⟨token, rest, hdrop, hsep, rfl⟩ := find_eq_some hstop
      have htoken : (text.drop start).take (start + token.length - start) = token := by
        rw [hdrop, Nat.add_sub_cancel_left, List.take_left]
      have hrest : text.drop (start + token.length + 1) = rest := by
        rw [Nat.add_assoc, ← List.drop_drop, hdrop, ← List.drop_drop, List.drop_left]
        rfl
      rw [splitFrom]
      split
      · next hnone => cases hnone.symm.trans hstop
      · next stop hsome =>
          cases hsome.symm.trans hstop
          rw [ih, htoken, hrest, hdrop, List.splitOn_append_cons_self_of_not_mem hsep]

theorem split_eq_splitOn (text : List α) (sep : α) : split text sep = text.splitOn sep := by
  rw [split, splitFrom_eq_splitOn, List.drop_zero]

/-! ## The loop over `getline` -/

/-- `getline(stream, token, sep)`: the token and what is left of the stream,
    unless the stream is at its end. -/
def getline (sep : α) : List α → Option (List α × List α)
  | [] => none
  | c :: cs => some (((c :: cs).takeWhile fun d => d ≠ sep),
      ((c :: cs).dropWhile fun d => d ≠ sep).tail)

/-- A line ends in front of a separator, or at the end of the stream. -/
theorem getline_eq_some {sep : α} {stream token rest : List α}
    (h : getline sep stream = some (token, rest)) :
    sep ∉ token ∧ (stream = token ++ sep :: rest ∨ stream = token ∧ token ≠ [] ∧ rest = []) := by
  cases stream with
  | nil => cases h
  | cons c cs =>
      obtain ⟨rfl, rfl⟩ := Prod.mk.inj (Option.some.inj h)
      refine ⟨not_mem_takeWhile_ne sep (c :: cs), ?_⟩
      have hsplit := List.takeWhile_append_dropWhile (p := fun d => d ≠ sep) (l := c :: cs)
      cases hrest : (c :: cs).dropWhile fun d => d ≠ sep with
      | nil =>
          -- no separator is left
          rw [hrest, List.append_nil] at hsplit
          refine Or.inr ⟨hsplit.symm, ?_, rfl⟩
          rw [hsplit]
          exact List.cons_ne_nil c cs
      | cons d rest =>
          rw [hrest, eq_of_dropWhile_ne hrest] at hsplit
          exact Or.inl hsplit.symm

/-- The lines of a stream. -/
def getlines (sep : α) (stream : List α) : List (List α) :=
  match hline : getline sep stream with
  | none => []
  | some (token, rest) =>
      have hshorter : rest.length < stream.length := by
        obtain ⟨-, rfl | ⟨rfl, hne, rfl⟩⟩ := getline_eq_some hline
        · rw [List.length_append, List.length_cons]
          omega
        · exact List.length_pos_iff.mpr hne
      token :: getlines sep rest
termination_by stream.length

@[simp] theorem getlines_nil (sep : α) : getlines sep [] = [] := by
  rw [getlines]
  rfl

theorem getlines_of_getline {sep : α} {stream token rest : List α}
    (h : getline sep stream = some (token, rest)) :
    getlines sep stream = token :: getlines sep rest := by
  rw [getlines]
  split
  · next hnone => cases hnone.symm.trans h
  · next token' rest' hsome =>
      cases hsome.symm.trans h
      rfl

/-- A line in front of a separator, -/
theorem getlines_append_cons {sep : α} {token : List α} (h : sep ∉ token) (rest : List α) :
    getlines sep (token ++ sep :: rest) = token :: getlines sep rest := by
  apply getlines_of_getline
  have htake := takeWhile_ne_append h rest
  have hdrop := dropWhile_ne_append h rest
  cases hstream : token ++ sep :: rest with
  | nil => simp at hstream
  | cons c cs =>
      rw [hstream] at htake hdrop
      rw [getline, htake, hdrop, List.tail_cons]

/-- and the last line, which no separator follows. -/
theorem getlines_of_not_mem {sep : α} {token : List α} (h : sep ∉ token) (hne : token ≠ []) :
    getlines sep token = [token] := by
  cases hget : getline sep token with
  | none =>
      cases token with
      | nil => exact absurd rfl hne
      | cons c cs => cases hget
  | some r =>
      obtain ⟨line, rest⟩ := r
      obtain ⟨-, rfl | ⟨rfl, -, rfl⟩⟩ := getline_eq_some hget
      · exact absurd (by simp) h
      · rw [getlines_of_getline hget, getlines_nil]

/-- **The lines are all of the tokens, but for an empty one at the end.** -/
theorem splitOn_eq_getlines (sep : α) (stream : List α) :
    stream.splitOn sep = getlines sep stream ∨
      stream.splitOn sep = getlines sep stream ++ [[]] := by
  induction stream using getlines.induct sep with
  | case1 stream hnone =>
      cases stream with
      | nil =>
          refine Or.inr ?_
          rw [getlines_nil]
          rfl
      | cons c cs => cases hnone
  | case2 stream token rest hsome _ ih =>
      obtain ⟨hsep, rfl | ⟨rfl, hne, rfl⟩⟩ := getline_eq_some hsome
      · rw [List.splitOn_append_cons_self_of_not_mem hsep, getlines_append_cons hsep,
          List.cons_append]
        exact ih.imp (congrArg (token :: ·)) (congrArg (token :: ·))
      · rw [List.splitOn_eq_singleton hsep, getlines_of_not_mem hsep hne]
        exact Or.inl rfl

end Tokens
