/-
  Scord.Lib.SuffixTable

  A table of suffixes that are tried in order.  Each is looked for from the front
  of a text, and is taken when nothing follows it where it is first found.

  One suffix may be within another, or at its end.  Behind a text that has none of
  their characters the right one is taken as long as no suffix comes before a
  longer one that it ends (`search_append`).
-/
import Mathlib.Data.List.Basic

namespace SuffixTable

variable {α β : Type _}

/-! ## Suffixes -/

/-- A suffix that has no character of the front is a suffix of what is behind. -/
theorem suffix_of_suffix_append {p : α → Prop} {front word rest : List α}
    (hfront : ∀ c ∈ front, p c) (hword : ∀ c ∈ word, ¬ p c) (h : word <:+ front ++ rest) :
    word <:+ rest := by
  rcases List.suffix_or_suffix_of_suffix h (List.suffix_append front rest) with hle | ⟨more, rfl⟩
  · exact hle
  · obtain ⟨before, hbefore⟩ := h
    rw [← List.append_assoc] at hbefore
    have hmore : before ++ more = front := List.append_cancel_right hbefore
    cases more with
    | nil => exact List.suffix_refl rest
    | cons c cs =>
        have hc : c ∈ front := hmore ▸ List.mem_append_right _ List.mem_cons_self
        exact absurd (hfront c hc) (hword c List.mem_cons_self)

/-- A table whose suffixes have no character with `p`, and none of which ends
    another one that comes after it. -/
structure Apart (p : α → Prop) (table : List (List α × β)) : Prop where
  words : ∀ entry ∈ table, entry.1 ≠ [] ∧ ∀ c ∈ entry.1, ¬ p c
  order : table.Pairwise fun entry later => ¬ entry.1 <:+ later.1

/-! ## The search -/

variable [DecidableEq α]

/-- `text.find(word)`; there is none when the result is `npos`. -/
def find (word : List α) : List α → Option Nat
  | [] => if word = [] then some 0 else none
  | c :: cs => if word <+: c :: cs then some 0 else (find word cs).map (· + 1)

/-- The loop over the table: where the suffix begins, and what stands beside it. -/
def search : List (List α × β) → List α → Option (Nat × β)
  | [], _ => none
  | entry :: table, text =>
      match find entry.1 text with
      | none => search table text
      | some pos => if entry.1 ≠ text.drop pos then search table text else some (pos, entry.2)

/-- A word is found behind what has none of its characters. -/
theorem find_append {front word : List α} (hne : word ≠ []) (h : ∀ c ∈ front, c ∉ word) :
    find word (front ++ word) = some front.length := by
  induction front with
  | nil =>
      cases word with
      | nil => exact absurd rfl hne
      | cons c cs => exact if_pos (List.prefix_refl (c :: cs))
  | cons c front ih =>
      obtain ⟨hc, hfront⟩ := List.forall_mem_cons.mp h
      have hnot : ¬ word <+: c :: (front ++ word) := by
        rintro ⟨rest, hrest⟩
        cases word with
        | nil => exact hne rfl
        | cons d ds =>
            -- it would begin with that character
            have hhead : d = c := (List.cons.inj hrest).1
            exact hc (hhead ▸ List.mem_cons_self)
      rw [List.cons_append, find, if_neg hnot, ih hfront]
      rfl

/-! ## What the loop takes -/

section Search

variable {p : α → Prop} {table : List (List α × β)} {text front : List α}

/-- What is taken is a suffix. -/
theorem search_eq_some {pos : Nat} {b : β} (h : search table text = some (pos, b)) :
    ∃ word, (word, b) ∈ table ∧ text = text.take pos ++ word := by
  induction table with
  | nil => cases h
  | cons entry table ih =>
      have hlater (h : search table text = some (pos, b)) :
          ∃ word, (word, b) ∈ entry :: table ∧ text = text.take pos ++ word := by
        obtain ⟨word, hmem, heq⟩ := ih h
        exact ⟨word, List.mem_cons_of_mem _ hmem, heq⟩
      unfold search at h
      split at h
      · exact hlater h
      · split at h
        · exact hlater h
        · next heq =>
            cases h
            refine ⟨entry.1, List.mem_cons_self, ?_⟩
            rw [not_not.mp heq]
            exact (List.take_append_drop _ text).symm

/-- What does not end the text is passed over. -/
theorem search_cons_of_not_suffix {entry : List α × β} (h : ¬ entry.1 <:+ text) :
    search (entry :: table) text = search table text := by
  rw [search]
  split
  · rfl
  · next pos _ =>
      have hne : entry.1 ≠ text.drop pos := fun heq => h (heq ▸ List.drop_suffix pos text)
      exact if_pos hne

/-- Without a suffix there is nothing to take. -/
theorem search_front (htable : Apart p table) (hfront : ∀ c ∈ front, p c) :
    search table front = none := by
  obtain ⟨hwords, -⟩ := htable
  induction table with
  | nil => rfl
  | cons entry table ih =>
      obtain ⟨⟨hne, hword⟩, hwords⟩ := List.forall_mem_cons.mp hwords
      have hnot : ¬ entry.1 <:+ front := by
        intro hsuffix
        rw [← List.append_nil front] at hsuffix
        exact hne (List.suffix_nil.mp (suffix_of_suffix_append hfront hword hsuffix))
      rw [search_cons_of_not_suffix hnot]
      exact ih hwords

/-- **The suffix that is there** is taken. -/
theorem search_append {word : List α} {b : β} (htable : Apart p table)
    (hfront : ∀ c ∈ front, p c) (h : (word, b) ∈ table) :
    search table (front ++ word) = some (front.length, b) := by
  obtain ⟨hwords, horder⟩ := htable
  induction table with
  | nil => cases h
  | cons entry table ih =>
      obtain ⟨⟨hne, hword⟩, hwords⟩ := List.forall_mem_cons.mp hwords
      obtain ⟨hlater, horder⟩ := List.pairwise_cons.mp horder
      rcases List.mem_cons.mp h with rfl | h
      · have hapart : ∀ c ∈ front, c ∉ word := fun c hc hmem => hword c hmem (hfront c hc)
        rw [search, find_append hne hapart]
        dsimp only
        rw [List.drop_left]
        exact if_neg fun hne => hne rfl
      · -- an earlier one would have to end this one
        have hnot : ¬ entry.1 <:+ front ++ word := fun hsuffix =>
          hlater _ h (suffix_of_suffix_append hfront hword hsuffix)
        rw [search_cons_of_not_suffix hnot]
        exact ih h hwords horder

end Search

end SuffixTable
