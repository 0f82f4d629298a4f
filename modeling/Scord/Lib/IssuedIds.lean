/-
  Scord.Lib.IssuedIds

  Registries whose objects carry the id that they were built for, over runs of
  their operations.

  Ids come from the counter in order, so as long as it has not come round, a later
  object has a greater id, and an id that was given out and is not registered any
  more is never registered again.
-/
import Mathlib.Algebra.Group.Nat.Defs
import Scord.Lib.ObjectStore
import Scord.Lib.StepSystem

namespace ObjectStore

namespace Registry

variable {α κ : Type} {idOf : α → UInt64} {part : α → κ} {r r' : Registry α} {n : Nat}

/-- What one operation does to a registry whose objects carry their ids, and have a
    part that stays as it is. -/
inductive Change (idOf : α → UInt64) (part : α → κ) (r r' : Registry α) : Prop
  | same (eq : r' = r)
  | spent (eq : r' = r.fetchId.1)
  | created (a : α) (free : r.find? r.currentId = none) (own : idOf a = r.currentId)
      (eq : r' = (r.fetchId.1.emplace r.currentId a).1)
  | modified (p : Ptr α) (f : α → α) (keeps : ∀ a, idOf (f a) = idOf a)
      (kept : ∀ a, part (f a) = part a) (eq : r' = r.modify p f)
  | erased (id : UInt64) (eq : r' = r.erase id)

/-- The ids of a registry after `n` draws. -/
structure Issued (idOf : α → UInt64) (r : Registry α) (n : Nat) : Prop where
  counter : r.currentId = UInt64.ofNat n
  own : ∀ id p, r.find? id = some p → ∃ a, r.get? p = some a ∧ idOf a = id
  below : n ≤ 2 ^ 64 → ∀ p a, r.get? p = some a → (idOf a).toNat < n
  ordered : n ≤ 2 ^ 64 → ∀ p q a b, r.get? p = some a → r.get? q = some b →
    p.addr < q.addr → (idOf a).toNat < (idOf b).toNat

theorem issued_empty : Issued idOf empty 0 where
  counter := rfl
  own id p h := by cases h
  below _ p a h := by cases h
  ordered _ p q a b h := by cases h

theorem Issued.toNat_counter (h : Issued idOf r n) (hn : n < 2 ^ 64) : r.currentId.toNat = n := by
  rw [h.counter, UInt64.toNat_ofNat_of_lt']
  exact hn

/-- An object behind a pointer is one of those built so far. -/
theorem addr_lt_of_get? {p : Ptr α} {a : α} (h : r.get? p = some a) : p.addr < r.next.addr :=
  (List.getElem?_eq_some_iff.mp h).1

theorem Issued.fetchId (h : Issued idOf r n) : Issued idOf r.fetchId.1 (n + 1) := by
  refine ⟨?_, h.own, fun hn p a ha => ?_, fun hn => h.ordered (by omega)⟩
  · show r.currentId + 1 = _
    rw [h.counter]
    apply UInt64.toNat_inj.mp
    simp
  · have hlt := h.below (by omega) p a ha
    omega

theorem Issued.created (h : Issued idOf r n) {a : α} (hfree : r.find? r.currentId = none)
    (ha : idOf a = r.currentId) :
    Issued idOf (r.fetchId.1.emplace r.currentId a).1 (n + 1) := by
  have hget : ∀ {p b}, (r.fetchId.1.emplace r.currentId a).1.get? p = some b →
      p = r.next ∧ b = a ∨ r.get? p = some b := by
    intro p b hb
    rw [get?_emplace] at hb
    split at hb
    case isTrue hp => exact .inl ⟨hp, (Option.some.inj hb).symm⟩
    case isFalse => exact .inr hb
  refine ⟨h.fetchId.counter, fun id p hfind => ?_, fun hn p b hb => ?_,
    fun hn p q b c hb hc hlt => ?_⟩
  · rw [find?_emplace_of_free (r := r.fetchId.1) _ hfree] at hfind
    split at hfind
    case isTrue hid =>
      obtain rfl := Option.some.inj hfind
      exact ⟨a, get?_emplace_next .., ha.trans hid.symm⟩
    case isFalse =>
      obtain ⟨b, hb, hown⟩ := h.own id p hfind
      exact ⟨b, get?_emplace_of_get? (r := r.fetchId.1) hb, hown⟩
  · have hcounter := h.toNat_counter (by omega)
    rcases hget hb with ⟨-, rfl⟩ | hold
    · rw [ha]
      omega
    · have hlt := h.below (by omega) p b hold
      omega
  · have hcounter := h.toNat_counter (by omega)
    rcases hget hb with ⟨rfl, rfl⟩ | hold
    · -- nothing is built after the new object
      rcases hget hc with ⟨rfl, -⟩ | hc
      · omega
      · have hq := addr_lt_of_get? hc
        omega
    · have hbelow := h.below (by omega) p b hold
      rcases hget hc with ⟨rfl, rfl⟩ | hc
      · rw [ha]
        omega
      · exact h.ordered (by omega) p q b c hold hc hlt

theorem Issued.modify (h : Issued idOf r n) (p : Ptr α) {f : α → α}
    (hf : ∀ a, idOf (f a) = idOf a) : Issued idOf (r.modify p f) n := by
  have hget : ∀ {q b}, (r.modify p f).get? q = some b →
      ∃ a, r.get? q = some a ∧ idOf b = idOf a := by
    intro q b hb
    rw [get?_modify] at hb
    split at hb
    · obtain ⟨a, ha, rfl⟩ := Option.map_eq_some_iff.mp hb
      exact ⟨a, ha, hf a⟩
    · exact ⟨b, hb, rfl⟩
  refine ⟨h.counter, fun id q hfind => ?_, fun hn q b hb => ?_, fun hn q q' b c hb hc hlt => ?_⟩
  · obtain ⟨a, ha, hown⟩ := h.own id q hfind
    rw [get?_modify, ha]
    split
    · exact ⟨f a, rfl, (hf a).trans hown⟩
    · exact ⟨a, rfl, hown⟩
  · obtain ⟨a, ha, heq⟩ := hget hb
    rw [heq]
    exact h.below hn q a ha
  · obtain ⟨a, ha, heq⟩ := hget hb
    obtain ⟨a', ha', heq'⟩ := hget hc
    rw [heq, heq']
    exact h.ordered hn q q' a a' ha ha' hlt

theorem Issued.erase (h : Issued idOf r n) (id : UInt64) : Issued idOf (r.erase id) n := by
  refine ⟨h.counter, fun id' p hfind => ?_, h.below, h.ordered⟩
  rw [find?_erase] at hfind
  exact h.own id' p (Option.ite_none_left_eq_some.mp hfind).2

/-- One operation draws at most one id. -/
theorem Issued.change (h : Issued idOf r n) (hc : Change idOf part r r') :
    Issued idOf r' n ∨ Issued idOf r' (n + 1) := by
  cases hc with
  | same eq => exact .inl (eq ▸ h)
  | spent eq => exact .inr (eq ▸ h.fetchId)
  | created a free own eq => exact .inr (eq ▸ h.created free own)
  | modified p f keeps kept eq => exact .inl (eq ▸ h.modify p keeps)
  | erased id eq => exact .inl (eq ▸ h.erase id)

/-- No object goes away, and its part stays. -/
theorem Change.part_kept (hc : Change idOf part r r') {p : Ptr α} {a : α}
    (ha : r.get? p = some a) :
    ∃ a', r'.get? p = some a' ∧ idOf a' = idOf a ∧ part a' = part a := by
  cases hc with
  | same eq => exact ⟨a, eq ▸ ha, rfl, rfl⟩
  | spent eq => exact ⟨a, eq ▸ ha, rfl, rfl⟩
  | created b free own eq =>
      rw [eq]
      exact ⟨a, get?_emplace_of_get? (r := r.fetchId.1) ha, rfl, rfl⟩
  | modified q f keeps kept eq =>
      rw [eq, get?_modify, ha]
      split
      · exact ⟨f a, rfl, keeps a, kept a⟩
      · exact ⟨a, rfl, rfl, rfl⟩
  | erased id eq => exact ⟨a, eq ▸ ha, rfl, rfl⟩

/-- Two objects with one id are one object. -/
theorem Issued.unique (h : Issued idOf r n) (hn : n ≤ 2 ^ 64) {p q : Ptr α} {a b : α}
    (ha : r.get? p = some a) (hb : r.get? q = some b) (heq : idOf a = idOf b) : p = q := by
  have hcases : p.addr < q.addr ∨ q.addr < p.addr ∨ p.addr = q.addr := by omega
  rcases hcases with hlt | hlt | hsame
  · have hids := h.ordered hn p q a b ha hb hlt
    rw [heq] at hids
    omega
  · have hids := h.ordered hn q p b a hb ha hlt
    rw [heq] at hids
    omega
  · obtain ⟨m⟩ := p
    exact congrArg Ptr.mk hsame

/-- **An id that was given out does not come back.** -/
theorem Issued.not_back (h : Issued idOf r n) (hn : n < 2 ^ 64) (hc : Change idOf part r r')
    {id : UInt64} (hid : id.toNat < n) (hfind : r.find? id = none) : r'.find? id = none := by
  cases hc with
  | same eq => rw [eq, hfind]
  | spent eq => rw [eq, find?_fetchId, hfind]
  | created a free own eq =>
      rw [eq, find?_emplace_of_free (r := r.fetchId.1) _ free, find?_fetchId, hfind]
      have hcounter := h.toNat_counter hn
      split
      case isTrue heq =>
        rw [heq] at hid
        omega
      case isFalse => rfl
  | modified p f keeps kept eq => rw [eq, find?_modify, hfind]
  | erased id' eq =>
      rw [eq, find?_erase, hfind]
      split <;> rfl

end Registry

end ObjectStore
