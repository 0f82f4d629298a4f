/-
  Scord.Lib.ObjectStore

  Shared mutable objects and the tables that name them: a heap of cells behind
  typed pointers (`std::make_shared` and `operator->`), hash tables with the
  insertion rule of `std::unordered_map::emplace`, and a registry, which keeps
  heap objects in such a table under ids drawn from a 64-bit counter.

  An object stays in the heap after its table entry is gone.  Whoever still has
  the pointer can read and write it, and no later object is built at its
  address.
-/
import Mathlib.Data.List.AList

namespace ObjectStore

/-! ## Pointers and the heap -/

/-- A non-null pointer to an object of type `α`.  A `std::shared_ptr` that may
    be null is an `Option (Ptr α)`. -/
structure Ptr (α : Type) where
  addr : Nat

instance {α : Type} : DecidableEq (Ptr α)
  | ⟨m⟩, ⟨n⟩ => decidable_of_iff (m = n) ⟨congrArg Ptr.mk, congrArg Ptr.addr⟩

/-- The objects built so far, each at its own address. -/
structure Heap (α : Type) where
  cells : List α

namespace Heap

variable {α : Type}

def empty : Heap α := ⟨[]⟩

/-- The object behind a pointer, `none` for a dangling one. -/
def get? (h : Heap α) (p : Ptr α) : Option α := h.cells[p.addr]?

/-- Build a new object, as `std::make_shared` does. -/
def alloc (h : Heap α) (a : α) : Heap α × Ptr α :=
  (⟨h.cells ++ [a]⟩, ⟨h.cells.length⟩)

/-- Change the object behind a pointer in place. -/
def modify (h : Heap α) (p : Ptr α) (f : α → α) : Heap α := ⟨h.cells.modify p.addr f⟩

@[simp] theorem get?_empty (p : Ptr α) : (empty : Heap α).get? p = none := rfl

/-- The new object is behind the new pointer, and no other read changes. -/
theorem get?_alloc (h : Heap α) (a : α) (p : Ptr α) :
    (h.alloc a).1.get? p = if p = (h.alloc a).2 then some a else h.get? p := by
  obtain ⟨n⟩ := p
  simp only [alloc, get?, Ptr.mk.injEq]
  -- an old address, the new one, or one that is not in use
  rcases Nat.lt_trichotomy n h.cells.length with hlt | heq | hgt
  · rw [List.getElem?_append_left hlt, if_neg (by omega)]
  · subst heq
    simp
  · have hlen : (h.cells ++ [a]).length = h.cells.length + 1 := by simp
    rw [if_neg (by omega), List.getElem?_eq_none (Nat.le_of_lt hgt),
      List.getElem?_eq_none (by omega)]

@[simp] theorem get?_alloc_self (h : Heap α) (a : α) :
    (h.alloc a).1.get? (h.alloc a).2 = some a := by
  rw [get?_alloc, if_pos rfl]

/-- The address of a new object was not in use. -/
@[simp] theorem get?_alloc_fresh (h : Heap α) (a : α) : h.get? (h.alloc a).2 = none := by
  simp [get?, alloc]

/-- An object that exists is not at the address of a new one. -/
theorem ne_alloc_of_get? {h : Heap α} {p : Ptr α} {b : α} (hp : h.get? p = some b)
    (a : α) : p ≠ (h.alloc a).2 := by
  rintro rfl
  rw [get?_alloc_fresh] at hp
  cases hp

/-- Building an object leaves the existing ones as they are. -/
theorem get?_alloc_of_some {h : Heap α} {p : Ptr α} {b : α} (hp : h.get? p = some b)
    (a : α) : (h.alloc a).1.get? p = some b := by
  rw [get?_alloc, if_neg (ne_alloc_of_get? hp a), hp]

theorem get?_modify (h : Heap α) (p q : Ptr α) (f : α → α) :
    (h.modify q f).get? p = if p = q then (h.get? p).map f else h.get? p := by
  obtain ⟨n⟩ := p
  obtain ⟨m⟩ := q
  simp only [modify, get?, Ptr.mk.injEq, List.getElem?_modify]
  by_cases hnm : n = m
  · subst hnm
    simp
  · rw [if_neg hnm]
    cases h.cells[n]? with
    | none => rfl
    | some a => simp [Ne.symm hnm]

@[simp] theorem get?_modify_isSome (h : Heap α) (p q : Ptr α) (f : α → α) :
    ((h.modify q f).get? p).isSome = (h.get? p).isSome := by
  rw [get?_modify]
  by_cases hpq : p = q <;> simp [hpq]

end Heap

/-! ## Hash tables -/

/-- A `std::unordered_map`: at most one value for each key. -/
abbrev UMap (κ ν : Type) := AList fun _ : κ => ν

namespace UMap

variable {κ ν : Type} [DecidableEq κ]

/-- `emplace` inserts only under a key that is not there; it returns whether it
    did.  An entry that is there keeps its value. -/
def emplace (m : UMap κ ν) (k : κ) (v : ν) : UMap κ ν × Bool :=
  match m.lookup k with
  | none => (m.insert k v, true)
  | some _ => (m, false)

theorem lookup_insert' (m : UMap κ ν) (k k' : κ) (v : ν) :
    AList.lookup k' (m.insert k v) = if k' = k then some v else m.lookup k' := by
  by_cases hk : k' = k
  · subst hk
    rw [if_pos rfl, AList.lookup_insert]
  · rw [if_neg hk, AList.lookup_insert_ne hk]

/-- After `emplace` the key has its old value, or the new one if it had none. -/
theorem lookup_emplace (m : UMap κ ν) (k k' : κ) (v : ν) :
    AList.lookup k' (emplace m k v).1
      = if k' = k then some ((m.lookup k).getD v) else m.lookup k' := by
  unfold emplace
  cases h : m.lookup k with
  | none => simp only [lookup_insert', Option.getD_none]
  | some w =>
      by_cases hk : k' = k
      · subst hk
        simp [h]
      · simp [hk]

theorem lookup_erase' (m : UMap κ ν) (k k' : κ) :
    AList.lookup k' (m.erase k) = if k' = k then none else m.lookup k' := by
  by_cases hk : k' = k
  · subst hk
    rw [if_pos rfl, AList.lookup_erase]
  · rw [if_neg hk, AList.lookup_erase_ne hk]

end UMap

/-! ## Registries

A registry owns the heap of its objects and the table of those that are
registered.  That no table entry dangles is part of the type. -/

/-- Objects under 64-bit ids. -/
structure Registry (α : Type) where
  heap : Heap α
  entries : UMap UInt64 (Ptr α)
  currentId : UInt64
  valid : ∀ id p, entries.lookup id = some p → (heap.get? p).isSome

namespace Registry

variable {α : Type}

def empty : Registry α where
  heap := Heap.empty
  entries := ∅
  currentId := 0
  valid := by
    intro id p h
    rw [AList.lookup_empty] at h
    cases h

/-- The pointer under an id. -/
def find? (r : Registry α) (id : UInt64) : Option (Ptr α) := r.entries.lookup id

/-- The object behind a pointer. -/
def get? (r : Registry α) (p : Ptr α) : Option α := r.heap.get? p

/-- The object of a registered id. -/
def deref (r : Registry α) {id : UInt64} {p : Ptr α} (h : r.find? id = some p) : α :=
  (r.get? p).get (r.valid id p h)

/-- `current_id++`: the counter wraps around at `2 ^ 64`. -/
def fetchId (r : Registry α) : Registry α × UInt64 :=
  ({ r with currentId := r.currentId + 1 }, r.currentId)

/-- Build an object and emplace its pointer under `id`.  Returns the pointer
    that is under `id` afterwards, and whether it is the new one. -/
def emplace (r : Registry α) (id : UInt64) (a : α) : Registry α × Ptr α × Bool :=
  let cell := r.heap.alloc a
  ({ r with
      heap := cell.1
      entries := (UMap.emplace r.entries id cell.2).1
      valid := by
        intro id' p h
        rw [UMap.lookup_emplace] at h
        -- the objects that were there are still there
        have hold : ∀ i q, r.entries.lookup i = some q → (cell.1.get? q).isSome := by
          intro i q hq
          obtain ⟨b, hb⟩ := Option.isSome_iff_exists.mp (r.valid i q hq)
          rw [Heap.get?_alloc_of_some hb]
          rfl
        by_cases hid : id' = id
        · rw [if_pos hid, Option.some.injEq] at h
          cases hl : r.entries.lookup id with
          | none =>
              rw [hl, Option.getD_none] at h
              rw [← h, Heap.get?_alloc_self]
              rfl
          | some q =>
              rw [hl, Option.getD_some] at h
              exact h ▸ hold id q hl
        · rw [if_neg hid] at h
          exact hold id' p h },
    (r.entries.lookup id).getD cell.2, (UMap.emplace r.entries id cell.2).2)

/-- Change the object behind a pointer in place. -/
def modify (r : Registry α) (p : Ptr α) (f : α → α) : Registry α :=
  { r with
      heap := r.heap.modify p f
      valid := by
        intro id q h
        rw [Heap.get?_modify_isSome]
        exact r.valid id q h }

/-- Drop the table entry of an id.  The object stays in the heap. -/
def erase (r : Registry α) (id : UInt64) : Registry α :=
  { r with
      entries := r.entries.erase id
      valid := by
        intro id' p h
        rw [UMap.lookup_erase'] at h
        by_cases hid : id' = id
        · rw [if_pos hid] at h
          cases h
        · rw [if_neg hid] at h
          exact r.valid id' p h }

section Lemmas

variable (r : Registry α) (id id' : UInt64) (p q : Ptr α) (a : α) (f : α → α)

@[simp] theorem find?_empty : (empty : Registry α).find? id = none := rfl
@[simp] theorem get?_empty : (empty : Registry α).get? p = none := rfl

@[simp] theorem fetchId_snd : r.fetchId.2 = r.currentId := rfl
@[simp] theorem find?_fetchId : r.fetchId.1.find? id = r.find? id := rfl
@[simp] theorem get?_fetchId : r.fetchId.1.get? p = r.get? p := rfl

@[simp] theorem find?_modify : (r.modify p f).find? id = r.find? id := rfl
@[simp] theorem currentId_modify : (r.modify p f).currentId = r.currentId := rfl

theorem get?_modify :
    (r.modify q f).get? p = if p = q then (r.get? p).map f else r.get? p :=
  Heap.get?_modify r.heap p q f

@[simp] theorem get?_erase : (r.erase id).get? p = r.get? p := rfl
@[simp] theorem currentId_erase : (r.erase id).currentId = r.currentId := rfl

theorem find?_erase :
    (r.erase id).find? id' = if id' = id then none else r.find? id' :=
  UMap.lookup_erase' r.entries id id'

/-- The pointer that the next object is built at. -/
def next : Ptr α := ⟨r.heap.cells.length⟩

@[simp] theorem get?_next : r.get? r.next = none := by
  simp [get?, next, Heap.get?]

theorem get?_emplace :
    (r.emplace id a).1.get? p = if p = r.next then some a else r.get? p :=
  Heap.get?_alloc r.heap a p

/-- The object of the new entry. -/
theorem get?_emplace_next : (r.emplace id a).1.get? r.next = some a :=
  (get?_emplace ..).trans (if_pos rfl)

theorem find?_emplace :
    (r.emplace id a).1.find? id'
      = if id' = id then some ((r.find? id).getD r.next) else r.find? id' :=
  UMap.lookup_emplace r.entries id id' r.next

variable {r id p a}

/-- An entry leads to an object. -/
theorem get?_eq_deref (h : r.find? id = some p) : r.get? p = some (r.deref h) :=
  (Option.some_get _).symm

/-- A pointer to an object is not where the next object is built. -/
theorem ne_next_of_get? (h : r.get? p = some a) : p ≠ r.next := by
  rintro rfl
  rw [get?_next] at h
  cases h

/-- Under a free id, `emplace` registers the new object. -/
theorem emplace_of_free (h : r.find? id = none) :
    (r.emplace id a).2 = (r.next, true) := by
  unfold find? at h
  simp [emplace, UMap.emplace, h, next, Heap.alloc]

/-- A free id leads to the new object, and the others lead where they led. -/
theorem find?_emplace_of_free (h : r.find? id = none) :
    (r.emplace id a).1.find? id' = if id' = id then some r.next else r.find? id' := by
  rw [find?_emplace, h, Option.getD_none]

/-- An object keeps its content when another one is built. -/
theorem get?_emplace_of_get? {b : α} (h : r.get? p = some a) :
    (r.emplace id b).1.get? p = some a := by
  rw [get?_emplace, if_neg (ne_next_of_get? h), h]

end Lemmas

/-! ### Registries object by object -/

section Map

variable (r : Registry α) (f : α → α)

/-- The registry with every object changed, each at its address. -/
def map : Registry α :=
  { r with
      heap := ⟨r.heap.cells.map f⟩
      valid := by
        intro id p h
        obtain ⟨a, ha⟩ := Option.isSome_iff_exists.mp (r.valid id p h)
        have hcell : r.heap.cells[p.addr]? = some a := ha
        simp only [Heap.get?, List.getElem?_map, hcell]
        rfl }

variable {r f} {id : UInt64} {p : Ptr α} {a : α}

@[simp] theorem find?_map : (r.map f).find? id = r.find? id := rfl
@[simp] theorem currentId_map : (r.map f).currentId = r.currentId := rfl
@[simp] theorem fetchId_map : (r.map f).fetchId.1 = r.fetchId.1.map f := rfl

@[simp] theorem get?_map : (r.map f).get? p = (r.get? p).map f := List.getElem?_map

@[simp] theorem next_map : (r.map f).next = r.next :=
  congrArg Ptr.mk (List.length_map f)

/-- A new object is changed like those that are there. -/
theorem emplace_map : ((r.map f).emplace id (f a)).1 = (r.emplace id a).1.map f := by
  have hcells : r.heap.cells.map f ++ [f a] = (r.heap.cells ++ [a]).map f := by
    rw [List.map_append, List.map_singleton]
  have hnext : Ptr.mk (r.heap.cells.map f).length = Ptr.mk (α := α) r.heap.cells.length :=
    congrArg Ptr.mk (List.length_map f)
  simp only [emplace, map, Heap.alloc, hcells, hnext]

end Map

end Registry

end ObjectStore
