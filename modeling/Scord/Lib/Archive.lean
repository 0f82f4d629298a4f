/-
  Scord.Lib.Archive

  Serializers over an archive that hands back primitives and strings in the order
  in which they were written.

  A serializer is judged by what a load makes of a save, whatever follows in the
  archive (`Restores`); the rules say how this goes through pairs, vectors,
  optionals and pointers.
-/
import Mathlib.Data.List.Forall2

namespace Archive

/-- A primitive or a string in the archive. -/
inductive Token
  | num (n : Nat)
  | text (s : String)
deriving DecidableEq, Repr

/-- Reads from the front of an archive. -/
abbrev Loader (α : Type) := StateT (List Token) Option α

structure Serializer (α : Type) where
  save : α → List Token
  load : Loader α

variable {α β : Type}

/-! ## Loads -/

def next : Loader Token := fun
  | [] => none
  | t :: ts => some (t, ts)

/-- `p` reads `a` from an archive with `ts` in front, and nothing else. -/
def Loads (p : Loader α) (ts : List Token) (a : α) : Prop :=
  ∀ rest, p (ts ++ rest) = some (a, rest)

theorem Loads.pure (a : α) : Loads (Pure.pure a) [] a := fun _ => rfl

theorem Loads.bind {p : Loader α} {f : α → Loader β} {ts ts' : List Token} {a : α} {b : β}
    (hp : Loads p ts a) (hf : Loads (f a) ts' b) : Loads (p >>= f) (ts ++ ts') b := by
  intro rest
  rw [List.append_assoc]
  show (p (ts ++ (ts' ++ rest)) >>= fun r => f r.1 r.2) = _
  rw [hp]
  exact hf rest

/-- The last field of a class. -/
theorem Loads.map {p : Loader α} {ts : List Token} {a : α} (hp : Loads p ts a) (f : α → β) :
    Loads (p >>= fun a => Pure.pure (f a)) ts (f a) := by
  have h := hp.bind (f := fun a => Pure.pure (f a)) (.pure (f a))
  rwa [List.append_nil] at h

theorem Loads.next (t : Token) : Loads next [t] t := fun _ => rfl

/-- The first thing that is read is the first token. -/
theorem Loads.cons {f : Token → Loader β} {t : Token} {ts : List Token} {b : β}
    (hf : Loads (f t) ts b) : Loads (Archive.next >>= f) (t :: ts) b :=
  (Loads.next t).bind hf

/-! ## Serializers -/

namespace Serializer

/-- A saved `x` is loaded as `y`. -/
def Restores (s : Serializer α) (x y : α) : Prop := Loads s.load (s.save x) y

/-- Everything is loaded as it was saved. -/
def Lossless (s : Serializer α) : Prop := ∀ x, s.Restores x x

/-! ### Primitives -/

/-- A primitive, as its number in the archive. -/
def number (code : α → Nat) (decode : Nat → Option α) : Serializer α where
  save x := [.num (code x)]
  load := do
    match ← next with
    | .num n => decode n
    | .text _ => failure

theorem restores_number {code : α → Nat} {decode : Nat → Option α} {x : α}
    (h : decode (code x) = some x) : (number code decode).Restores x x := by
  apply Loads.cons
  intro rest
  show (decode (code x) >>= fun a => some (a, [] ++ rest)) = _
  rw [h]
  rfl

def u64 : Serializer UInt64 :=
  number UInt64.toNat fun n => if n < UInt64.size then some (UInt64.ofNat n) else none

def u32 : Serializer UInt32 :=
  number UInt32.toNat fun n => if n < UInt32.size then some (UInt32.ofNat n) else none

def bool : Serializer Bool :=
  number Bool.toNat fun
    | 0 => some false
    | 1 => some true
    | _ => none

/-- An enumeration with these enumerators, numbered from zero on. -/
def enumeration [DecidableEq α] (enumerators : List α) (_complete : ∀ x, x ∈ enumerators) :
    Serializer α :=
  number enumerators.idxOf fun n => enumerators[n]?

def text : Serializer String where
  save s := [.text s]
  load := do
    match ← next with
    | .text s => Pure.pure s
    | .num _ => failure

theorem lossless_u64 : u64.Lossless := by
  intro x
  apply restores_number
  rw [if_pos (UInt64.toNat_lt_size x), UInt64.ofNat_toNat]

theorem lossless_u32 : u32.Lossless := by
  intro x
  apply restores_number
  rw [if_pos (UInt32.toNat_lt_size x), UInt32.ofNat_toNat]

theorem lossless_bool : bool.Lossless := by
  intro x
  apply restores_number
  cases x <;> rfl

theorem lossless_enumeration [DecidableEq α] {enumerators : List α}
    (h : ∀ x, x ∈ enumerators) : (enumeration enumerators h).Lossless := by
  intro x
  apply restores_number
  exact List.getElem?_idxOf (h x)

theorem lossless_text : text.Lossless := fun s => Loads.cons (Loads.pure s)

/-! ### Compound types -/

/-- One after the other. -/
def pair (s : Serializer α) (s' : Serializer β) : Serializer (α × β) where
  save x := s.save x.1 ++ s'.save x.2
  load := do
    let a ← s.load
    let b ← s'.load
    return (a, b)

theorem restores_pair {s : Serializer α} {s' : Serializer β} {x y : α × β}
    (h : s.Restores x.1 y.1) (h' : s'.Restores x.2 y.2) : (pair s s').Restores x y :=
  h.bind (h'.map _)

/-- `n` times. -/
def loadMany (p : Loader α) : Nat → Loader (List α)
  | 0 => Pure.pure []
  | n + 1 => do
      let a ← p
      let l ← loadMany p n
      return a :: l

/-- The size, and the elements. -/
def vector (s : Serializer α) : Serializer (List α) where
  save l := .num l.length :: l.flatMap s.save
  load := do
    match ← next with
    | .num n => loadMany s.load n
    | .text _ => failure

theorem loads_loadMany {s : Serializer α} {l l' : List α} (h : List.Forall₂ s.Restores l l') :
    Loads (loadMany s.load l.length) (l.flatMap s.save) l' := by
  induction h with
  | nil => exact .pure []
  | cons hx hl ih =>
      rw [List.flatMap_cons, List.length_cons]
      exact hx.bind (ih.map _)

theorem restores_vector {s : Serializer α} {l l' : List α} (h : List.Forall₂ s.Restores l l') :
    (vector s).Restores l l' :=
  Loads.cons (loads_loadMany h)

theorem lossless_vector {s : Serializer α} (h : s.Lossless) : (vector s).Lossless :=
  fun _ => restores_vector (List.forall₂_same.mpr fun x _ => h x)

/-- Whether there is nothing, and what there is. -/
def optional (s : Serializer α) : Serializer (Option α) where
  save
    | none => bool.save true
    | some x => bool.save false ++ s.save x
  load := do
    let nullopt ← bool.load
    if nullopt then return none
    else
      let x ← s.load
      return some x

theorem restores_optional_none (s : Serializer α) : (optional s).Restores none none :=
  (lossless_bool true).bind (.pure none)

theorem restores_optional_some {s : Serializer α} {x y : α} (h : s.Restores x y) :
    (optional s).Restores (some x) (some y) :=
  (lossless_bool false).bind (h.map some)

theorem lossless_optional {s : Serializer α} (h : s.Lossless) : (optional s).Lossless
  | none => restores_optional_none s
  | some x => restores_optional_some (h x)

/-- Whether the pointer is valid, and what it points to.  A null pointer is no
    value. -/
def uniquePtr (s : Serializer α) : Serializer α where
  save x := bool.save true ++ s.save x
  load := do
    let valid ← bool.load
    if valid then s.load else failure

theorem restores_uniquePtr {s : Serializer α} {x y : α} (h : s.Restores x y) :
    (uniquePtr s).Restores x y :=
  (lossless_bool true).bind h

end Serializer

/-! ## Loads that are known in part

What is loaded may depend on more than the archive, as where a class has members
that no one initializes. -/

/-- `p` reads something with `P` from an archive with `ts` in front, and nothing
    else. -/
def LoadsSome (p : Loader α) (ts : List Token) (P : α → Prop) : Prop :=
  ∀ rest, ∃ a, p (ts ++ rest) = some (a, rest) ∧ P a

theorem Loads.loadsSome {p : Loader α} {ts : List Token} {a : α} {P : α → Prop}
    (h : Loads p ts a) (ha : P a) : LoadsSome p ts P := fun rest => ⟨a, h rest, ha⟩

theorem LoadsSome.bind {p : Loader α} {f : α → Loader β} {ts ts' : List Token}
    {P : α → Prop} {Q : β → Prop} (hp : LoadsSome p ts P)
    (hf : ∀ a, P a → LoadsSome (f a) ts' Q) : LoadsSome (p >>= f) (ts ++ ts') Q := by
  intro rest
  obtain ⟨a, ha, hpa⟩ := hp (ts' ++ rest)
  obtain ⟨b, hb, hqb⟩ := hf a hpa rest
  refine ⟨b, ?_, hqb⟩
  rw [List.append_assoc]
  show (p (ts ++ (ts' ++ rest)) >>= fun r => f r.1 r.2) = _
  rw [ha]
  exact hb

theorem LoadsSome.map {p : Loader α} {ts : List Token} {P : α → Prop} {Q : β → Prop}
    {f : α → β} (hp : LoadsSome p ts P) (hf : ∀ a, P a → Q (f a)) :
    LoadsSome (p >>= fun a => Pure.pure (f a)) ts Q := by
  have h := hp.bind (f := fun a => Pure.pure (f a)) (Q := Q) fun a ha =>
    (Loads.pure (f a)).loadsSome (hf a ha)
  rwa [List.append_nil] at h

theorem LoadsSome.cons {f : Token → Loader β} {t : Token} {ts : List Token} {Q : β → Prop}
    (hf : LoadsSome (f t) ts Q) : LoadsSome (Archive.next >>= f) (t :: ts) Q := by
  have h : LoadsSome Archive.next [t] (fun t' => t' = t) := (Loads.next t).loadsSome rfl
  exact h.bind fun t' ht' => ht' ▸ hf

namespace Serializer

/-- What is loaded of a saved `x` is one of those that are `R` of it. -/
def Relates (s : Serializer α) (R : α → α → Prop) (x : α) : Prop :=
  LoadsSome s.load (s.save x) (R x)

theorem relates_pair {s : Serializer α} {s' : Serializer β} {R : α → α → Prop}
    {R' : β → β → Prop} {x : α × β} (h : s.Relates R x.1) (h' : s'.Relates R' x.2) :
    (pair s s').Relates (fun x y => R x.1 y.1 ∧ R' x.2 y.2) x :=
  h.bind fun _ ha => h'.map fun _ hb => ⟨ha, hb⟩

theorem loadsSome_loadMany {s : Serializer α} {R : α → α → Prop} {l : List α}
    (h : ∀ x ∈ l, s.Relates R x) :
    LoadsSome (loadMany s.load l.length) (l.flatMap s.save) (List.Forall₂ R l) := by
  induction l with
  | nil => exact (Loads.pure []).loadsSome .nil
  | cons x l ih =>
      rw [List.flatMap_cons, List.length_cons]
      refine (h x List.mem_cons_self).bind fun a ha => ?_
      exact (ih fun y hy => h y (List.mem_cons_of_mem x hy)).map fun l' hl' => .cons ha hl'

theorem relates_vector {s : Serializer α} {R : α → α → Prop} {l : List α}
    (h : ∀ x ∈ l, s.Relates R x) : (vector s).Relates (List.Forall₂ R) l :=
  (loadsSome_loadMany h).cons

theorem relates_optional {s : Serializer α} {R : α → α → Prop} {x : Option α}
    (h : ∀ a ∈ x, s.Relates R a) : (optional s).Relates (Option.Rel R) x := by
  cases x with
  | none => exact (restores_optional_none s).loadsSome .none
  | some a =>
      refine LoadsSome.bind ((lossless_bool false).loadsSome (P := fun b => b = false) rfl) ?_
      rintro b rfl
      exact (h a rfl).map fun b hb => .some hb

theorem relates_uniquePtr {s : Serializer α} {R : α → α → Prop} {x : α} (h : s.Relates R x) :
    (uniquePtr s).Relates R x := by
  refine LoadsSome.bind ((lossless_bool true).loadsSome (P := fun b => b = true) rfl) ?_
  rintro b rfl
  exact h

/-! ## Saving alike

Two serializers that write the components of a value alike write the value alike. -/

theorem save_vector {s s' : Serializer α} {l : List α} (h : ∀ a ∈ l, s.save a = s'.save a) :
    (vector s).save l = (vector s').save l := by
  have hparts : l.flatMap s.save = l.flatMap s'.save := by
    rw [List.flatMap_def, List.flatMap_def, List.map_congr_left h]
  show Token.num l.length :: l.flatMap s.save = .num l.length :: l.flatMap s'.save
  rw [hparts]

theorem save_optional {s s' : Serializer α} {x : Option α}
    (h : ∀ a ∈ x, s.save a = s'.save a) : (optional s).save x = (optional s').save x := by
  cases x with
  | none => rfl
  | some a =>
      show bool.save false ++ s.save a = bool.save false ++ s'.save a
      rw [h a rfl]

end Serializer

end Archive
