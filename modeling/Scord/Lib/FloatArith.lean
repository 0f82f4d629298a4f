/-
  Scord.Lib.FloatArith

  Floating-point arithmetic: each operation is done exactly, and its result is
  rounded.

  The rounding is a parameter.  An algorithm that is written once has an exact
  meaning (`exact`), and one for the values of a binary format (`Format.round`).
-/
import Mathlib.Algebra.Group.Nat.Defs
import Mathlib.Data.Rat.Defs

namespace FloatArith

/-- A value of a floating-point type.  There is one zero: comparisons do not tell
    the two of them apart. -/
inductive Value
  | nan
  | infinite (negative : Bool)
  | finite (q : Rat)
deriving DecidableEq

/-- What becomes of an exact result. -/
abbrev Rounding := Rat → Value

def exact : Rounding := Value.finite

/-! ## Operations -/

namespace Value

instance (n : Nat) : OfNat Value n := ⟨finite n⟩

def neg : Value → Value
  | nan => nan
  | infinite negative => infinite !negative
  | finite q => finite (-q)

instance : Neg Value := ⟨neg⟩

def add (round : Rounding) : Value → Value → Value
  | finite q, finite r => round (q + r)
  | infinite a, infinite b => if a = b then infinite a else nan
  | infinite a, finite _ => infinite a
  | finite _, infinite b => infinite b
  | nan, _ => nan
  | _, nan => nan

def sub (round : Rounding) (x y : Value) : Value := add round x (-y)

/-- An infinity times a number: of zero there is no product. -/
def scale (negative : Bool) (q : Rat) : Value :=
  if q = 0 then nan else infinite (negative != decide (q < 0))

def mul (round : Rounding) : Value → Value → Value
  | finite q, finite r => round (q * r)
  | infinite a, infinite b => infinite (a != b)
  | infinite a, finite r => scale a r
  | finite q, infinite b => scale b q
  | nan, _ => nan
  | _, nan => nan

/-- `<`, which holds of no value that is not a number. -/
def lt : Value → Value → Bool
  | finite q, finite r => q < r
  | infinite a, infinite b => a && !b
  | infinite a, finite _ => a
  | finite _, infinite b => !b
  | nan, _ => false
  | _, nan => false

section Finite

variable (q r : Rat)

theorem exact_eq : exact q = finite q := rfl

@[simp] theorem neg_finite : -finite q = finite (-q) := rfl
@[simp] theorem add_finite : add exact (finite q) (finite r) = finite (q + r) := rfl
@[simp] theorem mul_finite : mul exact (finite q) (finite r) = finite (q * r) := rfl
@[simp] theorem lt_finite : lt (finite q) (finite r) = decide (q < r) := rfl

@[simp] theorem sub_finite : sub exact (finite q) (finite r) = finite (q - r) := by
  unfold sub
  rw [neg_finite, add_finite, Rat.sub_eq_add_neg]

end Finite

end Value

/-! ## Binary formats -/

def twoPow : Int → Rat
  | .ofNat n => (2 ^ n : Nat)
  | .negSucc n => mkRat 1 (2 ^ (n + 1))

/-- The nearest integer; of two that are as near, the even one. -/
def nearest (q : Rat) : Int :=
  let low := q.floor
  let rest := q - low
  if rest < 1 / 2 ∨ rest = 1 / 2 ∧ low % 2 = 0 then low else low + 1

def magnitude (q : Rat) : Rat := if q < 0 then -q else q

/-- The exponent of the first bit: the greatest one whose power is at most `q`, but
    for the sign. -/
def exponent (q : Rat) : Int :=
  let e : Int := q.num.natAbs.log2 - q.den.log2
  if magnitude q < twoPow e then e - 1 else e

/-- The number of bits in a significand, the exponent of the least positive value,
    and the one at which a value is not finite any more. -/
structure Format where
  precision : Nat
  least : Int
  overflow : Int

/-- The nearest value of the format. -/
def Format.round (fmt : Format) : Rounding := fun q =>
  let unit := twoPow (max (exponent q + 1 - fmt.precision) fmt.least)
  let r := nearest (q / unit) * unit
  if twoPow fmt.overflow ≤ magnitude r then .infinite (r < 0) else .finite r

/-- `float` -/
def binary32 : Rounding := Format.round ⟨24, -149, 128⟩

/-- `0.1f`, and a number halfway between two values. -/
example : binary32 (1 / 10) = .finite (13421773 / 134217728) ∧ binary32 16777219 = 16777220 := by
  decide +kernel

end FloatArith
