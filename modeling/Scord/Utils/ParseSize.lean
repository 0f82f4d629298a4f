/-
  Scord.Utils.ParseSize

  `parse_size` (`utils.cpp`), which reads a number of bytes with a unit.

  The unit is searched in a table, and of the units that contain each other the
  right one is found.  The number is multiplied as a `double`, and that is exact
  for the products that have a significand of 53 bits.
-/
import Scord.Lib.Significand
import Scord.Lib.Strtol
import Scord.Lib.SuffixTable

namespace Scord.Utils

open Significand

/-! ## The function -/

/-- What is thrown, with the text of `what()`. -/
inductive Exception
  | invalidArgument (what : String)
  | outOfRange (what : String)
deriving DecidableEq, Repr

/-- How a call ends that does not return a value.  A `double` that `uint64_t` does
    not have the value of is converted to it without defined behaviour. -/
inductive Fault
  | throws (e : Exception)
  | undefined
deriving DecidableEq, Repr

def bFactor : Nat := 1
def kbFactor : Nat := 1000
def kibFactor : Nat := 2 ^ 10
def mbFactor : Nat := 1000000
def mibFactor : Nat := 2 ^ 20
def gbFactor : Nat := 1000000000
def gibFactor : Nat := 2 ^ 30

def conversions : List (List Char × Nat) := [
  ("GiB".toList, gibFactor), ("GB".toList, gbFactor), ("G".toList, gbFactor),
  ("MiB".toList, mibFactor), ("MB".toList, mbFactor), ("M".toList, mbFactor),
  ("KiB".toList, kibFactor), ("KB".toList, kbFactor), ("K".toList, kbFactor),
  ("B".toList, bFactor)]

def withoutSpaces (str : String) : List Char := str.toList.filter fun ch => !Strtol.isSpace ch

/-- `pos` and `factor` after the loop over the conversions. -/
def units (scopy : List Char) : Option Nat × Nat :=
  match SuffixTable.search conversions scopy with
  | some (pos, factor) => (some pos, factor)
  | none => (none, bFactor)

/-- `substr(0, pos)`: all of the text when `pos` is `npos`. -/
def substr (scopy : List Char) : Option Nat → List Char
  | some pos => scopy.take pos
  | none => scopy

/-- The nearest `double`, as long as that is finite. -/
def double (n : Nat) : Nat := roundTo 53 n

/-- Where a `double` is not finite any more. -/
def infinity : Nat := 2 ^ 1024

/-- `stod` of digits. -/
def stod (numberStr : List Char) : Except Fault Nat :=
  let value := double (Strtol.ofDigits 10 numberStr)
  if infinity ≤ value then .error (.throws (.outOfRange "stod")) else .ok value

/-- The conversion of a whole `double`, which `round` has left as it is.  One that
    is not finite is too large as well. -/
def toUint64 (x : Nat) : Except Fault Nat :=
  if x < 2 ^ 64 then .ok x else .error .undefined

def parseSize (str : String) : Except Fault Nat := do
  let scopy := withoutSpaces str
  let (pos, factor) := units scopy
  let numberStr := substr scopy pos
  if numberStr = [] ∨ numberStr.all (Strtol.isDigit 10) = false then
    .error (.throws (.invalidArgument "Not a number"))
  else
    let value ← stod numberStr
    toUint64 (double (value * double factor))

/-! ## What it should read -/

/-- Digits with a unit or none behind them, their number and the factor of the
    unit. -/
def IsSize (text : List Char) (value factor : Nat) : Prop :=
  ∃ digits unit, text = digits ++ unit ∧ Strtol.Digits 10 digits value ∧
    (unit, factor) ∈ ([], bFactor) :: conversions

/-- Every size that is in range is read as what it is, and nothing else is read. -/
structure ReadsExactly (str : String) : Prop where
  exact : ∀ value factor, IsSize (withoutSpaces str) value factor →
    value * factor < 2 ^ 64 → parseSize str = .ok (value * factor)
  rejects : (¬ ∃ value factor, IsSize (withoutSpaces str) value factor) →
    ∃ e, parseSize str = .error (.throws e)

/-! ## The units -/

/-- No unit has a digit, and those that end another one come after it. -/
theorem conversions_apart :
    SuffixTable.Apart (fun c => Strtol.isDigit 10 c = true) conversions := by
  have hletters : ∀ entry ∈ conversions,
      entry.1 ≠ [] ∧ entry.1.all (fun c => !Strtol.isDigit 10 c) = true := by
    decide
  refine ⟨fun entry hentry => ?_, by decide⟩
  obtain ⟨hne, hall⟩ := hletters entry hentry
  refine ⟨hne, fun c hc => ?_⟩
  have hnot := List.all_eq_true.mp hall c hc
  simpa using hnot

/-- The factors are positive, and doubles themselves. -/
theorem factor_pos_double :
    ∀ entry ∈ ([], bFactor) :: conversions, 0 < entry.2 ∧ double entry.2 = entry.2 := by
  decide

section Units

variable {text digits unit : List Char} {pos : Option Nat} {factor : Nat}

/-- What is in front of the unit is left as the number. -/
theorem units_append (hdigits : ∀ c ∈ digits, Strtol.isDigit 10 c = true)
    (hunit : (unit, factor) ∈ ([], bFactor) :: conversions) :
    ∃ pos, units (digits ++ unit) = (pos, factor) ∧ substr (digits ++ unit) pos = digits := by
  rcases List.mem_cons.mp hunit with hnone | hunit
  · cases hnone
    rw [List.append_nil, units, SuffixTable.search_front conversions_apart hdigits]
    exact ⟨none, rfl, rfl⟩
  · rw [units, SuffixTable.search_append conversions_apart hdigits hunit]
    exact ⟨some digits.length, rfl, List.take_left⟩

/-- And behind the number there is a unit or nothing. -/
theorem eq_append_of_units (h : units text = (pos, factor)) :
    ∃ unit, text = substr text pos ++ unit ∧ (unit, factor) ∈ ([], bFactor) :: conversions := by
  unfold units at h
  split at h
  · next hsearch =>
      cases h
      obtain ⟨unit, hmem, htext⟩ := SuffixTable.search_eq_some hsearch
      exact ⟨unit, htext, List.mem_cons_of_mem _ hmem⟩
  · cases h
    exact ⟨[], (List.append_nil text).symm, List.mem_cons_self⟩

end Units

/-! ## The number -/

section Number

variable {str : String} {pos : Option Nat} {value factor n : Nat}

/-- The function, with what the loop leaves. -/
theorem parseSize_of_units (h : units (withoutSpaces str) = (pos, factor)) :
    parseSize str =
      if substr (withoutSpaces str) pos = [] ∨
          (substr (withoutSpaces str) pos).all (Strtol.isDigit 10) = false then
        .error (.throws (.invalidArgument "Not a number"))
      else
        stod (substr (withoutSpaces str) pos) >>= fun value =>
          toUint64 (double (value * double factor)) := by
  unfold parseSize
  dsimp only
  rw [h]

/-- The number of a size is rounded, and then its product with the factor. -/
theorem parseSize_of_isSize (h : IsSize (withoutSpaces str) value factor) :
    parseSize str =
      if infinity ≤ double value then .error (.throws (.outOfRange "stod"))
      else toUint64 (double (double value * double factor)) := by
  obtain ⟨digits, unit, htext, hdigits, hunit⟩ := h
  obtain ⟨pos, hunits, hnumber⟩ := units_append hdigits.digits hunit
  rw [← htext] at hunits hnumber
  have hvalid : ¬ (digits = [] ∨ digits.all (Strtol.isDigit 10) = false) := by
    rw [List.all_eq_true.mpr hdigits.digits]
    rintro (hempty | hnot)
    · exact hdigits.nonempty hempty
    · cases hnot
  rw [parseSize_of_units hunits, hnumber, if_neg hvalid, stod, ← hdigits.value]
  by_cases hlarge : infinity ≤ double value
  · rw [if_pos hlarge, if_pos hlarge]
    rfl
  · rw [if_neg hlarge, if_neg hlarge]
    exact pure_bind _ _

/-- What is no size is no number either, with the unit taken away. -/
theorem parseSize_of_not (h : ¬ ∃ value factor, IsSize (withoutSpaces str) value factor) :
    parseSize str = .error (.throws (.invalidArgument "Not a number")) := by
  obtain ⟨pos, factor, hunits⟩ : ∃ pos factor, units (withoutSpaces str) = (pos, factor) :=
    ⟨_, _, rfl⟩
  obtain ⟨unit, htext, hunit⟩ := eq_append_of_units hunits
  rw [parseSize_of_units hunits]
  apply if_pos
  by_contra hvalid
  obtain ⟨hne, hall⟩ := not_or.mp hvalid
  have hdigits := List.all_eq_true.mp (Bool.eq_true_of_not_eq_false hall)
  exact h ⟨_, _, _, unit, htext, ⟨hne, hdigits, rfl⟩, hunit⟩

theorem double_of_representable (h : Representable 53 n) : double n = n :=
  (roundTo_eq_self_iff (by decide)).mpr h

/-- What is returned is a double. -/
theorem representable_of_isSize (h : IsSize (withoutSpaces str) value factor)
    (hok : parseSize str = .ok n) : Representable 53 n := by
  rw [parseSize_of_isSize h, toUint64] at hok
  split at hok
  · cases hok
  · split at hok
    · cases hok
      exact representable_roundTo (by decide) _
    · cases hok

/-- **Exact** products: the number is a double then as well. -/
theorem parseSize_of_representable (h : IsSize (withoutSpaces str) value factor)
    (hrange : value * factor < 2 ^ 64) (hproduct : Representable 53 (value * factor)) :
    parseSize str = .ok (value * factor) := by
  obtain ⟨hpos, hfactor⟩ : 0 < factor ∧ double factor = factor := by
    obtain ⟨digits, unit, -, -, hunit⟩ := h
    exact factor_pos_double _ hunit
  have hvalue : double value = value := double_of_representable (hproduct.of_mul hpos)
  have hle : value ≤ value * factor := Nat.le_mul_of_pos_right value hpos
  have hfinite : ¬ infinity ≤ value := by
    have hinfinity : 2 ^ 64 ≤ infinity := by
      unfold infinity
      apply Nat.pow_le_pow_right
      · decide
      · decide
    omega
  rw [parseSize_of_isSize h, hvalue, if_neg hfinite, hfactor, double_of_representable hproduct,
    toUint64, if_pos hrange]

/-- **Where it reads exactly.** -/
theorem parseSize_readsExactly_iff (str : String) :
    ReadsExactly str ↔
      ∀ value factor, IsSize (withoutSpaces str) value factor → value * factor < 2 ^ 64 →
        Representable 53 (value * factor) := by
  refine ⟨fun h value factor hsize hrange => ?_, fun h => ⟨fun value factor hsize hrange => ?_, ?_⟩⟩
  · exact representable_of_isSize hsize (h.exact value factor hsize hrange)
  · exact parseSize_of_representable hsize hrange (h value factor hsize hrange)
  · intro hnot
    exact ⟨_, parseSize_of_not hnot⟩

/-- One byte more than `2 ^ 53`, which is lost. -/
theorem parseSize_odd_bytes : ¬ ReadsExactly "9007199254740993" := by
  intro h
  have hdigits : Strtol.Digits 10 "9007199254740993".toList 9007199254740993 :=
    ⟨by decide, List.all_eq_true.mp (by decide), by decide⟩
  have hsize : IsSize (withoutSpaces "9007199254740993") 9007199254740993 bFactor :=
    ⟨_, [], by decide, hdigits, List.mem_cons_self⟩
  have hexact := h.exact _ _ hsize (by decide)
  have hread : parseSize "9007199254740993" = .ok 9007199254740992 := by decide +kernel
  rw [hread] at hexact
  cases hexact

end Number

end Scord.Utils
