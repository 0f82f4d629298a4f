/-
  Scord.Lib.Strtol

  `strtol` of the C library, on the characters in front of the terminator: it
  skips white space, and reads a sign and the digits of the base.  With base 0
  the digits say their base themselves, as an integer constant of C does.

  The grammar of the texts that it reads to their end is stated on its own
  (`Denotes`); the two are connected by `strtol_of_denotes` and
  `denotes_of_rest_eq_nil`.
-/
import Mathlib.Data.List.TakeWhile

namespace Strtol

/-! ## Characters -/

/-- `isspace` in the C locale -/
def isSpace (c : Char) : Bool := c ∈ [' ', '\t', '\n', '\x0b', '\x0c', '\r']

/-- The value of a digit, in the bases up to 36. -/
def digitValue (c : Char) : Option Nat :=
  if '0' ≤ c ∧ c ≤ '9' then some (c.toNat - '0'.toNat)
  else if 'a' ≤ c ∧ c ≤ 'z' then some (c.toNat - 'a'.toNat + 10)
  else if 'A' ≤ c ∧ c ≤ 'Z' then some (c.toNat - 'A'.toNat + 10)
  else none

def isDigit (base : Nat) (c : Char) : Bool := (digitValue c).any fun d => d < base

theorem not_isDigit_of_isSpace {base : Nat} {c : Char} (h : isSpace c = true) :
    isDigit base c = false := by
  have hcases : c = ' ' ∨ c = '\t' ∨ c = '\n' ∨ c = '\x0b' ∨ c = '\x0c' ∨ c = '\r' := by
    simpa [isSpace] using h
  rcases hcases with rfl | rfl | rfl | rfl | rfl | rfl <;> rfl

/-! ## The function -/

/-- The least and the greatest `long`. -/
def longMin : Int := -9223372036854775808
def longMax : Int := 9223372036854775807

/-- What `strtol` returns, what `endptr` points to afterwards, and whether
    `errno` is `ERANGE`. -/
structure Scanned where
  value : Int
  rest : List Char
  erange : Bool
deriving DecidableEq, Repr

/-- The sign, and what follows it. -/
def takeSign : List Char → Bool × List Char
  | '-' :: cs => (true, cs)
  | '+' :: cs => (false, cs)
  | cs => (false, cs)

/-- `0x` in front of a hexadecimal digit -/
def hexMark : List Char → Bool
  | '0' :: x :: d :: _ => (x = 'x' ∨ x = 'X') ∧ isDigit 16 d
  | _ => false

/-- The base of the digits, and the digits with what follows them. -/
def takeBase (base : Nat) (cs : List Char) : Nat × List Char :=
  if base ≠ 0 then (base, cs)
  else if hexMark cs then (16, cs.drop 2)
  else if cs.head? = some '0' then (8, cs)
  else (10, cs)

/-- The number that the digits write. -/
def ofDigits (base : Nat) (ds : List Char) : Nat :=
  ds.foldl (fun n d => n * base + (digitValue d).getD 0) 0

def inRange (v : Int) : Bool := longMin ≤ v ∧ v ≤ longMax

/-- The nearest `long`. -/
def clamp (v : Int) : Int := max longMin (min v longMax)

def signed (negative : Bool) (n : Nat) : Int := if negative then -n else n

/-- `strtol(nptr, &endptr, base)` with `errno = 0`, for base 0 and for the bases
    that have no mark.  Without a number `endptr` is `nptr`. -/
def strtol (base : Nat) (nptr : List Char) : Scanned :=
  let sign := takeSign (nptr.dropWhile isSpace)
  let number := takeBase base sign.2
  let digits := number.2.takeWhile (isDigit number.1)
  if digits = [] then ⟨0, nptr, false⟩
  else
    let v := signed sign.1 (ofDigits number.1 digits)
    ⟨clamp v, number.2.dropWhile (isDigit number.1), !inRange v⟩

/-! ## The grammar -/

/-- At least one digit, and the number that they write. -/
structure Digits (base : Nat) (ds : List Char) (n : Nat) : Prop where
  nonempty : ds ≠ []
  digits : ∀ d ∈ ds, isDigit base d = true
  value : n = ofDigits base ds

/-- A number without a sign.  Base 0: `0x` and hexadecimal digits, or octal digits
    that begin with 0, or decimal digits that do not. -/
inductive Unsigned : Nat → List Char → Nat → Prop
  | ofBase {base : Nat} {ds : List Char} {n : Nat} (hbase : base ≠ 0) (h : Digits base ds n) :
      Unsigned base ds n
  | hex {x : Char} {ds : List Char} {n : Nat} (hx : x = 'x' ∨ x = 'X') (h : Digits 16 ds n) :
      Unsigned 0 ('0' :: x :: ds) n
  | octal {ds : List Char} {n : Nat} (h : Digits 8 ('0' :: ds) n) : Unsigned 0 ('0' :: ds) n
  | decimal {ds : List Char} {n : Nat} (hfirst : ds.head? ≠ some '0') (h : Digits 10 ds n) :
      Unsigned 0 ds n

/-- With one sign at most. -/
inductive Signed (base : Nat) : List Char → Int → Prop
  | bare {cs : List Char} {n : Nat} (h : Unsigned base cs n) : Signed base cs n
  | plus {cs : List Char} {n : Nat} (h : Unsigned base cs n) : Signed base ('+' :: cs) n
  | minus {cs : List Char} {n : Nat} (h : Unsigned base cs n) : Signed base ('-' :: cs) (-n)

/-- White space and a number. -/
def Denotes (base : Nat) (cs : List Char) (v : Int) : Prop :=
  ∃ spaces number, cs = spaces ++ number ∧ (∀ c ∈ spaces, isSpace c = true) ∧
    Signed base number v

/-! ## The pieces -/

section Pieces

variable {base : Nat} {cs : List Char}

/-- A number begins with a digit, -/
theorem Unsigned.exists_cons {n : Nat} (h : Unsigned base cs n) :
    ∃ d rest b, cs = d :: rest ∧ isDigit b d = true := by
  have hdigits : ∀ {b ds}, Digits b ds n → ∃ d rest b, ds = d :: rest ∧ isDigit b d = true := by
    intro b ds hds
    obtain ⟨d, rest, rfl⟩ := List.exists_cons_of_ne_nil hds.nonempty
    exact ⟨d, rest, b, rfl, hds.digits d List.mem_cons_self⟩
  cases h with
  | ofBase _ h => exact hdigits h
  | hex _ _ => exact ⟨_, _, 16, rfl, rfl⟩
  | octal h => exact hdigits h
  | decimal _ h => exact hdigits h

/-- and is read as one without a sign. -/
theorem Unsigned.takeSign_eq {n : Nat} (h : Unsigned base cs n) : takeSign cs = (false, cs) := by
  obtain ⟨d, rest, b, rfl, hd⟩ := h.exists_cons
  unfold takeSign
  split
  · next heq =>
      cases heq
      cases hd
  · next heq =>
      cases heq
      cases hd
  · rfl

theorem Signed.takeSign_eq {v : Int} (h : Signed base cs v) :
    ∃ negative number n, takeSign cs = (negative, number) ∧ Unsigned base number n ∧
      v = signed negative n := by
  cases h with
  | bare h => exact ⟨false, _, _, h.takeSign_eq, h, rfl⟩
  | plus h => exact ⟨false, _, _, rfl, h, rfl⟩
  | minus h => exact ⟨true, _, _, rfl, h, rfl⟩

/-- What `takeSign` has split off is the sign of a number. -/
theorem signed_of_takeSign {negative : Bool} {number : List Char} {n : Nat}
    (h : takeSign cs = (negative, number)) (hn : Unsigned base number n) :
    Signed base cs (signed negative n) := by
  unfold takeSign at h
  split at h
  · cases h
    exact .minus hn
  · cases h
    exact .plus hn
  · cases h
    exact .bare hn

/-- A signed number does not begin with white space. -/
theorem Signed.dropWhile_eq {v : Int} (h : Signed base cs v) : cs.dropWhile isSpace = cs := by
  have hhead : ∃ c rest, cs = c :: rest ∧ isSpace c = false := by
    cases h with
    | bare h =>
        obtain ⟨d, rest, b, rfl, hd⟩ := h.exists_cons
        refine ⟨d, rest, rfl, ?_⟩
        cases hspace : isSpace d with
        | false => rfl
        | true => cases hd.symm.trans (not_isDigit_of_isSpace hspace)
    | plus _ => exact ⟨_, _, rfl, rfl⟩
    | minus _ => exact ⟨_, _, rfl, rfl⟩
  obtain ⟨c, rest, rfl, hc⟩ := hhead
  exact List.dropWhile_cons_of_neg (by simp [hc])

/-- The digits, after the mark of their base. -/
theorem Unsigned.takeBase_eq {n : Nat} (h : Unsigned base cs n) :
    ∃ b ds, takeBase base cs = (b, ds) ∧ Digits b ds n := by
  cases h with
  | ofBase hbase h => exact ⟨base, cs, if_pos hbase, h⟩
  | @hex x ds n hx h =>
      obtain ⟨d, rest, rfl⟩ := List.exists_cons_of_ne_nil h.nonempty
      have hmark : hexMark ('0' :: x :: d :: rest) = true := by
        simpa [hexMark, h.digits d List.mem_cons_self] using hx
      refine ⟨16, d :: rest, ?_, h⟩
      rw [takeBase, if_neg (by simp), if_pos hmark]
      rfl
  | @octal ds n h =>
      have hmark : hexMark ('0' :: ds) = false := by
        unfold hexMark
        split
        · next x d rest heq =>
            cases heq
            -- the mark is no octal digit
            have hx := h.digits x (by simp)
            have hnot : ¬ (x = 'x' ∨ x = 'X') := by
              rintro (rfl | rfl) <;> cases hx
            simp [hnot]
        · rfl
      refine ⟨8, '0' :: ds, ?_, h⟩
      rw [takeBase, if_neg (by simp), hmark, if_neg (by simp), if_pos List.head?_cons]
  | decimal hfirst h =>
      have hmark : hexMark cs = false := by
        unfold hexMark
        split
        · exact absurd rfl hfirst
        · rfl
      refine ⟨10, cs, ?_, h⟩
      rw [takeBase, if_neg (by simp), hmark, if_neg (by simp), if_neg hfirst]

theorem unsigned_of_takeBase {b : Nat} {ds : List Char} {n : Nat}
    (h : takeBase base cs = (b, ds)) (hds : Digits b ds n) : Unsigned base cs n := by
  unfold takeBase at h
  by_cases hbase : base ≠ 0
  · rw [if_pos hbase] at h
    cases h
    exact .ofBase hbase hds
  · obtain rfl := Decidable.not_not.mp hbase
    rw [if_neg hbase] at h
    by_cases hmark : hexMark cs = true
    · rw [if_pos hmark] at h
      cases h
      unfold hexMark at hmark
      split at hmark
      · next x d rest =>
          have hx : x = 'x' ∨ x = 'X' := by
            simp only [Bool.decide_and, Bool.and_eq_true, decide_eq_true_eq] at hmark
            exact hmark.1
          exact .hex hx hds
      · cases hmark
    · rw [if_neg hmark] at h
      by_cases hfirst : cs.head? = some '0'
      · rw [if_pos hfirst] at h
        cases h
        cases cs with
        | nil => cases hfirst
        | cons c cs =>
            cases hfirst
            exact .octal hds
      · rw [if_neg hfirst] at h
        cases h
        exact .decimal hfirst hds

end Pieces

/-! ## Texts that are read to their end -/

section Whole

variable {base : Nat} {cs : List Char}

/-- A text of the grammar is read to its end. -/
theorem strtol_of_denotes {v : Int} (h : Denotes base cs v) :
    strtol base cs = ⟨clamp v, [], !inRange v⟩ := by
  obtain ⟨spaces, number, rfl, hspaces, hsigned⟩ := h
  obtain ⟨negative, digits, n, hsign, hunsigned, rfl⟩ := hsigned.takeSign_eq
  obtain ⟨b, ds, hbase, hds⟩ := hunsigned.takeBase_eq
  have hskip : (spaces ++ number).dropWhile isSpace = number := by
    rw [List.dropWhile_append_of_pos hspaces, hsigned.dropWhile_eq]
  have htake : ds.takeWhile (isDigit b) = ds := List.takeWhile_eq_self_iff.mpr hds.digits
  have hdrop : ds.dropWhile (isDigit b) = [] := List.dropWhile_eq_nil_iff.mpr hds.digits
  simp only [strtol, hskip, hsign, hbase, htake, hdrop, if_neg hds.nonempty, hds.value]

/-- What is read to its end is the empty text, or a text of the grammar. -/
theorem denotes_of_rest_eq_nil (h : (strtol base cs).rest = []) :
    cs = [] ∨ ∃ v, Denotes base cs v := by
  simp only [strtol] at h
  split at h
  · exact Or.inl h
  · next hdigits =>
      refine Or.inr ?_
      have hall := List.dropWhile_eq_nil_iff.mp h
      have htake := List.takeWhile_eq_self_iff.mpr hall
      rw [htake] at hdigits
      exact ⟨_, cs.takeWhile isSpace, cs.dropWhile isSpace,
        (List.takeWhile_append_dropWhile ..).symm, fun c hc => List.mem_takeWhile_imp hc,
        signed_of_takeSign rfl (unsigned_of_takeBase rfl ⟨hdigits, hall, rfl⟩)⟩

theorem Denotes.ne_nil {v : Int} (h : Denotes base cs v) : cs ≠ [] := by
  obtain ⟨spaces, number, rfl, -, hsigned⟩ := h
  have hnumber : number ≠ [] := by
    cases hsigned with
    | bare h =>
        obtain ⟨d, rest, b, rfl, -⟩ := h.exists_cons
        exact List.cons_ne_nil d rest
    | plus _ => exact List.cons_ne_nil _ _
    | minus _ => exact List.cons_ne_nil _ _
  exact List.append_ne_nil_of_right_ne_nil _ hnumber

theorem clamp_of_inRange {v : Int} (h : inRange v = true) : clamp v = v := by
  unfold inRange longMin longMax at h
  unfold clamp longMin longMax
  have hle := of_decide_eq_true h
  omega

/-- **The texts that pass all checks of `errno` and `endptr`**, and the number that
    is returned for them. -/
theorem strtol_checked_iff {v : Int} :
    ((strtol base cs).erange = false ∧ (strtol base cs).rest ≠ cs ∧ (strtol base cs).rest = [] ∧
      (strtol base cs).value = v) ↔ Denotes base cs v ∧ inRange v = true := by
  refine ⟨?_, fun ⟨hv, hrange⟩ => ?_⟩
  · rintro ⟨herange, hmoved, hrest, hvalue⟩
    rcases denotes_of_rest_eq_nil hrest with rfl | ⟨w, hw⟩
    · exact absurd hrest hmoved
    · rw [strtol_of_denotes hw] at herange hvalue
      have hrange : inRange w = true := by simpa using herange
      rw [clamp_of_inRange hrange] at hvalue
      exact hvalue ▸ ⟨hw, hrange⟩
  · rw [strtol_of_denotes hv, hrange]
    exact ⟨rfl, hv.ne_nil.symm, rfl, clamp_of_inRange hrange⟩

end Whole

/-- Hexadecimal and octal numbers in base 0, and a number that is not read to its
    end. -/
example : strtol 0 " 0x1F".toList = ⟨31, [], false⟩ ∧ strtol 0 "017".toList = ⟨15, [], false⟩ ∧
    strtol 0 "4x".toList = ⟨4, ['x'], false⟩ := by decide

end Strtol
