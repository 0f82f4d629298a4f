/-
  Scord.Lib.Significand

  Natural numbers with a significand of `p` bits, and rounding to the nearest of
  them with ties to even: what a binary floating-point format does to a number
  that is neither too large nor too small for it.

  A number is representable exactly when rounding leaves it as it is
  (`roundTo_eq_self_iff`), and then everything that divides it is representable
  too (`Representable.of_mul`).
-/
import Mathlib.Data.Nat.Dist
import Mathlib.Data.Nat.Factorization.Basic

namespace Significand

/-! ## Rounding -/

/-- A significand of `p` bits, and an exponent. -/
def Representable (p n : Nat) : Prop := ∃ m e, m < 2 ^ p ∧ n = m * 2 ^ e

/-- The unit in the last place of `n`, when its first bit is the first of `p`. -/
def ulp (p n : Nat) : Nat := 2 ^ (n.log2 + 1 - p)

/-- The nearest number with `p` bits; of two that are as near, the one whose last
    bit is 0. -/
def roundTo (p n : Nat) : Nat :=
  let q := n / ulp p n
  let r := n % ulp p n
  if 2 * r < ulp p n ∨ 2 * r = ulp p n ∧ q % 2 = 0 then q * ulp p n
  else (q + 1) * ulp p n

variable {p m n : Nat}

theorem ulp_pos (p n : Nat) : 0 < ulp p n := Nat.two_pow_pos _

/-- Down to a unit, or up to the next one, whichever is nearer. -/
theorem roundTo_cases (p n : Nat) :
    roundTo p n = n / ulp p n * ulp p n ∧ 2 * (n % ulp p n) ≤ ulp p n ∨
      roundTo p n = (n / ulp p n + 1) * ulp p n ∧ ulp p n ≤ 2 * (n % ulp p n) := by
  unfold roundTo
  dsimp only
  split
  · next hdown => exact Or.inl ⟨rfl, by omega⟩
  · next hup => exact Or.inr ⟨rfl, by omega⟩

/-! ## What is representable -/

/-- The significand is below `2 ^ p`. -/
theorem div_ulp_lt (p n : Nat) : n / ulp p n < 2 ^ p := by
  apply Nat.div_lt_of_lt_mul
  have hexp : n.log2 + 1 ≤ n.log2 + 1 - p + p := by omega
  calc n < 2 ^ (n.log2 + 1) := Nat.lt_log2_self
    _ ≤ 2 ^ (n.log2 + 1 - p + p) := Nat.pow_le_pow_right (by decide) hexp
    _ = ulp p n * 2 ^ p := Nat.pow_add 2 _ p

/-- A significand of `2 ^ p` is as good as one of `1`. -/
theorem representable_mul {e : Nat} (hp : 0 < p) (h : m ≤ 2 ^ p) :
    Representable p (m * 2 ^ e) := by
  rcases Nat.lt_or_eq_of_le h with hlt | rfl
  · exact ⟨m, e, hlt, rfl⟩
  · exact ⟨1, p + e, Nat.one_lt_two_pow hp.ne', by rw [Nat.one_mul, Nat.pow_add]⟩

theorem representable_roundTo (hp : 0 < p) (n : Nat) : Representable p (roundTo p n) := by
  have hq : n / ulp p n < 2 ^ p := div_ulp_lt p n
  rcases roundTo_cases p n with ⟨hround, -⟩ | ⟨hround, -⟩
  · rw [hround]
    exact representable_mul hp hq.le
  · rw [hround]
    exact representable_mul hp hq

/-- No representable number is between two neighbouring multiples of the unit. -/
theorem Representable.outside (hp : 0 < p) (h : Representable p m) :
    m ≤ n / ulp p n * ulp p n ∨ (n / ulp p n + 1) * ulp p n ≤ m := by
  obtain ⟨k, e, hk, rfl⟩ := h
  by_cases he : n.log2 + 1 - p ≤ e
  · -- it is a multiple itself
    obtain ⟨j, hj⟩ : ulp p n ∣ k * 2 ^ e :=
      Dvd.dvd.mul_left (Nat.pow_dvd_pow 2 he) k
    rw [hj, Nat.mul_comm (ulp p n) j]
    rcases Nat.lt_or_ge (n / ulp p n) j with hlt | hge
    · exact Or.inr (Nat.mul_le_mul_right _ hlt)
    · exact Or.inl (Nat.mul_le_mul_right _ hge)
  · -- it is below the first bit of `n`
    have hn : n ≠ 0 := by
      rintro rfl
      rw [Nat.log2_zero] at he
      omega
    have hfirst : p - 1 + (n.log2 + 1 - p) = n.log2 := by omega
    have hbelow : 2 ^ (p - 1) ≤ n / ulp p n := by
      rw [Nat.le_div_iff_mul_le (ulp_pos p n)]
      calc 2 ^ (p - 1) * ulp p n = 2 ^ n.log2 := by rw [ulp, ← Nat.pow_add, hfirst]
        _ ≤ n := Nat.log2_self_le hn
    have hexp : p + e ≤ p - 1 + (n.log2 + 1 - p) := by omega
    left
    calc k * 2 ^ e ≤ 2 ^ p * 2 ^ e := Nat.mul_le_mul_right _ hk.le
      _ = 2 ^ (p + e) := (Nat.pow_add 2 p e).symm
      _ ≤ 2 ^ (p - 1 + (n.log2 + 1 - p)) := Nat.pow_le_pow_right (by decide) hexp
      _ = 2 ^ (p - 1) * ulp p n := Nat.pow_add 2 _ _
      _ ≤ n / ulp p n * ulp p n := Nat.mul_le_mul_right _ hbelow

/-- **Nearest.**  No representable number is nearer than the rounded one. -/
theorem dist_roundTo_le (hp : 0 < p) (h : Representable p m) (n : Nat) :
    Nat.dist n (roundTo p n) ≤ Nat.dist n m := by
  have hn : n / ulp p n * ulp p n + n % ulp p n = n := Nat.div_add_mod' n (ulp p n)
  have hr : n % ulp p n < ulp p n := Nat.mod_lt n (ulp_pos p n)
  have hnext : (n / ulp p n + 1) * ulp p n = n / ulp p n * ulp p n + ulp p n :=
    Nat.succ_mul _ _
  have hout := h.outside hp (n := n)
  unfold Nat.dist
  rcases roundTo_cases p n with ⟨hround, hnear⟩ | ⟨hround, hnear⟩
  · rw [hround]
    omega
  · rw [hround]
    omega

theorem roundTo_eq_self_iff (hp : 0 < p) : roundTo p n = n ↔ Representable p n := by
  refine ⟨fun heq => ?_, fun h => ?_⟩
  · rw [← heq]
    exact representable_roundTo hp n
  · have hdist : Nat.dist n (roundTo p n) ≤ Nat.dist n n := dist_roundTo_le hp h n
    rw [Nat.dist_self, Nat.le_zero] at hdist
    exact (Nat.eq_of_dist_eq_zero hdist).symm

/-- **Factors** of a representable number: the odd part of a factor divides the
    significand. -/
theorem Representable.of_mul (h : Representable p (n * m)) (hm : 0 < m) : Representable p n := by
  obtain ⟨k, e, hk, heq⟩ := h
  by_cases hn : n = 0
  · exact ⟨0, 0, Nat.two_pow_pos p, by rw [hn, Nat.zero_mul]⟩
  · obtain ⟨i, a, hodd, rfl⟩ := Nat.exists_eq_two_pow_mul_odd hn
    have hdvd : a ∣ k * 2 ^ e :=
      ⟨2 ^ i * m, by rw [← heq, Nat.mul_comm (2 ^ i) a, Nat.mul_assoc]⟩
    have hcoprime : Nat.Coprime a (2 ^ e) := (Nat.coprime_two_right.mpr hodd).pow_right e
    have hpos : 0 < k := by
      rcases Nat.eq_zero_or_pos k with rfl | hpos
      · rw [Nat.zero_mul, Nat.mul_eq_zero] at heq
        exact absurd heq (not_or.mpr ⟨hn, hm.ne'⟩)
      · exact hpos
    have hle : a ≤ k := Nat.le_of_dvd hpos (hcoprime.dvd_of_dvd_mul_right hdvd)
    exact ⟨a, i, Nat.lt_of_le_of_lt hle hk, Nat.mul_comm _ _⟩

end Significand
