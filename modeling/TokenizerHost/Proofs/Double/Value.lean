import Mathlib.Algebra.Order.Field.Power
import Mathlib.Tactic.Linarith
import Mathlib.Tactic.NormNum
import Mathlib.Tactic.Ring
import TokenizerHost.Double

set_option autoImplicit false

namespace TokenizerHost.Double

/-- The number of a finite pattern: a significand that begins with 1, or with 0 if the exponent field
is zero, times a power of two. -/
def value (x : Double) : ℚ :=
  (if x.isNegative then -1 else 1) *
    if x.exponentField = 0 then (x.fraction / 2 ^ 52 : ℚ) * 2 ^ (-1022 : ℤ)
    else (1 + x.fraction / 2 ^ 52 : ℚ) * 2 ^ ((x.exponentField : ℤ) - 1023)

variable {x : Double}

theorem value_eq (x : Double) : x.value =
    (if x.isNegative then -1 else 1) * (x.significand * 2 ^ ((x.scale : ℤ) - 1075) : ℚ) := by
  have hshift : ∀ e : ℤ, (2 : ℚ) ^ (e - 52) = 2 ^ e / 2 ^ 52 := fun e => by
    rw [zpow_sub₀ two_ne_zero]
    rfl
  unfold value significand scale
  refine congrArg _ ?_
  split
  next hzero =>
    rw [hzero, show ((max 0 1 : ℕ) : ℤ) - 1075 = -1022 - 52 by norm_num, hshift]
    ring
  next hnormal =>
    rw [Nat.max_eq_left (by omega),
      show (x.exponentField : ℤ) - 1075 = x.exponentField - 1023 - 52 by ring, hshift]
    push_cast
    ring

theorem natAbs?_eq_some_iff (n : ℕ) :
    x.natAbs? = some n ↔ (x.significand * 2 ^ ((x.scale : ℤ) - 1075) : ℚ) = n := by
  unfold natAbs?
  split
  next hwhole =>
    obtain ⟨k, hk⟩ := Nat.exists_eq_add_of_le hwhole
    rw [hk, Nat.add_sub_cancel_left, show ((1075 + k : ℕ) : ℤ) - 1075 = k by push_cast; ring,
      zpow_natCast, Option.some.injEq]
    exact_mod_cast Iff.rfl
  next hpart =>
    -- A negative power leaves an integer exactly if it divides the significand.
    obtain ⟨k, hk⟩ := Nat.exists_eq_add_of_lt (Nat.lt_of_not_le hpart)
    have hunit : 1075 - x.scale = k + 1 := by omega
    have hscale : (x.scale : ℤ) - 1075 = -((k + 1 : ℕ) : ℤ) := by omega
    have hpos : 0 < 2 ^ (k + 1) := Nat.two_pow_pos _
    rw [hscale, zpow_neg, zpow_natCast, ← div_eq_mul_inv, div_eq_iff (by positivity)]
    dsimp only
    rw [hunit]
    change (if x.significand % 2 ^ (k + 1) = 0 then some (x.significand / 2 ^ (k + 1)) else none) =
      some n ↔ _
    rw [show ((x.significand : ℚ) = n * 2 ^ (k + 1)) ↔ x.significand = n * 2 ^ (k + 1) by
      exact_mod_cast Iff.rfl]
    split
    next hdvd =>
      rw [Option.some.injEq, Nat.div_eq_iff_eq_mul_left hpos (Nat.dvd_of_mod_eq_zero hdvd)]
    next hrest =>
      refine iff_of_false (fun h => by cases h) fun h => hrest ?_
      rw [h, Nat.mul_mod_left]

/-- A pattern is an integer exactly if it is finite and its number is that integer. -/
theorem toInt?_eq_some_iff (n : ℤ) : x.toInt? = some n ↔ x.isFinite = true ∧ x.value = n := by
  have hmagnitude : (0 : ℚ) ≤ x.significand * 2 ^ ((x.scale : ℤ) - 1075) := by positivity
  have hinteger : x.toInt? = some n ↔ x.isFinite = true ∧
      ∃ k : ℕ, x.natAbs? = some k ∧ (if x.isNegative then -(k : ℤ) else k) = n := by
    unfold toInt?
    split <;> simp_all [Option.bind_eq_some_iff]
  rw [hinteger, value_eq]
  simp only [natAbs?_eq_some_iff]
  generalize (x.significand * 2 ^ ((x.scale : ℤ) - 1075) : ℚ) = m at hmagnitude
  refine and_congr_right fun _ => ?_
  split
  next =>
    rw [neg_one_mul]
    constructor
    · rintro ⟨k, rfl, rfl⟩
      push_cast
      rfl
    · intro h
      have hsign : (n : ℚ) ≤ 0 := by linarith
      obtain ⟨k, rfl⟩ := Int.exists_eq_neg_ofNat (by exact_mod_cast hsign)
      refine ⟨k, ?_, rfl⟩
      push_cast at h
      linarith
  next =>
    rw [one_mul]
    constructor
    · rintro ⟨k, rfl, rfl⟩
      rfl
    · intro h
      have hsign : (0 : ℚ) ≤ n := by linarith
      obtain ⟨k, rfl⟩ := Int.eq_ofNat_of_zero_le (by exact_mod_cast hsign)
      exact ⟨k, h, rfl⟩

end TokenizerHost.Double
