import Mathlib.Data.Int.Log
import Mathlib.Data.Rat.Floor
import Mathlib.Tactic.Linarith
import Mathlib.Tactic.Ring
import Mathlib.Tactic.NormNum

/-!
# Double precision numbers

The magnitudes of the finite double precision numbers as rational numbers:
multiples of a power of two with at most 53 significant bits, no finer than
`2 ^ (-1074)`. `round64` goes to the nearest one and to the even one between
two; a result from `2 ^ 1024` on stands for an overflow.
-/

namespace Binary64

/-- The nearest natural number, the even one between two. -/
def roundHalfEven (value : ℚ) : ℕ :=
  if value - ⌊value⌋₊ < 1 / 2 then
    ⌊value⌋₊
  else if 1 / 2 < value - ⌊value⌋₊ then
    ⌊value⌋₊ + 1
  else if ⌊value⌋₊ % 2 = 0 then
    ⌊value⌋₊
  else
    ⌊value⌋₊ + 1

/-- The exponent of the last bit that is kept. -/
def lastBit (value : ℚ) : ℤ :=
  max (Int.log 2 value - 52) (-1074)

/-- Rounding to the precision of a double, without an upper bound. -/
def round64 (value : ℚ) : ℚ :=
  roundHalfEven (value / 2 ^ lastBit value) * 2 ^ lastBit value

/-- The magnitude of a finite double. -/
structure IsDouble (value : ℚ) : Prop where
  nonneg : 0 ≤ value
  bounded : value < 2 ^ 1024
  rounded : round64 value = value

instance (value : ℚ) : Decidable (IsDouble value) :=
  decidable_of_iff
    (0 ≤ value ∧ value < 2 ^ 1024 ∧ round64 value = value)
    ⟨fun parts => ⟨parts.1, parts.2.1, parts.2.2⟩,
      fun isDouble =>
        ⟨isDouble.nonneg, isDouble.bounded, isDouble.rounded⟩⟩

theorem roundHalfEven_natCast (value : ℕ) :
    roundHalfEven value = value := by
  simp [roundHalfEven]

theorem roundHalfEven_le {value : ℚ} {bound : ℕ} (nonneg : 0 ≤ value)
    (below : value < bound) : roundHalfEven value ≤ bound := by
  have floorBelow : ⌊value⌋₊ < bound :=
    (Nat.floor_lt nonneg).mpr below
  unfold roundHalfEven
  split_ifs <;> omega

private theorem two_zpow_pos (exponent : ℤ) : (0 : ℚ) < 2 ^ exponent :=
  zpow_pos (by norm_num) exponent

private theorem lt_zpow_lastBit (value : ℚ) :
    value < 2 ^ (lastBit value + 53) := by
  have log := Int.lt_zpow_succ_log_self (R := ℚ) (b := 2) (by decide) value
  refine lt_of_lt_of_le log ?_
  refine zpow_le_zpow_right₀ (by norm_num) ?_
  have kept : Int.log 2 value - 52 ≤ lastBit value :=
    le_max_left _ _
  omega

/-- A multiple of its last bit is not changed. -/
theorem round64_of_multiple {value : ℚ} (multiple : ℕ)
    (isMultiple : value = multiple * 2 ^ lastBit value) :
    round64 value = value := by
  have quotient : value / 2 ^ lastBit value = multiple := by
    rw [div_eq_iff (two_zpow_pos _).ne']
    exact isMultiple
  rw [round64, quotient, roundHalfEven_natCast]
  exact isMultiple.symm

private theorem multiple_shift (multiple : ℕ) {coarse fine : ℤ}
    (le : fine ≤ coarse) :
    (multiple * 2 ^ coarse : ℚ) =
      (multiple * 2 ^ (coarse - fine).toNat : ℕ) * 2 ^ fine := by
  have split : coarse = ((coarse - fine).toNat : ℤ) + fine := by
    omega
  rw [split, zpow_add₀ (by norm_num), zpow_natCast]
  push_cast
  have same : ((coarse - fine).toNat + fine - fine).toNat =
      (coarse - fine).toNat := by
    omega
  rw [same]
  ring

theorem round64_zero : round64 0 = 0 := by
  refine round64_of_multiple 0 ?_
  simp

/-- At most 53 bits above the last one that may be kept are not changed. -/
private theorem round64_of_small {multiple : ℕ} {exponent : ℤ}
    (small : multiple ≤ 2 ^ 53) (fine : -1074 ≤ exponent) :
    round64 (multiple * 2 ^ exponent) = multiple * 2 ^ exponent := by
  rcases Nat.eq_zero_or_pos multiple with rfl | positive
  · rw [Nat.cast_zero, zero_mul, round64_zero]
  obtain ⟨next, isNext⟩ :
      ∃ next, next = lastBit (multiple * 2 ^ exponent) :=
    ⟨_, rfl⟩
  rcases le_or_gt next exponent with le | lt
  · refine round64_of_multiple
      (multiple * 2 ^ (exponent - next).toNat) ?_
    rw [← isNext]
    exact multiple_shift multiple le
  · -- Only `2 ^ 53` has its last bit further up.
    have isLog :
        Int.log 2 (multiple * 2 ^ exponent : ℚ) = next + 52 := by
      rw [lastBit] at isNext
      omega
    have large : (2 : ℚ) ^ (next + 52) ≤ multiple * 2 ^ exponent := by
      rw [← isLog]
      exact Int.zpow_log_le_self (b := 2) (by decide)
        (mul_pos (Nat.cast_pos.mpr positive) (two_zpow_pos _))
    have bound : (multiple : ℚ) * 2 ^ exponent ≤
        2 ^ (53 + exponent) := by
      rw [zpow_add₀ (by norm_num)]
      refine mul_le_mul_of_nonneg_right ?_ (two_zpow_pos _).le
      exact_mod_cast small
    have exponents : next + 52 ≤ 53 + exponent :=
      (zpow_le_zpow_iff_right₀ (by norm_num : (1 : ℚ) < 2)).mp
        (large.trans bound)
    have isSuccessor : next = exponent + 1 := by
      omega
    refine round64_of_multiple (2 ^ 52) ?_
    rw [← isNext]
    refine le_antisymm ?_ ?_
    · refine bound.trans_eq ?_
      rw [isSuccessor, zpow_add₀ (by norm_num), zpow_add₀ (by norm_num)]
      norm_num
      ring
    · refine le_of_eq_of_le ?_ large
      rw [add_comm, zpow_add₀ (by norm_num)]
      norm_num

theorem round64_nonneg (value : ℚ) : 0 ≤ round64 value :=
  mul_nonneg (Nat.cast_nonneg _) (two_zpow_pos _).le

theorem round64_round64 {value : ℚ} (nonneg : 0 ≤ value) :
    round64 (round64 value) = round64 value := by
  obtain ⟨exponent, isExponent⟩ : ∃ exponent, exponent = lastBit value :=
    ⟨_, rfl⟩
  obtain ⟨multiple, isMultiple⟩ :
      ∃ multiple, multiple = roundHalfEven (value / 2 ^ exponent) :=
    ⟨_, rfl⟩
  have isRounded : round64 value = multiple * 2 ^ exponent := by
    rw [round64, isMultiple, isExponent]
  have small : multiple ≤ 2 ^ 53 := by
    rw [isMultiple]
    refine roundHalfEven_le (div_nonneg nonneg (two_zpow_pos _).le) ?_
    rw [div_lt_iff₀ (two_zpow_pos _)]
    have bound := lt_zpow_lastBit value
    rw [← isExponent, zpow_add₀ (by norm_num)] at bound
    push_cast
    linarith
  have fine : -1074 ≤ exponent := by
    rw [isExponent]
    exact le_max_right _ _
  rw [isRounded]
  exact round64_of_small small fine

/-- Every double is a multiple of the smallest positive one. -/
theorem IsDouble.isMultiple {value : ℚ} (isDouble : IsDouble value) :
    ∃ multiple : ℕ, value = multiple * 2 ^ (-1074 : ℤ) := by
  have shift := multiple_shift
    (roundHalfEven (value / 2 ^ lastBit value))
    (le_max_right (Int.log 2 value - 52) (-1074))
  exact ⟨_, isDouble.rounded.symm.trans shift⟩

end Binary64
