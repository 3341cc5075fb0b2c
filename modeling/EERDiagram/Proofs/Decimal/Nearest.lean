import EERDiagram.Proofs.Decimal.Range
import Mathlib.Data.Rat.Floor

/-! What rounding a double gives. The sum with one half is rounded to a double before its floor is
taken, and that matters where the sum lies halfway between two doubles of which the upper one is a
whole number: there the value is rounded to the integer above the nearest one. -/
namespace EERDiagram.Decimal

/-- The rational number that a finite double is. -/
def Binary.value (b : Binary) : ℚ := b.signed * 2 ^ b.exponent

/-- The double nearest to an integer, or to an integer multiple of a power of two. -/
def roundedInt (n : ℤ) : ℤ := n.sign * rounded n.natAbs

theorem floorScaled_eq_floor (n e : ℤ) : floorScaled n e = ⌊(n : ℚ) * 2 ^ e⌋ := by
  rw [floorScaled]
  split
  next whole =>
    obtain ⟨k, rfl⟩ := Int.eq_ofNat_of_zero_le whole
    have same : (n : ℚ) * 2 ^ (k : ℤ) = (n * 2 ^ k : ℤ) := by push_cast; rw [zpow_natCast]
    rw [same, Int.floor_intCast]
    simp
  next fraction =>
    obtain ⟨k, same⟩ := Int.eq_ofNat_of_zero_le (show 0 ≤ -e by omega)
    obtain rfl : e = -k := by omega
    rw [Int.fdiv_eq_ediv_of_nonneg _ (by positivity), ← Rat.floor_intCast_div_natCast, zpow_neg,
      ← div_eq_mul_inv]
    simp

theorem sumWithHalf_exact (b : Binary) :
    (b.sumWithHalf.1 : ℚ) * 2 ^ b.sumWithHalf.2 = b.value + 1 / 2 := by
  rw [sumWithHalf_eq b rfl]
  obtain ⟨up, own⟩ := Int.eq_ofNat_of_zero_le (show 0 ≤ b.exponent - min b.exponent (-1) by omega)
  obtain ⟨half, one⟩ := Int.eq_ofNat_of_zero_le (show 0 ≤ -1 - min b.exponent (-1) by omega)
  rw [own, one, Binary.value]
  push_cast
  rw [add_mul, mul_assoc, Int.toNat_natCast, Int.toNat_natCast, ← zpow_natCast, ← zpow_natCast,
    ← zpow_add₀ two_ne_zero, ← zpow_add₀ two_ne_zero]
  have first : (up : ℤ) + min b.exponent (-1) = b.exponent := by omega
  have second : (half : ℤ) + min b.exponent (-1) = -1 := by omega
  rw [first, second]
  norm_num

/-- Rounding takes the exact sum with one half, the double nearest to it, and the floor of that. -/
theorem roundHalfUp_eq_floor (b : Binary) :
    b.roundHalfUp = ⌊(roundedInt b.sumWithHalf.1 : ℚ) * 2 ^ b.sumWithHalf.2⌋ := by
  rw [Binary.roundHalfUp]
  generalize b.sumWithHalf = both
  obtain ⟨sum, exponent⟩ := both
  simp only [floorScaled_eq_floor, roundedInt, rounded]
  rw [zpow_add₀ two_ne_zero, zpow_natCast]
  congr 1
  rcases lt_trichotomy sum 0 with negative | rfl | positive
  · rw [if_pos negative, Int.sign_eq_neg_one_of_neg negative]
    push_cast
    ring
  · simp [nearestEven]
  · rw [if_neg (by omega), Int.sign_eq_one_of_pos positive]
    push_cast
    ring

/-! Rounding to a double. -/

theorem le_nearestEven {n q bits : Nat} (bound : q * 2 ^ bits ≤ n) : q ≤ nearestEven n bits := by
  have quotient : q ≤ n / 2 ^ bits := (Nat.le_div_iff_mul_le (Nat.two_pow_pos bits)).mpr bound
  simp only [nearestEven, twoTo, Nat.pow_eq]
  split <;> omega

theorem nearestEven_of_near {n q bits : Nat} (low : 2 * (q * 2 ^ bits) ≤ 2 * n + 2 ^ bits)
    (high : 2 * n ≤ 2 * (q * 2 ^ bits) + 2 ^ bits)
    (tie : Even q ∨ 2 * (q * 2 ^ bits) < 2 * n + 2 ^ bits ∧ 2 * n < 2 * (q * 2 ^ bits) + 2 ^ bits) :
    nearestEven n bits = q := by
  have split := Nat.div_add_mod n (2 ^ bits)
  have small := Nat.mod_lt n (Nat.two_pow_pos bits)
  simp only [nearestEven, twoTo, Nat.pow_eq]
  generalize n / 2 ^ bits = quotient at *
  generalize n % 2 ^ bits = rest at *
  generalize 2 ^ bits = step at *
  subst split
  have least : quotient ≤ q := by
    by_contra above
    have := Nat.mul_le_mul_right step (show q + 1 ≤ quotient by omega)
    linarith
  have most : q ≤ quotient + 1 := by
    by_contra below
    have := Nat.mul_le_mul_right step (show quotient + 2 ≤ q by omega)
    linarith
  obtain rfl | rfl : q = quotient ∨ q = quotient + 1 := by omega
  · rw [if_pos]
    rw [Nat.mul_comm step] at high tie
    rcases tie with even | ⟨-, below⟩
    · have := Nat.even_iff.mp even
      omega
    · omega
  · rw [if_neg]
    rw [Nat.mul_comm step, Nat.add_mul] at low tie
    rcases tie with even | ⟨above, -⟩
    · have := Nat.even_iff.mp even
      omega
    · omega

theorem rounded_of_lt (small : n < 2 ^ 53) : rounded n = n := by
  have none : excessBits n = 0 := by
    by_contra some
    have := two_pow_excessBits_le (Nat.pos_of_ne_zero some)
    have power : 2 ^ 53 ≤ 2 ^ (excessBits n + 52) := Nat.pow_le_pow_right (by decide) (by omega)
    omega
  rw [rounded, none, nearestEven_of_near (q := n)] <;> simp

theorem excessBits_pos (large : 2 ^ 53 ≤ n) : 0 < excessBits n := by
  by_contra none
  have := lt_two_pow_excessBits n
  rw [Nat.eq_zero_of_not_pos none] at this
  omega

theorem excessBits_le (bound : n < 2 ^ (bits + 53)) : excessBits n ≤ bits := by
  by_contra above
  have := two_pow_excessBits_le (n := n) (by omega)
  have power : 2 ^ (bits + 53) ≤ 2 ^ (excessBits n + 52) :=
    Nat.pow_le_pow_right (by decide) (by omega)
  omega

theorem rounded_le {n m j : Nat} (double : m ≤ 2 ^ 53) (bound : n ≤ m * 2 ^ j) :
    rounded n ≤ m * 2 ^ j := by
  rw [rounded]
  rcases Nat.lt_or_ge j (excessBits n) with coarse | fine
  · -- The number is no less than the double, which is then the first of the coarser ones.
    have least := two_pow_excessBits_le (n := n) (by omega)
    have power : 2 ^ (j + 53) ≤ 2 ^ (excessBits n + 52) :=
      Nat.pow_le_pow_right (by decide) (by omega)
    have most := Nat.mul_le_mul_right (2 ^ j) double
    rw [← Nat.pow_add, Nat.add_comm 53] at most
    have same : m * 2 ^ j = 2 ^ 52 * 2 ^ excessBits n := by
      rw [← Nat.pow_add, Nat.add_comm 52]
      omega
    rw [same] at bound ⊢
    exact Nat.mul_le_mul_right _ (nearestEven_le bound)
  · obtain ⟨gap, rfl⟩ := Nat.exists_eq_add_of_le fine
    rw [Nat.add_comm, Nat.pow_add, ← Nat.mul_assoc] at bound ⊢
    exact Nat.mul_le_mul_right _ (nearestEven_le bound)

theorem le_rounded {n m j : Nat} (double : m ≤ 2 ^ 53) (bound : m * 2 ^ j ≤ n) :
    m * 2 ^ j ≤ rounded n := by
  rw [rounded]
  rcases Nat.lt_or_ge j (excessBits n) with coarse | fine
  · have least : 2 ^ 52 * 2 ^ excessBits n ≤ n := by
      rw [← Nat.pow_add, Nat.add_comm 52]
      exact two_pow_excessBits_le (by omega)
    calc m * 2 ^ j ≤ 2 ^ 53 * 2 ^ j := Nat.mul_le_mul_right _ double
      _ = 2 ^ 52 * 2 ^ (j + 1) := by ring
      _ ≤ 2 ^ 52 * 2 ^ excessBits n :=
        Nat.mul_le_mul_left _ (Nat.pow_le_pow_right (by decide) coarse)
      _ ≤ nearestEven n (excessBits n) * 2 ^ excessBits n :=
        Nat.mul_le_mul_right _ (le_nearestEven least)
  · obtain ⟨gap, rfl⟩ := Nat.exists_eq_add_of_le fine
    rw [Nat.add_comm, Nat.pow_add, ← Nat.mul_assoc] at bound ⊢
    exact Nat.mul_le_mul_right _ (le_nearestEven bound)

/-! Next to twice a whole double, where the sums of whole doubles with one half lie. -/

variable {k m e n : Nat}

theorem rounded_beside_even (double : k = m * 2 ^ e) (small : m < 2 ^ 53) (even : Even k)
    (large : 2 ^ 53 ≤ n) (beside : n = 2 * k + 1 ∨ n + 1 = 2 * k) : rounded n = 2 * k := by
  have some := excessBits_pos large
  have few : excessBits n ≤ e + 1 := by
    apply excessBits_le
    have most := Nat.mul_le_mul_right (2 ^ e) (show m + 1 ≤ 2 ^ 53 by omega)
    rw [Nat.add_mul, ← double] at most
    have one := Nat.one_le_two_pow (n := e)
    calc n < 2 * (2 ^ 53 * 2 ^ e) := by omega
      _ = 2 ^ (e + 1 + 53) := by ring
  rw [rounded]
  generalize excessBits n = excess at *
  obtain ⟨gap, split⟩ := Nat.exists_eq_add_of_le few
  have whole : 2 * k = m * 2 ^ gap * 2 ^ excess := by
    rw [double, Nat.mul_assoc m, ← Nat.pow_add, Nat.add_comm gap, ← split, Nat.pow_succ]
    ring
  rw [whole] at beside ⊢
  congr 1
  have step : 2 ≤ 2 ^ excess := Nat.le_self_pow some.ne' 2
  apply nearestEven_of_near
  · omega
  · omega
  · rcases Nat.lt_or_ge 1 excess with wide | narrow
    · have : 2 ^ 2 ≤ 2 ^ excess := Nat.pow_le_pow_right (by decide) wide
      omega
    · obtain rfl : excess = 1 := by omega
      left
      rwa [← Nat.mul_right_cancel (by decide : 0 < 2) ((Nat.mul_comm k 2).trans whole)]

theorem rounded_beside_odd (odd : Odd k) (small : k < 2 ^ 53) (large : 2 ^ 53 ≤ n)
    (beside : n = 2 * k + 1 ∨ n + 1 = 2 * k) :
    rounded n = if n = 2 * k + 1 then n + 1 else n - 1 := by
  have one : excessBits n = 1 := by
    have some := excessBits_pos large
    have few : excessBits n ≤ 1 := excessBits_le (by omega)
    omega
  obtain ⟨half, rfl⟩ := odd
  rw [rounded, one]
  split
  next above =>
    rw [nearestEven_of_near (q := 2 * half + 2) (by omega) (by omega) (.inl ⟨half + 1, by ring⟩)]
    omega
  next below =>
    rw [nearestEven_of_near (q := 2 * half) (by omega) (by omega) (.inl ⟨half, by ring⟩)]
    omega

/-! The two kinds of numbers: whole ones, and those with bits behind the point. -/

variable {b : Binary}

theorem roundHalfUp_of_sum {sum : ℤ} {down : ℕ} (same : b.sumWithHalf = (sum, -(down : ℤ))) :
    b.roundHalfUp = roundedInt sum / 2 ^ down ∧ ⌊b.value + 1 / 2⌋ = sum / 2 ^ down := by
  have floor (n : ℤ) : ⌊(n : ℚ) * 2 ^ (-(down : ℤ))⌋ = n / 2 ^ down := by
    rw [zpow_neg, ← div_eq_mul_inv, zpow_natCast]
    exact_mod_cast Rat.floor_intCast_div_natCast n (2 ^ down)
  have exact := sumWithHalf_exact b
  rw [same] at exact
  rw [roundHalfUp_eq_floor, same, ← exact]
  exact ⟨floor _, floor _⟩

theorem roundedInt_of_lt {n : ℤ} (small : n.natAbs < 2 ^ 53) : roundedInt n = n := by
  rw [roundedInt, rounded_of_lt small, Int.sign_mul_natAbs]

theorem roundHalfUp_of_whole (small : b.mantissa < 2 ^ 53) (whole : 0 ≤ b.exponent) :
    ∃ v : ℤ, b.value = v ∧
      b.roundHalfUp = if Odd v ∧ 2 ^ 52 ≤ v.natAbs ∧ v.natAbs < 2 ^ 53 then v + 1 else v := by
  obtain ⟨e, exponent⟩ := Int.eq_ofNat_of_zero_le whole
  have sum : b.sumWithHalf = (2 * (b.signed * 2 ^ e) + 1, -((1 : ℕ) : ℤ)) := by
    rw [sumWithHalf_eq b (e := -1) (by omega), exponent]
    simp [pow_succ]
    ring
  have magnitude : (b.signed * 2 ^ e).natAbs = b.mantissa * 2 ^ e := by
    rw [Int.natAbs_mul, natAbs_signed, Int.natAbs_pow]
    rfl
  refine ⟨b.signed * 2 ^ e, ?_, ?_⟩
  · rw [Binary.value, exponent, zpow_natCast]
    push_cast
    rfl
  rw [(roundHalfUp_of_sum sum).1]
  generalize b.signed * 2 ^ e = v at *
  have beside : (2 * v + 1).natAbs = 2 * v.natAbs + 1 ∨ (2 * v + 1).natAbs + 1 = 2 * v.natAbs := by
    omega
  rcases Nat.lt_or_ge (2 * v + 1).natAbs (2 ^ 53) with near | far
  · rw [roundedInt_of_lt near, if_neg]
    · omega
    · rintro ⟨odd, large, -⟩
      have := Int.odd_iff.mp odd
      omega
  · rcases Int.even_or_odd v with even | odd
    · have same := rounded_beside_even magnitude small (Int.natAbs_even.mpr even) far beside
      rw [roundedInt, same, if_neg (fun all => Int.not_odd_iff_even.mpr even all.1)]
      rcases Int.lt_or_le v 0 with negative | positive
      · rw [Int.sign_eq_neg_one_of_neg (by omega)]
        omega
      · rw [Int.sign_eq_one_of_pos (by omega)]
        omega
    · -- An odd multiple of a power of two is the mantissa itself.
      have odd' := Int.natAbs_odd.mpr odd
      obtain rfl : e = 0 := by
        by_contra positive
        rw [magnitude, Nat.odd_mul, Nat.odd_pow_iff positive] at odd'
        exact absurd odd'.2 (by decide)
      rw [Nat.pow_zero, Nat.mul_one] at magnitude
      have same := rounded_beside_odd odd' (magnitude ▸ small) far beside
      have parity := Int.odd_iff.mp odd
      have carried : Odd v ∧ 2 ^ 52 ≤ v.natAbs ∧ v.natAbs < 2 ^ 53 := ⟨odd, by omega, by omega⟩
      rw [roundedInt, same, if_pos carried]
      rcases Int.lt_or_le v 0 with negative | positive
      · rw [Int.sign_eq_neg_one_of_neg (by omega), if_neg (by omega)]
        omega
      · rw [Int.sign_eq_one_of_pos (by omega), if_pos (by omega)]
        omega

/-- The double below one half, as a multiple of a power of two. -/
theorem eq_below_half_iff {s : ℤ} {d : ℕ} (small : s.natAbs < 2 ^ 53) :
    (s : ℚ) * 2 ^ (-((d + 1 : ℕ) : ℤ)) = 1 / 2 - 1 / 2 ^ 54 ↔ d = 53 ∧ s = 2 ^ 53 - 1 := by
  have quotient : (1 / 2 - 1 / 2 ^ 54 : ℚ) = ((2 ^ 53 - 1 : ℤ) : ℚ) / ((2 ^ 54 : ℤ) : ℚ) := by
    norm_num
  have scaled : (s : ℚ) * 2 ^ (-((d + 1 : ℕ) : ℤ)) = 1 / 2 - 1 / 2 ^ 54 ↔
      s * 2 ^ 54 = (2 ^ 53 - 1) * 2 ^ (d + 1) := by
    rw [zpow_neg, zpow_natCast, ← div_eq_mul_inv, quotient, div_eq_div_iff (by positivity)
      (by positivity)]
    exact_mod_cast Iff.rfl
  rw [scaled]
  constructor
  · intro same
    rcases Nat.lt_trichotomy d 53 with less | rfl | more
    · -- The mantissa would be even.
      obtain ⟨gap, split⟩ := Nat.exists_eq_add_of_lt less
      have power : (2 : ℤ) ^ 54 = 2 ^ (gap + 1) * 2 ^ (d + 1) := by
        rw [← pow_add]
        congr 1
        omega
      rw [power, ← mul_assoc, mul_left_inj' (by positivity), pow_succ, ← mul_assoc] at same
      omega
    · exact ⟨rfl, by omega⟩
    · -- The mantissa would be too large.
      obtain ⟨gap, rfl⟩ := Nat.exists_eq_add_of_lt more
      have power : (2 : ℤ) ^ (53 + gap + 1 + 1) = 2 * 2 ^ gap * 2 ^ 54 := by ring
      rw [power, ← mul_assoc, mul_left_inj' (by positivity)] at same
      have one : (1 : ℤ) ≤ 2 ^ gap := one_le_pow₀ (by decide)
      omega
  · rintro ⟨rfl, rfl⟩
    ring

theorem rounded_div_of_sum {d : ℕ} (least : 2 ^ 53 ≤ n) (most : n < 2 ^ 53 + 2 ^ d) :
    rounded n / 2 ^ (d + 1) = n / 2 ^ (d + 1) + if d = 53 ∧ n = 2 ^ 54 - 1 then 1 else 0 := by
  rcases Nat.lt_trichotomy d 53 with fine | rfl | coarse
  · -- The number lies between a double that is a whole number and the double one half above it.
    rw [if_neg (by omega)]
    obtain ⟨gap, split⟩ := Nat.exists_eq_add_of_lt fine
    have whole : 2 ^ 53 = 2 ^ gap * 2 ^ (d + 1) := by
      rw [← Nat.pow_add]
      congr 1
      omega
    have lower : 2 ^ gap * 2 ^ (d + 1) ≤ rounded n := by
      rw [← whole]
      exact le_rounded (j := 0) (Nat.le_refl _) (by omega)
    have upper : rounded n ≤ 2 ^ 53 + 2 ^ d := by
      rcases Nat.eq_zero_or_pos d with rfl | positive
      · have := rounded_le (n := n) (j := 0) (Nat.le_refl _) (by omega)
        omega
      · have double : 2 ^ (gap + 1) + 1 ≤ 2 ^ 53 := by
          have := Nat.pow_le_pow_right (by decide : 0 < 2) (show gap + 1 ≤ 52 by omega)
          omega
        have sum : 2 ^ 53 + 2 ^ d = (2 ^ (gap + 1) + 1) * 2 ^ d := by
          rw [whole]
          ring
        rw [sum] at most ⊢
        exact rounded_le double most.le
    have next : 2 ^ 53 + 2 ^ d < (2 ^ gap + 1) * 2 ^ (d + 1) := by
      rw [Nat.add_mul, ← whole, Nat.one_mul]
      exact Nat.add_lt_add_left (Nat.pow_lt_pow_right (by decide) (Nat.lt_succ_self d)) _
    rw [Nat.div_eq_of_lt_le lower (upper.trans_lt next),
      Nat.div_eq_of_lt_le (whole ▸ least) (most.trans next), Nat.add_zero]
  · rcases Nat.lt_or_ge n (2 ^ 54 - 1) with below | top
    · have := rounded_le (n := n) (m := 2 ^ 53 - 1) (j := 1) (by decide) (by omega)
      rw [if_neg (by omega), Nat.div_eq_of_lt (by omega), Nat.div_eq_of_lt (by omega)]
    · obtain rfl : n = 2 ^ 54 - 1 := by omega
      decide +kernel
  · -- Three quarters are a double.
    rw [if_neg (by omega)]
    obtain ⟨gap, rfl⟩ := Nat.exists_eq_add_of_lt coarse
    have power : 2 ^ 53 ≤ 2 ^ (53 + gap) := Nat.pow_le_pow_right (by decide) (by omega)
    have upper := rounded_le (n := n) (m := 3) (j := 53 + gap) (by decide) (by omega)
    rw [Nat.div_eq_of_lt (by omega), Nat.div_eq_of_lt (by omega)]

theorem roundHalfUp_of_fraction (small : b.mantissa < 2 ^ 53) (fraction : b.exponent < 0) :
    b.roundHalfUp = ⌊b.value + 1 / 2⌋ + if b.value = 1 / 2 - 1 / 2 ^ 54 then 1 else 0 := by
  obtain ⟨d, exponent⟩ : ∃ d : ℕ, b.exponent = -((d + 1 : ℕ) : ℤ) :=
    ⟨b.exponent.natAbs - 1, by omega⟩
  have sum : b.sumWithHalf = (b.signed + 2 ^ d, -((d + 1 : ℕ) : ℤ)) := by
    rw [sumWithHalf_eq b (e := b.exponent) (by omega), exponent]
    have half : (-1 - -((d + 1 : ℕ) : ℤ)).toNat = d := by omega
    rw [half]
    simp
  obtain ⟨rounds, floor⟩ := roundHalfUp_of_sum sum
  rw [rounds, floor, Binary.value, exponent]
  have sign := natAbs_signed b
  generalize b.signed = s at *
  simp only [eq_below_half_iff (sign ▸ small)]
  rcases Nat.lt_or_ge (s + 2 ^ d).natAbs (2 ^ 53) with near | far
  · rw [roundedInt_of_lt near, if_neg]
    · simp
    · rintro ⟨rfl, rfl⟩
      norm_num at near
  -- A sum that has to be rounded is positive, and so is the part of it below one half.
  have half : (0 : ℤ) < 2 ^ d := by positivity
  obtain ⟨n, same⟩ := Int.eq_ofNat_of_zero_le (show 0 ≤ s + 2 ^ d by omega)
  have kept : roundedInt (s + 2 ^ d) = rounded n := by
    rw [roundedInt, Int.sign_eq_one_of_pos (by omega), same]
    simp
  have least : 2 ^ 53 ≤ n := by omega
  have most : n < 2 ^ 53 + 2 ^ d := by
    zify
    omega
  have carried : (d = 53 ∧ s = 2 ^ 53 - 1) ↔ (d = 53 ∧ n = 2 ^ 54 - 1) := by
    constructor
    · rintro ⟨rfl, rfl⟩
      omega
    · rintro ⟨rfl, rfl⟩
      omega
  rw [kept, same]
  simp only [carried]
  exact_mod_cast rounded_div_of_sum least most

/-! Which doubles are rounded to the nearest integer. -/

/-- The number is less than one half away from the integer, or just one half below it. -/
def Nearest (n : ℤ) (q : ℚ) : Prop := n - 1 / 2 ≤ q ∧ q < n + 1 / 2

theorem nearest_iff {n : ℤ} {q : ℚ} : Nearest n q ↔ n = ⌊q + 1 / 2⌋ := by
  rw [eq_comm, Int.floor_eq_iff, Nearest]
  constructor <;> rintro ⟨low, high⟩ <;> constructor <;> linarith

/-- The sum with one half lies halfway between two doubles, and the even one is the integer above
it: so it is for the greatest double below one half, and for odd integers where doubles are one
apart. -/
inductive Carried : ℚ → Prop where
  | belowHalf : Carried (1 / 2 - 1 / 2 ^ 54)
  | odd {v : ℤ} : Odd v → 2 ^ 52 ≤ v.natAbs → v.natAbs < 2 ^ 53 → Carried v

theorem carried_int_iff {v : ℤ} :
    Carried v ↔ Odd v ∧ 2 ^ 52 ≤ v.natAbs ∧ v.natAbs < 2 ^ 53 := by
  constructor
  · intro carried
    generalize same : (v : ℚ) = q at carried
    cases carried with
    | belowHalf =>
      have scaled : v * 2 ^ 54 = 2 ^ 53 - 1 := by
        have : (v : ℚ) * 2 ^ 54 = 2 ^ 53 - 1 := by
          rw [same]
          norm_num
        exact_mod_cast this
      omega
    | odd odd large small =>
      obtain rfl := Int.cast_injective same
      exact ⟨odd, large, small⟩
  · rintro ⟨odd, large, small⟩
    exact .odd odd large small

/-- Doubles with a unit below one are less than `2 ^ 52`. -/
theorem carried_iff_of_fraction (small : b.mantissa < 2 ^ 53) (fraction : b.exponent < 0) :
    Carried b.value ↔ b.value = 1 / 2 - 1 / 2 ^ 54 := by
  constructor
  · intro carried
    generalize same : b.value = q at carried
    cases carried with
    | belowHalf => rfl
    | @odd v _ large _ =>
      obtain ⟨d, exponent⟩ : ∃ d : ℕ, b.exponent = -((d + 1 : ℕ) : ℤ) :=
        ⟨b.exponent.natAbs - 1, by omega⟩
      have scaled : b.signed = v * 2 ^ (d + 1) := by
        rw [Binary.value, exponent, zpow_neg, zpow_natCast, ← div_eq_mul_inv,
          div_eq_iff (by positivity)] at same
        exact_mod_cast same
      have magnitude := congrArg Int.natAbs scaled
      rw [natAbs_signed, Int.natAbs_mul, Int.natAbs_pow, pow_succ] at magnitude
      have one : 1 ≤ (2 : ℤ).natAbs ^ d := Nat.one_le_two_pow
      have := Nat.mul_le_mul large (Nat.mul_le_mul_right (2 : ℤ).natAbs one)
      rw [← magnitude] at this
      exact absurd (this.trans_lt small) (by decide)
  · intro same
    exact same ▸ .belowHalf

theorem floor_int_add_half (v : ℤ) : ⌊(v : ℚ) + 1 / 2⌋ = v := by
  rw [Int.floor_intCast_add]
  norm_num

theorem roundHalfUp_cases (small : b.mantissa < 2 ^ 53) :
    (¬ Carried b.value ∧ b.roundHalfUp = ⌊b.value + 1 / 2⌋) ∨
      (Carried b.value ∧ b.roundHalfUp = ⌊b.value + 1 / 2⌋ + 1) := by
  rcases Int.lt_or_le b.exponent 0 with fraction | whole
  · rw [carried_iff_of_fraction small fraction, roundHalfUp_of_fraction small fraction]
    split
    next carried => exact .inr ⟨carried, rfl⟩
    next plain => exact .inl ⟨plain, Int.add_zero _⟩
  · obtain ⟨v, value, rounds⟩ := roundHalfUp_of_whole small whole
    rw [value, carried_int_iff, rounds, floor_int_add_half]
    split
    next carried => exact .inr ⟨carried, rfl⟩
    next plain => exact .inl ⟨plain, rfl⟩

/-- A finite double is rounded to the nearest integer, halves up, unless it is carried; then it is
rounded to the integer above that one. So whole doubles stay what they are, but for odd ones of 53
bits. -/
theorem roundHalfUp_nearest_iff (x : Float) (finite : isFinite x = true) :
    ∃ n, roundHalfUp x = .ok n ∧
      (Nearest n (Binary.ofFloat x).value ↔ ¬ Carried (Binary.ofFloat x).value) ∧
      (Carried (Binary.ofFloat x).value → Nearest (n - 1) (Binary.ofFloat x).value) ∧
      ∀ v : ℤ, (Binary.ofFloat x).value = v →
        (n = v ↔ ¬ (Odd v ∧ 2 ^ 52 ≤ v.natAbs ∧ v.natAbs < 2 ^ 53)) := by
  have cases := roundHalfUp_cases (b := Binary.ofFloat x) (mantissa_ofBits_lt _)
  refine ⟨_, roundHalfUp_eq_ok finite, ?_⟩
  simp only [nearest_iff]
  generalize (Binary.ofFloat x).value = q at *
  rcases cases with ⟨plain, rounds⟩ | ⟨carried, rounds⟩
  · refine ⟨iff_of_true rounds plain, fun carried => absurd carried plain, ?_⟩
    rintro v rfl
    rw [carried_int_iff] at plain
    exact iff_of_true (rounds.trans (floor_int_add_half v)) plain
  · refine ⟨iff_of_false (by omega) (not_not_intro carried), fun _ => by omega, ?_⟩
    rintro v rfl
    rw [floor_int_add_half] at rounds
    exact iff_of_false (by omega) (not_not_intro (carried_int_iff.mp carried))

/-- A half goes up below zero too. -/
theorem roundHalfUp_nearest_negative_half :
    isFinite (-2.5) = true ∧ ∃ n, roundHalfUp (-2.5) = .ok n ∧ Nearest n (-5 / 2) := by
  have finite : isFinite (-2.5) = true := by decide +kernel
  obtain ⟨n, rounds, nearest, -⟩ := roundHalfUp_nearest_iff (-2.5) finite
  have bits : Binary.ofFloat (-2.5) = ⟨true, 5 * 2 ^ 50, -51, false⟩ := by decide +kernel
  have value : (Binary.ofFloat (-2.5)).value = -5 / 2 := by
    rw [bits]
    norm_num [Binary.value, Binary.signed]
  have plain : ¬ Carried (Binary.ofFloat (-2.5)).value := by
    rw [carried_iff_of_fraction (by rw [bits]; decide) (by rw [bits]; decide), value]
    norm_num
  exact ⟨finite, n, rounds, value ▸ nearest.mpr plain⟩

/-- The greatest double below one half becomes 1, and the first odd integer of 53 bits becomes
even. -/
theorem roundHalfUp_carries :
    let half : Float := 0.49999999999999994
    let odd : Float := 4503599627370497
    (isFinite half = true ∧ roundHalfUp half = .ok 1 ∧ ¬ Nearest 1 (Binary.ofFloat half).value) ∧
      isFinite odd = true ∧ (Binary.ofFloat odd).value = 4503599627370497 ∧
      roundHalfUp odd = .ok 4503599627370498 ∧
      ¬ Nearest 4503599627370498 (Binary.ofFloat odd).value := by
  intro half odd
  have below : Binary.ofFloat half = ⟨false, 2 ^ 53 - 1, -54, false⟩ := by decide +kernel
  have first : Binary.ofFloat odd = ⟨false, 2 ^ 52 + 1, 0, false⟩ := by decide +kernel
  refine ⟨⟨by decide +kernel, by decide +kernel, ?_⟩, by decide +kernel, ?_, by decide +kernel, ?_⟩
  · rw [below]
    norm_num [Nearest, Binary.value, Binary.signed]
  · rw [first]
    norm_num [Binary.value, Binary.signed]
  · rw [first]
    norm_num [Nearest, Binary.value, Binary.signed]

end EERDiagram.Decimal
