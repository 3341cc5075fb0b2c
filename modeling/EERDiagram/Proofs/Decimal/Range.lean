import EERDiagram.Decimal.Binary
import Mathlib.Tactic.Linarith
import Mathlib.Tactic.Ring

/-! The range of whole coordinates. Rounding a finite double gives an integer that a double can
stand for, although the sum that is rounded on the way is a double of its own. -/
namespace EERDiagram.Decimal

open Float.Model (UnpackedFloat Format)

/-! The parts of a bit pattern, and which doubles are no numbers by them. -/

def exponentBits (x : Float) : BitVec 11 :=
  @UnpackedFloat.unpackExponent Format.binary64 x.toModel.toBits.toBitVec

def mantissaBits (x : Float) : BitVec 52 :=
  @UnpackedFloat.unpackMantissa Format.binary64 x.toModel.toBits.toBitVec

theorem toNat_exponentBits (x : Float) :
    (exponentBits x).toNat = x.toBits.toNat / 2 ^ 52 % 2 ^ 11 := by
  simp [exponentBits, UnpackedFloat.unpackExponent, Nat.shiftRight_eq_div_pow]
  rfl

theorem toNat_mantissaBits (x : Float) : (mantissaBits x).toNat = x.toBits.toNat % 2 ^ 52 := by
  simp [mantissaBits, UnpackedFloat.unpackMantissa]
  rfl

theorem unpack_cases (x : Float) :
    (exponentBits x = -1#11 ∧ mantissaBits x = 0#52 ∧ ∃ sign, x.toModel.unpack = .infinity sign) ∨
    (exponentBits x = -1#11 ∧ mantissaBits x ≠ 0#52 ∧ x.toModel.unpack = .notANumber) ∨
    (exponentBits x ≠ -1#11 ∧ ((∃ sign, x.toModel.unpack = .zero sign) ∨
      ∃ sign mantissa exponent some, x.toModel.unpack = .finite sign mantissa exponent some)) := by
  by_cases ones : exponentBits x = -1#11
  · by_cases zeros : mantissaBits x = 0#52
    · exact .inl ⟨ones, zeros, _, (if_pos ones).trans (if_pos zeros)⟩
    · exact .inr (.inl ⟨ones, zeros, (if_pos ones).trans (if_neg zeros)⟩)
  · refine .inr (.inr ⟨ones, ?_⟩)
    by_cases least : exponentBits x = 0#11
    · by_cases zeros : mantissaBits x = 0#52
      · exact .inl ⟨_, (if_neg ones).trans ((if_pos least).trans (dif_pos zeros))⟩
      · exact .inr ⟨_, _, _, _, (if_neg ones).trans ((if_pos least).trans (dif_neg zeros))⟩
    · exact .inr ⟨_, _, _, _, (if_neg ones).trans (if_neg least)⟩

theorem isNaN_iff (x : Float) :
    x.isNaN = true ↔ exponentBits x = -1#11 ∧ mantissaBits x ≠ 0#52 := by
  change x.toModel.unpack.isNaN = true ↔ _
  rcases unpack_cases x with ⟨-, zeros, sign, same⟩ | ⟨ones, some, same⟩ |
    ⟨others, ⟨sign, same⟩ | ⟨sign, mantissa, exponent, some, same⟩⟩ <;> rw [same]
  · exact iff_of_false nofun fun own => own.2 zeros
  · exact iff_of_true rfl ⟨ones, some⟩
  · exact iff_of_false nofun fun own => others own.1
  · exact iff_of_false nofun fun own => others own.1

theorem isInf_iff (x : Float) :
    x.isInf = true ↔ exponentBits x = -1#11 ∧ mantissaBits x = 0#52 := by
  change x.toModel.unpack.isInf = true ↔ _
  rcases unpack_cases x with ⟨ones, zeros, sign, same⟩ | ⟨ones, some, same⟩ |
    ⟨others, ⟨sign, same⟩ | ⟨sign, mantissa, exponent, some, same⟩⟩ <;> rw [same]
  · exact iff_of_true rfl ⟨ones, zeros⟩
  · exact iff_of_false nofun fun own => some own.2
  · exact iff_of_false nofun fun own => others own.1
  · exact iff_of_false nofun fun own => others own.1

theorem exponentField_ne_of_isFinite (x : Float) (finite : isFinite x = true) :
    ((x.toBits >>> 52) &&& 0x7FF).toNat ≠ 2047 := by
  intro field
  have ones : exponentBits x = -1#11 := by
    apply BitVec.eq_of_toNat_eq
    rw [toNat_exponentBits, ← Nat.shiftRight_eq_div_pow, ← Nat.and_two_pow_sub_one_eq_mod]
    exact field
  obtain ⟨number, bounded⟩ : ¬ x.isNaN = true ∧ ¬ x.isInf = true := by
    simpa [isFinite] using finite
  rw [isNaN_iff] at number
  rw [isInf_iff] at bounded
  exact number ⟨ones, fun zeros => bounded ⟨ones, zeros⟩⟩

theorem mantissa_ofBits_lt (bits : UInt64) : (Binary.ofBits bits).mantissa < 2 ^ 53 := by
  have fraction : (bits &&& 0xFFFFFFFFFFFFF).toNat < 2 ^ 52 := by
    rw [UInt64.toNat_and, show (0xFFFFFFFFFFFFF : UInt64).toNat = 2 ^ 52 - 1 from rfl,
      Nat.and_two_pow_sub_one_eq_mod]
    exact Nat.mod_lt _ (by decide)
  simp only [Binary.ofBits]
  split
  · simp only; omega
  · simp only [twoTo, Nat.pow_eq]; omega

theorem exponent_ofFloat_le (x : Float) (finite : isFinite x = true) :
    (Binary.ofFloat x).exponent ≤ 971 := by
  have field : ((x.toBits >>> 52) &&& 0x7FF).toNat < 2048 := by
    rw [UInt64.toNat_and, show (0x7FF : UInt64).toNat = 2 ^ 11 - 1 from rfl,
      Nat.and_two_pow_sub_one_eq_mod]
    exact Nat.mod_lt _ (by decide)
  have notOnes := exponentField_ne_of_isFinite x finite
  simp only [Binary.ofFloat, Binary.ofBits]
  split
  · simp
  · simp only; omega

theorem nearestEven_le {n q bits : Nat} (bound : n ≤ q * 2 ^ bits) : nearestEven n bits ≤ q := by
  have positive : 0 < 2 ^ bits := Nat.two_pow_pos bits
  have quotient : n / 2 ^ bits ≤ q := Nat.div_le_of_le_mul (by rwa [Nat.mul_comm])
  simp only [nearestEven, twoTo, Nat.pow_eq]
  split
  next => exact quotient
  next up =>
    rcases Nat.lt_or_ge (n / 2 ^ bits) q with below | above
    · exact below
    · -- At the bound itself nothing is left to round.
      have exact : n / 2 ^ bits = q := Nat.le_antisymm quotient above
      have split := Nat.div_add_mod n (2 ^ bits)
      rw [exact, Nat.mul_comm] at split
      omega

theorem nearestEven_le_of_lt_half (bound : 2 * n < (2 * q + 1) * 2 ^ bits) :
    nearestEven n bits ≤ q := by
  have positive : 0 < 2 ^ bits := Nat.two_pow_pos bits
  have split := Nat.div_add_mod n (2 ^ bits)
  have quotient : n / 2 ^ bits ≤ q := by
    apply Nat.le_of_lt_succ
    rw [Nat.div_lt_iff_lt_mul positive]
    linarith
  simp only [nearestEven, twoTo, Nat.pow_eq]
  split
  next => exact quotient
  next up =>
    rcases Nat.lt_or_ge (n / 2 ^ bits) q with below | above
    · exact below
    · have exact : n / 2 ^ bits = q := Nat.le_antisymm quotient above
      rw [exact, Nat.mul_comm] at split
      have : 2 * (n % 2 ^ bits) < 2 ^ bits := by linarith
      exact absurd (Or.inl this) up

theorem lt_two_pow_excessBits (n : Nat) : n < 2 ^ (excessBits n + 53) := by
  rcases Nat.eq_zero_or_pos n with rfl | positive
  · exact Nat.two_pow_pos _
  · have := Nat.lt_log2_self (n := n)
    apply Nat.lt_of_lt_of_le this
    apply Nat.pow_le_pow_right (by decide)
    simp only [excessBits, Nat.pos_iff_ne_zero.mp positive, if_false]
    omega

theorem two_pow_excessBits_le (positive : 0 < excessBits n) : 2 ^ (excessBits n + 52) ≤ n := by
  have nonzero : n ≠ 0 := by
    rintro rfl
    simp [excessBits] at positive
  apply Nat.le_trans (Nat.pow_le_pow_right (by decide) _) (Nat.log2_self_le nonzero)
  simp only [excessBits, nonzero, if_false] at positive ⊢
  omega

/-- A floor stays within an integer bound that its argument keeps. The argument is
`s * 2 ^ (up - down)`. -/
theorem natAbs_floorScaled_le {s : Int} {up down b : Nat}
    (bound : s.natAbs * 2 ^ up ≤ b * 2 ^ down) :
    (floorScaled s ((up : Int) - down)).natAbs ≤ b := by
  simp only [floorScaled, twoTo, Nat.pow_eq]
  split
  next wide =>
    obtain ⟨gap, rfl⟩ := Nat.exists_eq_add_of_le (show down ≤ up by omega)
    rw [show ((down + gap : Nat) : Int) - down = gap by omega, Int.toNat_natCast, Int.natAbs_mul,
      Int.natAbs_natCast]
    rw [Nat.pow_add, Nat.mul_left_comm, Nat.mul_comm (2 ^ down)] at bound
    exact Nat.le_of_mul_le_mul_right bound (Nat.two_pow_pos down)
  next narrow =>
    obtain ⟨gap, rfl⟩ := Nat.exists_eq_add_of_le (show up ≤ down by omega)
    rw [show -((up : Int) - ((up + gap : Nat) : Int)) = gap by omega, Int.toNat_natCast]
    have scaled : s.natAbs ≤ b * 2 ^ gap := by
      rw [Nat.pow_add, Nat.mul_left_comm, Nat.mul_comm (2 ^ up)] at bound
      exact Nat.le_of_mul_le_mul_right bound (Nat.two_pow_pos up)
    have positive : (0 : Int) < (2 ^ gap : Nat) := by exact_mod_cast Nat.two_pow_pos gap
    have magnitude : (s.natAbs : Int) ≤ b * (2 ^ gap : Nat) := by exact_mod_cast scaled
    have upper : s ≤ b * (2 ^ gap : Nat) := by omega
    have lower : -(b : Int) * (2 ^ gap : Nat) ≤ s := by rw [Int.neg_mul]; omega
    have above : s.fdiv (2 ^ gap : Nat) ≤ b := by
      rw [Int.fdiv_eq_ediv_of_nonneg _ positive.le]
      exact Int.ediv_le_of_le_mul positive upper
    have below : -(b : Int) ≤ s.fdiv (2 ^ gap : Nat) := by
      rw [Int.fdiv_eq_ediv_of_nonneg _ positive.le]
      exact (Int.le_ediv_iff_mul_le positive).mpr lower
    omega

/-- The double nearest to a whole number, or to a whole multiple of a power of two. -/
def rounded (n : Nat) : Nat := nearestEven n (excessBits n) * 2 ^ excessBits n

theorem rounded_le_double (n : Nat) : rounded n ≤ 2 * n := by
  rw [rounded]
  rcases Nat.eq_zero_or_pos (excessBits n) with none | some
  · have := nearestEven_le (show n ≤ n * 2 ^ 0 by simp)
    rw [none]
    omega
  · have split := Nat.div_add_mod n (2 ^ excessBits n)
    have remainder := Nat.mod_lt n (Nat.two_pow_pos (excessBits n))
    have up : nearestEven n (excessBits n) ≤ n / 2 ^ excessBits n + 1 := by
      apply nearestEven_le
      rw [Nat.add_mul, Nat.mul_comm (n / _)]
      omega
    have wide : 2 ^ excessBits n ≤ n :=
      (Nat.pow_le_pow_right (by decide) (by omega)).trans (two_pow_excessBits_le some)
    calc nearestEven n (excessBits n) * 2 ^ excessBits n
        ≤ (n / 2 ^ excessBits n + 1) * 2 ^ excessBits n := Nat.mul_le_mul_right _ up
      _ = 2 ^ excessBits n * (n / 2 ^ excessBits n) + 2 ^ excessBits n := by ring
      _ ≤ 2 * n := by omega

theorem rounded_le_greatest (bound : n ≤ (2 ^ 53 - 1) * 2 ^ 972 + 1) :
    rounded n ≤ (2 ^ 53 - 1) * 2 ^ 972 := by
  rw [rounded]
  generalize excess : excessBits n = k
  have within := lt_two_pow_excessBits n
  rw [excess] at within
  rcases Nat.lt_trichotomy k 972 with small | rfl | large
  · have up : nearestEven n k ≤ 2 ^ 53 := by
      apply nearestEven_le
      rw [Nat.pow_add, Nat.mul_comm] at within
      exact within.le
    calc nearestEven n k * 2 ^ k
        ≤ 2 ^ 53 * 2 ^ 971 :=
          Nat.mul_le_mul up (Nat.pow_le_pow_right (by decide) (by omega))
      _ ≤ (2 ^ 53 - 1) * 2 ^ 972 := by decide +kernel
  · apply Nat.mul_le_mul_right
    apply nearestEven_le_of_lt_half
    exact Nat.lt_of_le_of_lt (Nat.mul_le_mul_left 2 bound) (by decide +kernel)
  · have := two_pow_excessBits_le (n := n) (by omega)
    have power : 2 ^ 1025 ≤ 2 ^ (excessBits n + 52) :=
      pow_le_pow_right₀ one_le_two (by omega)
    have top : (2 ^ 53 - 1) * 2 ^ 972 + 1 < 2 ^ 1025 := by decide +kernel
    exact absurd (power.trans (this.trans bound)) (Nat.not_le_of_lt top)

theorem natAbs_signed (b : Binary) : b.signed.natAbs = b.mantissa := by
  rw [Binary.signed]
  split <;> simp

theorem natAbs_roundHalfUp_le {b : Binary} {d bound : Nat}
    (scale : b.sumWithHalf.2 = -(d : Int))
    (within : rounded b.sumWithHalf.1.natAbs ≤ bound * 2 ^ d) :
    b.roundHalfUp.natAbs ≤ bound := by
  simp only [Binary.roundHalfUp]
  rw [scale, Int.add_comm, ← Int.sub_eq_add_neg]
  apply natAbs_floorScaled_le
  rw [rounded] at within
  split <;> simpa using within

theorem sumWithHalf_eq (b : Binary) (lowest : min b.exponent (-1) = e) :
    b.sumWithHalf =
      (b.signed * (2 ^ (b.exponent - e).toNat : Nat) + (2 ^ (-1 - e).toNat : Nat), e) := by
  subst lowest
  rfl

theorem natAbs_roundHalfUp_lt {b : Binary} (mantissa : b.mantissa < 2 ^ 53)
    (exponent : b.exponent ≤ 971) : b.roundHalfUp.natAbs < overflowBound := by
  have sign := natAbs_signed b
  rcases Int.lt_or_le b.exponent 0 with negative | whole
  · -- Below one the sum has the exponent of the number, and it stays far from the bound.
    obtain ⟨down, same⟩ : ∃ down : Nat, b.exponent = -(down : Int) :=
      ⟨b.exponent.natAbs, by omega⟩
    have lowest : min b.exponent (-1) = -(down : Int) := by omega
    have half : 2 ^ (-1 - -(down : Int)).toNat ≤ 2 ^ down :=
      Nat.pow_le_pow_right (by decide) (by omega)
    have sum : b.sumWithHalf.1.natAbs ≤ 2 ^ 53 + 2 ^ down := by
      rw [sumWithHalf_eq b lowest, same, Int.sub_self, Int.toNat_zero, Nat.pow_zero, Nat.cast_one,
        Int.mul_one]
      have := Int.natAbs_add_le b.signed (2 ^ (-1 - -(down : Int)).toNat : Nat)
      rw [Int.natAbs_natCast, sign] at this
      omega
    have result : b.roundHalfUp.natAbs ≤ 2 ^ 55 := by
      apply natAbs_roundHalfUp_le (d := down)
      · rw [sumWithHalf_eq b lowest]
      · have one := Nat.one_le_two_pow (n := down)
        have := rounded_le_double b.sumWithHalf.1.natAbs
        omega
    exact Nat.lt_of_le_of_lt result (by decide +kernel)
  · have lowest : min b.exponent (-1) = -1 := by omega
    have power : 2 ^ (b.exponent - -1).toNat ≤ 2 ^ 972 :=
      pow_le_pow_right₀ one_le_two (by omega)
    have sum : b.sumWithHalf.1.natAbs ≤ (2 ^ 53 - 1) * 2 ^ 972 + 1 := by
      rw [sumWithHalf_eq b lowest, Int.sub_self, Int.toNat_zero, Nat.pow_zero, Nat.cast_one]
      have := Int.natAbs_add_le (b.signed * (2 ^ (b.exponent - -1).toNat : Nat)) 1
      rw [Int.natAbs_mul, Int.natAbs_natCast, sign] at this
      apply this.trans
      exact Nat.add_le_add_right (Nat.mul_le_mul (by omega) power) 1
    have result : b.roundHalfUp.natAbs ≤ (2 ^ 53 - 1) * 2 ^ 971 := by
      apply natAbs_roundHalfUp_le (d := 1)
      · rw [sumWithHalf_eq b lowest]
        rfl
      · exact (rounded_le_greatest sum).trans (by decide +kernel)
    exact Nat.lt_of_le_of_lt result (by decide +kernel)

theorem roundHalfUp_eq_ok {x : Float} (finite : isFinite x = true) :
    roundHalfUp x = .ok (Binary.ofFloat x).roundHalfUp := by
  simp only [isFinite, Bool.and_eq_true, Bool.not_eq_true'] at finite
  simp only [roundHalfUp, finite.1, finite.2, Bool.false_eq_true, if_false]

theorem roundHalfUp_of_isFinite (x : Float) (finite : isFinite x = true) :
    ∃ n p, roundHalfUp x = .ok n ∧ ofInt? n = some p ∧ n.natAbs < overflowBound := by
  have small := natAbs_roundHalfUp_lt (b := Binary.ofFloat x) (mantissa_ofBits_lt _)
    (exponent_ofFloat_le x finite)
  exact ⟨_, _, roundHalfUp_eq_ok finite, by rw [ofInt?, if_pos small], small⟩

theorem isFinite_of_roundHalfUp {x : Float} (rounds : roundHalfUp x = .ok n) :
    isFinite x = true := by
  rw [roundHalfUp] at rounds
  split at rounds
  · contradiction
  next number =>
    split at rounds
    · contradiction
    next bounded =>
      rw [Bool.not_eq_true] at number bounded
      rw [isFinite, number, bounded]
      rfl

theorem natAbs_lt_of_roundHalfUp {x : Float} (rounds : roundHalfUp x = .ok n) :
    n.natAbs < overflowBound := by
  obtain ⟨m, -, rounded, -, small⟩ := roundHalfUp_of_isFinite x (isFinite_of_roundHalfUp rounds)
  obtain rfl := Except.ok.inj (rounds.symm.trans rounded)
  exact small

theorem ofInt?_eq_none_iff {n : Int} : ofInt? n = none ↔ overflowBound ≤ n.natAbs := by
  rw [ofInt?]
  split
  next small => simpa using small
  next large => simpa using large

end EERDiagram.Decimal
