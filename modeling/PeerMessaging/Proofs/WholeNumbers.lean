import PeerMessaging.Number.Binary
import Mathlib
/-!
Whole numbers below `2^53` as binary64 numbers. Such a number is exact: its bits fill a 53-bit
mantissa, rounding keeps it, and packing it into its fields and reading it back loses nothing.
Comparing, adding and cutting such numbers is therefore comparing, adding and cutting the whole
numbers, which is what byte counts held as numbers rely on.

The facts are read off the logical model of binary64 arithmetic that the numbers compute by.
-/

open Float.Model Float.Model.UnpackedFloat

namespace PeerMessaging.Number

def gap (n : Nat) : Nat := 52 - n.log2

theorem shiftLeft_pos {n : Nat} (k : Nat) (h : n ≠ 0) : 0 < n <<< k := by
  rw [Nat.shiftLeft_eq]
  exact Nat.mul_pos (Nat.pos_of_ne_zero h) (Nat.two_pow_pos k)

def wholeForm (n : Nat) : UnpackedFloat :=
  if h : n = 0 then .zero .positive
  else .finite .positive (n <<< gap n) (-(gap n : Int)) (shiftLeft_pos _ h)

theorem log2_shiftLeft {n : Nat} (k : Nat) (h : n ≠ 0) : (n <<< k).log2 = n.log2 + k := by
  have low := Nat.log2_self_le h
  have high := @Nat.lt_log2_self n
  rw [Nat.log2_eq_iff (Nat.ne_of_gt (shiftLeft_pos k h)), Nat.shiftLeft_eq, Nat.pow_add,
    Nat.add_right_comm, Nat.pow_add]
  constructor
  · exact Nat.mul_le_mul_right _ low
  · exact Nat.mul_lt_mul_of_pos_right high (Nat.two_pow_pos k)

theorem log2_le_of_small {n : Nat} (h : n ≠ 0) (small : n < 2 ^ 53) : n.log2 ≤ 52 := by
  have := (Nat.log2_lt h).mpr small
  omega

theorem shiftRight_shiftLeft (m : Nat) {i k : Nat} (h : i ≤ k) :
    (⟨m <<< k, false, false⟩ : ExtendedMantissa) >>> i = ⟨m <<< (k - i), false, false⟩ := by
  induction i with
  | zero => rfl
  | succ i ih =>
    show ExtendedMantissa.shiftRightOne ((⟨m <<< k, false, false⟩ : ExtendedMantissa) >>> i) = _
    rw [ih (by omega)]
    have split : m <<< (k - i) = (m <<< (k - (i + 1))) * 2 := by
      rw [Nat.shiftLeft_eq, Nat.shiftLeft_eq, Nat.mul_assoc, ← Nat.pow_succ]
      congr 2
      omega
    simp only [ExtendedMantissa.shiftRightOne, split, Nat.mul_mod_left, Nat.mul_div_cancel _ (by decide : 0 < 2)]
    rfl

section Whole

variable {v : Nat} (pos : v ≠ 0) (small : v < 2 ^ 53)
include pos small

theorem targetExponent_whole (j : Nat) :
    Format.binary64.targetExponent (totalExponent (v <<< j) (-(j : Int))) = -(gap v : Int) := by
  have top := log2_le_of_small pos small
  have minimum : Format.binary64.minExponent = -1074 := by decide
  have bits : Format.binary64.mantissaBits = 53 := rfl
  simp only [Format.targetExponent, totalExponent, log2_shiftLeft j pos, minimum, bits, gap]
  omega

theorem shiftToTargetExponent_whole {j : Nat} (enough : gap v ≤ j) :
    shiftToTargetExponent Format.binary64 (v <<< j) (-(j : Int)) .exact =
      (⟨v <<< gap v, false, false⟩, -(gap v : Int)) := by
  simp only [shiftToTargetExponent, targetExponent_whole pos small, shiftToExponent,
    ExtendedMantissa.ofMantissaAndAccuracy]
  have shift : (-(gap v : Int) - -(j : Int)).toNat = j - gap v := by omega
  rw [shift, shiftRight_shiftLeft v (Nat.sub_le j (gap v))]
  have rest : j - (j - gap v) = gap v := by omega
  rw [rest]
  congr 1
  omega

theorem roundWithAccuracy_whole {j : Nat} (enough : gap v ≤ j) :
    roundWithAccuracy Format.binary64 .positive (v <<< j) (-(j : Int)) .exact = wholeForm v := by
  have again := shiftToTargetExponent_whole (j := gap v) pos small (Nat.le_refl _)
  simp only [roundWithAccuracy, shiftToTargetExponent_whole pos small enough,
    ExtendedMantissa.roundedMantissa, ExtendedMantissa.accuracy, Accuracy.roundToNearestEven, again]
  simp [wholeForm, pos, Nat.ne_of_gt (shiftLeft_pos (gap v) pos)]

theorem round_whole (j : Nat) :
    UnpackedFloat.round Format.binary64 .positive (v <<< j) (-(j : Int)) = wholeForm v := by
  simp only [UnpackedFloat.round, targetExponent_whole pos small, decreaseExponent]
  by_cases enough : gap v ≤ j
  · have still : (-(j : Int) - -(gap v : Int)).toNat = 0 := by omega
    rw [still, Nat.shiftLeft_zero, Int.natCast_zero, Int.sub_zero]
    exact roundWithAccuracy_whole pos small enough
  · have up : (-(j : Int) - -(gap v : Int)).toNat = gap v - j := by omega
    rw [up, ← Nat.shiftLeft_add]
    have sum : j + (gap v - j) = gap v := by omega
    have exp : -(j : Int) - ((gap v - j : Nat) : Int) = -((gap v : Nat) : Int) := by omega
    rw [sum, exp]
    exact roundWithAccuracy_whole pos small (Nat.le_refl _)

/-- A whole number below `2^53` packs as a normal number: its exponent field is `1023` more than
the place of its top bit, and its fraction field holds the bits below that one. -/
theorem pack_whole :
    pack Format.binary64 (wholeForm v) =
      packComponents Format.binary64 .positive (BitVec.ofNat 11 (1023 + v.log2))
        (BitVec.ofNat 52 (v <<< gap v)) := by
  have top := log2_le_of_small pos small
  have bits : (v <<< gap v).log2 = 52 := by
    rw [log2_shiftLeft _ pos]
    unfold gap
    omega
  have bias : Format.binary64.exponentBias = 1023 := rfl
  have biased : (-(gap v : Int) + (Format.binary64.exponentBias : Int) +
      (Format.binary64.mantissaBitsWithoutImplicit : Int)).toNat = 1023 + v.log2 := by
    have fraction : Format.binary64.mantissaBitsWithoutImplicit = 52 := rfl
    rw [bias, fraction]
    unfold gap
    omega
  simp only [wholeForm, pos, dite_false, UnpackedFloat.pack, bits, biased]
  rw [if_neg (show ¬ 2 ^ 11 ≤ 1023 + v.log2 + 1 by omega), if_pos (by decide)]

end Whole

theorem unpackSign_packComponents {sign : Sign} {exponent : BitVec 11} {mantissa : BitVec 52} :
    unpackSign (packComponents Format.binary64 sign exponent mantissa) = sign.toBitVec := by
  ext i hi
  simp [unpackSign, packComponents]
  obtain rfl : i = 0 := by omega
  -- the sign is the top bit, above the eleven exponent bits and the fifty-two fraction bits
  rw [BitVec.getLsbD_append, if_neg (by decide), BitVec.getLsbD_append, if_neg (by decide)]
  simp [BitVec.getLsbD_eq_getElem]

/-- A whole number below `2^53` reads back from its packed bits. -/
theorem unpack_pack_whole {v : Nat} (small : v < 2 ^ 53) :
    unpack Format.binary64 (pack Format.binary64 (wholeForm v)) = wholeForm v := by
  by_cases pos : v = 0
  · subst pos
    rfl
  have top := log2_le_of_small pos small
  have mantissa := Nat.lt_log2_self (n := v <<< gap v)
  have low := Nat.log2_self_le (Nat.ne_of_gt (shiftLeft_pos (gap v) pos))
  rw [log2_shiftLeft _ pos, show v.log2 + gap v = 52 by unfold gap; omega] at mantissa low
  rw [pack_whole pos small]
  simp only [UnpackedFloat.unpack, unpackMantissa_packComponents, unpackExponent_packComponents,
    unpackSign_packComponents]
  have notAllOnes : BitVec.ofNat 11 (1023 + v.log2) ≠ -1#11 := by
    intro same
    have := congrArg BitVec.toNat same
    simp only [BitVec.toNat_ofNat, BitVec.toNat_neg] at this
    omega
  have notZero : BitVec.ofNat 11 (1023 + v.log2) ≠ 0#11 := by
    intro same
    have := congrArg BitVec.toNat same
    simp only [BitVec.toNat_ofNat] at this
    omega
  rw [if_neg notAllOnes, if_neg notZero]
  -- the fraction field regains its top bit, and the exponent field loses its bias
  have whole : (1#1 ++ BitVec.ofNat 52 (v <<< gap v)).toNat = v <<< gap v := by
    have fraction := Nat.mod_lt (v <<< gap v) (Nat.two_pow_pos 52)
    rw [BitVec.toNat_append, BitVec.toNat_ofNat, BitVec.toNat_ofNat,
      ← Nat.shiftLeft_add_eq_or_of_lt fraction, Nat.shiftLeft_eq]
    omega
  have bias : Format.binary64.exponentBias = 1023 := rfl
  have exponent : ((BitVec.ofNat 11 (1023 + v.log2)).toNat : Int) -
      ((Format.binary64.exponentBias : Int) + ((52 : Nat) : Int)) = -(gap v : Int) := by
    rw [BitVec.toNat_ofNat, bias]
    unfold gap
    omega
  simp only [wholeForm, pos, dite_false, Sign.ofBitVec, Sign.toBitVec, if_pos, whole,
    exponent]

/-!
## Whole numbers as numbers

Below `2^53` a whole number read as a number is the packed form of the whole number.
-/

theorem one_form : (Float.ofBits 0x3FF0000000000000).toModel.unpack = wholeForm 1 := rfl

theorem toModel_toFloat {n : Nat} (small : n < 2 ^ 53) :
    n.toFloat.toModel = Float.Model.pack (wholeForm n) := by
  by_cases pos : n = 0
  · subst pos
    decide
  -- below `2^53` the count is read as itself times the exact power `10^0`
  have scaled : n.toFloat.toModel =
      n.toUInt64.toFloat.toModel * (Float.ofBits 0x3FF0000000000000).toModel := by
    show (Float.ofScientific n false 0).toModel = _
    unfold Float.ofScientific
    rw [dif_pos ⟨small, by decide⟩]
    rfl
  have exact : n.toUInt64.toFloat.toModel = Float.Model.pack (wholeForm n) := by
    show Float.Model.pack (UnpackedFloat.ofNat Format.binary64 n.toUInt64.toNat) = _
    rw [UInt64.toNat_ofNat', Nat.mod_eq_of_lt (by omega)]
    have above : compare (n : Int) 0 = .gt := Int.compare_eq_gt.mpr (by omega)
    simp only [UnpackedFloat.ofNat, UnpackedFloat.ofInt, UnpackedFloat.normalize, above, Int.toNat_natCast]
    rw [← round_whole pos small 0, Nat.shiftLeft_zero]
    rfl
  rw [scaled, exact]
  show Float.Model.pack (UnpackedFloat.mul Format.binary64
    (UnpackedFloat.unpack Format.binary64 (UnpackedFloat.pack Format.binary64 (wholeForm n)))
    (Float.ofBits 0x3FF0000000000000).toModel.unpack) = _
  rw [unpack_pack_whole small, one_form]
  simp only [wholeForm, pos, dite_false, Nat.one_ne_zero, UnpackedFloat.mul]
  -- times one is a mantissa moved up by 52 places and an exponent moved down as far
  have unit : gap 1 = 52 := rfl
  have product : (n <<< gap n) * (1 <<< gap 1) = n <<< (gap n + 52) := by
    rw [unit, Nat.shiftLeft_eq, Nat.shiftLeft_eq, Nat.shiftLeft_eq, Nat.one_mul, Nat.pow_add,
      Nat.mul_assoc]
  have exponent : -(gap n : Int) + -(gap 1 : Int) = -((gap n + 52 : Nat) : Int) := by
    rw [unit]
    omega
  rw [product, exponent, show Sign.positive * Sign.positive = Sign.positive from rfl,
    roundWithAccuracy_whole pos small (Nat.le_add_right _ _)]
  simp [wholeForm, pos]

theorem unpack_toFloat {n : Nat} (small : n < 2 ^ 53) : n.toFloat.toModel.unpack = wholeForm n := by
  rw [toModel_toFloat small]
  exact unpack_pack_whole small

theorem lt_of_log2_lt {a b : Nat} (below : a.log2 < b.log2) (nonzero : b ≠ 0) : a < b := by
  calc a < 2 ^ (a.log2 + 1) := Nat.lt_log2_self
    _ ≤ 2 ^ b.log2 := Nat.pow_le_pow_right (by decide) below
    _ ≤ b := Nat.log2_self_le nonzero

theorem compare_shiftLeft (a b k : Nat) : compare (a <<< k) (b <<< k) = compare a b := by
  rw [Nat.shiftLeft_eq, Nat.shiftLeft_eq]
  have scale := Nat.two_pow_pos k
  rcases Nat.lt_trichotomy a b with lt | same | gt
  · rw [Nat.compare_eq_lt.mpr lt, Nat.compare_eq_lt.mpr (Nat.mul_lt_mul_of_pos_right lt scale)]
  · rw [same, Nat.compare_eq_eq.mpr rfl, Nat.compare_eq_eq.mpr rfl]
  · rw [Nat.compare_eq_gt.mpr gt, Nat.compare_eq_gt.mpr (Nat.mul_lt_mul_of_pos_right gt scale)]

/-- Whole numbers below `2^53` compare as their counts. -/
theorem compare_wholeForm {a b : Nat} (sa : a < 2 ^ 53) (sb : b < 2 ^ 53) :
    (wholeForm a).compare (wholeForm b) = some (compare a b) := by
  by_cases a0 : a = 0 <;> by_cases b0 : b = 0
  · subst a0 b0
    rfl
  · subst a0
    simp only [wholeForm, b0, dite_false, dite_true, UnpackedFloat.compare]
    exact congrArg some (Nat.compare_eq_lt.mpr (Nat.pos_of_ne_zero b0)).symm
  · subst b0
    simp only [wholeForm, a0, dite_false, dite_true, UnpackedFloat.compare]
    exact congrArg some (Nat.compare_eq_gt.mpr (Nat.pos_of_ne_zero a0)).symm
  · simp only [wholeForm, a0, b0, dite_false, UnpackedFloat.compare, Option.some.injEq]
    have topA := log2_le_of_small a0 sa
    have topB := log2_le_of_small b0 sb
    -- the top bit decides first, then the mantissas, which then sit at the same place
    rcases Nat.lt_trichotomy a.log2 b.log2 with below | same | above
    · have first : compare (-(gap a : Int)) (-(gap b : Int)) = .lt := by
        rw [Int.compare_eq_lt]
        unfold gap
        omega
      rw [first, Nat.compare_eq_lt.mpr (lt_of_log2_lt below b0)]
      rfl
    · have level : gap a = gap b := by
        unfold gap
        omega
      rw [level, Int.compare_eq_eq.mpr rfl, ← level, compare_shiftLeft]
      rfl
    · have first : compare (-(gap a : Int)) (-(gap b : Int)) = .gt := by
        rw [Int.compare_eq_gt]
        unfold gap
        omega
      rw [first, Nat.compare_eq_gt.mpr (lt_of_log2_lt above a0)]
      rfl

theorem lt_iff_unpack {x y : Float} : x < y ↔ x.toModel.unpack.lt y.toModel.unpack = true := by
  show Float.lt x y = true ↔ _
  unfold Float.lt
  rw [decide_eq_true_iff]
  rfl

theorem le_iff_unpack {x y : Float} : x ≤ y ↔ x.toModel.unpack.le y.toModel.unpack = true := by
  show Float.le x y = true ↔ _
  unfold Float.le
  rw [decide_eq_true_iff]
  rfl

section Counts

variable {a b : Nat} (sa : a < 2 ^ 53) (sb : b < 2 ^ 53)
include sa sb

theorem toFloat_lt_toFloat : a.toFloat < b.toFloat ↔ a < b := by
  rw [lt_iff_unpack, unpack_toFloat sa, unpack_toFloat sb]
  simp [UnpackedFloat.lt, compare_wholeForm sa sb, Nat.compare_eq_lt]

theorem toFloat_le_toFloat : a.toFloat ≤ b.toFloat ↔ a ≤ b := by
  rw [le_iff_unpack, unpack_toFloat sa, unpack_toFloat sb]
  simp [UnpackedFloat.le, compare_wholeForm sa sb, Nat.isLE_compare]

end Counts

section Count

variable {n : Nat} (small : n < 2 ^ 53)
include small

theorem isNaN_toFloat : n.toFloat.isNaN = false := by
  show n.toFloat.toModel.unpack.isNaN = false
  rw [unpack_toFloat small]
  unfold wholeForm
  split <;> rfl

theorem abs_toFloat : n.toFloat.abs = n.toFloat := by
  show Float.ofModel (Float.Model.pack n.toFloat.toModel.unpack.abs) = n.toFloat
  have positive : (wholeForm n).abs = wholeForm n := by
    unfold wholeForm
    split <;> rfl
  rw [unpack_toFloat small, positive, ← toModel_toFloat small]

end Count

/-- Two whole numbers add exactly when their sum stays below `2^53`. -/
theorem add_wholeForm {a b : Nat} (sum : a + b < 2 ^ 53) :
    UnpackedFloat.add Format.binary64 (wholeForm a) (wholeForm b) = wholeForm (a + b) := by
  by_cases a0 : a = 0 <;> by_cases b0 : b = 0
  · subst a0 b0
    rfl
  · subst a0
    simp only [wholeForm, b0, dite_false, dite_true, UnpackedFloat.add, Nat.zero_add]
  · subst b0
    simp only [wholeForm, a0, dite_false, dite_true, UnpackedFloat.add, Nat.add_zero]
  · have both : a + b ≠ 0 := by omega
    rw [show wholeForm (a + b) = _ from rfl]
    conv => lhs; simp only [wholeForm, a0, b0, dite_false, UnpackedFloat.add]
    -- both mantissas move up to the smaller exponent, where they add as whole numbers
    obtain ⟨G, hG⟩ : ∃ G, G = max (gap a) (gap b) := ⟨_, rfl⟩
    have least : min (-(gap a : Int)) (-(gap b : Int)) = -(G : Int) := by omega
    have aligned (x : Nat) (within : gap x ≤ G) :
        decreaseExponent (x <<< gap x) (-(gap x : Int)) (-(G : Int)) = (x <<< G, -(G : Int)) := by
      have shift : (-(gap x : Int) - -(G : Int)).toNat = G - gap x := by omega
      simp only [decreaseExponent, shift, ← Nat.shiftLeft_add, Nat.add_sub_cancel' within]
      congr 1
      omega
    have added : ((a <<< G : Nat) : Int) + ((b <<< G : Nat) : Int) = (((a + b) <<< G : Nat) : Int) := by
      simp only [Nat.shiftLeft_eq, Nat.add_mul, Int.natCast_add]
    have above : compare (((a + b) <<< G : Nat) : Int) 0 = .gt :=
      Int.compare_eq_gt.mpr (by have := shiftLeft_pos G both; omega)
    rw [least, aligned a (by omega), aligned b (by omega)]
    simp only [Sign.apply, added, UnpackedFloat.normalize, above, Int.toNat_natCast]
    exact round_whole both sum _

theorem toFloat_add_toFloat {a b : Nat} (sum : a + b < 2 ^ 53) :
    a.toFloat + b.toFloat = (a + b).toFloat := by
  show Float.ofModel (Float.Model.pack
    (UnpackedFloat.add Format.binary64 a.toFloat.toModel.unpack b.toFloat.toModel.unpack)) = _
  rw [unpack_toFloat (by omega), unpack_toFloat (by omega), add_wholeForm sum,
    ← toModel_toFloat sum]

/-!
## The fields of a whole number

Below `2^53` a positive whole number is a normal number whose significand is its bits moved up to
53 places and whose exponent moves them back, so its whole part is itself.
-/

section Fields

variable {n : Nat} (pos : n ≠ 0) (small : n < 2 ^ 53)
include pos small

theorem toBits_toFloat :
    n.toFloat.toBits.toNat = (1023 + n.log2) * 2 ^ 52 + (n <<< gap n) % 2 ^ 52 := by
  have top := log2_le_of_small pos small
  rw [show n.toFloat.toBits = n.toFloat.toModel.toBits from rfl, toModel_toFloat small]
  show (UnpackedFloat.pack Format.binary64 (wholeForm n)).toNat = _
  rw [pack_whole pos small]
  have fraction := Nat.mod_lt (n <<< gap n) (Nat.two_pow_pos 52)
  simp only [packComponents, BitVec.toNat_append, BitVec.toNat_ofNat, Sign.toBitVec]
  have biased : (1023 + n.log2) % 2 ^ 11 = 1023 + n.log2 := Nat.mod_eq_of_lt (by omega)
  rw [biased, show (0 % 2 ^ 1) <<< 11 = 0 from rfl, Nat.zero_or,
    ← Nat.shiftLeft_add_eq_or_of_lt fraction, Nat.shiftLeft_eq]

theorem exponentField_toFloat : exponentField n.toFloat = 1023 + n.log2 := by
  have top := log2_le_of_small pos small
  have fraction := Nat.mod_lt (n <<< gap n) (Nat.two_pow_pos 52)
  unfold exponentField
  rw [UInt64.toNat_shiftRight, toBits_toFloat pos small, Nat.shiftRight_eq_div_pow]
  simp only [UInt64.reduceToNat, Nat.reduceMod]
  omega

theorem significand_toFloat : significand n.toFloat = n <<< gap n := by
  have top := log2_le_of_small pos small
  have mantissa := Nat.lt_log2_self (n := n <<< gap n)
  have low := Nat.log2_self_le (Nat.ne_of_gt (shiftLeft_pos (gap n) pos))
  rw [log2_shiftLeft _ pos, show n.log2 + gap n = 52 by unfold gap; omega] at mantissa low
  unfold significand fractionField fractionBits
  rw [exponentField_toFloat pos small, if_neg (by omega), toBits_toFloat pos small]
  simp only [Nat.pow_eq]
  omega

theorem exponent_toFloat : exponent n.toFloat = -(gap n : Int) := by
  have top := log2_le_of_small pos small
  unfold exponent
  rw [exponentField_toFloat pos small, if_neg (by omega)]
  unfold gap
  omega

theorem wholePart_toFloat : wholePart n.toFloat = n := by
  unfold wholePart
  rw [exponent_toFloat pos small, significand_toFloat pos small, Nat.shiftLeft_eq]
  split
  · next whole =>
    have none : gap n = 0 := by omega
    simp [none]
  · simp only [Int.neg_neg, Int.toNat_natCast, Nat.pow_eq]
    exact Nat.mul_div_cancel n (Nat.two_pow_pos _)

end Fields

/-- A whole number below `2^53` bounds a slice at itself, clamped to the slice's length. -/
theorem sliceBound_toFloat {n len : Nat} (small : n < 2 ^ 53) (fits : len < 2 ^ 53) :
    sliceBound n.toFloat len = min n len := by
  have one : (1 : Float) = (1 : Nat).toFloat := rfl
  have zero : (0 : Float) = (0 : Nat).toFloat := rfl
  unfold sliceBound
  rw [isNaN_toFloat small, abs_toFloat small, one, zero]
  simp only [Bool.false_or, decide_eq_true_eq, toFloat_lt_toFloat small (show 1 < 2 ^ 53 by decide),
    toFloat_lt_toFloat small (show 0 < 2 ^ 53 by decide), ge_iff_le, toFloat_le_toFloat fits small,
    Nat.not_lt_zero, if_false]
  by_cases n0 : n = 0
  · simp [n0]
  · rw [if_neg (show ¬ n < 1 by omega)]
    split
    · next reaches => exact (Nat.min_eq_right reaches).symm
    · next short => rw [wholePart_toFloat n0 small, Nat.min_eq_left (by omega)]

end PeerMessaging.Number