import PeerMessaging.Proofs.Nearest
/-!
# The fields of a binary64 number

A number's bit pattern is its sign, its biased exponent and its fraction. Unpacking a pattern and
packing it again gives the pattern back, every not-a-number being the canonical one, so a number
is determined by its fields: a finite nonzero number is rebuilt by `ofParts` from its sign,
significand and exponent, and these form a legal pair. Finiteness and equality with zero are read
off the fields.
-/

open Float.Model Float.Model.UnpackedFloat

namespace PeerMessaging.Number

theorem unpackExponent_toNat (b : BitVec 64) :
    (@unpackExponent Format.binary64 b).toNat = b.toNat / 2 ^ 52 % 2 ^ 11 := by
  simp [unpackExponent, BitVec.extractLsb, BitVec.extractLsb', Nat.shiftRight_eq_div_pow]

theorem unpackMantissa_toNat (b : BitVec 64) :
    (@unpackMantissa Format.binary64 b).toNat = b.toNat % 2 ^ 52 := by
  simp [unpackMantissa, BitVec.extractLsb, BitVec.extractLsb']

theorem unpackSign_toNat (b : BitVec 64) :
    (@unpackSign Format.binary64 b).toNat = b.toNat / 2 ^ 63 := by
  have bound : b.toNat < 2 ^ 64 := b.isLt
  simp [unpackSign, BitVec.extractLsb, BitVec.extractLsb', Nat.shiftRight_eq_div_pow]
  omega

theorem toBitVec_ofBitVec (v : BitVec 1) : (Sign.ofBitVec v).toBitVec = v := by
  obtain ⟨⟨n, small⟩⟩ := v
  unfold Sign.ofBitVec
  interval_cases n <;> rfl

theorem toNat_packComponents (s : Sign) (e : BitVec 11) (m : BitVec 52) :
    (packComponents Format.binary64 s e m).toNat = s.toBitVec.toNat * 2 ^ 63 + e.toNat * 2 ^ 52 + m.toNat := by
  have low := m.isLt
  have mid := e.isLt
  simp only [packComponents, BitVec.toNat_append]
  rw [← Nat.shiftLeft_add_eq_or_of_lt mid, ← Nat.shiftLeft_add_eq_or_of_lt low, Nat.shiftLeft_eq,
    Nat.shiftLeft_eq]
  ring

theorem packComponents_fields (b : BitVec 64) :
    packComponents Format.binary64 (Sign.ofBitVec (@unpackSign Format.binary64 b))
      (unpackExponent b) (unpackMantissa b) = b := by
  have bound : b.toNat < 2 ^ 64 := b.isLt
  apply BitVec.eq_of_toNat_eq
  rw [toNat_packComponents, toBitVec_ofBitVec, unpackSign_toNat, unpackExponent_toNat,
    unpackMantissa_toNat]
  omega

theorem packComponents_of_fields {b : BitVec 64} {e : BitVec 11} {m : BitVec 52}
    (exponent : @unpackExponent Format.binary64 b = e)
    (mantissa : @unpackMantissa Format.binary64 b = m) :
    packComponents Format.binary64 (Sign.ofBitVec (@unpackSign Format.binary64 b)) e m = b := by
  rw [← exponent, ← mantissa, packComponents_fields]

/-- Packing what unpacking gives is the identity on valid patterns, those whose not-a-number is
the canonical one. -/
theorem pack_unpack {b : BitVec 64} (valid : Format.binary64.Valid b) :
    UnpackedFloat.pack Format.binary64 (UnpackedFloat.unpack Format.binary64 b) = b := by
  have exponent := unpackExponent_toNat b
  have mantissa : (@unpackMantissa Format.binary64 b).toNat < 2 ^ 52 :=
    (@unpackMantissa Format.binary64 b).isLt
  unfold UnpackedFloat.unpack
  dsimp only
  split
  next top =>
    split
    next empty => exact packComponents_of_fields top empty
    next full => exact (valid.eq_packedNaN top full).symm
  next notTop =>
    have notAll : (@unpackExponent Format.binary64 b).toNat ≠ 2047 :=
      fun all => notTop (BitVec.eq_of_toNat_eq (by rw [all]; rfl))
    split
    next bottom =>
      have zero : (@unpackExponent Format.binary64 b).toNat = 0 := by rw [bottom]; rfl
      split
      next empty => exact packComponents_of_fields bottom empty
      next nonzero =>
        -- a subnormal: the biased exponent is one and the significand has fewer than 53 bits
        have pos : 0 < (@unpackMantissa Format.binary64 b).toNat :=
          Nat.pos_of_ne_zero fun z => nonzero (BitVec.eq_of_toNat_eq (by rw [z]; rfl))
        have short : (@unpackMantissa Format.binary64 b).toNat.log2 < 52 :=
          (Nat.log2_lt (by omega)).2 mantissa
        unfold UnpackedFloat.pack
        simp only [zero]
        rw [if_neg (by decide), if_neg (by simp [Format.mantissaBits]; omega)]
        exact packComponents_of_fields bottom (by simp)
    next notBottom =>
      have pos : (@unpackExponent Format.binary64 b).toNat ≠ 0 :=
        fun z => notBottom (BitVec.eq_of_toNat_eq (by rw [z]; rfl))
      have bound : (@unpackExponent Format.binary64 b).toNat < 2 ^ 11 :=
        (@unpackExponent Format.binary64 b).isLt
      -- a normal number: the implicit bit puts the significand in `[2^52, 2^53)`
      have lead : (1#1 ++ @unpackMantissa Format.binary64 b).toNat =
          2 ^ 52 + (@unpackMantissa Format.binary64 b).toNat := by
        rw [BitVec.toNat_append, ← Nat.shiftLeft_add_eq_or_of_lt mantissa]
        simp [Nat.shiftLeft_eq]
      have width : (1#1 ++ @unpackMantissa Format.binary64 b).toNat.log2 = 52 := by
        rw [Nat.log2_eq_iff (by omega), lead]; omega
      unfold UnpackedFloat.pack
      simp only [width]
      rw [if_neg (by simp [Format.exponentBias]; omega), if_pos (by simp [Format.mantissaBits])]
      apply packComponents_of_fields
      · apply BitVec.eq_of_toNat_eq
        simp [Format.exponentBias]
        omega
      · apply BitVec.eq_of_toNat_eq
        simp only [BitVec.toNat_ofNat, lead]
        omega

theorem model_pack_unpack (f : Float.Model) : Float.Model.pack f.unpack = f := by
  obtain ⟨bits, valid⟩ := f
  simp only [Float.Model.pack, Float.Model.unpack, pack_unpack valid, UInt64.ofBitVec_toBitVec]

theorem ofBits_toBits (x : Float) : Float.ofBits x.toBits = x := by
  show Float.ofModel (Float.Model.pack x.toModel.unpack) = x
  rw [model_pack_unpack]

section Fields

variable (x : Float)

theorem exponentField_eq : exponentField x = (@unpackExponent Format.binary64 x.toModel.toBits.toBitVec).toNat := by
  rw [unpackExponent_toNat]
  unfold exponentField
  rw [UInt64.toNat_shiftRight, Nat.shiftRight_eq_div_pow]
  rfl

theorem fractionField_eq : fractionField x = (@unpackMantissa Format.binary64 x.toModel.toBits.toBitVec).toNat := by
  rw [unpackMantissa_toNat]
  rfl

theorem isNegative_eq : isNegative x = decide (x.toBits.toNat / 2 ^ 63 = 1) := by
  unfold isNegative
  have bound : x.toBits.toNat < 2 ^ 64 := x.toBits.toNat_lt
  rw [Bool.eq_iff_iff, beq_iff_eq, decide_eq_true_iff, ← UInt64.toNat_inj, UInt64.toNat_shiftRight,
    Nat.shiftRight_eq_div_pow]
  rfl

theorem toBits_fields : x.toBits.toNat =
    (if isNegative x then 2 ^ 63 else 0) + exponentField x * 2 ^ 52 + fractionField x := by
  have bound : x.toBits.toNat < 2 ^ 64 := x.toBits.toNat_lt
  rw [isNegative_eq]
  unfold exponentField fractionField
  rw [UInt64.toNat_shiftRight, Nat.shiftRight_eq_div_pow]
  simp only [UInt64.reduceToNat, Nat.reduceMod, Nat.pow_eq, fractionBits, Nat.reducePow] at bound ⊢
  split
  next negative => simp only [decide_eq_true_eq] at negative; omega
  next positive => simp only [decide_eq_true_eq] at positive; omega

theorem isFinite_iff : x.isFinite = true ↔ exponentField x ≠ 2047 := by
  show (UnpackedFloat.unpack Format.binary64 x.toModel.toBits.toBitVec).isFinite = true ↔ _
  rw [exponentField_eq]
  unfold UnpackedFloat.unpack
  dsimp only
  split
  next top =>
    have all : (@unpackExponent Format.binary64 x.toModel.toBits.toBitVec).toNat = 2047 := by
      rw [top]; rfl
    split <;> simp [UnpackedFloat.isFinite, all]
  next notTop =>
    have notAll : (@unpackExponent Format.binary64 x.toModel.toBits.toBitVec).toNat ≠ 2047 :=
      fun all => notTop (BitVec.eq_of_toNat_eq (by rw [all]; rfl))
    split
    · split <;> simp [UnpackedFloat.isFinite, notAll]
    · simp [UnpackedFloat.isFinite, notAll]

theorem unpack_zero_iff : (∃ s, x.toModel.unpack = .zero s) ↔ exponentField x = 0 ∧ fractionField x = 0 := by
  show (∃ s, UnpackedFloat.unpack Format.binary64 x.toModel.toBits.toBitVec = .zero s) ↔ _
  rw [exponentField_eq, fractionField_eq]
  unfold UnpackedFloat.unpack
  dsimp only
  split
  next top =>
    have all : (@unpackExponent Format.binary64 x.toModel.toBits.toBitVec).toNat = 2047 := by
      rw [top]; rfl
    split <;> simp [all]
  next notTop =>
    split
    next bottom =>
      have zero : (@unpackExponent Format.binary64 x.toModel.toBits.toBitVec).toNat = 0 := by
        rw [bottom]; rfl
      split
      next empty =>
        have none : (@unpackMantissa Format.binary64 x.toModel.toBits.toBitVec).toNat = 0 := by
          rw [empty]; rfl
        simp [zero, none]
      next nonzero =>
        have some : (@unpackMantissa Format.binary64 x.toModel.toBits.toBitVec).toNat ≠ 0 :=
          fun z => nonzero (BitVec.eq_of_toNat_eq (by rw [z]; rfl))
        simp [some]
    next notBottom =>
      have some : (@unpackExponent Format.binary64 x.toModel.toBits.toBitVec).toNat ≠ 0 :=
        fun z => notBottom (BitVec.eq_of_toNat_eq (by rw [z]; rfl))
      simp [some]

theorem beq_zero_iff : (x == 0) = true ↔ exponentField x = 0 ∧ fractionField x = 0 := by
  rw [← unpack_zero_iff]
  show (x.toModel.unpack.compare (0 : Float).toModel.unpack == some .eq) = true ↔ _
  rw [show (0 : Float).toModel.unpack = .zero .positive from rfl]
  cases x.toModel.unpack with
  | infinity s => cases s <;> simp [UnpackedFloat.compare]
  | notANumber => simp [UnpackedFloat.compare]
  | zero s => simp [UnpackedFloat.compare]
  | finite s m e pos => cases s <;> simp [UnpackedFloat.compare]

section Finite

variable {x} (finite : exponentField x ≠ 2047) (nonzero : ¬(exponentField x = 0 ∧ fractionField x = 0))
include finite nonzero

theorem legal_fields : Legal (significand x) (exponent x) := by
  have low : fractionField x < 2 ^ 52 := Nat.mod_lt _ (by decide)
  have high : exponentField x < 2048 := Nat.mod_lt _ (by decide)
  unfold significand exponent
  simp only [Nat.pow_eq, fractionBits, minExponent]
  split
  next zero => exact ⟨by omega, by omega, .inr rfl, by rfl, by decide⟩
  next normal =>
    exact ⟨by omega, by omega, .inl (by omega), by simp only [minExponent]; omega,
      by simp only [maxExponent]; omega⟩

/-- A finite nonzero number is rebuilt from its sign, significand and exponent. -/
theorem ofParts_fields : ofParts (isNegative x) (significand x) (exponent x) = x := by
  have low : fractionField x < 2 ^ 52 := Nat.mod_lt _ (by decide)
  have high : exponentField x < 2048 := Nat.mod_lt _ (by decide)
  have bits := toBits_fields x
  have bound : x.toBits.toNat < 2 ^ 64 := x.toBits.toNat_lt
  conv => rhs; rw [← ofBits_toBits x]
  -- the pattern is rebuilt field by field: sign, biased exponent, fraction
  have same {n : Nat} (eq : n = x.toBits.toNat) : Float.ofBits n.toUInt64 = Float.ofBits x.toBits := by
    congr 1
    apply UInt64.toNat.inj
    rw [Nat.toUInt64_eq, UInt64.toNat_ofNat_of_lt' (by rw [eq]; exact bound), eq]
  unfold ofParts significand exponent
  simp only [Nat.pow_eq, fractionBits, minExponent, maxExponent]
  by_cases zero : exponentField x = 0
  · rw [if_pos zero, if_pos zero, if_neg (by omega), if_pos (by omega)]
    exact same (by rw [bits, zero]; split <;> omega)
  · rw [if_neg zero, if_neg zero, if_neg (by omega), if_neg (by omega)]
    exact same (by rw [bits]; split <;> omega)

end Finite

theorem not_nan_of_isFinite (finite : x.isFinite = true) : x.isNaN = false ∧ x.isInf = false := by
  revert finite
  show x.toModel.unpack.isFinite = true → x.toModel.unpack.isNaN = false ∧ x.toModel.unpack.isInf = false
  cases x.toModel.unpack <;>
    simp [UnpackedFloat.isFinite, UnpackedFloat.isNaN, UnpackedFloat.isInf]

end Fields

end PeerMessaging.Number
