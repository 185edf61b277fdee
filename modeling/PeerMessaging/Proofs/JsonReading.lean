import PeerMessaging.Proofs.FloatFields
import PeerMessaging.Proofs.JsonValues
/-!
What JSON text denotes. The reader makes `null`, booleans, strings, numbers, and arrays and plain
objects of such values, and never a not-a-number: a number literal rounds to the nearest binary64
value, and one beyond the finite range becomes an infinity. Among these values the wire values are
exactly those that hold no infinity, so checking what the reader made for a wire value comes down
to looking for a number literal that overflowed.
-/

namespace PeerMessaging

namespace Number

open Float.Model Float.Model.UnpackedFloat

/-- A bit pattern whose exponent field is not all ones, or whose fraction field is zero, is no
not-a-number. -/
theorem isNaN_ofBits {b : UInt64} (field : b.toNat / 2 ^ 52 % 2 ^ 11 ≠ 2047 ∨ b.toNat % 2 ^ 52 = 0) :
    (Float.ofBits b).isNaN = false := by
  have exponent := unpackExponent_toNat b.toBitVec
  have mantissa := unpackMantissa_toNat b.toBitVec
  have quiet : ¬ (@unpackExponent Format.binary64 b.toBitVec = -1#_ ∧
      @unpackMantissa Format.binary64 b.toBitVec ≠ 0#_) := by
    rintro ⟨top, nonzero⟩
    have all : (@unpackExponent Format.binary64 b.toBitVec).toNat = 2047 := by rw [top]; rfl
    have some : (@unpackMantissa Format.binary64 b.toBitVec).toNat ≠ 0 :=
      fun z => nonzero (BitVec.eq_of_toNat_eq (by rw [z]; rfl))
    simp only [UInt64.toNat_toBitVec] at exponent mantissa
    omega
  -- such a pattern is packed back unchanged, so it unpacks to what it encodes
  have valid : Format.binary64.Valid b.toBitVec := ⟨fun top nonzero => absurd ⟨top, nonzero⟩ quiet⟩
  show (Float.Model.pack (UnpackedFloat.unpack Format.binary64 b.toBitVec)).unpack.isNaN = false
  simp only [Float.Model.pack, Float.Model.unpack, pack_unpack valid, UInt64.toBitVec_ofBitVec]
  unfold UnpackedFloat.unpack
  dsimp only
  split
  next top =>
    split
    · rfl
    · next nonzero => exact absurd ⟨top, nonzero⟩ quiet
  next =>
    split
    · split <;> rfl
    · rfl

theorem toNat_toUInt64 {n : Nat} (small : n < 2 ^ 64) : n.toUInt64.toNat = n := by
  rw [Nat.toUInt64_eq, UInt64.toNat_ofNat_of_lt' small]

/-- A number built from a significand below `2^53` is never not-a-number: past the largest
exponent it is an infinity, whose fraction field is zero. -/
theorem ofParts_not_nan (negative : Bool) {m : Nat} (q : Int) (small : m < 2 ^ 53) :
    (ofParts negative m q).isNaN = false := by
  have sign : (if negative then 2 ^ 63 else 0) ≤ 2 ^ 63 := by split <;> omega
  have bounded : (if negative then 2 ^ 63 else 0) % 2 ^ 52 = 0 ∧
      (if negative then 2 ^ 63 else 0) / 2 ^ 52 % 2 ^ 11 = 0 := by
    split <;> omega
  unfold ofParts
  simp only [Nat.pow_eq, fractionBits, maxExponent]
  split
  · apply isNaN_ofBits
    right
    rw [toNat_toUInt64 (by omega)]
    omega
  · split
    · apply isNaN_ofBits
      left
      rw [toNat_toUInt64 (by omega)]
      omega
    · apply isNaN_ofBits
      left
      rw [toNat_toUInt64 (by omega)]
      omega

/-- The quotient a ratio's significand is rounded from lies below `2^53`, since the exponent is
at least `⌊log₂ (num / den)⌋ - 52`. -/
theorem quotient_lt {num den : Nat} (hN : 0 < num) (hD : 0 < den) :
    num * Nat.pow 2 (-(max (floorLog2Ratio num den - fractionBits) minExponent)).toNat /
      (den * Nat.pow 2 (max (floorLog2Ratio num den - fractionBits) minExponent).toNat) < 2 ^ 53 := by
  obtain ⟨-, below⟩ := floorLog2Ratio_spec hN hD
  generalize floorLog2Ratio num den = t at below
  set q := max (t - fractionBits) minExponent with hq
  have scale : 0 < den * Nat.pow 2 q.toNat := Nat.mul_pos hD (Nat.pow_pos (by norm_num))
  have high : t + 1 - q ≤ 53 := by simp only [hq, fractionBits]; omega
  have ratio : ((num * Nat.pow 2 (-q).toNat : Nat) : ℚ) / ((den * Nat.pow 2 q.toNat : Nat) : ℚ) < 2 ^ 53 := by
    rw [scaled_ratio hD, div_lt_iff₀ (by positivity)]
    calc (num / den : ℚ) < 2 ^ (t + 1) := below
      _ = 2 ^ (t + 1 - q) * 2 ^ q := by rw [← zpow_add₀ (by norm_num)]; congr 1; ring
      _ ≤ 2 ^ (53 : Int) * 2 ^ q := by gcongr; norm_num
      _ = 2 ^ 53 * 2 ^ q := by norm_num
  rw [div_lt_iff₀ (by exact_mod_cast scale)] at ratio
  rw [Nat.div_lt_iff_lt_mul scale]
  exact_mod_cast ratio

theorem roundHalfEven_le (a b : Nat) :
    (if 2 * (a % b) > b ∨ (2 * (a % b) = b ∧ a / b % 2 = 1) then a / b + 1 else a / b) ≤ a / b + 1 := by
  split <;> omega

theorem carry_not_nan (negative : Bool) (q : Int) {m : Nat} (small : m ≤ 2 ^ 53) :
    (if m = Nat.pow 2 (fractionBits + 1) then ofParts negative (Nat.pow 2 fractionBits) (q + 1)
      else ofParts negative m q).isNaN = false := by
  split
  · exact ofParts_not_nan negative _ (by decide)
  · next below =>
    apply ofParts_not_nan
    simp only [Nat.pow_eq, fractionBits] at below
    omega

theorem roundRatio_not_nan (negative : Bool) (num den : Nat) :
    (roundRatio negative num den).isNaN = false := by
  unfold roundRatio
  split
  · exact ofParts_not_nan negative _ (by decide)
  · next nonzero =>
    have quotient := @quotient_lt num den (by omega) (by omega)
    exact carry_not_nan negative _ ((roundHalfEven_le _ _).trans (Nat.succ_le_of_lt quotient))

theorem roundDecimal_not_nan (negative : Bool) (digits : Nat) (exp10 : Int) :
    (roundDecimal negative digits exp10).isNaN = false := by
  unfold roundDecimal
  split
  · exact ofParts_not_nan negative _ (by decide)
  · split
    · exact ofParts_not_nan negative _ (by decide)
    · split
      · exact ofParts_not_nan negative _ (by decide)
      · exact roundRatio_not_nan negative _ _

end Number

namespace Value

mutual

def isJson : Value → Bool
  | .null | .bool _ | .string _ => true
  | .number x => !x.isNaN
  | .array items => allJson items
  | .object .plain props => allJsonProps props
  | _ => false

def allJson : List Value → Bool
  | [] => true
  | v :: rest => isJson v && allJson rest

def allJsonProps : List (Text × Value) → Bool
  | [] => true
  | (_, v) :: rest => isJson v && allJsonProps rest

end

mutual

def hasInfinity : Value → Bool
  | .number x => x.isInf
  | .array items => anyInfinity items
  | .object _ props => anyInfinityProps props
  | _ => false

def anyInfinity : List Value → Bool
  | [] => false
  | v :: rest => hasInfinity v || anyInfinity rest

def anyInfinityProps : List (Text × Value) → Bool
  | [] => false
  | (_, v) :: rest => hasInfinity v || anyInfinityProps rest

end

theorem allJson_iff {items : List Value} : allJson items = true ↔ ∀ v ∈ items, v.isJson = true := by
  induction items with
  | nil => simp [allJson]
  | cons v rest ih => simp [allJson, ih]

theorem allJsonProps_iff {props : List (Text × Value)} :
    allJsonProps props = true ↔ ∀ kv ∈ props, kv.2.isJson = true := by
  induction props with
  | nil => simp [allJsonProps]
  | cons first rest ih =>
    obtain ⟨k, v⟩ := first
    simp [allJsonProps, ih]

theorem allJsonProps_set {props : List (Text × Value)} (held : allJsonProps props = true) {k : Text}
    {v : Value} (json : v.isJson = true) : allJsonProps (Props.set props k v) = true := by
  rw [allJsonProps_iff] at held ⊢
  intro kv member
  rcases Props.mem_set member with old | new
  · exact held kv old
  · exact new ▸ json

theorem isFinite_eq_not_isInf {x : Float} (notNaN : x.isNaN = false) : x.isFinite = !x.isInf := by
  revert notNaN
  show x.toModel.unpack.isNaN = false → x.toModel.unpack.isFinite = !x.toModel.unpack.isInf
  cases x.toModel.unpack <;>
    simp [Float.Model.UnpackedFloat.isFinite, Float.Model.UnpackedFloat.isNaN,
      Float.Model.UnpackedFloat.isInf]

mutual

theorem isWire_iff_of_isJson : (v : Value) → v.isJson = true → (v.isWire = true ↔ v.hasInfinity = false)
  | .null, _ | .bool _, _ | .string _, _ => by simp [isWire, hasInfinity]
  | .number x, json => by
    simp only [isJson, Bool.not_eq_true'] at json
    simp [isWire, hasInfinity, isFinite_eq_not_isInf json]
  | .array items, json => allWire_iff_of_allJson items json
  | .object .plain props, json => allWireProps_iff_of_allJsonProps props json
  | .object .noPrototype _, json | .object .classInstance _, json | .undefined, json | .bigint _, json
  | .symbol _, json | .function, json | .date _, json | .map _, json | .bytes _, json => by
    simp [isJson] at json

theorem allWire_iff_of_allJson : (items : List Value) → allJson items = true →
    (allWire items = true ↔ anyInfinity items = false)
  | [], _ => by simp [allWire, anyInfinity]
  | v :: rest, json => by
    simp only [allJson, Bool.and_eq_true] at json
    simp [allWire, anyInfinity, isWire_iff_of_isJson v json.1, allWire_iff_of_allJson rest json.2]

theorem allWireProps_iff_of_allJsonProps : (props : List (Text × Value)) → allJsonProps props = true →
    (allWireProps props = true ↔ anyInfinityProps props = false)
  | [], _ => by simp [allWireProps, anyInfinityProps]
  | (_, v) :: rest, json => by
    simp only [allJsonProps, Bool.and_eq_true] at json
    simp [allWireProps, anyInfinityProps, isWire_iff_of_isJson v json.1,
      allWireProps_iff_of_allJsonProps rest json.2]

end

end Value

namespace Json

open Value

theorem readNumber_not_nan {input : List UInt16} {x : Float} {rest : List UInt16}
    (read : readNumber input = some (x, rest)) : x.isNaN = false := by
  unfold readNumber at read
  -- past the sign, the digits are read into one decimal that is rounded once
  split at read
  dsimp only at read
  split at read
  · cases read
  · obtain ⟨⟨fraction, r⟩, -, number⟩ := Option.bind_eq_some_iff.1 read
    obtain ⟨⟨e, r'⟩, -, same⟩ := Option.map_eq_some_iff.1 number
    cases same
    exact Number.roundDecimal_not_nan _ _ _

section Fuel

/-! Each reader, given one more unit of fuel, returns JSON values when the readers it calls with
the fuel left do. -/

variable {fuel : Nat}
  (values : ∀ input v rest, readValue fuel input = some (v, rest) → v.isJson = true)
  (items : ∀ acc input v rest, readItems fuel acc input = some (v, rest) → allJson acc = true →
    v.isJson = true)
  (members : ∀ props input v rest, readMembers fuel props input = some (v, rest) →
    allJsonProps props = true → v.isJson = true)

include items members in
theorem readValue_isJson {input : List UInt16} {v : Value} {rest : List UInt16}
    (read : readValue (fuel + 1) input = some (v, rest)) : v.isJson = true := by
  -- one case per kind of value, told by the first unit past the blanks
  rw [readValue] at read
  split at read
  · exact members _ _ _ _ read rfl
  · split at read
    · cases read; rfl
    · exact items _ _ _ _ read rfl
  · obtain ⟨_, -, same⟩ := Option.map_eq_some_iff.1 read
    cases same; rfl
  · cases read; rfl
  · cases read; rfl
  · cases read; rfl
  · obtain ⟨⟨x, r⟩, number, same⟩ := Option.map_eq_some_iff.1 read
    cases same
    simp only [isJson, readNumber_not_nan number, Bool.not_false]

include values items in
theorem readItems_isJson {acc : List Value} {input : List UInt16} {v : Value} {rest : List UInt16}
    (read : readItems (fuel + 1) acc input = some (v, rest)) (held : allJson acc = true) :
    v.isJson = true := by
  rw [readItems] at read
  split at read
  · cases read
  · next value =>
    have first := values _ _ _ value
    split at read
    · exact items _ _ _ _ read (by simp [allJson, first, held])
    · cases read
      simp only [isJson, allJson_iff, List.mem_reverse, List.mem_cons]
      rintro w (rfl | earlier)
      · exact first
      · exact allJson_iff.1 held w earlier
    · cases read

include values members in
theorem readMembers_isJson {props : List (Text × Value)} {input : List UInt16} {v : Value}
    {rest : List UInt16} (read : readMembers (fuel + 1) props input = some (v, rest))
    (held : allJsonProps props = true) : v.isJson = true := by
  -- an object's members are defined one by one, each with a value read before
  rw [readMembers] at read
  split at read
  · split at read
    · cases read; rfl
    · cases read
  · split at read
    · cases read
    · split at read
      · split at read
        · cases read
        · next value =>
          have first := values _ _ _ value
          split at read
          · split at read
            · exact members _ _ _ _ read (allJsonProps_set held first)
            · cases read
          · cases read
            exact allJsonProps_set held first
          · cases read
      · cases read
  · cases read

end Fuel

/-- Everything the reader makes is a value JSON text can denote. The three readers call one
another with one unit of fuel less, so one induction on the fuel carries all three. -/
theorem reads_json (fuel : Nat) :
    (∀ input v rest, readValue fuel input = some (v, rest) → v.isJson = true) ∧
    (∀ acc input v rest, readItems fuel acc input = some (v, rest) → allJson acc = true →
      v.isJson = true) ∧
    (∀ props input v rest, readMembers fuel props input = some (v, rest) →
      allJsonProps props = true → v.isJson = true) := by
  induction fuel with
  | zero =>
    exact ⟨fun _ _ _ read => by simp [readValue] at read, fun _ _ _ _ read => by simp [readItems] at read,
      fun _ _ _ _ read => by simp [readMembers] at read⟩
  | succ fuel ih =>
    obtain ⟨values, items, members⟩ := ih
    exact ⟨fun _ _ _ read => readValue_isJson items members read,
      fun _ _ _ _ read held => readItems_isJson values items read held,
      fun _ _ _ _ read held => readMembers_isJson values members read held⟩

theorem parse_isJson {t : Text} {v : Value} (parsed : parse? t = some v) : v.isJson = true := by
  unfold parse? at parsed
  split at parsed
  · next read =>
    split at parsed
    · cases parsed
      exact (reads_json _).1 _ _ _ read
    · cases parsed
  · cases parsed

end Json

end PeerMessaging
