import PeerMessaging.Proofs.FloatFields
import PeerMessaging.Proofs.RegistryKeys
import PeerMessaging.Proofs.ByteFrames
import PeerMessaging.Proofs.Utf8Forms
/-!
The header of a byte frame. Encoding a message checks its code before it asks for the payload: a
code that is not a whole number from 0 to 255 is refused, naming the code's text, or with the
host's own error when the code has no text (an object without a usable `toString` or
`valueOf`, which the number type of a code excludes). A payload that cannot be made fails the
encoding with its own error; one of more than 253 bytes is too large, the frame size reported
with it; any other gives the frame `[length, code] ++ payload`, whose two header bytes hold the
frame's length and the code themselves, neither cut down to a byte. An identity's payload is
the UTF-8 of `username@hostname`, the `@` its own byte between the two parts.
-/

open Float.Model Float.Model.UnpackedFloat

namespace PeerMessaging

namespace Number

/-! ### Whole numbers that fit a byte -/

theorem then_isLE {a b : Ordering} : (a.then b).isLE = true ↔ a = .lt ∨ a = .eq ∧ b.isLE = true := by
  cases a <;> cases b <;> decide

theorem finite_congr {s : Sign} {m m' : Nat} {e e' : Int} (pos : 0 < m) (same : m = m')
    (level : e = e') : ∃ pos', UnpackedFloat.finite s m e pos = .finite s m' e' pos' := by
  subst same level
  exact ⟨pos, rfl⟩

/-- A finite nonzero number unpacks to its significand and exponent. -/
theorem unpack_of_fields {x : Float} (finite : exponentField x ≠ 2047)
    (nonzero : ¬(exponentField x = 0 ∧ fractionField x = 0)) :
    ∃ s pos, x.toModel.unpack = .finite s (significand x) (exponent x) pos := by
  have mantissa : (@unpackMantissa Format.binary64 x.toModel.toBits.toBitVec).toNat < 2 ^ 52 :=
    (@unpackMantissa Format.binary64 x.toModel.toBits.toBitVec).isLt
  unfold significand exponent
  simp only [exponentField_eq, fractionField_eq] at finite nonzero ⊢
  show ∃ s pos, UnpackedFloat.unpack Format.binary64 x.toModel.toBits.toBitVec = _
  unfold UnpackedFloat.unpack
  dsimp only
  split
  next top => exact absurd (by rw [top]; rfl) finite
  next notTop =>
    split
    next bottom =>
      have zero : (@unpackExponent Format.binary64 x.toModel.toBits.toBitVec).toNat = 0 := by
        rw [bottom]; rfl
      split
      next empty => exact absurd ⟨zero, by rw [empty]; rfl⟩ nonzero
      next => exact ⟨_, finite_congr _ (by simp) (by simp [zero, minExponent]; rfl)⟩
    next notBottom =>
      have pos : (@unpackExponent Format.binary64 x.toModel.toBits.toBitVec).toNat ≠ 0 :=
        fun z => notBottom (BitVec.eq_of_toNat_eq (by rw [z]; rfl))
      -- a normal number: the implicit bit over the biased exponent
      have lead : (1#1 ++ @unpackMantissa Format.binary64 x.toModel.toBits.toBitVec).toNat =
          2 ^ 52 + (@unpackMantissa Format.binary64 x.toModel.toBits.toBitVec).toNat := by
        rw [BitVec.toNat_append, ← Nat.shiftLeft_add_eq_or_of_lt mantissa]
        simp [Nat.shiftLeft_eq]
      exact ⟨_, finite_congr _ (by simp [pos, lead, fractionBits, Nat.add_comm])
        (by simp [pos]; rfl)⟩

theorem mantissa_shiftRight (em : ExtendedMantissa) (k : Nat) :
    (em >>> k).mantissa = em.mantissa / 2 ^ k := by
  show (k.repeat ExtendedMantissa.shiftRightOne em).mantissa = _
  induction k with
  | zero => simp [Nat.repeat]
  | succ k ih =>
    simp only [Nat.repeat, ExtendedMantissa.shiftRightOne, ih, Nat.div_div_eq_div_mul, Nat.pow_succ]

theorem toInt_finite_positive {m : Nat} {e : Int} (pos : 0 < m) (negative : e < 0) (lo hi : Int) :
    (UnpackedFloat.finite .positive m e pos).toInt lo hi = (m / 2 ^ (-e).toNat : Nat) := by
  have keep : (e - 0).toNat = 0 := by omega
  simp only [UnpackedFloat.toInt, roundToInt, decreaseExponent, shiftToExponent, keep,
    Nat.shiftLeft_zero, Sign.apply]
  have shift : (0 - (e - ((0 : Nat) : Int))).toNat = (-e).toNat := by omega
  rw [shift, mantissa_shiftRight]
  rfl

theorem sign_of_nonneg {x : Float} {s : Sign} {m : Nat} {e : Int} {pos : 0 < m}
    (low : (0 : Float) ≤ x) (unpacked : x.toModel.unpack = .finite s m e pos) : s = .positive := by
  have atLeast := le_iff_unpack.1 low
  rw [unpacked, show (0 : Float).toModel.unpack = .zero .positive from rfl] at atLeast
  cases s
  · simp [UnpackedFloat.le, UnpackedFloat.compare] at atLeast
  · rfl

/-- A whole number that is not zero is normal: a subnormal is a nonzero multiple of `2^-1074`
below one. -/
theorem normal_of_isInteger {x : Float} (integer : isInteger x = true)
    (nonzero : ¬(exponentField x = 0 ∧ fractionField x = 0)) : exponentField x ≠ 0 := by
  intro subnormal
  have fraction : fractionField x < 2 ^ 52 := Nat.mod_lt _ (by decide)
  have integral := integer
  simp only [isInteger, Bool.and_eq_true, beq_iff_eq] at integral
  have least : exponent x = -1074 := by simp [exponent, subnormal, minExponent]
  have short : significand x = fractionField x := by simp [significand, subnormal]
  rw [short, Nat.pow_eq] at integral
  -- `2^52` divides the power of two that divides the fraction
  have places : 52 ≤ (-exponent x).toNat := by
    rw [least]
    decide
  have divides := Nat.dvd_trans (Nat.pow_dvd_pow 2 places) (Nat.dvd_of_mod_eq_zero integral.2)
  exact nonzero ⟨subnormal, Nat.eq_zero_of_dvd_of_lt divides fraction⟩

theorem significand_normal {x : Float} (normal : exponentField x ≠ 0) :
    2 ^ 52 ≤ significand x ∧ significand x < 2 ^ 53 := by
  have fraction : fractionField x < 2 ^ 52 := Nat.mod_lt _ (by decide)
  have wide : significand x = fractionField x + 2 ^ 52 := by simp [significand, normal, fractionBits]
  omega

/-- A positive normal number at most 255 has a negative exponent, and its significand is below
256 moved up by as many places as the exponent is below zero. -/
theorem significand_lt_of_le {x : Float} {pos : 0 < significand x}
    (unpacked : x.toModel.unpack = .finite .positive (significand x) (exponent x) pos)
    (normal : exponentField x ≠ 0) (high : x ≤ 255) :
    exponent x < 0 ∧ significand x < 2 ^ 8 * 2 ^ (-exponent x).toNat := by
  -- at most 255: an exponent below `-45`, or `-45` and a significand at most `255 · 2^45`
  have seven : Nat.log2 255 = 7 := (Nat.log2_eq_iff (by norm_num)).2 ⟨by norm_num, by norm_num⟩
  have atMost := le_iff_unpack.1 high
  rw [unpacked, show (255 : Float).toModel.unpack = wholeForm 255 from unpack_toFloat (by norm_num)]
    at atMost
  simp [wholeForm, gap, seven, UnpackedFloat.le, UnpackedFloat.compare, then_isLE,
    Nat.shiftLeft_eq] at atMost
  have top := significand_normal normal
  rcases atMost with below | ⟨at45, fits⟩
  case inl =>
    have further : 46 ≤ (-exponent x).toNat := by
      have := Int.compare_eq_lt.1 below
      omega
    refine ⟨by omega, ?_⟩
    calc significand x < 2 ^ 8 * 2 ^ 45 := by omega
      _ < 2 ^ 8 * 2 ^ (-exponent x).toNat :=
        Nat.mul_lt_mul_of_pos_left (Nat.pow_lt_pow_right (by decide) further) (by decide)
  case inr =>
    rw [Nat.isLE_compare] at fits
    have shift : (-exponent x).toNat = 45 := by omega
    refine ⟨by omega, ?_⟩
    rw [shift]
    omega

theorem toUInt8_of_whole {x : Float} {m n : Nat} {e : Int} {pos : 0 < m}
    (unpacked : x.toModel.unpack = .finite .positive m e pos) (negative : e < 0)
    (whole : m = n <<< (-e).toNat) (small : n < 256) : x.toUInt8.toNat = n := by
  show x.toModel.unpack.toUInt8.toNat = n
  rw [unpacked]
  unfold UnpackedFloat.toUInt8
  rw [toInt_finite_positive pos negative, whole, Nat.shiftLeft_eq,
    Nat.mul_div_cancel _ (Nat.two_pow_pos _)]
  have under : n < UInt8.size := small
  simp [UInt8.ofNatClamp, under]

/-- A whole number from 0 to 255 converts to the byte of its own value. -/
theorem toUInt8_of_byte {x : Float} (integer : isInteger x = true) (low : (0 : Float) ≤ x)
    (high : x ≤ 255) : (x.toUInt8.toNat.toFloat == x) = true := by
  have finite : exponentField x ≠ 2047 := by
    have : x.isFinite = true := by simp only [isInteger, Bool.and_eq_true] at integer; exact integer.1
    exact (isFinite_iff x).1 this
  by_cases zero : exponentField x = 0 ∧ fractionField x = 0
  · -- a zero of either sign converts to the byte 0
    obtain ⟨s, unpacked⟩ := (unpack_zero_iff x).2 zero
    have byte : x.toUInt8 = 0 := by
      show x.toModel.unpack.toUInt8 = 0
      rw [unpacked]
      rfl
    rw [byte]
    exact beq_symm ((beq_zero_iff x).2 zero)
  obtain ⟨s, pos, unpacked⟩ := unpack_of_fields finite zero
  obtain rfl := sign_of_nonneg low unpacked
  have normal := normal_of_isInteger integer zero
  obtain ⟨negative, below⟩ := significand_lt_of_le unpacked normal high
  have integral : significand x % 2 ^ (-exponent x).toNat = 0 :=
    (by simpa [isInteger, Nat.pow_eq] using integer : _ ∧ _).2
  -- the significand is the whole number moved up by as many places as the exponent is below zero
  obtain ⟨n, whole⟩ : ∃ n, significand x = n <<< (-exponent x).toNat :=
    ⟨_, by rw [Nat.shiftLeft_eq, Nat.div_mul_cancel (Nat.dvd_of_mod_eq_zero integral)]⟩
  have small : n < 256 := by
    rw [whole, Nat.shiftLeft_eq] at below
    exact Nat.lt_of_mul_lt_mul_right below
  have nonzero : n ≠ 0 := by
    rintro rfl
    simp at whole
    omega
  rw [toUInt8_of_whole unpacked negative whole small, beq_iff_same, unpack_toFloat (by omega),
    unpacked]
  -- both forms put the top bit at place 52, so they move `n` up by the same places
  have top : (significand x).log2 = 52 :=
    (Nat.log2_eq_iff (by omega)).2 (significand_normal normal)
  rw [whole, log2_shiftLeft _ nonzero] at top
  have shifted : gap n = (-exponent x).toNat := by
    unfold gap
    omega
  simp only [wholeForm, nonzero, dite_false, Same, shifted, true_and]
  exact ⟨whole.symm, by omega⟩

end Number

namespace Text

/-- A unit that is no surrogate is written as its own code point, whatever stands around it. -/
theorem utf8OfUnits_around {c : UInt16} (unit : ¬ (isHighSurrogate c || isLowSurrogate c))
    (a b : List UInt16) :
    utf8OfUnits (a ++ c :: b) = utf8OfUnits a ++ utf8OfCodePoint c.toNat ++ utf8OfUnits b := by
  have notLow : isLowSurrogate c = false := by simp_all
  -- the writer pairs a high surrogate only with a low one, which `c` is not
  induction a using utf8OfUnits.induct with
  | case1 => simp [utf8OfUnits, utf8OfUnits_unit_cons unit]
  | case2 u lone => simp [utf8OfUnits, lone, notLow, utf8OfUnits_unit_cons unit]
  | case3 u plain => simp [utf8OfUnits, plain, notLow, utf8OfUnits_unit_cons unit]
  | case4 u v rest pair ih => simp [utf8OfUnits, pair, ih]
  | case5 u v rest notPair lone ih =>
    rw [List.cons_append] at ih
    simp [utf8OfUnits, notPair, lone, ih]
  | case6 u v rest notPair plain ih =>
    rw [List.cons_append] at ih
    simp [utf8OfUnits, notPair, plain, ih]

end Text

namespace Fault

theorem invalid_of_display {k : Value} {s : Text} (shown : k.display = .ok s) (r : InvalidKey) :
    Fault.invalid k r = .invalidKey s r := by
  simp [Fault.invalid, shown]

theorem invalid_of_display_error {k : Value} {e : HostError} (failed : k.display = .error e)
    (r : InvalidKey) : Fault.invalid k r = .host e := by
  simp [Fault.invalid, failed]

end Fault

namespace ByteType

def IsByteCode (v : Value) : Prop :=
  ∃ x, v = .number x ∧ Number.isInteger x = true ∧ (0 : Float) ≤ x ∧ x ≤ 255

theorem validCode_eq_none_iff (v : Value) : validCode? v = none ↔ ¬ IsByteCode v := by
  cases v <;> simp [validCode?, IsByteCode]

theorem validCode_eq_some {v : Value} {c : Nat} (valid : validCode? v = some c) :
    ∃ x, v = .number x ∧ c < 256 ∧ (c.toFloat == x) = true := by
  cases v
  case number x =>
    simp only [validCode?] at valid
    by_cases passes : (Number.isInteger x && decide (0 ≤ x) && decide (x ≤ 255)) = true
    · rw [if_pos passes] at valid
      simp only [Bool.and_eq_true, decide_eq_true_eq] at passes
      obtain ⟨⟨integer, low⟩, high⟩ := passes
      cases valid
      exact ⟨x, rfl, x.toUInt8.toNat_lt, Number.toUInt8_of_byte integer low high⟩
    · rw [if_neg passes] at valid
      cases valid
  all_goals simp [validCode?] at valid

end ByteType

namespace ByteMessage

theorem identityText_error {u h : Value} {e : Fault} (failed : identityText u h = .error e) :
    ∃ cause, e = .host cause := by
  unfold identityText at failed
  cases hu : u.toText with
  | error cause =>
    simp [hu, Except.mapError, bind, Except.bind] at failed
    exact ⟨cause, failed.symm⟩
  | ok a =>
    cases hh : h.toText with
    | error cause =>
      simp [hu, hh, Except.mapError, bind, Except.bind] at failed
      exact ⟨cause, failed.symm⟩
    | ok b => simp [hu, hh, Except.mapError, bind, Except.bind, pure, Except.pure] at failed

/-- Making a payload fails only with an error of the host. -/
theorem payload_error {m : ByteMessage} {e : Fault} (failed : m.payload = .error e) :
    ∃ cause, e = .host cause := by
  unfold payload at failed
  split at failed
  · cases failed
    exact ⟨_, rfl⟩
  · cases failed
    exact ⟨_, rfl⟩
  · split at failed
    · cases identified : m.identity with
      | error e' =>
        rw [identified] at failed
        cases failed
        exact identityText_error identified
      | ok t => simp [identified, Except.map] at failed
    · cases failed
    · cases failed

theorem toUtf8_identity (u h : Text) :
    (u ++ Text.ofString "@" ++ h).toUtf8 = u.toUtf8 ++ 0x40 :: h.toUtf8 := by
  have sign : ¬ (Text.isHighSurrogate 0x40 || Text.isLowSurrogate 0x40) := by decide
  rw [identity_units]
  have written : Text.utf8OfCodePoint (0x40 : UInt16).toNat = [0x40] := by decide
  show Text.utf8OfUnits (u.units ++ 0x40 :: h.units) = _
  rw [Text.utf8OfUnits_around sign, written]
  simp [Text.toUtf8]

end ByteMessage

namespace ByteFrames

/-! ### The frame of a message -/

variable {m : ByteMessage}

theorem encode_of_invalid (invalid : ByteType.validCode? m.code = none) :
    encode m = .error (Fault.invalid m.code .codeOutOfRange) := by
  simp [encode, invalid]

theorem encode_of_payload_error {c : Nat} {e : Fault} (valid : ByteType.validCode? m.code = some c)
    (failed : m.payload = .error e) : encode m = .error e := by
  simp [encode, valid, failed, bind, Except.bind]

theorem encode_of_payload {c : Nat} {p : List UInt8} (valid : ByteType.validCode? m.code = some c)
    (payload : m.payload = .ok p) :
    encode m = if 253 < p.length then .error (.tooLarge (p.length + 2) 255)
      else .ok ((p.length + 2).toUInt8 :: c.toUInt8 :: p) := by
  simp only [encode, valid, payload, bind, Except.bind]
  by_cases large : 253 < p.length
  · rw [if_pos (show p.length + headerSize > maxFrame by unfold headerSize maxFrame; omega),
      if_pos large]
    rfl
  · rw [if_neg (show ¬ p.length + headerSize > maxFrame by unfold headerSize maxFrame; omega),
      if_neg large]
    rfl

theorem frame_of_fits {c : Nat} {p : List UInt8} (valid : ByteType.validCode? m.code = some c)
    (payload : m.payload = .ok p) (fits : p.length ≤ 253) :
    ∃ len code x, encode m = .ok (len :: code :: p) ∧ len.toNat = p.length + 2 ∧
      m.code = .number x ∧ (code.toNat.toFloat == x) = true := by
  obtain ⟨x, coded, small, same⟩ := ByteType.validCode_eq_some valid
  refine ⟨(p.length + 2).toUInt8, c.toUInt8, x, ?_, ?_, coded, ?_⟩
  · rw [encode_of_payload valid payload, if_neg (by omega)]
  · have under : p.length + 2 < UInt8.size := by
      show _ < 256
      omega
    rw [Nat.toUInt8_eq, UInt8.toNat_ofNat_of_lt' under]
  · rwa [Nat.toUInt8_eq, UInt8.toNat_ofNat_of_lt' small]

theorem not_invalidKey_of_valid {c : Nat} (valid : ByteType.validCode? m.code = some c)
    (s : Text) (r : InvalidKey) : encode m ≠ .error (.invalidKey s r) := by
  cases payload : m.payload with
  | error e =>
    obtain ⟨cause, rfl⟩ := ByteMessage.payload_error payload
    rw [encode_of_payload_error valid payload]
    simp
  | ok p =>
    rw [encode_of_payload valid payload]
    split <;> simp

/-- A byte frame's header never wraps. Encoding checks the code first, whatever the payload: a
code that is no whole number from 0 to 255 is refused as an invalid key naming its text, and
only such a code is, or fails with the host's error when the code has no text. With a valid
code, a payload that cannot be made fails the encoding with its error; a payload of more than
253 bytes, and only such a payload, is too large, the frame's size reported; any other is sent
as `[length, code] ++ payload`, the length byte holding the frame's length and the code byte
the code. An identity's payload is the UTF-8 of `username@hostname`, the UTF-8 of the two parts
around the byte of `@`, so it is sent exactly when that has at most 253 bytes. -/
theorem byte_frame_length_never_wraps (m : ByteMessage) :
    (¬ ByteType.IsByteCode m.code → encode m = .error (Fault.invalid m.code .codeOutOfRange)) ∧
    ((∃ s r, encode m = .error (.invalidKey s r)) ↔
      ¬ ByteType.IsByteCode m.code ∧ ∃ s, m.code.display = .ok s) ∧
    (∀ e, m.code.display = .error e → encode m = .error (.host e)) ∧
    (ByteType.IsByteCode m.code →
      (∀ e, m.payload = .error e → encode m = .error e) ∧
      ∀ p, m.payload = .ok p →
        (encode m = .error (.tooLarge (p.length + 2) 255) ↔ 253 < p.length) ∧
        (p.length ≤ 253 → ∃ len code x, encode m = .ok (len :: code :: p) ∧
          len.toNat = p.length + 2 ∧ m.code = .number x ∧ (code.toNat.toFloat == x) = true)) ∧
    (∀ (host : Identity) (u h : Text),
      (ByteMessage.identifyOf host (.string u) (.string h)).payload =
        .ok (u ++ Text.ofString "@" ++ h).toUtf8 ∧
      (u ++ Text.ofString "@" ++ h).toUtf8 = u.toUtf8 ++ 0x40 :: h.toUtf8 ∧
      ((∃ f, encode (ByteMessage.identifyOf host (.string u) (.string h)) = .ok f) ↔
        (u ++ Text.ofString "@" ++ h).toUtf8.length ≤ 253)) := by
  have refused : ¬ ByteType.IsByteCode m.code →
      encode m = .error (Fault.invalid m.code .codeOutOfRange) :=
    fun invalid => encode_of_invalid ((ByteType.validCode_eq_none_iff _).2 invalid)
  refine ⟨refused, ⟨?_, ?_⟩, fun e failed => ?_, fun valid => ?_, fun host u h => ?_⟩
  · -- only a refused code gives an invalid key, and it names the code's text
    rintro ⟨s, r, invalidKey⟩
    cases valid : ByteType.validCode? m.code with
    | some c => exact absurd invalidKey (not_invalidKey_of_valid valid s r)
    | none =>
      refine ⟨(ByteType.validCode_eq_none_iff _).1 valid, ?_⟩
      cases shown : m.code.display with
      | ok t => exact ⟨t, rfl⟩
      | error e =>
        rw [encode_of_invalid valid, Fault.invalid_of_display_error shown] at invalidKey
        cases invalidKey
  · rintro ⟨invalid, s, shown⟩
    exact ⟨s, _, by rw [refused invalid, Fault.invalid_of_display shown]⟩
  · -- a code without text is no number, so it is refused with the host's error
    have invalid : ¬ ByteType.IsByteCode m.code := by
      rintro ⟨x, coded, -⟩
      simp [coded, Value.display, Value.toText] at failed
    rw [refused invalid, Fault.invalid_of_display_error failed]
  · obtain ⟨c, valid⟩ := Option.isSome_iff_exists.1
      (Option.ne_none_iff_isSome.1 fun none => (ByteType.validCode_eq_none_iff _).1 none valid)
    refine ⟨fun e failed => encode_of_payload_error valid failed, fun p payload => ⟨?_, ?_⟩⟩
    · rw [encode_of_payload valid payload]
      split <;> simp_all
    · exact frame_of_fits valid payload
  · have payload := ByteMessage.payload_identifyOf u h host
    have valid : ByteType.validCode? (ByteMessage.identifyOf host (.string u) (.string h)).code =
        some 1 := by
      rw [ByteMessage.code_identifyOf]
      exact validCode_one
    refine ⟨payload, ByteMessage.toUtf8_identity u h, ?_⟩
    rw [encode_of_payload valid payload]
    split <;> simp_all

/-- A code with no text, an object without prototype, is no byte code, yet encoding it is not
refused as an invalid key: wording the refusal fails first, with the host's error. -/
theorem code_without_text_fails_as_host_error :
    ¬ ByteType.IsByteCode (⟨.custom ⟨"Z", .object .noPrototype [], [], .keep⟩, [], none⟩ : ByteMessage).code ∧
    encode ⟨.custom ⟨"Z", .object .noPrototype [], [], .keep⟩, [], none⟩ =
      .error (.host .objectToPrimitive) := by
  have code : (⟨.custom ⟨"Z", .object .noPrototype [], [], .keep⟩, [], none⟩ : ByteMessage).code =
      .object .noPrototype [] := rfl
  have noText : (Value.object .noPrototype []).display = .error .objectToPrimitive := by
    simp [Value.display, Value.toText, Value.objectText, Value.valueOfText, Props.get?]
  refine ⟨?_, ?_⟩
  · rintro ⟨x, coded, -⟩
    rw [code] at coded
    cases coded
  · rw [encode_of_invalid (by rw [code]; rfl), code, Fault.invalid_of_display_error noText]

end ByteFrames

end PeerMessaging
