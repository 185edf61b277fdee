import PeerMessaging.Proofs.Utf8
/-!
UTF-8 forms. A byte sequence is well-formed UTF-8 when it is the UTF-8 form of a sequence of
Unicode scalar values, the code points below U+110000 that are not surrogates. Each value has one
form, its shortest, so an overlong form, an encoded surrogate, a value above U+10FFFF or a cut
sequence is the form of nothing. The strict reader accepts exactly the well-formed sequences, and
reads each as the UTF-16 units of its values.
-/

namespace PeerMessaging.Text

def IsScalar (n : Nat) : Prop := n < 0x110000 ∧ (n < 0xD800 ∨ 0xE000 ≤ n)

instance (n : Nat) : Decidable (IsScalar n) :=
  inferInstanceAs (Decidable (n < 0x110000 ∧ (n < 0xD800 ∨ 0xE000 ≤ n)))

/-- `bytes` is the UTF-8 form of a sequence of scalar values whose UTF-16 units are `units`. -/
def Utf8Form (bytes : List UInt8) (units : List UInt16) : Prop :=
  ∃ points : List Nat, (∀ p ∈ points, IsScalar p) ∧
    bytes = (points.map utf8OfCodePoint).flatten ∧ units = (points.map unitsOfCodePoint).flatten

theorem Utf8Form.nil : Utf8Form [] [] := ⟨[], by simp, rfl, rfl⟩

theorem Utf8Form.cons {p : Nat} {bytes : List UInt8} {units : List UInt16} (scalar : IsScalar p)
    (rest : Utf8Form bytes units) :
    Utf8Form (utf8OfCodePoint p ++ bytes) (unitsOfCodePoint p ++ units) := by
  obtain ⟨points, scalars, rfl, rfl⟩ := rest
  refine ⟨p :: points, ?_, rfl, rfl⟩
  intro q member
  rcases List.mem_cons.mp member with rfl | later
  · exact scalar
  · exact scalars q later

theorem unitsOfUtf8_of_form {bytes : List UInt8} {units : List UInt16}
    (form : Utf8Form bytes units) : unitsOfUtf8 bytes = some units := by
  obtain ⟨points, scalars, rfl, rfl⟩ := form
  induction points with
  | nil => rfl
  | cons p points ih =>
    have scalar := scalars p (by simp)
    simp only [List.map_cons, List.flatten_cons]
    rw [decode_utf8OfCodePoint p _ scalar.1 scalar.2, ih (fun q member => scalars q (by simp [member]))]
    rfl

/-!
## Each accepted lead byte starts the form of one scalar value

The reader's ranges for the lead byte and the byte after it are those of the shortest forms, so
the code point it assembles is a scalar value whose form is exactly the bytes it read.
-/

section Forms

variable {b c d e : UInt8}

theorem form_one (lead : b < 0x80) :
    IsScalar b.toNat ∧ utf8OfCodePoint b.toNat = [b] ∧ unitsOfCodePoint b.toNat = [b.toUInt16] := by
  simp only [UInt8.lt_iff_toNat_lt, UInt8.reduceToNat] at lead
  refine ⟨⟨by omega, by omega⟩, ?_, ?_⟩
  · simp [utf8OfCodePoint, show b.toNat < 0x80 from lead]
  · simp only [unitsOfCodePoint, if_pos (show b.toNat < 0x10000 by omega), List.cons.injEq, and_true]
    apply UInt16.toNat.inj
    simp

theorem form_two (lead : 0xC2 ≤ b ∧ b ≤ 0xDF) (tail : isContinuation c) :
    IsScalar ((b.toNat - 0xC0) * 0x40 + payloadBits c) ∧
      utf8OfCodePoint ((b.toNat - 0xC0) * 0x40 + payloadBits c) = [b, c] := by
  simp only [isContinuation, Bool.and_eq_true, decide_eq_true_eq, UInt8.le_iff_toNat_le] at lead tail
  simp only [payloadBits, UInt8.reduceToNat] at lead tail ⊢
  refine ⟨⟨by omega, by omega⟩, ?_⟩
  unfold utf8OfCodePoint
  rw [if_neg (by omega), if_pos (by omega)]
  simp only [List.cons.injEq, and_true]
  constructor <;> apply UInt8.toNat.inj <;> simp <;> omega

-- The second byte keeps the value of a three-byte form at U+0800 or above and away from the
-- surrogates.
theorem form_three (lead : 0xE0 ≤ b ∧ b ≤ 0xEF)
    (second : (if b = 0xE0 then 0xA0 else 0x80) ≤ c ∧ c ≤ (if b = 0xED then 0x9F else 0xBF))
    (tail : isContinuation d) :
    IsScalar ((b.toNat - 0xE0) * 0x1000 + payloadBits c * 0x40 + payloadBits d) ∧
      utf8OfCodePoint ((b.toNat - 0xE0) * 0x1000 + payloadBits c * 0x40 + payloadBits d) = [b, c, d] := by
  have low : b.toNat = 0xE0 → 0xA0 ≤ c.toNat := by
    intro first
    have : b = 0xE0 := UInt8.toNat.inj first
    simpa [this, UInt8.le_iff_toNat_le] using second.1
  have high : b.toNat = 0xED → c.toNat ≤ 0x9F := by
    intro surrogates
    have : b = 0xED := UInt8.toNat.inj surrogates
    simpa [this, UInt8.le_iff_toNat_le] using second.2
  have range : 0x80 ≤ c.toNat ∧ c.toNat ≤ 0xBF := by
    constructor
    · have := second.1
      split at this <;> simp [UInt8.le_iff_toNat_le] at this <;> omega
    · have := second.2
      split at this <;> simp [UInt8.le_iff_toNat_le] at this <;> omega
  simp only [isContinuation, Bool.and_eq_true, decide_eq_true_eq, UInt8.le_iff_toNat_le] at lead tail
  simp only [payloadBits, UInt8.reduceToNat] at lead tail ⊢
  refine ⟨⟨by omega, by omega⟩, ?_⟩
  unfold utf8OfCodePoint
  rw [if_neg (by omega), if_neg (by omega), if_pos (by omega)]
  simp only [List.cons.injEq, and_true]
  refine ⟨?_, ?_, ?_⟩ <;> apply UInt8.toNat.inj <;> simp <;> omega

-- The second byte keeps the value of a four-byte form at U+10000 or above and at U+10FFFF or below.
theorem form_four (lead : 0xF0 ≤ b ∧ b ≤ 0xF4)
    (second : (if b = 0xF0 then 0x90 else 0x80) ≤ c ∧ c ≤ (if b = 0xF4 then 0x8F else 0xBF))
    (third : isContinuation d) (fourth : isContinuation e) :
    IsScalar ((b.toNat - 0xF0) * 0x40000 + payloadBits c * 0x1000 + payloadBits d * 0x40 +
        payloadBits e) ∧
      utf8OfCodePoint ((b.toNat - 0xF0) * 0x40000 + payloadBits c * 0x1000 + payloadBits d * 0x40 +
        payloadBits e) = [b, c, d, e] := by
  have low : b.toNat = 0xF0 → 0x90 ≤ c.toNat := by
    intro first
    have : b = 0xF0 := UInt8.toNat.inj first
    simpa [this, UInt8.le_iff_toNat_le] using second.1
  have high : b.toNat = 0xF4 → c.toNat ≤ 0x8F := by
    intro last
    have : b = 0xF4 := UInt8.toNat.inj last
    simpa [this, UInt8.le_iff_toNat_le] using second.2
  have range : 0x80 ≤ c.toNat ∧ c.toNat ≤ 0xBF := by
    constructor
    · have := second.1
      split at this <;> simp [UInt8.le_iff_toNat_le] at this <;> omega
    · have := second.2
      split at this <;> simp [UInt8.le_iff_toNat_le] at this <;> omega
  simp only [isContinuation, Bool.and_eq_true, decide_eq_true_eq, UInt8.le_iff_toNat_le]
    at lead third fourth
  simp only [payloadBits, UInt8.reduceToNat] at lead third fourth ⊢
  refine ⟨⟨by omega, by omega⟩, ?_⟩
  unfold utf8OfCodePoint
  rw [if_neg (by omega), if_neg (by omega), if_neg (by omega)]
  simp only [List.cons.injEq, and_true]
  refine ⟨?_, ?_, ?_, ?_⟩ <;> apply UInt8.toNat.inj <;> simp <;> omega

end Forms

/-- Whatever the reader accepts is the UTF-8 form of scalar values, read as their units. -/
theorem form_of_unitsOfUtf8 {bytes : List UInt8} {units : List UInt16}
    (read : unitsOfUtf8 bytes = some units) : Utf8Form bytes units := by
  -- one case per way the reader goes on: a value read off the front and the rest read after it,
  -- or a refusal
  fun_induction unitsOfUtf8 bytes generalizing units with
  | case1 =>
    cases read
    exact .nil
  | case2 b rest lead ih =>
    obtain ⟨after, readRest, rfl⟩ := Option.map_eq_some_iff.mp read
    obtain ⟨scalar, bytesOf, unitsOf⟩ := form_one lead
    have form := (ih readRest).cons scalar
    rwa [bytesOf, unitsOf] at form
  | case3 b notOne lead c rest tail ih =>
    obtain ⟨after, readRest, rfl⟩ := Option.map_eq_some_iff.mp read
    simp only [Bool.and_eq_true, decide_eq_true_eq] at lead
    obtain ⟨scalar, bytesOf⟩ := form_two lead tail
    have form := (ih readRest).cons scalar
    rwa [bytesOf] at form
  | case6 b notOne notTwo lead lo hi c d rest second =>
    rename_i ih
    obtain ⟨after, readRest, rfl⟩ := Option.map_eq_some_iff.mp read
    simp only [lo, hi, Bool.and_eq_true, decide_eq_true_eq, beq_iff_eq] at lead second
    obtain ⟨scalar, bytesOf⟩ := form_three lead ⟨second.1.1, second.1.2⟩ second.2
    have form := (ih readRest).cons scalar
    rwa [bytesOf] at form
  | case9 b notOne notTwo notThree lead lo hi c d e rest second =>
    rename_i ih
    obtain ⟨after, readRest, rfl⟩ := Option.map_eq_some_iff.mp read
    simp only [lo, hi, Bool.and_eq_true, decide_eq_true_eq, beq_iff_eq] at lead second
    obtain ⟨scalar, bytesOf⟩ := form_four lead ⟨second.1.1.1, second.1.1.2⟩ second.1.2 second.2
    have form := (ih readRest).cons scalar
    rwa [bytesOf] at form
  | case4 | case5 | case7 | case8 | case10 | case11 | case12 => cases read

theorem unitsOfUtf8_eq_some_iff {bytes : List UInt8} {units : List UInt16} :
    unitsOfUtf8 bytes = some units ↔ Utf8Form bytes units :=
  ⟨form_of_unitsOfUtf8, unitsOfUtf8_of_form⟩

/-!
## Writing a form back

A scalar value below U+10000 is one unit that is no surrogate, and one above it is a surrogate
pair, so the writer turns the units of a form back into exactly the form's bytes.
-/

theorem utf8OfUnits_unit_cons {u : UInt16} (unit : ¬ (isHighSurrogate u || isLowSurrogate u))
    (rest : List UInt16) : utf8OfUnits (u :: rest) = utf8OfCodePoint u.toNat ++ utf8OfUnits rest := by
  have notHigh : isHighSurrogate u = false := by simp_all
  have notLow : isLowSurrogate u = false := by simp_all
  cases rest with
  | nil => simp [utf8OfUnits, unit]
  | cons v rest => simp [utf8OfUnits, notHigh, notLow]

theorem utf8OfUnits_codePoint_append {p : Nat} (scalar : IsScalar p) (rest : List UInt16) :
    utf8OfUnits (unitsOfCodePoint p ++ rest) = utf8OfCodePoint p ++ utf8OfUnits rest := by
  obtain ⟨below, notSurrogate⟩ := scalar
  by_cases small : p < 0x10000
  · -- one unit, which is no surrogate
    have back : p.toUInt16.toNat = p := by simp; omega
    have unit : ¬ (isHighSurrogate p.toUInt16 || isLowSurrogate p.toUInt16) := by
      simp only [isHighSurrogate, isLowSurrogate, UInt16.le_iff_toNat_le, back]
      simp
      omega
    rw [unitsOfCodePoint, if_pos small, List.singleton_append, utf8OfUnits_unit_cons unit, back]
  · -- a surrogate pair, whose code point is `p`
    have high : isHighSurrogate (0xD800 + (p - 0x10000) / 0x400).toUInt16 := by
      simp [isHighSurrogate, UInt16.le_iff_toNat_le]
      omega
    have low : isLowSurrogate (0xDC00 + (p - 0x10000) % 0x400).toUInt16 := by
      simp [isLowSurrogate, UInt16.le_iff_toNat_le]
      omega
    have highNat : (0xD800 + (p - 0x10000) / 0x400).toUInt16.toNat = 0xD800 + (p - 0x10000) / 0x400 := by
      simp
      omega
    have lowNat : (0xDC00 + (p - 0x10000) % 0x400).toUInt16.toNat = 0xDC00 + (p - 0x10000) % 0x400 := by
      simp
      omega
    have point : pairCodePoint (0xD800 + (p - 0x10000) / 0x400).toUInt16
        (0xDC00 + (p - 0x10000) % 0x400).toUInt16 = p := by
      unfold pairCodePoint
      rw [highNat, lowNat]
      omega
    rw [unitsOfCodePoint, if_neg small, List.cons_append, List.cons_append, List.nil_append]
    simp only [utf8OfUnits, high, low, Bool.and_self, if_true, point]

theorem utf8OfUnits_of_form {bytes : List UInt8} {units : List UInt16} (form : Utf8Form bytes units) :
    utf8OfUnits units = bytes := by
  obtain ⟨points, scalars, rfl, rfl⟩ := form
  induction points with
  | nil => rfl
  | cons p points ih =>
    simp only [List.map_cons, List.flatten_cons]
    rw [utf8OfUnits_codePoint_append (scalars p (by simp)),
      ih (fun q member => scalars q (by simp [member]))]

theorem marked_of_form {bytes : List UInt8} {rest : List UInt16} (form : Utf8Form bytes (0xFEFF :: rest)) :
    [0xEF, 0xBB, 0xBF] <+: bytes := by
  rw [← utf8OfUnits_of_form form, utf8OfUnits_unit_cons (by decide)]
  exact ⟨_, rfl⟩

theorem dropByteOrderMark_of_unmarked {bytes : List UInt8} {units : List UInt16}
    (form : Utf8Form bytes units) (unmarked : ¬ [0xEF, 0xBB, 0xBF] <+: bytes) :
    dropByteOrderMark units = units := by
  cases units with
  | nil => rfl
  | cons u rest =>
    by_cases mark : u = 0xFEFF
    · subst mark
      exact absurd (marked_of_form form) unmarked
    · simp [dropByteOrderMark, mark]

end PeerMessaging.Text
