import PeerMessaging.Text.Units
/-!
UTF-8 for `Text`. Writing turns each lone surrogate into U+FFFD (`EF BF BD`). Reading is strict:
an overlong form, an encoded surrogate, a value above U+10FFFF or a cut sequence refuses the
whole input, and one leading byte order mark is dropped.
-/

namespace PeerMessaging

namespace Text

/-- The UTF-8 bytes of one code point below U+110000. -/
def utf8OfCodePoint (n : Nat) : List UInt8 :=
  if n < 0x80 then [n.toUInt8]
  else if n < 0x800 then [(0xC0 + n / 0x40).toUInt8, (0x80 + n % 0x40).toUInt8]
  else if n < 0x10000 then
    [(0xE0 + n / 0x1000).toUInt8, (0x80 + n / 0x40 % 0x40).toUInt8, (0x80 + n % 0x40).toUInt8]
  else
    [(0xF0 + n / 0x40000).toUInt8, (0x80 + n / 0x1000 % 0x40).toUInt8,
      (0x80 + n / 0x40 % 0x40).toUInt8, (0x80 + n % 0x40).toUInt8]

def replacementBytes : List UInt8 := [0xEF, 0xBF, 0xBD]

def utf8OfUnits : List UInt16 → List UInt8
  | [] => []
  | [u] => if isHighSurrogate u || isLowSurrogate u then replacementBytes else utf8OfCodePoint u.toNat
  | u :: v :: rest =>
    if isHighSurrogate u && isLowSurrogate v then utf8OfCodePoint (pairCodePoint u v) ++ utf8OfUnits rest
    else if isHighSurrogate u || isLowSurrogate u then replacementBytes ++ utf8OfUnits (v :: rest)
    else utf8OfCodePoint u.toNat ++ utf8OfUnits (v :: rest)

def toUtf8 (t : Text) : List UInt8 := utf8OfUnits t.units

def wellFormedUnits : List UInt16 → List UInt16
  | [] => []
  | [u] => [if isHighSurrogate u || isLowSurrogate u then 0xFFFD else u]
  | u :: v :: rest =>
    if isHighSurrogate u && isLowSurrogate v then u :: v :: wellFormedUnits rest
    else (if isHighSurrogate u || isLowSurrogate u then 0xFFFD else u) :: wellFormedUnits (v :: rest)

def toWellFormed (t : Text) : Text := ⟨wellFormedUnits t.units⟩

def isContinuation (b : UInt8) : Bool := 0x80 ≤ b && b ≤ 0xBF

def payloadBits (b : UInt8) : Nat := b.toNat % 0x40

/-- Strict UTF-8 reading into units: the second byte of a three- or four-byte form is held to
the narrower range that excludes overlong forms, surrogates and values above U+10FFFF. -/
def unitsOfUtf8 : List UInt8 → Option (List UInt16)
  | [] => some []
  | b :: rest =>
    if b < 0x80 then (unitsOfUtf8 rest).map (b.toUInt16 :: ·)
    else if 0xC2 ≤ b && b ≤ 0xDF then
      match rest with
      | c :: rest' =>
        if isContinuation c then
          (unitsOfUtf8 rest').map (unitsOfCodePoint ((b.toNat - 0xC0) * 0x40 + payloadBits c) ++ ·)
        else none
      | [] => none
    else if 0xE0 ≤ b && b ≤ 0xEF then
      let lo : UInt8 := if b == 0xE0 then 0xA0 else 0x80
      let hi : UInt8 := if b == 0xED then 0x9F else 0xBF
      match rest with
      | c :: d :: rest' =>
        if lo ≤ c && c ≤ hi && isContinuation d then
          (unitsOfUtf8 rest').map
            (unitsOfCodePoint ((b.toNat - 0xE0) * 0x1000 + payloadBits c * 0x40 + payloadBits d) ++ ·)
        else none
      | _ => none
    else if 0xF0 ≤ b && b ≤ 0xF4 then
      let lo : UInt8 := if b == 0xF0 then 0x90 else 0x80
      let hi : UInt8 := if b == 0xF4 then 0x8F else 0xBF
      match rest with
      | c :: d :: e :: rest' =>
        if lo ≤ c && c ≤ hi && isContinuation d && isContinuation e then
          (unitsOfUtf8 rest').map (unitsOfCodePoint ((b.toNat - 0xF0) * 0x40000 +
            payloadBits c * 0x1000 + payloadBits d * 0x40 + payloadBits e) ++ ·)
        else none
      | _ => none
    else none

def dropByteOrderMark : List UInt16 → List UInt16
  | 0xFEFF :: rest => rest
  | units => units

def ofUtf8? (bytes : List UInt8) : Option Text :=
  (unitsOfUtf8 bytes).map fun units => ⟨dropByteOrderMark units⟩

end Text

end PeerMessaging
