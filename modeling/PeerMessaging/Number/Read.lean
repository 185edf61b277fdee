import PeerMessaging.Text.Units
import PeerMessaging.Number.Binary
/-!
Reading text as a number, the conversion that the host applies to option values and tagged
numbers. Blank units are trimmed from both ends; blank text is zero. What remains is an
`Infinity` or a decimal with optional sign, fraction and exponent, or an unsigned `0x`, `0o` or
`0b` integer. Anything else is not a number. Text read as a big integer follows the same
layout without fractions, exponents or infinity.
-/

/-!
## Rounding to nearest

Rounding an exact ratio to the nearest binary64 number, a tie going to the even significand.

The significand is the quotient `num · 2^-q / den` for the exponent `q` that puts it in
`[2^52, 2^53)`, or `q = -1074` for the subnormals; the remainder decides the rounding. A carry
into `2^53` moves to the next binade, and an exponent past the largest gives infinity.
-/
namespace PeerMessaging

namespace Number

def floorLog2Ratio (num den : Nat) : Int :=
  let t : Int := (Nat.log2 num : Int) - Nat.log2 den
  if num * Nat.pow 2 (-t).toNat ≥ den * Nat.pow 2 t.toNat then t else t - 1

/-- The nearest number to `num / den` with the given sign; ties go to the even significand. -/
def roundRatio (negative : Bool) (num den : Nat) : Float :=
  if num = 0 ∨ den = 0 then ofParts negative 0 minExponent
  else
    let q := max (floorLog2Ratio num den - fractionBits) minExponent
    let a := num * Nat.pow 2 (-q).toNat
    let b := den * Nat.pow 2 q.toNat
    let m := a / b
    let r := a % b
    let m := if 2 * r > b ∨ (2 * r = b ∧ m % 2 = 1) then m + 1 else m
    if m = Nat.pow 2 (fractionBits + 1) then ofParts negative (Nat.pow 2 fractionBits) (q + 1)
    else ofParts negative m q

def roundDecimal (negative : Bool) (digits : Nat) (exp10 : Int) : Float :=
  if digits = 0 then ofParts negative 0 minExponent
  else if exp10 + decimalLength digits > 310 then ofParts negative 0 (maxExponent + 1)
  else if exp10 + decimalLength digits < -330 then ofParts negative 0 minExponent
  else roundRatio negative (digits * Nat.pow 10 exp10.toNat) (Nat.pow 10 (-exp10).toNat)

end Number

end PeerMessaging

namespace PeerMessaging

namespace Number

def isBlankUnit (u : UInt16) : Bool :=
  u == 0x09 || u == 0x0A || u == 0x0B || u == 0x0C || u == 0x0D || u == 0x20 || u == 0xA0 ||
    u == 0x1680 || (0x2000 ≤ u && u ≤ 0x200A) || u == 0x2028 || u == 0x2029 || u == 0x202F ||
    u == 0x205F || u == 0x3000 || u == 0xFEFF

def digitValue (base : Nat) (u : UInt16) : Option Nat :=
  let n := u.toNat
  let v := if 0x30 ≤ n ∧ n ≤ 0x39 then n - 0x30
    else if 0x61 ≤ n ∧ n ≤ 0x7A then n - 0x61 + 10
    else if 0x41 ≤ n ∧ n ≤ 0x5A then n - 0x41 + 10
    else base
  if v < base then some v else none

def isDecimalDigit (u : UInt16) : Bool := 0x30 ≤ u && u ≤ 0x39

def digitsValue (base : Nat) (units : List UInt16) : Option Nat :=
  units.foldlM (fun acc u => (digitValue base u).map (acc * base + ·)) 0

def radixInteger (base : Nat) (units : List UInt16) : Float :=
  if units.isEmpty then 0.0 / 0.0
  else match digitsValue base units with
    | some n => roundRatio false n 1
    | none => 0.0 / 0.0

def unitsOf (s : String) : List UInt16 := (Text.ofString s).units

/-- An unsigned decimal literal: digits, an optional fraction and an optional exponent, with at
least one digit before the exponent. -/
def unsignedDecimal (negative : Bool) (units : List UInt16) : Option Float :=
  let whole := units.takeWhile isDecimalDigit
  let rest := units.dropWhile isDecimalDigit
  let (fraction, rest) := match rest with
    | 0x2E :: r => (r.takeWhile isDecimalDigit, r.dropWhile isDecimalDigit)
    | r => ([], r)
  if whole.isEmpty ∧ fraction.isEmpty then none
  else
    let exponent : Option Int := match rest with
      | [] => some 0
      | e :: r =>
        if e == 0x65 || e == 0x45 then
          let (sign, ds) : Int × List UInt16 := match r with
            | 0x2B :: ds => (1, ds)
            | 0x2D :: ds => (-1, ds)
            | ds => (1, ds)
          if !ds.isEmpty && ds.all isDecimalDigit then (digitsValue 10 ds).map fun n => sign * n
          else none
        else none
    exponent.bind fun e =>
      (digitsValue 10 (whole ++ fraction)).map fun d => roundDecimal negative d (e - fraction.length)

def signedDecimal (units : List UInt16) : Option Float :=
  let (negative, body) := match units with
    | 0x2D :: r => (true, r)
    | 0x2B :: r => (false, r)
    | r => (false, r)
  if body == unitsOf "Infinity" then some (if negative then -infinity else infinity)
  else unsignedDecimal negative body

/-- The number that text denotes, or not-a-number. -/
def ofText (t : Text) : Float :=
  let units := ((t.units.dropWhile isBlankUnit).reverse.dropWhile isBlankUnit).reverse
  match units with
  | [] => 0
  | 0x30 :: p :: ds =>
    if p == 0x78 || p == 0x58 then radixInteger 16 ds
    else if p == 0x6F || p == 0x4F then radixInteger 8 ds
    else if p == 0x62 || p == 0x42 then radixInteger 2 ds
    else (signedDecimal units).getD (0.0 / 0.0)
  | _ => (signedDecimal units).getD (0.0 / 0.0)

def trimBlank (units : List UInt16) : List UInt16 :=
  ((units.dropWhile isBlankUnit).reverse.dropWhile isBlankUnit).reverse

/-- The integer that text denotes as a big integer, if it denotes one: after trimming, blank
text is zero, a `0x`, `0o` or `0b` prefix takes digits of its base and no sign, and otherwise an
optional sign precedes decimal digits. A fraction, an exponent or `Infinity` is refused. -/
def bigintOfText? (t : Text) : Option Int :=
  match trimBlank t.units with
  | [] => some 0
  | 0x30 :: p :: ds =>
    let base := if p == 0x78 || p == 0x58 then 16 else if p == 0x6F || p == 0x4F then 8
      else if p == 0x62 || p == 0x42 then 2 else 10
    if base == 10 then
      if (0x30 :: p :: ds).all isDecimalDigit then (digitsValue 10 (0x30 :: p :: ds)).map Int.ofNat
      else none
    else if ds.isEmpty then none
    else (digitsValue base ds).map Int.ofNat
  | units =>
    let (negative, body) := match units with
      | 0x2D :: r => (true, r)
      | 0x2B :: r => (false, r)
      | r => (false, r)
    if body.isEmpty || !body.all isDecimalDigit then none
    else (digitsValue 10 body).map fun n => if negative then -(n : Int) else n

end Number

end PeerMessaging
