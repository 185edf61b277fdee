
/-!
The fields of a binary64 number. A finite number is `(-1)^s · m · 2^q` with an integer
significand `m < 2^53`; subnormals share the exponent `-1074`. `ofParts` writes such a triple
back, sending an exponent past the largest finite one to infinity.
-/

/-!
## Decimal lengths and powers

Decimal lengths and powers in exact natural arithmetic, shared by the reader and the printer.
-/
namespace PeerMessaging

namespace Number

def decimalLength (n : Nat) : Nat :=
  if n < 10 then 1 else decimalLength (n / 10) + 1

def crossScaled (num : Nat) (p : Int) (den : Nat) (e : Int) : Nat × Nat :=
  (num * Nat.pow 2 p.toNat * Nat.pow 10 (-e).toNat, den * Nat.pow 10 e.toNat * Nat.pow 2 (-p).toNat)

def digitsOf (n : Nat) : List Nat :=
  if n < 10 then [n] else digitsOf (n / 10) ++ [n % 10]

end Number

end PeerMessaging

namespace PeerMessaging

namespace Number

def fractionBits : Nat := 52

def minExponent : Int := -1074

def maxExponent : Int := 971

def isNegative (x : Float) : Bool := x.toBits >>> 63 == 1

def exponentField (x : Float) : Nat := (x.toBits >>> 52).toNat % 0x800

def fractionField (x : Float) : Nat := x.toBits.toNat % Nat.pow 2 fractionBits

def significand (x : Float) : Nat :=
  if exponentField x = 0 then fractionField x else fractionField x + Nat.pow 2 fractionBits

def exponent (x : Float) : Int :=
  if exponentField x = 0 then minExponent else (exponentField x : Int) - 1075

def ofParts (negative : Bool) (m : Nat) (q : Int) : Float :=
  let sign : Nat := if negative then Nat.pow 2 63 else 0
  if maxExponent < q then Float.ofBits (sign + 0x7FF * Nat.pow 2 fractionBits).toUInt64
  else if m < Nat.pow 2 fractionBits then Float.ofBits (sign + m).toUInt64
  else Float.ofBits (sign + (q + 1075).toNat * Nat.pow 2 fractionBits + (m - Nat.pow 2 fractionBits)).toUInt64

def infinity : Float := ofParts false 0 (maxExponent + 1)

def negativeZero : Float := ofParts true 0 minExponent

def isNegativeZero (x : Float) : Bool := x == 0 && isNegative x

def isInteger (x : Float) : Bool := x.isFinite && significand x % Nat.pow 2 (-exponent x).toNat == 0

def wholePart (x : Float) : Nat :=
  if exponent x ≥ 0 then significand x * Nat.pow 2 (exponent x).toNat
  else significand x / Nat.pow 2 (-exponent x).toNat

def ceilPart (x : Float) : Nat :=
  if exponent x ≥ 0 then significand x * Nat.pow 2 (exponent x).toNat
  else (significand x + Nat.pow 2 (-exponent x).toNat - 1) / Nat.pow 2 (-exponent x).toNat

def integerValue? (x : Float) : Option Int :=
  if isInteger x then
    let m : Int := significand x
    let v : Int := if exponent x ≥ 0 then m * Nat.pow 2 (exponent x).toNat else m / Nat.pow 2 (-exponent x).toNat
    some (if isNegative x then -v else v)
  else none

/-- Where a number falls as a bound of a slice of `len` items: it is cut to a whole number
toward zero first (not-a-number counts as zero, and so does a fraction above `-1`), a bound that
is still negative counts back from the end, and the place is clamped to `0..len`. -/
def sliceBound (x : Float) (len : Nat) : Nat :=
  if x.isNaN || x.abs < 1 then 0
  else if x < 0 then
    -- `len` is whole, so the magnitude reaches it exactly when its whole part does.
    if -x ≥ len.toFloat then 0 else len - wholePart x
  else if x ≥ len.toFloat then len
  else wholePart x

end Number

end PeerMessaging
