import PeerMessaging.Number.Binary
/-!
The shortest decimal of a finite positive binary64 number `m · 2^q`.

Every real strictly between the number and the midpoints to its two neighbours reads back as the
number; the midpoints themselves read back as it when `m` is even (a tie goes to the even
significand). Measured in units of `2^(q-2)` the number is `4m`, the upper midpoint `4m + 2`,
and the lower one `4m - 2`, or `4m - 1` at the bottom of a binade, where the gap below halves.

For `k = 1, 2, …, 17` digits the two neighbours of the number on the grid of `k`-digit decimals
are tested in exact arithmetic; the first grid with a hit wins, of two hits the nearer, and of
two equally near the even one. Seventeen digits always hit.
-/

namespace PeerMessaging

namespace Number

/-- A decimal `digits · 10^exponent`. -/
structure Decimal where
  digits : Nat
  exponent : Int
  deriving DecidableEq, Repr

def compareScaled (x : Nat) (p : Int) (s : Nat) (e : Int) : Ordering :=
  compare (x * Nat.pow 2 p.toNat * Nat.pow 10 (-e).toNat) (s * Nat.pow 10 e.toNat * Nat.pow 2 (-p).toNat)

def lowerEnd (m : Nat) (q : Int) : Nat :=
  if m = Nat.pow 2 fractionBits ∧ minExponent < q then 4 * m - 1 else 4 * m - 2

def readsBackAs (m : Nat) (q : Int) (s : Nat) (e : Int) : Bool :=
  let lo := compareScaled (lowerEnd m q) (q - 2) s e
  let hi := compareScaled (4 * m + 2) (q - 2) s e
  if m % 2 = 0 then lo != .gt && hi != .lt else lo == .lt && hi == .gt

def leadingExponent (m : Nat) (q : Int) : Int :=
  let num := m * Nat.pow 2 q.toNat
  let den := Nat.pow 2 (-q).toNat
  let shift := decimalLength den
  (decimalLength (num * Nat.pow 10 shift / den) : Int) - 1 - shift

/-- The decimal on the `k`-digit grid that is nearest to `m · 2^q` and reads back as it. -/
def gridHit (m : Nat) (q : Int) (k : Nat) : Option Decimal :=
  let e := leadingExponent m q - k + 1
  let below := m * Nat.pow 2 q.toNat * Nat.pow 10 (-e).toNat / (Nat.pow 10 e.toNat * Nat.pow 2 (-q).toNat)
  let above := below + 1
  match readsBackAs m q below e, readsBackAs m q above e with
  | true, true =>
    match compareScaled (2 * m) q (2 * below + 1) e with
    | .lt => some ⟨below, e⟩
    | .gt => some ⟨above, e⟩
    | .eq => some (if below % 2 = 0 then ⟨below, e⟩ else ⟨above, e⟩)
  | true, false => some ⟨below, e⟩
  | false, true => some ⟨above, e⟩
  | false, false => none

def Decimal.trim (d : Decimal) : Decimal :=
  if d.digits ≠ 0 ∧ d.digits % 10 = 0 then Decimal.trim ⟨d.digits / 10, d.exponent + 1⟩ else d
termination_by d.digits
decreasing_by omega

def shortest (m : Nat) (q : Int) : Decimal :=
  match (List.range 17).findSome? fun i => gridHit m q (i + 1) with
  | some d => d.trim
  | none => ⟨m, 0⟩

def shortestOf (x : Float) : Decimal := shortest (significand x) (exponent x)

end Number

end PeerMessaging
