import PeerMessaging.Number.Shortest
/-!
Number text: the shortest decimal, written positionally while the decimal point stays within
reach, otherwise as one digit, a fraction and a signed exponent.
-/

namespace PeerMessaging

namespace Number

/-- The decisions of a number format. With the decimal `0.d₁…dₖ · 10^n`, the text is
positional for `lowestPoint < n ≤ highestPoint` and in exponent form otherwise. -/
structure NumberFormat where
  lowestPoint : Int
  highestPoint : Int
  exponentMark : String
  plusOnExponent : Bool
  notANumber : String
  infinity : String

def NumberFormat.standard : NumberFormat :=
  ⟨-6, 21, "e", true, "NaN", "Infinity"⟩

def digitText (ds : List Nat) : String := String.ofList (ds.map fun d => Char.ofNat (48 + d))

/-- The text of a decimal with digits `ds` and point position `n`, without sign. -/
def NumberFormat.placeDigits (f : NumberFormat) (ds : List Nat) (n : Int) : String :=
  let k : Int := ds.length
  if k ≤ n ∧ n ≤ f.highestPoint then digitText ds ++ String.ofList (List.replicate (n - k).toNat '0')
  else if 0 < n ∧ n ≤ f.highestPoint then
    digitText (ds.take n.toNat) ++ "." ++ digitText (ds.drop n.toNat)
  else if f.lowestPoint < n ∧ n ≤ 0 then
    "0." ++ String.ofList (List.replicate (-n).toNat '0') ++ digitText ds
  else
    let power := n - 1
    let sign := if power < 0 then "-" else if f.plusOnExponent then "+" else ""
    let mantissa := match ds with
      | [d] => digitText [d]
      | d :: rest => digitText [d] ++ "." ++ digitText rest
      | [] => "0"
    mantissa ++ f.exponentMark ++ sign ++ toString power.natAbs

/-- The text of a number in format `f`. -/
def NumberFormat.render (f : NumberFormat) (x : Float) : String :=
  if x.isNaN then f.notANumber
  else if x == 0 then "0"
  else
    let sign := if isNegative x then "-" else ""
    if x.isInf then sign ++ f.infinity
    else
      let d := shortestOf x
      let ds := digitsOf d.digits
      sign ++ f.placeDigits ds (d.exponent + ds.length)

def render (x : Float) : String := NumberFormat.standard.render x

end Number

end PeerMessaging
