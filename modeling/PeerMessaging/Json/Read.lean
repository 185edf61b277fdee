import PeerMessaging.Value.Basic
import PeerMessaging.Number.Read
/-!
Reading JSON text into host values. The grammar is strict: white space is space, tab, line feed
and carriage return only; numbers have no leading zeros, no bare point and no plus sign; strings
hold no raw control unit and only the escapes `\" \\ \/ \b \f \n \r \t \uXXXX`. A `\u` escape may
produce a lone surrogate. Numbers round to the nearest binary64 value, so `1e400` is infinite.
A repeated key keeps its first place and takes its last value.
-/

namespace PeerMessaging

namespace Json

def isBlank (u : UInt16) : Bool := u == 0x20 || u == 0x09 || u == 0x0A || u == 0x0D

def skipBlank (input : List UInt16) : List UInt16 := input.dropWhile isBlank

def isDigit (u : UInt16) : Bool := 0x30 ≤ u && u ≤ 0x39

def hexDigit (u : UInt16) : Option Nat :=
  if 0x30 ≤ u && u ≤ 0x39 then some (u.toNat - 0x30)
  else if 0x61 ≤ u && u ≤ 0x66 then some (u.toNat - 0x61 + 10)
  else if 0x41 ≤ u && u ≤ 0x46 then some (u.toNat - 0x41 + 10)
  else none

/-- The unit that a one-letter escape stands for. -/
def escapeUnit : UInt16 → Option UInt16
  | 0x22 => some 0x22
  | 0x5C => some 0x5C
  | 0x2F => some 0x2F
  | 0x62 => some 0x08
  | 0x66 => some 0x0C
  | 0x6E => some 0x0A
  | 0x72 => some 0x0D
  | 0x74 => some 0x09
  | _ => none

/-- The body of a string after its opening quote: its units and what follows the closing quote.
`acc` holds the units read so far, last first. -/
def readString (acc : List UInt16) : List UInt16 → Option (List UInt16 × List UInt16)
  | [] => none
  | 0x22 :: rest => some (acc.reverse, rest)
  | 0x5C :: 0x75 :: a :: b :: c :: d :: rest =>
    match hexDigit a, hexDigit b, hexDigit c, hexDigit d with
    | some a, some b, some c, some d => readString ((a * 4096 + b * 256 + c * 16 + d).toUInt16 :: acc) rest
    | _, _, _, _ => none
  | 0x5C :: e :: rest =>
    match escapeUnit e with
    | some u => readString (u :: acc) rest
    | none => none
  | u :: rest => if u < 0x20 || u == 0x5C then none else readString (u :: acc) rest

def digitsValue (ds : List UInt16) : Nat := ds.foldl (fun acc u => acc * 10 + (u.toNat - 0x30)) 0

def readSign : List UInt16 → Bool × List UInt16
  | 0x2D :: r => (true, r)
  | r => (false, r)

def readWhole : List UInt16 → List UInt16
  | 0x30 :: _ => [0x30]
  | r => r.takeWhile isDigit

def readFraction : List UInt16 → Option (List UInt16 × List UInt16)
  | 0x2E :: r =>
    let fd := r.takeWhile isDigit
    if fd.isEmpty then none else some (fd, r.drop fd.length)
  | r => some ([], r)

def readExponentSign : List UInt16 → Int × List UInt16
  | 0x2B :: r => (1, r)
  | 0x2D :: r => (-1, r)
  | r => (1, r)

/-- The exponent after a mark `e` or `E`, zero when no mark comes next; a mark needs a digit. -/
def readExponent : List UInt16 → Option (Int × List UInt16)
  | e :: r =>
    if e == 0x65 || e == 0x45 then
      let (sign, r) := readExponentSign r
      let ed := r.takeWhile isDigit
      if ed.isEmpty then none else some (sign * digitsValue ed, r.drop ed.length)
    else some (0, e :: r)
  | [] => some (0, [])

/-- A number: the integer part is `0` or starts with a nonzero digit; a fraction and an exponent
each need a digit. -/
def readNumber (input : List UInt16) : Option (Float × List UInt16) :=
  let (negative, r) := readSign input
  let whole := readWhole r
  if whole.isEmpty then none
  else
    (readFraction (r.drop whole.length)).bind fun (fraction, r) =>
      (readExponent r).map fun (e, rest) =>
        (Number.roundDecimal negative (digitsValue (whole ++ fraction)) (e - fraction.length), rest)

def unitsOf (s : String) : List UInt16 := (Text.ofString s).units

mutual

/-- One value after optional white space; `fuel` bounds the nesting and the number of elements. -/
def readValue : Nat → List UInt16 → Option (Value × List UInt16)
  | 0, _ => none
  | fuel + 1, input =>
    match skipBlank input with
    | 0x7B :: r => readMembers fuel [] r
    | 0x5B :: r =>
      match skipBlank r with
      | 0x5D :: r' => some (.array [], r')
      | _ => readItems fuel [] r
    | 0x22 :: r => (readString [] r).map fun (s, r') => (.string ⟨s⟩, r')
    | 0x74 :: 0x72 :: 0x75 :: 0x65 :: r => some (.bool true, r)
    | 0x66 :: 0x61 :: 0x6C :: 0x73 :: 0x65 :: r => some (.bool false, r)
    | 0x6E :: 0x75 :: 0x6C :: 0x6C :: r => some (.null, r)
    | r => (readNumber r).map fun (x, r') => (.number x, r')

/-- The elements of an array after its first one began; `acc` holds those read, last first. -/
def readItems : Nat → List Value → List UInt16 → Option (Value × List UInt16)
  | 0, _, _ => none
  | fuel + 1, acc, input =>
    match readValue fuel input with
    | none => none
    | some (v, r) =>
      match skipBlank r with
      | 0x2C :: r' => readItems fuel (v :: acc) r'
      | 0x5D :: r' => some (.array (v :: acc).reverse, r')
      | _ => none

/-- The members of an object after its opening brace; `props` holds those read so far. -/
def readMembers : Nat → List (Text × Value) → List UInt16 → Option (Value × List UInt16)
  | 0, _, _ => none
  | fuel + 1, props, input =>
    match skipBlank input with
    | 0x7D :: r => if props.isEmpty then some (.object .plain [], r) else none
    | 0x22 :: r =>
      match readString [] r with
      | none => none
      | some (key, r) =>
        match skipBlank r with
        | 0x3A :: r =>
          match readValue fuel r with
          | none => none
          | some (v, r) =>
            let props := Props.set props ⟨key⟩ v
            match skipBlank r with
            | 0x2C :: r' =>
              match skipBlank r' with
              | 0x22 :: _ => readMembers fuel props r'
              | _ => none
            | 0x7D :: r' => some (.object .plain props, r')
            | _ => none
        | _ => none
    | _ => none

end

def parse? (t : Text) : Option Value :=
  match readValue (t.length + 1) t.units with
  | some (v, rest) => if (skipBlank rest).isEmpty then some v else none
  | none => none

end Json

end PeerMessaging
