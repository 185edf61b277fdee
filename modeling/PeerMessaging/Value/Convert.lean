import PeerMessaging.Value.Basic
import PeerMessaging.Number.Format
import PeerMessaging.Number.Read
/-!
Conversions the host applies to any value: to text (as a template or concatenation does), the
looser text of an explicit conversion, to a number (as a comparison does), the length a key reports, and the equality of map keys
(same value, with `-0` equal to `0` and not-a-number equal to itself).
-/

namespace PeerMessaging

/-- The host's own type errors. -/
inductive HostError where
  /-- A symbol met where text was needed. -/
  | symbolToText
  /-- A symbol met where a number was needed. -/
  | symbolToNumber
  /-- An object with neither a usable `toString` nor `valueOf`. -/
  | objectToPrimitive
  /-- A big integer met by the JSON writer. -/
  | bigintToJson
  /-- A property read on `null` (or `undefined` when the flag is false). -/
  | readOfNullish (isNull : Bool) (property : String)
  /-- A call of something that is not a function, named as the call names it. -/
  | notAFunction (callee : String)
  deriving DecidableEq, Repr

namespace HostError

def message : HostError → String
  | .symbolToText => "Cannot convert a Symbol value to a string"
  | .symbolToNumber => "Cannot convert a Symbol value to a number"
  | .objectToPrimitive => "Cannot convert object to primitive value"
  | .bigintToJson => "Do not know how to serialize a BigInt"
  | .readOfNullish isNull p =>
    "Cannot read properties of " ++ (if isNull then "null" else "undefined") ++ " (reading '" ++ p ++ "')"
  | .notAFunction callee => callee ++ " is not a function"

end HostError

namespace Calendar

/-- The proleptic Gregorian date of a day count from 1970-01-01, as year, month and day. -/
def civilOfDays (z : Int) : Int × Nat × Nat :=
  let z := z + 719468
  -- `Int` division rounds toward negative infinity here, so this is the 400-year era of `z`.
  let era := z / 146097
  let doe := (z - era * 146097).toNat
  let yoe := (doe - doe / 1460 + doe / 36524 - doe / 146096) / 365
  let y : Int := yoe + era * 400
  let doy := doe - (365 * yoe + yoe / 4 - yoe / 100)
  let mp := (5 * doy + 2) / 153
  let d := doy - (153 * mp + 2) / 5 + 1
  let m := if mp < 10 then mp + 3 else mp - 9
  (if m ≤ 2 then y + 1 else y, m, d)

def pad (width : Nat) (n : Nat) : String :=
  let s := toString n
  String.ofList (List.replicate (width - s.length) '0') ++ s

def weekdays : List String := ["Thu", "Fri", "Sat", "Sun", "Mon", "Tue", "Wed"]

def months : List String :=
  ["Jan", "Feb", "Mar", "Apr", "May", "Jun", "Jul", "Aug", "Sep", "Oct", "Nov", "Dec"]

def validTime? (t : Float) : Option Int :=
  if t.isFinite ∧ t.abs ≤ 8.64e15 then
    some (if t < 0 then -((-t).floor.toUInt64.toNat : Int) else (t.floor.toUInt64.toNat : Int))
  else none

def yearText (y : Int) (wide : Bool) : String :=
  if 0 ≤ y ∧ y ≤ 9999 then pad 4 y.toNat
  else if y < 0 then "-" ++ pad 6 y.natAbs
  else if wide then "+" ++ pad 6 y.toNat else pad 4 y.toNat

/-- The long local form of a date, the time zone being UTC. -/
def longForm (t : Float) : String :=
  match validTime? t with
  | none => "Invalid Date"
  | some ms =>
    let days := ms / 86400000
    let inDay := (ms - days * 86400000).toNat / 1000
    let (y, m, d) := civilOfDays days
    let wd := weekdays.getD (days % 7).toNat ""
    let year := if y < 0 then "-" ++ pad 4 y.natAbs else pad 4 y.toNat
    wd ++ " " ++ months.getD (m - 1) "" ++ " " ++ pad 2 d ++ " " ++ year ++ " " ++
      pad 2 (inDay / 3600) ++ ":" ++ pad 2 (inDay / 60 % 60) ++ ":" ++ pad 2 (inDay % 60) ++
      " GMT+0000 (Coordinated Universal Time)"

/-- The ISO form of a valid date, `YYYY-MM-DDTHH:mm:ss.sssZ`, or `none` for an invalid one. -/
def isoForm? (t : Float) : Option String :=
  (validTime? t).map fun ms =>
    let days := ms / 86400000
    let inDayMs := (ms - days * 86400000).toNat
    let inDay := inDayMs / 1000
    let (y, m, d) := civilOfDays days
    yearText y true ++ "-" ++ pad 2 m ++ "-" ++ pad 2 d ++ "T" ++ pad 2 (inDay / 3600) ++ ":" ++
      pad 2 (inDay / 60 % 60) ++ ":" ++ pad 2 (inDay % 60) ++ "." ++ pad 3 (inDayMs % 1000) ++ "Z"

end Calendar

namespace Value

def numberText (x : Float) : Text := Text.ofString (Number.render x)

def functionText : Text := Text.ofString "function f() \x7b\x7d"

mutual

/-- Text of a value where text is required. A symbol refuses; an object uses its own
`toString` or `valueOf` when it has a callable one and otherwise the standard tag, and an object
without prototype has none. -/
def toText : Value → Except HostError Text
  | .undefined => .ok (Text.ofString "undefined")
  | .null => .ok (Text.ofString "null")
  | .bool b => .ok (Text.ofString (if b then "true" else "false"))
  | .number x => .ok (numberText x)
  | .string s => .ok s
  | .bigint n => .ok (Text.ofString (toString n))
  | .symbol _ => .error .symbolToText
  | .function => .ok functionText
  | .date t => .ok (Text.ofString (Calendar.longForm t))
  | .map _ => .ok (Text.ofString "[object Map]")
  | .bytes data => .ok (Text.ofString (",".intercalate (data.map fun b => toString b.toNat)))
  | .array items => joinItems items
  | .object shape props => objectText shape props

def joinItems : List Value → Except HostError Text
  | [] => .ok Text.empty
  | [v] => itemText v
  | v :: rest => do
    let a ← itemText v
    let b ← joinItems rest
    pure (a ++ Text.ofString "," ++ b)

def itemText : Value → Except HostError Text
  | .undefined | .null => .ok Text.empty
  | v => toText v

def objectText (shape : Shape) (props : List (Text × Value)) : Except HostError Text :=
  match Props.get? props (Text.ofString "toString") with
  | some .function => .ok (Text.ofString "undefined")
  | some _ => valueOfText props
  | none => if shape == .noPrototype then valueOfText props else .ok (Text.ofString "[object Object]")

def valueOfText (props : List (Text × Value)) : Except HostError Text :=
  match Props.get? props (Text.ofString "valueOf") with
  | some .function => .ok (Text.ofString "undefined")
  | _ => .error .objectToPrimitive

end

def display : Value → Except HostError Text
  | .symbol d => .ok (Text.ofString "Symbol(" ++ d ++ Text.ofString ")")
  | v => toText v

/-- The number a value stands for where a number is compared: `undefined` is not a number,
`null` is zero, a boolean one or zero, text is read as numeric text, a big integer and a date
stand for their values, and any other object for the number its text reads as. A symbol has no
number. -/
def toNumber : Value → Except HostError Float
  | .undefined => .ok (0.0 / 0.0)
  | .null => .ok 0
  | .bool b => .ok (if b then 1 else 0)
  | .number x => .ok x
  | .string s => .ok (Number.ofText s)
  | .bigint n => .ok (Float.ofInt n)
  | .symbol _ => .error .symbolToNumber
  | .date t => .ok t
  | v => (toText v).map Number.ofText

/-- Map-key equality: numbers by value with `-0 = 0` and `NaN` equal to itself, text, booleans and
big integers by value; references are equal only to themselves, and every reference here is
distinct. -/
def sameValueZero : Value → Value → Bool
  | .undefined, .undefined => true
  | .null, .null => true
  | .bool a, .bool b => a == b
  | .number x, .number y => x == y || (x.isNaN && y.isNaN)
  | .string a, .string b => a == b
  | .bigint a, .bigint b => a == b
  | _, _ => false

/-- The `length` a value reports: text and arrays their size, an object its own `length`
property. `null` and `undefined` cannot be read. -/
def lengthProperty : Value → Except HostError Value
  | .undefined => .error (.readOfNullish false "length")
  | .null => .error (.readOfNullish true "length")
  | .string s => .ok (num s.length)
  | .array items => .ok (num items.length)
  | .bytes data => .ok (num data.length)
  | .function => .ok (num 0)
  | .object _ props => .ok ((Props.get? props (Text.ofString "length")).getD .undefined)
  | _ => .ok .undefined

def nameProperty : Value → Except HostError Value
  | .undefined => .error (.readOfNullish false "name")
  | .null => .error (.readOfNullish true "name")
  | .function => .ok (str "f")
  | .object _ props => .ok ((Props.get? props (Text.ofString "name")).getD .undefined)
  | _ => .ok .undefined

def isZero : Value → Bool
  | .number x => x == 0
  | _ => false

def normalizeZero : Value → Value
  | .number x => if x == 0 then .number 0 else .number x
  | v => v

end Value

end PeerMessaging
