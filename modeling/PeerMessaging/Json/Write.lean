import PeerMessaging.Value.Convert
import PeerMessaging.Json.Read
/-!
Writing host values as JSON text. In a string, `"` and `\` are escaped, the control units
U+0008, U+0009, U+000A, U+000C and U+000D take their short escapes and the other units below
U+0020 a `\u00xx` escape, and a lone surrogate is written as its `\udxxx` escape; every other unit
stands as it is. A non-finite number is `null`; `undefined`, a symbol or a function is left out of
an object and is `null` in an array. A date is its ISO text (an invalid one `null`), a map an
empty object, bytes an object of indices. An object with an own callable `toJSON` is written as
what that call answers, which for every function here is `undefined`. A big integer cannot be
written. A value's image is what a reader of that text gets back.
-/

namespace PeerMessaging

namespace Json

def hexUnit (n : Nat) : UInt16 := if n < 10 then (0x30 + n).toUInt16 else (0x61 + n - 10).toUInt16

def unicodeEscape (u : UInt16) : List UInt16 :=
  let n := u.toNat
  [0x5C, 0x75, hexUnit (n / 4096), hexUnit (n / 256 % 16), hexUnit (n / 16 % 16), hexUnit (n % 16)]

/-- The escaped form of a unit that is not part of a surrogate pair. -/
def escapeUnitText (u : UInt16) : List UInt16 :=
  if u == 0x22 then [0x5C, 0x22]
  else if u == 0x5C then [0x5C, 0x5C]
  else if u == 0x08 then [0x5C, 0x62]
  else if u == 0x0C then [0x5C, 0x66]
  else if u == 0x0A then [0x5C, 0x6E]
  else if u == 0x0D then [0x5C, 0x72]
  else if u == 0x09 then [0x5C, 0x74]
  else if u < 0x20 || Text.isHighSurrogate u || Text.isLowSurrogate u then unicodeEscape u
  else [u]

def escapeUnits : List UInt16 → List UInt16
  | [] => []
  | [u] => escapeUnitText u
  | u :: v :: rest =>
    if Text.isHighSurrogate u && Text.isLowSurrogate v then u :: v :: escapeUnits rest
    else escapeUnitText u ++ escapeUnits (v :: rest)

def quote (t : Text) : Text := ⟨0x22 :: escapeUnits t.units ++ [0x22]⟩

def lit (s : String) : Text := Text.ofString s

def commaJoin : List Text → Text
  | [] => Text.empty
  | [t] => t
  | t :: rest => t ++ lit "," ++ commaJoin rest

def indexMembers (data : List UInt8) : List Text :=
  (data.zipIdx).map fun (b, i) => quote (Text.ofNat i) ++ lit ":" ++ Text.ofNat b.toNat

mutual

/-- The JSON text of a value, or `none` for a value that has none (`undefined`, a symbol, a
function). -/
def write : Value → Except HostError (Option Text)
  | .undefined | .symbol _ | .function => .ok none
  | .null => .ok (some (lit "null"))
  | .bool b => .ok (some (lit (if b then "true" else "false")))
  | .number x => .ok (some (if x.isFinite then Value.numberText x else lit "null"))
  | .string s => .ok (some (quote s))
  | .bigint _ => .error .bigintToJson
  | .date t => .ok (some ((Calendar.isoForm? t).elim (lit "null") fun s => quote (lit s)))
  | .map _ => .ok (some (lit "\x7b\x7d"))
  | .bytes data => .ok (some (lit "\x7b" ++ commaJoin (indexMembers data) ++ lit "\x7d"))
  | .array items => do
    let parts ← writeItems items
    pure (some (lit "[" ++ commaJoin parts ++ lit "]"))
  | .object _ props =>
    -- An own callable `toJSON` stands in for the object; every function here answers `undefined`.
    match Props.get? props (lit "toJSON") with
    | some .function => .ok none
    | _ => do
      let parts ← writeMembers props
      pure (some (lit "\x7b" ++ commaJoin parts ++ lit "\x7d"))

def writeItems : List Value → Except HostError (List Text)
  | [] => .ok []
  | v :: rest => do
    let t ← write v
    let ts ← writeItems rest
    pure (t.getD (lit "null") :: ts)

/-- Object members; one whose value has no text is left out. -/
def writeMembers : List (Text × Value) → Except HostError (List Text)
  | [] => .ok []
  | (k, v) :: rest => do
    let t ← write v
    let ts ← writeMembers rest
    pure (match t with
      | some t => (quote k ++ lit ":" ++ t) :: ts
      | none => ts)

end

def image (v : Value) : Except HostError (Option Value) :=
  (write v).map fun t? => t?.map fun t => (parse? t).getD .null

end Json

end PeerMessaging
