/-!
Text as the host sees it: a sequence of UTF-16 code units. A unit of a surrogate pair may stand
alone, so text is not a `String`; `Text.ofString` is the way in for well-formed text.
-/

namespace PeerMessaging

/-- A sequence of UTF-16 code units. -/
structure Text where
  units : List UInt16
  deriving DecidableEq, Inhabited, Hashable

namespace Text

def empty : Text := ⟨[]⟩

instance : Append Text := ⟨fun a b => ⟨a.units ++ b.units⟩⟩

def length (t : Text) : Nat := t.units.length

def isHighSurrogate (u : UInt16) : Bool := 0xD800 ≤ u && u ≤ 0xDBFF

def isLowSurrogate (u : UInt16) : Bool := 0xDC00 ≤ u && u ≤ 0xDFFF

def unitsOfCodePoint (n : Nat) : List UInt16 :=
  if n < 0x10000 then [n.toUInt16]
  else [(0xD800 + (n - 0x10000) / 0x400).toUInt16, (0xDC00 + (n - 0x10000) % 0x400).toUInt16]

def ofString (s : String) : Text := ⟨s.toList.flatMap fun c => unitsOfCodePoint c.toNat⟩

instance : Coe String Text := ⟨ofString⟩

def ofUnit (u : UInt16) : Text := ⟨[u]⟩

def ofNat (n : Nat) : Text := ofString (toString n)

def pairCodePoint (hi lo : UInt16) : Nat := 0x10000 + (hi.toNat - 0xD800) * 0x400 + (lo.toNat - 0xDC00)

def toCharsLossy : List UInt16 → List Char
  | [] => []
  | [u] => if isHighSurrogate u || isLowSurrogate u then ['�'] else [Char.ofNat u.toNat]
  | u :: v :: rest =>
    if isHighSurrogate u && isLowSurrogate v then Char.ofNat (pairCodePoint u v) :: toCharsLossy rest
    else if isHighSurrogate u || isLowSurrogate u then '�' :: toCharsLossy (v :: rest)
    else Char.ofNat u.toNat :: toCharsLossy (v :: rest)

def toStringLossy (t : Text) : String := String.ofList (toCharsLossy t.units)

def asciiLower (t : Text) : Text :=
  ⟨t.units.map fun u => if 0x41 ≤ u && u ≤ 0x5A then u + 0x20 else u⟩

def startsWith (t p : Text) : Bool := t.units.take p.length == p.units

def joinWith (sep : Text) : List Text → Text
  | [] => empty
  | [t] => t
  | t :: rest => t ++ sep ++ joinWith sep rest

theorem append_units (a b : Text) : (a ++ b).units = a.units ++ b.units := rfl

theorem length_append (a b : Text) : (a ++ b).length = a.length + b.length := by
  simp [length, append_units]

end Text

end PeerMessaging
