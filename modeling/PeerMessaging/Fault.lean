import PeerMessaging.Value.Convert
/-!
What can go wrong in the message layer, one constructor per cause, and the wording of each.

An error that names a value converts it to text when it is raised; when that conversion itself
fails, the conversion's error is raised instead. The smart constructors `Fault.unknown`,
`Fault.invalid` and `Fault.unsupported` make that choice.
-/

namespace PeerMessaging

/-- Why a key cannot be registered. -/
inductive InvalidKey where
  /-- A byte type code outside the integers `0..255`. -/
  | codeOutOfRange
  /-- A text type name of length zero. -/
  | emptyName
  deriving DecidableEq, Repr

def InvalidKey.reason : InvalidKey → String
  | .codeOutOfRange => "type code must be an integer in 0..255"
  | .emptyName => "type name must not be empty"

/-- A failure of the message layer. -/
inductive Fault where
  /-- No type is registered under the key. -/
  | unknownType (key : Value)
  /-- A frame of `size` bytes exceeds the frame limit. -/
  | tooLarge (size limit : Nat)
  /-- A field holds a value that the wire cannot carry. -/
  | unsupportedAttribute (typeName field : Text)
  /-- A key that a registry refuses, shown as text. -/
  | invalidKey (key : Text) (reason : InvalidKey)
  /-- A type's own payload or attribute hook failed. -/
  | hookFailed
  /-- The host refused a conversion. -/
  | host (e : HostError)
  deriving Inhabited

namespace Fault

def unknown (key : Value) : Fault :=
  match key with
  | .number _ => .unknownType key
  | _ =>
    match key.toText with
    | .ok _ => .unknownType key
    | .error e => .host e

def invalid (key : Value) (reason : InvalidKey) : Fault :=
  match key.display with
  | .ok t => .invalidKey t reason
  | .error e => .host e

def unsupported (typeName : Value) (field : Text) : Fault :=
  match typeName.toText with
  | .ok t => .unsupportedAttribute t field
  | .error e => .host e

def isUnknownType : Fault → Bool
  | .unknownType _ => true
  | _ => false

def lit (s : String) : Text := Text.ofString s

/-- The wording of each fault. -/
def message : Fault → Text
  | .unknownType (.number x) => Value.numberText x ++ lit " is not a registered message code"
  | .unknownType key =>
    lit "'" ++ (key.toText.toOption.getD Text.empty) ++ lit "' is not a registered message type"
  | .tooLarge size limit =>
    lit ("Encoded message of " ++ toString size ++ " bytes exceeds the " ++ toString limit ++
      "-byte frame limit")
  | .unsupportedAttribute typeName field =>
    lit "Attribute '" ++ field ++ lit "' of '" ++ typeName ++
      lit "' is not wire-safe; override toAttributes() to flatten it"
  | .invalidKey key reason => lit "Cannot register message type '" ++ key ++ lit ("': " ++ reason.reason)
  | .hookFailed => lit "message hook failed"
  | .host e => lit e.message

end Fault

end PeerMessaging
