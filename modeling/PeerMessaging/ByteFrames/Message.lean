import PeerMessaging.Registry
import PeerMessaging.Text.Utf8
/-!
Message types of the byte encoding. A type has a code, the key it registers under, and decides
its payload: an identify message carries `username@hostname` in UTF-8, the other built-in kinds
carry nothing, and a type defined by the user carries a fixed payload and reads a received one in
the way it chooses. A message's own properties shadow its type: an own `code` is the code it
reports, and an own `encodePayload` replaces the payload step.
-/

namespace PeerMessaging

/-- How a user-defined byte type reads a received payload. -/
inductive PayloadReading where
  /-- Keeps the payload. -/
  | keep
  /-- Ignores it. -/
  | ignore
  /-- Fails, so the frame is skipped. -/
  | fail
  /-- Fails with an unknown-type fault for `key`, which ends the read. -/
  | unknownKey (key : Value)

/-- A byte message type defined by the user. -/
structure CustomByteType where
  label : String
  code : Value
  payload : List UInt8
  reading : PayloadReading

/-- A message type of the byte encoding. -/
inductive ByteType where
  | builtin (k : Kind)
  | custom (c : CustomByteType)

/-- A message of the byte encoding: its type, its own properties in host order (an identify
message's username and hostname, and any defined on it later), and the payload that a user type
kept when it read one. An own property shadows what the type provides under its name. -/
structure ByteMessage where
  type : ByteType
  own : List (Text × Value)
  received : Option (List UInt8)

namespace ByteType

def code : ByteType → Value
  | .builtin .identify => Value.num 1
  | .builtin .join => Value.num 2
  | .builtin .retry => Value.num 3
  | .builtin .quit => Value.num 4
  | .custom c => c.code

def label : ByteType → String
  | .builtin k => k.name
  | .custom c => c.label

def builtins : List ByteType := Kind.all.map .builtin

def identityProps (username hostname : Value) : List (Text × Value) :=
  [(Text.ofString "username", username), (Text.ofString "hostname", hostname)]

def fresh (host : Identity) (t : ByteType) : ByteMessage :=
  match t with
  | .builtin .identify => ⟨t, identityProps (.string host.username) (.string host.hostname), none⟩
  | t => ⟨t, [], none⟩

def validCode? : Value → Option Nat
  | .number x => if Number.isInteger x && 0 ≤ x && x ≤ 255 then some x.toUInt8.toNat else none
  | _ => none

instance : Keyed ByteType where
  keyOf := ByteType.code
  checkKey k := if (validCode? k).isSome then .ok () else .error (Fault.invalid k .codeOutOfRange)

end ByteType

namespace ByteMessage

def identifyOf (host : Identity) (username hostname : Value) : ByteMessage :=
  ⟨.builtin .identify, ByteType.identityProps (username.orElse (.string host.username))
    (hostname.orElse (.string host.hostname)), none⟩

def get? (m : ByteMessage) (k : Text) : Option Value := Props.get? m.own k

def define (m : ByteMessage) (k : Text) (v : Value) : ByteMessage := { m with own := Props.set m.own k v }

def code (m : ByteMessage) : Value := (m.get? (Text.ofString "code")).getD m.type.code

def identityText (username hostname : Value) : Except Fault Text := do
  let u ← username.toText.mapError Fault.host
  let h ← hostname.toText.mapError Fault.host
  pure (u ++ Text.ofString "@" ++ h)

def identity (m : ByteMessage) : Except Fault Text :=
  identityText ((m.get? (Text.ofString "username")).getD .undefined)
    ((m.get? (Text.ofString "hostname")).getD .undefined)

/-- The payload a message carries. An own `encodePayload` shadows the type's: a function
answers nothing, whose length cannot be read, and any other value cannot be called. -/
def payload (m : ByteMessage) : Except Fault (List UInt8) :=
  match m.get? (Text.ofString "encodePayload") with
  | some .function => .error (.host (.readOfNullish false "length"))
  | some _ => .error (.host (.notAFunction "message.encodePayload"))
  | none =>
    match m.type with
    | .builtin .identify => m.identity.map Text.toUtf8
    | .custom c => .ok c.payload
    | .builtin _ => .ok []

def splitAtSign (t : Text) : Option (Text × Text) :=
  let before := t.units.takeWhile (· != 0x40)
  match t.units.dropWhile (· != 0x40) with
  | _ :: after => some (⟨before⟩, ⟨after⟩)
  | [] => none

/-- Reads a received payload into a fresh message. An identify payload must be UTF-8 with an
`@`; the text before the first `@` is the username, the rest the hostname. -/
def readPayload (m : ByteMessage) (payload : List UInt8) : Except Fault ByteMessage :=
  match m.type with
  | .builtin .identify =>
    match (Text.ofUtf8? payload).bind splitAtSign with
    | some (u, h) => .ok ((m.define (Text.ofString "username") (.string u)).define
        (Text.ofString "hostname") (.string h))
    | none => .error .hookFailed
  | .custom c =>
    match c.reading with
    | .keep => .ok { m with received := some payload }
    | .ignore => .ok m
    | .fail => .error .hookFailed
    | .unknownKey k => .error (Fault.unknown k)
  | .builtin _ => .ok m

end ByteMessage

end PeerMessaging
