import PeerMessaging.Transport.Messenger
import PeerMessaging.Transport.Script
import PeerMessaging.ByteFrames.Frame
import PeerMessaging.JsonLines.Frame
/-!
The identity exchange: queue this host's hello, then pump and read until the peer's identity
arrives. The first message that describes an identity ends the exchange: the messenger is drained
and closed and the identity, `username@hostname`, is the answer. An unknown message type, a
closed messenger or the deadline end it with no identity and a closed messenger.

The deadline is not a clock here: the exchange runs while the deadline is ahead, and a round of
pumping and reading that changes neither the messenger nor the channel would repeat unchanged
until the deadline passes, so the exchange ends there as if it had.
-/

/-!
## Encodings

The two encodings and how a codec is set up: the registry of an encoding holds its built-in
types, then the extra types given, registered in order; a refused extra type refuses the setup.
Only the name `byte` selects byte frames; every other name selects text frames.
-/
namespace PeerMessaging

/-- The wire encodings. -/
inductive Encoding where
  | byte
  | text
  deriving DecidableEq, Repr

namespace Encoding

def ofName (name : Text) : Encoding := if name == Text.ofString "byte" then .byte else .text

def isName (name : Text) : Bool :=
  name == Text.ofString "byte" || name == Text.ofString "text" || name == Text.ofString "json"

end Encoding

/-- A registry holding `builtins` and then `extra`, or the first refusal. -/
def registryWith {τ : Type} [Keyed τ] (builtins extra : List τ) : Except Fault (Registry τ) :=
  let (r, _) := Registry.empty.registerAll builtins
  match r.registerAll extra with
  | (r', none) => .ok r'
  | (_, some f) => .error f

def ByteType.codecWith (host : Identity) (extra : List ByteType) : Except Fault (Codec ByteMessage) :=
  (registryWith ByteType.builtins extra).map (byteCodec · host)

def TextType.codecWith (host : Identity) (extra : List TextType) : Except Fault (Codec TextMessage) :=
  (registryWith TextType.builtins extra).map (textCodec · host)

end PeerMessaging

namespace PeerMessaging

/-- How identities travel in one encoding: its codec, this host's hello and the identity a
message describes, if any. -/
structure IdentityProtocol (μ : Type) where
  codec : Codec μ
  hello : μ
  describe : μ → Except Fault (Option Text)

def ByteMessage.identity? (m : ByteMessage) : Except Fault (Option Text) :=
  match m.type with
  | .builtin .identify => m.identity.map some
  | _ => .ok none

def TextMessage.identity? (m : TextMessage) : Except Fault (Option Text) :=
  match m.type with
  | .builtin .identify =>
    let u := (m.get? (Text.ofString "username")).getD .undefined
    let h := (m.get? (Text.ofString "hostname")).getD .undefined
    (ByteMessage.identityText u h).map some
  | _ => .ok none

namespace IdentityProtocol

def bytes (host : Identity) : IdentityProtocol ByteMessage :=
  ⟨byteCodec (Registry.empty.registerAll ByteType.builtins).1 host,
    ByteType.fresh host (.builtin .identify), ByteMessage.identity?⟩

def text (host : Identity) : IdentityProtocol TextMessage :=
  ⟨textCodec (Registry.empty.registerAll TextType.builtins).1 host,
    TextType.fresh host (.builtin .identify), TextMessage.identity?⟩

end IdentityProtocol

/-- How a round of reading ends. -/
inductive RoundEnd where
  /-- A message described this identity. -/
  | identity (t : Text)
  /-- No further message is complete. -/
  | waiting
  /-- An unknown message type arrived. -/
  | unknownType
  /-- Describing a message failed. -/
  | failed (f : Fault)

namespace Messenger

variable {σ μ : Type} [Channel σ]

/-- Reads messages until one describes an identity or none is complete; `fuel` bounds the
messages read. -/
def collect (p : IdentityProtocol μ) (m : Messenger) : Nat → RoundEnd × Messenger
  | 0 => (.waiting, m)
  | fuel + 1 =>
    match m.receive p.codec with
    | (.error f, m) => (if f.isUnknownType then .unknownType else .failed f, m)
    | (.ok none, m) => (.waiting, m)
    | (.ok (some msg), m) =>
      match p.describe msg with
      | .ok (some t) => (.identity t, m)
      | .ok none => collect p m fuel
      | .error f => (.failed f, m)

/-- Rounds of one pump and the reads after it, at most `fuel` of them. -/
def exchangeRounds [BEq σ] (p : IdentityProtocol μ) (m : Messenger) (ch : σ) :
    Nat → Except Fault (Option Text) × Messenger × σ
  | 0 => let (m, ch) := m.close ch; (.ok none, m, ch)
  | fuel + 1 =>
    let (open?, m', ch') := m.pump ch
    if !open? then let (m', ch') := m'.close ch'; (.ok none, m', ch')
    else
      match collect p m' (m'.readBuffer.length + 1) with
      | (.identity t, m'') => let (m'', ch'') := m''.drain ch' defaultDrainAttempts; (.ok (some t), m'', ch'')
      | (.unknownType, m'') => let (m'', ch'') := m''.close ch'; (.ok none, m'', ch'')
      | (.failed f, m'') => let (m'', ch'') := m''.close ch'; (.error f, m'', ch'')
      | (.waiting, m'') =>
        if m'' == m && ch' == ch then let (m'', ch'') := m''.close ch'; (.ok none, m'', ch'')
        else exchangeRounds p m'' ch' fuel

/-- The exchange: the hello is queued, then rounds run while the deadline is ahead (`running`),
at most `fuel` of them; the answer is the peer's identity, if one arrived. -/
def exchange [BEq σ] (p : IdentityProtocol μ) (running : Bool) (m : Messenger) (ch : σ) (fuel : Nat) :
    Except Fault (Option Text) × Messenger × σ :=
  match m.send p.codec p.hello with
  | .error f => (.error f, m, ch)
  | .ok m =>
    if running then exchangeRounds p m ch fuel
    else let (m, ch) := m.close ch; (.ok none, m, ch)

end Messenger

/-- A bound on the rounds of an exchange over a scripted channel: every round that changes
something reads a chunk, writes, reads a frame or closes. -/
def Script.exchangeFuel (s : Script) (m : Messenger) : Nat :=
  2 * (s.inbound.map List.length).foldr (· + ·) 0 + s.inbound.length + m.readBuffer.length + m.writeBuffer.length + 600

end PeerMessaging
