import PeerMessaging.Registry
import PeerMessaging.Number.Binary
import PeerMessaging.Value.Basic
/-!
A messenger carries messages over one channel with a read buffer and a write buffer.

`send` encodes a message onto the write buffer and `receive` reads one frame off the read
buffer; neither touches the channel. `pump` polls the channel and performs at most one read and
one write. A failed poll, an errored channel or a failure that is not a connection error closes
the messenger and shuts the channel down; end of stream and a connection error close it without
a shutdown; a write or read that would block changes nothing. Closing is final and shuts down
at most once.
-/

/-!
## Channels

A channel is a connected stream socket seen through four operations, each of which may fail:
a readiness poll, a bounded read, a write that may accept only part of its data, and a
shutdown. Channel states are values, so every operation returns the next state. Read sizes and
write reports are numbers as a caller gives them, so they need not be whole.
-/
namespace PeerMessaging

/-- A failure of a channel operation: a connection error with its code, or any other error. -/
inductive ChannelFault where
  | coded (code : Text)
  | plain
  deriving DecidableEq

namespace ChannelFault

def wouldBlock : ChannelFault := .coded (Text.ofString "EAGAIN")

end ChannelFault

/-- What a poll reports. -/
structure Readiness where
  readable : Bool
  writable : Bool
  errored : Bool

/-- The operations of a channel over states of type `σ`. -/
class Channel (σ : Type) where
  /-- The addresses a channel reports, which may be any value; an unconnected one reports the
  empty text as its peer. -/
  localAddress : σ → Value
  remoteAddress : σ → Value
  poll : σ → Except ChannelFault Readiness
  /-- Reads a chunk bounded by the given read size; no bytes means the peer ended the stream. -/
  receive : σ → Float → σ × Except ChannelFault (List UInt8)
  /-- Offers bytes and reports how many were accepted. -/
  send : σ → List UInt8 → σ × Except ChannelFault Float
  /-- Shuts both directions down; a failure of it changes nothing the caller can act on. -/
  shutdown : σ → σ

end PeerMessaging

namespace PeerMessaging

/-- The state of a messenger. -/
structure Messenger where
  localAddress : Value
  remoteAddress : Value
  chunkSize : Float
  readBuffer : List UInt8
  writeBuffer : List UInt8
  closed : Bool
  messagesSent : Nat
  messagesReceived : Nat
  /-- The total of the channel's write reports, which need not be whole. -/
  bytesSent : Float
  bytesReceived : Nat
  /-- Whether some write was accepted, which stamps the time of the last one. -/
  hasSent : Bool
  /-- Whether some read brought data, which stamps the time of the last one. -/
  hasReceived : Bool
  deriving BEq

namespace Messenger

variable {σ μ : Type} [Channel σ]

def defaultChunkSize : Float := 1024

def defaultDrainAttempts : Nat := 100

def create (ch : σ) (chunkSize : Float) : Option Messenger :=
  if Channel.remoteAddress ch == Value.str "" then none
  else some ⟨Channel.localAddress ch, Channel.remoteAddress ch, chunkSize, [], [], false, 0, 0, 0, 0,
    false, false⟩

def close (m : Messenger) (ch : σ) : Messenger × σ :=
  if m.closed then (m, ch) else ({ m with closed := true }, Channel.shutdown ch)

def onFault (m : Messenger) (ch : σ) (e : ChannelFault) : Messenger × σ :=
  match e with
  | .coded code => if code == Text.ofString "EAGAIN" then (m, ch) else ({ m with closed := true }, ch)
  | .plain => m.close ch

/-- One read of at most a chunk; no data means the peer ended the stream. -/
def readOnce (m : Messenger) (ch : σ) : Messenger × σ :=
  match Channel.receive ch m.chunkSize with
  | (ch, .error e) => m.onFault ch e
  | (ch, .ok data) =>
    if data.isEmpty then ({ m with closed := true }, ch)
    else
      let m := { m with readBuffer := m.readBuffer ++ data, hasReceived := true }
      ({ m with bytesReceived := m.bytesReceived + data.length }, ch)

/-- One write of the pending bytes. A positive report is added to the tally, and the buffer
gives up the bytes before it as a slice bound; any other report changes nothing. -/
def writeOnce (m : Messenger) (ch : σ) : Messenger × σ :=
  match Channel.send ch m.writeBuffer with
  | (ch, .error e) => m.onFault ch e
  | (ch, .ok sent) =>
    if sent > 0 then
      let cut := Number.sliceBound sent m.writeBuffer.length
      let m := { m with writeBuffer := m.writeBuffer.drop cut, hasSent := true }
      ({ m with bytesSent := m.bytesSent + sent }, ch)
    else (m, ch)

/-- One pass over the channel; the answer is whether the messenger is still open. -/
def pump (m : Messenger) (ch : σ) : Bool × Messenger × σ :=
  if m.closed then (false, m, ch)
  else
    match Channel.poll ch with
    | .error _ => let (m, ch) := m.close ch; (false, m, ch)
    | .ok r =>
      if r.errored then let (m, ch) := m.close ch; (false, m, ch)
      else
        let (m, ch) := if r.readable then m.readOnce ch else (m, ch)
        let (m, ch) := if !m.closed && r.writable && !m.writeBuffer.isEmpty then m.writeOnce ch else (m, ch)
        (!m.closed, m, ch)

/-- Reads the next frame off the read buffer. A message, or nothing for a skipped frame, moves
the buffer on; an incomplete frame leaves it. An unknown type is a fault that leaves the buffer;
other faults count as nothing found. -/
def receive (codec : Codec μ) (m : Messenger) : Except Fault (Option μ) × Messenger :=
  match codec.extract m.readBuffer with
  | .error f => if f.isUnknownType then (.error f, m) else (.ok none, m)
  | .ok e =>
    let advance := e.advance codec.terminator
    if advance = 0 then (.ok none, m)
    else
      let counted := if e.message?.isSome then 1 else 0
      (.ok e.message?, { m with readBuffer := m.readBuffer.drop advance, messagesReceived := m.messagesReceived + counted })

def send (codec : Codec μ) (msg : μ) (m : Messenger) : Except Fault Messenger :=
  (codec.encode msg).map fun bytes =>
    { m with writeBuffer := m.writeBuffer ++ bytes, messagesSent := m.messagesSent + 1 }

@[simp] theorem closed_close (m : Messenger) (ch : σ) : (m.close ch).1.closed = true := by
  unfold close
  split <;> simp_all

theorem close_of_closed {m : Messenger} (ch : σ) (h : m.closed = true) : m.close ch = (m, ch) := by
  simp [close, h]

theorem pump_of_closed {m : Messenger} (ch : σ) (h : m.closed = true) :
    m.pump ch = (false, m, ch) := by
  simp [pump, h]

theorem send_of_encode {codec : Codec μ} {msg : μ} {bytes : List UInt8} (m : Messenger)
    (h : codec.encode msg = .ok bytes) :
    m.send codec msg =
      .ok { m with writeBuffer := m.writeBuffer ++ bytes, messagesSent := m.messagesSent + 1 } := by
  simp [send, h, Except.map]

theorem send_of_encode_error {codec : Codec μ} {msg : μ} {f : Fault} (m : Messenger)
    (h : codec.encode msg = .error f) : m.send codec msg = .error f := by
  simp [send, h, Except.map]

def flush (m : Messenger) (ch : σ) : Nat → Messenger × σ
  | 0 => (m, ch)
  | budget + 1 =>
    if !m.closed && !m.writeBuffer.isEmpty then
      let (_, m, ch) := m.pump ch
      flush m ch budget
    else (m, ch)

/-- The pumps a drain may attempt for a budget given as a number: as many whole attempts as stay
below it, which is the budget rounded up, and none for a budget that is negative or not a
number. -/
def attemptsBelow (budget : Float) : Nat :=
  if budget.isNaN || Number.isNegative budget then 0 else Number.ceilPart budget

def drain (m : Messenger) (ch : σ) (attempts : Nat) : Messenger × σ :=
  let (m, ch) := m.flush ch attempts
  m.close ch

end Messenger

end PeerMessaging
