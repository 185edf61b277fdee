import PeerMessaging.ByteFrames.Message
import PeerMessaging.Registry
/-!
Byte frames: `[length, code, payload…]`, where the length byte counts the whole frame, so a
payload has at most 253 bytes and the length never wraps. A frame has no terminator.

Reading a buffer: with no length byte, a length beyond the buffer, a length below two or no code
byte, nothing is used. An unregistered code is an unknown-type fault. A frame longer than its
header has its payload read by a fresh message of the type; a failure there skips the frame,
except an unknown-type fault, which ends the read.
-/

namespace PeerMessaging

namespace ByteFrames

def maxFrame : Nat := 255

def headerSize : Nat := 2

/-- The frame of a message: its code is checked first, then the size of its payload. -/
def encode (m : ByteMessage) : Except Fault (List UInt8) :=
  match ByteType.validCode? m.code with
  | none => .error (Fault.invalid m.code .codeOutOfRange)
  | some code => do
    let payload ← m.payload
    let total := payload.length + headerSize
    if total > maxFrame then .error (.tooLarge total maxFrame)
    else pure (total.toUInt8 :: code.toUInt8 :: payload)

/-- One step of reading the front of a buffer. -/
def extract (registry : Registry ByteType) (host : Identity) (buffer : List UInt8) :
    Except Fault (Extraction ByteMessage) :=
  match buffer with
  | [] => .ok .incomplete
  | total :: rest =>
    if total.toNat > buffer.length then .ok .incomplete
    else
      match rest with
      | [] => .ok .incomplete
      | code :: body =>
        if total.toNat < headerSize then .ok .incomplete
        else do
          let type ← registry.resolve (Value.num code.toNat)
          let m := type.fresh host
          if total.toNat > headerSize then
            match m.readPayload (body.take (total.toNat - headerSize)) with
            | .ok m' => pure (.message m' total.toNat)
            | .error f => if f.isUnknownType then .error f else pure (.skipped total.toNat)
          else pure (.message m total.toNat)

end ByteFrames

def byteCodec (registry : Registry ByteType) (host : Identity) : Codec ByteMessage where
  terminator := 0
  encode := ByteFrames.encode
  extract := ByteFrames.extract registry host

end PeerMessaging
