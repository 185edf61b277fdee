import PeerMessaging.Transport.Messenger
import PeerMessaging.Number.Binary
/-!
A scripted channel: inbound data is a queue of chunks, and flags decide what each operation
does. It is readable when a chunk waits, the stream has ended or a read error is set. A read
takes the head chunk, splitting it at the read limit when the chunk is longer; with no chunk it
reports the end of the stream once the stream has ended and would block before. A write reports
the smaller of its length and the send limit, which may be a fraction or not a number, and
records the bytes up to that place as a slice bound. A shutdown is counted.
-/

namespace PeerMessaging

/-- The state of a scripted channel. -/
structure Script where
  localAddress : Value
  remoteAddress : Value
  inbound : List (List UInt8)
  ended : Bool
  errored : Bool
  pollFails : Bool
  writable : Bool
  receiveError : Option ChannelFault
  sendError : Option ChannelFault
  /-- The most bytes one write accepts; `none` for no limit. -/
  sendLimit : Option Float
  shutdownFails : Bool
  shutdowns : Nat
  /-- Every byte accepted so far, in order. -/
  delivered : List UInt8
  deriving BEq

namespace Script

def between (localAddress remoteAddress : Value) : Script :=
  ⟨localAddress, remoteAddress, [], false, false, false, true, none, none, none, false, 0, []⟩

def feed (s : Script) (chunk : List UInt8) : Script := { s with inbound := s.inbound ++ [chunk] }

def poll (s : Script) : Except ChannelFault Readiness :=
  if s.pollFails then .error .plain
  else .ok ⟨!s.inbound.isEmpty || s.ended || s.receiveError.isSome, s.writable, s.errored⟩

def receive (s : Script) (max : Float) : Script × Except ChannelFault (List UInt8) :=
  match s.receiveError with
  | some e => (s, .error e)
  | none =>
    match s.inbound with
    | [] => (s, if s.ended then .ok [] else .error ChannelFault.wouldBlock)
    | c :: rest =>
      if c.length.toFloat > max then
        let cut := Number.sliceBound max c.length
        ({ s with inbound := c.drop cut :: rest }, .ok (c.take cut))
      else ({ s with inbound := rest }, .ok c)

def send (s : Script) (data : List UInt8) : Script × Except ChannelFault Float :=
  match s.sendError with
  | some e => (s, .error e)
  | none =>
    -- The smaller of the two, or not a number when the limit is not one.
    let n := match s.sendLimit with
      | some l => min data.length.toFloat l
      | none => data.length.toFloat
    ({ s with delivered := s.delivered ++ data.take (Number.sliceBound n data.length) }, .ok n)

def shutdown (s : Script) : Script := { s with shutdowns := s.shutdowns + 1 }

instance : Channel Script where
  localAddress := Script.localAddress
  remoteAddress := Script.remoteAddress
  poll := Script.poll
  receive := Script.receive
  send := Script.send
  shutdown := Script.shutdown

end Script

end PeerMessaging
