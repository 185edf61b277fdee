import PeerMessaging.JsonLines.Message
import PeerMessaging.Json.Read
import PeerMessaging.Json.Write
import PeerMessaging.Text.Utf8
import PeerMessaging.Registry
/-!
Text frames: one line of JSON, `[typeName, attributes]`, in UTF-8, ended by a line feed. The
line feed is the terminator, so a frame's bytes stop just before it.

Reading a buffer: without a line feed nothing is used. The line before the first line feed must
be UTF-8 (a leading byte order mark is dropped) holding a JSON array of a string and wire
attributes; otherwise nothing is used, and the line stays. An unregistered name is an
unknown-type fault. A type that refuses the attributes skips the line.
-/

namespace PeerMessaging

namespace JsonLines

def lineFeed : UInt8 := 0x0A

def encode (m : TextMessage) : Except Fault (List UInt8) := do
  let attrs ← m.toAttributes
  let line ← (Json.write (.array [m.typeName, attrs])).mapError Fault.host
  pure ((line.getD Text.empty).toUtf8 ++ [lineFeed])

def envelope? (line : List UInt8) : Option (Text × List (Text × Value)) :=
  match (Text.ofUtf8? line).bind Json.parse? with
  | some (.array [.string name, attrs]) =>
    match attrs with
    | .object _ props => if attrs.isWireAttributes then some (name, props) else none
    | _ => none
  | _ => none

/-- One step of reading the front of a buffer. -/
def extract (registry : Registry TextType) (host : Identity) (buffer : List UInt8) :
    Except Fault (Extraction TextMessage) :=
  match buffer.idxOf? lineFeed with
  | none => .ok .incomplete
  | some position =>
    match envelope? (buffer.take position) with
    | none => .ok .incomplete
    | some (name, attrs) => do
      let type ← registry.resolve (.string name)
      match (type.fresh host).applyAttributes attrs with
      | .ok m => pure (.message m position)
      | .error _ => pure (.skipped position)

end JsonLines

def textCodec (registry : Registry TextType) (host : Identity) : Codec TextMessage where
  terminator := 1
  encode := JsonLines.encode
  extract := JsonLines.extract registry host

end PeerMessaging
