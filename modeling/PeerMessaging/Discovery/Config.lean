import PeerMessaging.Value.Convert
import PeerMessaging.Text.Units
/-!
Discovery settings. Each field takes its default when it is `undefined` or `null`, except the
local address, which has no default and is checked only when it is not `undefined`. The checks
run in a fixed order and the first failure is the answer: the two ports are integers from 1 to
65535; the broadcast interval, the connect timeout and the poll interval are finite and
positive; the session timeout is finite and not negative; the broadcast, bind and local
addresses are dotted quads; the marker's length is not zero. A value shown in a refusal is
converted to text, and a value that has no text (a symbol) raises that conversion's error.
-/

/-!
## IPv4 addresses

Dotted-quad IPv4 addresses: four decimal parts from 0 to 255 joined by dots, with no leading
zeros, no signs and no white space.
-/
namespace PeerMessaging

namespace Ipv4

def isDigit (u : UInt16) : Bool := 0x30 ≤ u && u ≤ 0x39

def isPart (us : List UInt16) : Bool :=
  match us with
  | [] => false
  | [d] => isDigit d
  | 0x30 :: _ => false
  | _ => us.length ≤ 3 && us.all isDigit && us.foldl (fun n u => n * 10 + (u.toNat - 0x30)) 0 ≤ 255

def splitDots (us : List UInt16) : List (List UInt16) :=
  us.splitOn 0x2E

end Ipv4

def Text.isIpv4 (t : Text) : Bool :=
  let parts := Ipv4.splitDots t.units
  parts.length == 4 && parts.all Ipv4.isPart

end PeerMessaging

namespace PeerMessaging

/-- Discovery settings, each field any value; `undefined` where none is given. -/
structure DiscoveryConfig where
  udpPort : Value
  tcpPort : Value
  broadcastIntervalMs : Value
  allowLoopback : Value
  connectTimeoutMs : Value
  timeoutMs : Value
  pollIntervalMs : Value
  broadcastAddress : Value
  bindAddress : Value
  localAddress : Value
  marker : Value
  /-- The handler called on each connection, passed on as given. -/
  onConnect : Value

namespace DiscoveryConfig

def blank : DiscoveryConfig :=
  ⟨.undefined, .undefined, .undefined, .undefined, .undefined, .undefined, .undefined, .undefined,
    .undefined, .undefined, .undefined, .undefined⟩

def defaults : DiscoveryConfig :=
  ⟨Value.num 8222, Value.num 8223, Value.num 1000, .bool false, Value.num 2000, Value.num 0,
    Value.num 250, Value.str "255.255.255.255", Value.str "0.0.0.0", .undefined, Value.str "BROADCAST",
    .undefined⟩

/-- The settings a value describes, each field its own property of that name. An absent
configuration (`undefined`) gives none, and so does any value without such properties; reading a
property of `null` fails, at the first field read, the UDP port. -/
def ofValue : Value → Except HostError DiscoveryConfig
  | .null => .error (.readOfNullish true "udpPort")
  | .object _ props =>
    let field (k : String) : Value := (Props.get? props (Text.ofString k)).getD .undefined
    .ok ⟨field "udpPort", field "tcpPort", field "broadcastIntervalMs", field "allowLoopback",
      field "connectTimeoutMs", field "timeoutMs", field "pollIntervalMs", field "broadcastAddress",
      field "bindAddress", field "localAddress", field "marker", field "onConnect"⟩
  | _ => .ok blank

end DiscoveryConfig

/-- Why settings are refused, with the offending value as text. -/
inductive ConfigIssue where
  | notPort (field : String) (shown : Text)
  | notPositive (field : String) (shown : Text)
  | negativeTimeout (shown : Text)
  | notIpv4 (field : String) (shown : Text)
  | emptyMarker

namespace ConfigIssue

def reason : ConfigIssue → Text
  | .notPort f v => Text.ofString (f ++ " must be an integer in 1..65535, got ") ++ v
  | .notPositive f v => Text.ofString (f ++ " must be a positive number, got ") ++ v
  | .negativeTimeout v => Text.ofString "timeoutMs must be zero or positive, got " ++ v
  | .notIpv4 f v => Text.ofString (f ++ " must be an IPv4 address, got '") ++ v ++ Text.ofString "'"
  | .emptyMarker => Text.ofString "marker must not be empty"

def message (i : ConfigIssue) : Text := Text.ofString "Invalid discovery configuration: " ++ i.reason

end ConfigIssue

/-- A refusal of settings, or a conversion error met while wording one. -/
inductive ConfigError where
  | invalid (issue : ConfigIssue)
  | host (e : HostError)

namespace DiscoveryConfig

def refuse (v : Value) (issue : Text → ConfigIssue) : Except ConfigError Unit :=
  match v.toText with
  | .ok t => .error (.invalid (issue t))
  | .error e => .error (.host e)

def requirePort (field : String) (v : Value) : Except ConfigError Unit :=
  match v with
  | .number x => if Number.isInteger x && 1 ≤ x && x ≤ 65535 then .ok () else refuse v (.notPort field)
  | _ => refuse v (.notPort field)

def requirePositive (field : String) (v : Value) : Except ConfigError Unit :=
  match v with
  | .number x => if x.isFinite && 0 < x then .ok () else refuse v (.notPositive field)
  | _ => refuse v (.notPositive field)

def requireTimeout (v : Value) : Except ConfigError Unit :=
  match v with
  | .number x => if x.isFinite && 0 ≤ x then .ok () else refuse v .negativeTimeout
  | _ => refuse v .negativeTimeout

def requireIpv4 (field : String) (v : Value) : Except ConfigError Unit :=
  match v.toText with
  | .error e => .error (.host e)
  | .ok t => if t.isIpv4 then .ok () else refuse v (.notIpv4 field)

def requireMarker (v : Value) : Except ConfigError Unit :=
  match v.lengthProperty with
  | .error e => .error (.host e)
  | .ok n => if n.isZero then .error (.invalid .emptyMarker) else .ok ()

def withDefaults (c : DiscoveryConfig) : DiscoveryConfig :=
  let d := defaults
  ⟨c.udpPort.orElse d.udpPort, c.tcpPort.orElse d.tcpPort,
    c.broadcastIntervalMs.orElse d.broadcastIntervalMs, c.allowLoopback.orElse d.allowLoopback,
    c.connectTimeoutMs.orElse d.connectTimeoutMs, c.timeoutMs.orElse d.timeoutMs,
    c.pollIntervalMs.orElse d.pollIntervalMs, c.broadcastAddress.orElse d.broadcastAddress,
    c.bindAddress.orElse d.bindAddress, c.localAddress, c.marker.orElse d.marker, c.onConnect⟩

/-- The settings with defaults filled in, once every check passes. -/
def resolve (c : DiscoveryConfig) : Except ConfigError DiscoveryConfig := do
  let r := c.withDefaults
  requirePort "udpPort" r.udpPort
  requirePort "tcpPort" r.tcpPort
  requirePositive "broadcastIntervalMs" r.broadcastIntervalMs
  requirePositive "connectTimeoutMs" r.connectTimeoutMs
  requirePositive "pollIntervalMs" r.pollIntervalMs
  requireTimeout r.timeoutMs
  requireIpv4 "broadcastAddress" r.broadcastAddress
  requireIpv4 "bindAddress" r.bindAddress
  match r.localAddress with
  | .undefined => pure ()
  | v => requireIpv4 "localAddress" v
  requireMarker r.marker
  pure r

end DiscoveryConfig

end PeerMessaging
