import PeerMessaging.Discovery.Config
import PeerMessaging.Discovery.PeerTable
/-!
A discovery session's lifecycle. A session is created idle from settings that resolve, not
enabled, with no stop reason, no local address and no peers. Stopping disables an enabled
session and records why; stopping one that is not enabled changes nothing.
-/

namespace PeerMessaging

inductive SessionState where
  | idle
  | running
  | stopped
  deriving DecidableEq, Repr

inductive StopReason where
  | stopped
  | timeout
  | failed
  deriving DecidableEq, Repr

def StopReason.name : StopReason → String
  | .stopped => "stopped"
  | .timeout => "timeout"
  | .failed => "failed"

/-- A discovery session with its resolved settings; peers map addresses to connection ids. -/
structure Session where
  config : DiscoveryConfig
  state : SessionState
  enabled : Bool
  stopReason : Option StopReason
  localAddress : Option Text
  peers : PeerTable Nat

namespace Session

def create (c : DiscoveryConfig) : Except ConfigError Session :=
  c.resolve.map fun r => ⟨r, .idle, false, none, none, PeerTable.empty⟩

def disable (s : Session) (reason : StopReason) : Session :=
  if s.enabled then { s with enabled := false, stopReason := some reason } else s

def stop (s : Session) : Session := s.disable .stopped

end Session

def SessionState.name : SessionState → String
  | .idle => "idle"
  | .running => "running"
  | .stopped => "stopped"

end PeerMessaging
