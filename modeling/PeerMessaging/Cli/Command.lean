import PeerMessaging.Cli.Arguments
import PeerMessaging.Number.Read
import PeerMessaging.Exchange
import PeerMessaging.Discovery.Config
/-!
The command line: `discover` or `loopback` with options. Reading the arguments fails on the
first bad option. Help, then version, answer at once. Otherwise every problem is collected, in
the order command, extra arguments, UDP port, TCP port, port range, interval, timeout,
transport, and any problem ends the run before the network is touched. Numbers are read as the
host reads numeric text, so `' 7 '`, `0x10` and `1e3` are integers and the empty text is zero.
Discovery starts from the two ports, the interval, the loopback flag and the timeout (zero when
none is given), every other setting left to its default.
-/

namespace PeerMessaging

namespace Cli

def programName : String := "lanwire"

def version : String := "0.1.0"

/-- The options the command line knows, with their defaults. -/
def options : List OptionSpec :=
  [⟨"udp-port", .text, none, some "8222"⟩,
   ⟨"tcp-port", .text, none, some "8223"⟩,
   ⟨"interval", .text, none, some "1000"⟩,
   ⟨"timeout", .text, none, none⟩,
   ⟨"allow-loopback", .flag, none, none⟩,
   ⟨"transport", .text, some 't', some "json"⟩,
   ⟨"verbose", .flag, some 'V', none⟩,
   ⟨"help", .flag, some 'h', none⟩,
   ⟨"version", .flag, some 'v', none⟩]

def helpText : String :=
  "lanwire - LAN peer discovery and message exchange\n\n" ++
  "USAGE:\n  lanwire discover [OPTIONS]\n  lanwire loopback [OPTIONS]\n\n" ++
  "COMMANDS:\n" ++
  "  discover                Announce this host, connect to peers and exchange identities\n" ++
  "  loopback                Connect a client and a server on 127.0.0.1 and exchange identities\n\n" ++
  "OPTIONS:\n" ++
  "      --udp-port <number> Discovery port (default: 8222)\n" ++
  "      --tcp-port <number> Connection port (default: 8223)\n" ++
  "      --interval <ms>     Interval between announcements (default: 1000)\n" ++
  "      --timeout <ms>      Stop after this long (discover default: run until Ctrl+C)\n" ++
  "      --allow-loopback    Connect to this host's own announcements\n" ++
  "  -t, --transport <name>  Message encoding: json, byte (default: json)\n" ++
  "  -V, --verbose           Log debug output\n" ++
  "  -h, --help              Show this help message\n" ++
  "  -v, --version           Show version number"

inductive Command where
  | discover
  | loopback
  deriving DecidableEq, Repr

/-- Arguments that passed every check. -/
structure Invocation where
  command : Command
  udpPort : Float
  tcpPort : Float
  intervalMs : Float
  timeoutMs : Option Float
  allowLoopback : Bool
  transport : Encoding
  verbose : Bool

/-- How a run goes: it ends at once with a status and output, or starts the command. -/
inductive Outcome where
  | exit (status : Nat) (stdout stderr : Text)
  | start (inv : Invocation)

def readInteger (label : String) (t : Text) (least : Nat) : Float × List Text :=
  let x := Number.ofText t
  if Number.isInteger x && x ≥ least.toFloat then (x, [])
  else (x, [lit ("Invalid " ++ label ++ ": ") ++ t ++ lit (". Must be an integer of at least " ++ toString least ++ ".")])

def readCommand (positionals : List Text) : Option Command × List Text :=
  match positionals.head? with
  | none => (none, [lit "Missing command"])
  | some c =>
    if c == lit "discover" then (some .discover, [])
    else if c == lit "loopback" then (some .loopback, [])
    else (none, [lit "Unknown command: " ++ c])

def extraProblems (positionals : List Text) : List Text :=
  let extra := positionals.drop 1
  if extra.isEmpty then [] else [lit "Unexpected arguments: " ++ Text.joinWith (lit " ") extra]

def rangeProblems (udp tcp : Float) : List Text :=
  if udp > 65535 || tcp > 65535 then [lit "Ports must be between 1 and 65535."] else []

def readTimeout : Option Text → Option Float × List Text
  | none => (none, [])
  | some t => Prod.map some id (readInteger "timeout" t 0)

def readTransport (t : Text) : Option Encoding × List Text :=
  if t == lit "json" then (some .text, [])
  else if t == lit "byte" then (some .byte, [])
  else (none, [lit "Invalid transport: " ++ t ++ lit ". Must be 'json' or 'byte'."])

def Parsed.optionText (p : Parsed) (name : String) : Text := (p.text? name).getD Text.empty

def usageHint : String := "Run \"lanwire --help\" for usage information."

/-- The problems with parsed arguments, in order, and the invocation they describe. -/
def validate (p : Parsed) : List Text × Option Invocation :=
  let command := readCommand p.positionals
  let udp := readInteger "UDP port" (p.optionText "udp-port") 1
  let tcp := readInteger "TCP port" (p.optionText "tcp-port") 1
  let interval := readInteger "interval" (p.optionText "interval") 1
  let timeout := readTimeout (p.text? "timeout")
  let transport := readTransport (p.optionText "transport")
  let problems := command.2 ++ extraProblems p.positionals ++ udp.2 ++ tcp.2 ++
    rangeProblems udp.1 tcp.1 ++ interval.2 ++ timeout.2 ++ transport.2
  match command.1, transport.1, problems with
  | some c, some e, [] =>
    ([], some ⟨c, udp.1, tcp.1, interval.1, timeout.1, p.flag "allow-loopback", e,
      p.flag "verbose"⟩)
  | _, _, _ => (problems, none)

def problemReport (problems : List Text) : Text :=
  lit "Error: Invalid arguments\n\n" ++
    problems.foldl (fun acc q => acc ++ lit "  - " ++ q ++ lit "\n") Text.empty ++
    lit ("\n" ++ usageHint ++ "\n")

/-- The discovery settings a `discover` run starts with; the settings it does not give are left
out, so they take their defaults. Each connection goes to a handler that logs it. -/
def Invocation.discoveryConfig (inv : Invocation) : DiscoveryConfig :=
  { DiscoveryConfig.blank with
    udpPort := .number inv.udpPort
    tcpPort := .number inv.tcpPort
    broadcastIntervalMs := .number inv.intervalMs
    allowLoopback := .bool inv.allowLoopback
    timeoutMs := .number (inv.timeoutMs.getD 0)
    onConnect := .function }

/-- What the command line does with its arguments before any networking. -/
def run (args : List Text) : Outcome :=
  match parse options args with
  | .error e => .exit 1 Text.empty (lit "Error: " ++ e.message ++ lit ("\n" ++ usageHint ++ "\n"))
  | .ok p =>
    if p.flag "help" then .exit 0 (lit (helpText ++ "\n")) Text.empty
    else if p.flag "version" then .exit 0 (lit (programName ++ " v" ++ version ++ "\n")) Text.empty
    else
      match validate p with
      | (_, some inv) => .start inv
      | (problems, none) => .exit 1 Text.empty (problemReport problems)

end Cli

end PeerMessaging
