import PeerMessaging.Value.Convert
/-!
The logging threshold chosen from the environment. `LOG_LEVEL`, lower-cased, wins when it names
a level; otherwise the level is `silent` when `NODE_ENV` is exactly `test`, and `info` else.
Only ASCII letters can lower-case to the letters of a level name (the one other letter that
lowers to ASCII, KELVIN SIGN, gives `k`, which no level has), so mapping `A` to `Z` decides
the same names as full lower-casing.
-/

namespace PeerMessaging

inductive LogLevel where
  | fatal
  | error
  | warn
  | info
  | debug
  | trace
  | silent
  deriving DecidableEq, Repr

namespace LogLevel

def all : List LogLevel := [.fatal, .error, .warn, .info, .debug, .trace, .silent]

def name : LogLevel → String
  | .fatal => "fatal"
  | .error => "error"
  | .warn => "warn"
  | .info => "info"
  | .debug => "debug"
  | .trace => "trace"
  | .silent => "silent"

def ofName? (t : Text) : Option LogLevel :=
  all.find? fun l => Text.ofString l.name == t.asciiLower

def resolve (requested nodeEnv : Option Text) : LogLevel :=
  match requested.bind ofName? with
  | some l => l
  | none => if nodeEnv == some (Text.ofString "test") then .silent else .info

/-- The level for the environment's values, which may be any values. `LOG_LEVEL` is lower-cased
when it is text and counts as unset when `null` or `undefined`; any other value cannot be
lower-cased. `NODE_ENV` selects `silent` only when it is the text `test`. -/
def ofEnv (requested nodeEnv : Value) : Except HostError LogLevel :=
  let envText : Option Text := match nodeEnv with
    | .string t => some t
    | _ => none
  match requested with
  | .string t => .ok (resolve (some t) envText)
  | .undefined | .null => .ok (resolve none envText)
  | _ => .error (.notAFunction "env.LOG_LEVEL?.toLowerCase")

end LogLevel

end PeerMessaging
