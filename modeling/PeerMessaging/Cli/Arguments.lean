import PeerMessaging.Json.Write
/-!
Strict reading of command-line arguments against a table of options.

An option is long (`--name`, `--name=value`) or short (`-n`); short flags may be grouped
(`-ab`), and a short option that takes text may carry it attached (`-tvalue`). An option that
takes text takes the next argument when it is not given one inline, whatever that argument is.
`--` ends the options. Every option must be known; one that takes text must get it, a flag must
not, and a value taken from the next argument must not look like an option (a dash and more).
The first offending option, in order, is the error. Options not given take their defaults.
-/

namespace PeerMessaging

namespace Cli

/-- Whether an option takes text or is a flag. -/
inductive OptionKind where
  | text
  | flag
  deriving DecidableEq

/-- One known option. -/
structure OptionSpec where
  name : String
  kind : OptionKind
  short : Option Char
  defaultText : Option String

/-- A value read for an option. -/
inductive OptionValue where
  | text (t : Text)
  | flag
  deriving DecidableEq

/-- One argument after classification. -/
inductive Token where
  | option (name raw : Text) (value : Option Text) (inline : Bool)
  | positional (value : Text)

/-- Why arguments cannot be read. -/
inductive ArgumentError where
  | unknownOption (raw : Text)
  | missingValue (spec : OptionSpec)
  | unexpectedValue (spec : OptionSpec)
  /-- A value that looks like an option, taken from the next argument for `raw`. -/
  | ambiguousValue (raw name : Text)

/-- Arguments read: the options given, by name, and the positional arguments. -/
structure Parsed where
  values : List (Text × OptionValue)
  positionals : List Text

def lit (s : String) : Text := Text.ofString s

def unitOf (c : Char) : UInt16 := c.toNat.toUInt16

def find? (specs : List OptionSpec) (name : Text) : Option OptionSpec :=
  specs.find? fun s => lit s.name == name

def longForShort (specs : List OptionSpec) (u : UInt16) : Text :=
  match specs.find? (fun s => s.short.map unitOf == some u) with
  | some s => lit s.name
  | none => ⟨[u]⟩

def takesText (specs : List OptionSpec) (name : Text) : Bool :=
  match find? specs name with
  | some s => s.kind == .text
  | none => false

def dash : UInt16 := 0x2D

def equalsSign : UInt16 := 0x3D

def isLoneShort (a : Text) : Bool :=
  match a.units with
  | [0x2D, c] => c != dash
  | _ => false

def hasInlineValue (a : Text) : Bool := (a.units.drop 3).contains equalsSign

def isLong (a : Text) : Bool := a.length > 2 && a.units.take 2 == [dash, dash]

def isShortGroup (specs : List OptionSpec) (a : Text) : Bool :=
  match a.units with
  | 0x2D :: c :: _ :: _ => c != dash && !takesText specs (longForShort specs c)
  | _ => false

def isShortWithValue (specs : List OptionSpec) (a : Text) : Bool :=
  match a.units with
  | 0x2D :: c :: _ :: _ => c != dash && takesText specs (longForShort specs c)
  | _ => false

def expandGroup (specs : List OptionSpec) : List UInt16 → List Text
  | [] => []
  | [c] => [⟨[dash, c]⟩]
  | c :: rest =>
    if takesText specs (longForShort specs c) then [⟨dash :: c :: rest⟩]
    else ⟨[dash, c]⟩ :: expandGroup specs rest

/-- Classifies arguments in order; `fuel` bounds the steps, one per argument and one per group. -/
def tokenize (specs : List OptionSpec) : Nat → List Text → List Token
  | 0, _ => []
  | _, [] => []
  | fuel + 1, a :: rest =>
    if a == lit "--" then rest.map .positional
    else if isLoneShort a then
      let name := longForShort specs (a.units.getD 1 0)
      match rest with
      | next :: rest' =>
        if takesText specs name then .option name a (some next) false :: tokenize specs fuel rest'
        else .option name a none false :: tokenize specs fuel rest
      | [] => [.option name a none false]
    else if isShortGroup specs a then tokenize specs fuel (expandGroup specs (a.units.drop 1) ++ rest)
    else if isShortWithValue specs a then
      let c := a.units.getD 1 0
      .option (longForShort specs c) ⟨[dash, c]⟩ (some ⟨a.units.drop 2⟩) true :: tokenize specs fuel rest
    else if isLong a && !hasInlineValue a then
      let name : Text := ⟨a.units.drop 2⟩
      match rest with
      | next :: rest' =>
        if takesText specs name then .option name a (some next) false :: tokenize specs fuel rest'
        else .option name a none false :: tokenize specs fuel rest
      | [] => [.option name a none false]
    else if isLong a then
      let body := a.units.drop 2
      let name : Text := ⟨body.takeWhile (· != equalsSign)⟩
      let value : Text := ⟨(body.dropWhile (· != equalsSign)).drop 1⟩
      .option name ⟨dash :: dash :: name.units⟩ (some value) true :: tokenize specs fuel rest
    else .positional a :: tokenize specs fuel rest

def looksLikeOption (v : Text) : Bool := v.length > 1 && v.units.head? == some dash

/-- Checks one option token and gives the value to store. -/
def checkOption (specs : List OptionSpec) (name raw : Text) (value : Option Text) (inline : Bool) :
    Except ArgumentError OptionValue :=
  match find? specs name with
  | none => .error (.unknownOption raw)
  | some spec =>
    match spec.kind, value with
    | .text, none => .error (.missingValue spec)
    | .flag, some _ => .error (.unexpectedValue spec)
    | _, some v =>
      if !inline && looksLikeOption v then .error (.ambiguousValue raw name) else .ok (.text v)
    | .flag, none => .ok .flag

def store (values : List (Text × OptionValue)) (name : Text) (v : OptionValue) : List (Text × OptionValue) :=
  (name, v) :: values.filter (·.1 != name)

def readTokens (specs : List OptionSpec) : List Token → Parsed → Except ArgumentError Parsed
  | [], p => .ok p
  | .positional v :: rest, p => readTokens specs rest { p with positionals := p.positionals ++ [v] }
  | .option name raw value inline :: rest, p =>
    match checkOption specs name raw value inline with
    | .error e => .error e
    | .ok v => readTokens specs rest { p with values := store p.values name v }

/-- Reads arguments against the table; options not given take their default text. -/
def parse (specs : List OptionSpec) (args : List Text) : Except ArgumentError Parsed :=
  let fuel := 2 * args.length + (args.map Text.length).foldr (· + ·) 0 + 1
  (readTokens specs (tokenize specs fuel args) ⟨[], []⟩).map fun p =>
    let defaults := specs.filterMap fun s =>
      match s.defaultText with
      | some d => if (p.values.find? (·.1 == lit s.name)).isSome then none else some (lit s.name, OptionValue.text (lit d))
      | none => none
    { p with values := p.values ++ defaults }

def Parsed.text? (p : Parsed) (name : String) : Option Text :=
  match (p.values.find? (·.1 == lit name)).map (·.2) with
  | some (OptionValue.text t) => some t
  | _ => none

def Parsed.flag (p : Parsed) (name : String) : Bool :=
  match (p.values.find? (·.1 == lit name)).map (·.2) with
  | some OptionValue.flag => true
  | _ => false

def OptionSpec.usage (s : OptionSpec) : String :=
  (match s.short with
    | some c => "-" ++ c.toString ++ ", "
    | none => "") ++ "--" ++ s.name

def ArgumentError.message : ArgumentError → Text
  | .unknownOption raw =>
    lit "Unknown option '" ++ raw ++ lit "'. To specify a positional argument starting with a '-', " ++
      lit "place it at the end of the command after '--', as in '-- " ++ Json.quote raw
  | .missingValue s => lit ("Option '" ++ s.usage ++ " <value>' argument missing")
  | .unexpectedValue s => lit ("Option '" ++ s.usage ++ "' does not take an argument")
  | .ambiguousValue raw name =>
    let suggestion := if raw.units.take 2 == [dash, dash] then lit "'" ++ raw ++ lit "=-XYZ'"
      else lit "'--" ++ name ++ lit "=-XYZ' or '" ++ raw ++ lit "-XYZ'"
    lit "Option '" ++ raw ++ lit "' argument is ambiguous.\nDid you forget to specify the option argument for '" ++
      raw ++ lit "'?\nTo specify an option argument starting with a dash use " ++ suggestion ++ lit "."

end Cli

end PeerMessaging
