import PeerMessaging.Fault
import PeerMessaging.Text.Units
/-!
A registry maps keys to message types. Keys are compared as map keys are (`-0` is `0`, and a
reference equals only itself); the table keeps the order in which keys were first registered,
and a later registration under a known key replaces the type in place. A key is checked before
anything changes.
-/

/-!
## Extraction

Reading frames off the front of a byte buffer. One step either finds no complete frame, skips a
frame it cannot use, or yields a message; in the last two cases it reports how many bytes the
frame used. A codec's terminator follows each frame, so the buffer advances by the bytes used
plus the terminator, or not at all when nothing was used.
-/
namespace PeerMessaging

/-- The outcome of one step of reading a frame. -/
inductive Extraction (μ : Type) where
  /-- No complete frame yet, or one that cannot be told apart from noise: nothing is used. -/
  | incomplete
  /-- A frame of `consumed` bytes that yields no message. -/
  | skipped (consumed : Nat)
  /-- A message read from a frame of `consumed` bytes. -/
  | message (m : μ) (consumed : Nat)

namespace Extraction

variable {μ : Type}

def consumed : Extraction μ → Nat
  | .incomplete => 0
  | .skipped n => n
  | .message _ n => n

def message? : Extraction μ → Option μ
  | .message m _ => some m
  | _ => none

def advance (terminator : Nat) (e : Extraction μ) : Nat :=
  if e.consumed > 0 then e.consumed + terminator else 0

end Extraction

/-- A way of putting messages into frames and reading them back. -/
structure Codec (μ : Type) where
  /-- The bytes after each frame that belong to no frame. -/
  terminator : Nat
  encode : μ → Except Fault (List UInt8)
  extract : List UInt8 → Except Fault (Extraction μ)

end PeerMessaging

/-!
## Message kinds and identities

The four kinds of message that both encodings know, and the identity of this host, which a
hello carries and which a peer's identity falls back to where it leaves a part out.
-/
namespace PeerMessaging

/-- The message kinds built into both encodings. -/
inductive Kind where
  | identify
  | join
  | retry
  | quit
  deriving DecidableEq, Repr

namespace Kind

def all : List Kind := [.identify, .join, .retry, .quit]

def name : Kind → String
  | .identify => "Identify"
  | .join => "Join"
  | .retry => "Retry"
  | .quit => "Quit"

end Kind

/-- Who this host is. -/
structure Identity where
  username : Text
  hostname : Text

end PeerMessaging

namespace PeerMessaging

/-- A family of message types: the key each type registers under, and the check a key passes. -/
class Keyed (τ : Type) where
  keyOf : τ → Value
  checkKey : Value → Except Fault Unit

/-- Keys with their types, in order of first registration. -/
structure Registry (τ : Type) where
  entries : List (Value × τ)

namespace Registry

variable {τ : Type}

def empty : Registry τ := ⟨[]⟩

def find? (r : Registry τ) (k : Value) : Option τ :=
  (r.entries.find? fun e => Value.sameValueZero e.1 k).map (·.2)

def has (r : Registry τ) (k : Value) : Bool := (r.find? k).isSome

def resolve (r : Registry τ) (k : Value) : Except Fault τ :=
  match r.find? k with
  | some t => .ok t
  | none => .error (Fault.unknown k)

def keys (r : Registry τ) : List Value := r.entries.map (·.1)

def size (r : Registry τ) : Nat := r.entries.length

def put (r : Registry τ) (k : Value) (t : τ) : Registry τ :=
  if r.entries.any (fun e => Value.sameValueZero e.1 k) then
    ⟨r.entries.map fun e => if Value.sameValueZero e.1 k then (e.1, t) else e⟩
  else ⟨r.entries ++ [(k.normalizeZero, t)]⟩

theorem keys_put (r : Registry τ) (k : Value) (t : τ) :
    (r.put k t).keys =
      if r.entries.any (fun e => Value.sameValueZero e.1 k) then r.keys
      else r.keys ++ [k.normalizeZero] := by
  unfold put keys
  split
  · simp only [List.map_map]
    congr 1
    funext e
    simp only [Function.comp_apply]
    split <;> rfl
  · simp

theorem size_eq_length_keys (r : Registry τ) : r.size = r.keys.length := by
  simp [size, keys]

def register [Keyed τ] (r : Registry τ) (k : Value) (t : τ) : Except Fault (Registry τ) :=
  (Keyed.checkKey τ k).map fun _ => r.put k t

def registerType [Keyed τ] (r : Registry τ) (t : τ) : Except Fault (Registry τ) :=
  r.register (Keyed.keyOf t) t

def registerAll [Keyed τ] (r : Registry τ) : List τ → Registry τ × Option Fault
  | [] => (r, none)
  | t :: ts =>
    match r.registerType t with
    | .ok r' => registerAll r' ts
    | .error f => (r, some f)

end Registry

end PeerMessaging
