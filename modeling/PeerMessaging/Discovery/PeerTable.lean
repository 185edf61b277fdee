import PeerMessaging.Value.Convert
/-!
The table of connected peers, keyed by address. An IPv4 address seen through an IPv6 socket
(`::ffff:a.b.c.d`) is the same peer as `a.b.c.d`, so addresses lose that prefix, once, before
any lookup. The first claim of an address wins; the table keeps the order of first claims.
-/

namespace PeerMessaging

def mappedPrefix : Text := Text.ofString "::ffff:"

def normalizeAddress (a : Text) : Text :=
  if a.startsWith mappedPrefix then ⟨a.units.drop mappedPrefix.length⟩ else a

def addressText : Value → Except HostError Text
  | .string t => .ok t
  | .null => .error (.readOfNullish true "startsWith")
  | .undefined => .error (.readOfNullish false "startsWith")
  | _ => .error (.notAFunction "address.startsWith")

/-- Connected peers by normalised address, in order of first claim. -/
structure PeerTable (α : Type) where
  entries : List (Text × α)

namespace PeerTable

variable {α : Type}

def empty : PeerTable α := ⟨[]⟩

def get? (t : PeerTable α) (address : Text) : Option α :=
  (t.entries.find? (·.1 == normalizeAddress address)).map (·.2)

def has (t : PeerTable α) (address : Text) : Bool := (t.get? address).isSome

def claim (t : PeerTable α) (address : Text) (peer : α) : Bool × PeerTable α :=
  if t.has address then (false, t) else (true, ⟨t.entries ++ [(normalizeAddress address, peer)]⟩)

def addresses (t : PeerTable α) : List Text := t.entries.map (·.1)

def size (t : PeerTable α) : Nat := t.entries.length

@[simp] theorem claim_fst (t : PeerTable α) (address : Text) (peer : α) :
    (t.claim address peer).1 = !t.has address := by
  unfold claim
  split <;> simp_all

theorem addresses_claim (t : PeerTable α) (address : Text) (peer : α) :
    (t.claim address peer).2.addresses =
      if t.has address then t.addresses else t.addresses ++ [normalizeAddress address] := by
  unfold claim addresses
  split <;> simp

theorem size_eq_length_addresses (t : PeerTable α) : t.size = t.addresses.length := by
  simp [size, addresses]

end PeerTable

end PeerMessaging
