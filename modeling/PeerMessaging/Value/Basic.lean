import PeerMessaging.Text.Units
/-!
Host values: what a field, a key or an attribute can hold. Objects keep their own properties in
the host's order: keys that are array indices first, ascending, then the others in the order they
were first defined. Redefining a key keeps its place.
-/

namespace PeerMessaging

/-- Where an object's prototype leads: the plain object prototype, nowhere, or a class. -/
inductive Shape where
  | plain
  | noPrototype
  | classInstance
  deriving DecidableEq, Repr

/-- A host value. Objects, arrays and the other reference kinds carry their contents; each one
met in an input is a distinct reference. -/
inductive Value where
  | undefined
  | null
  | bool (b : Bool)
  | number (x : Float)
  | string (s : Text)
  | bigint (n : Int)
  | symbol (description : Text)
  | function
  | date (time : Float)
  | map (entries : List (Text × Value))
  | bytes (data : List UInt8)
  | array (items : List Value)
  | object (shape : Shape) (props : List (Text × Value))
  deriving Inhabited

namespace Value

mutual

/-- Values compare constructor by constructor and field by field; numbers compare as numbers, so
not-a-number equals nothing and the two zeros are equal. -/
def beq : Value → Value → Bool
  | .undefined, .undefined => true
  | .null, .null => true
  | .bool a, .bool b => a == b
  | .number x, .number y => x == y
  | .string s, .string t => s == t
  | .bigint n, .bigint k => n == k
  | .symbol s, .symbol t => s == t
  | .function, .function => true
  | .date x, .date y => x == y
  | .map a, .map b => beqEntries a b
  | .bytes a, .bytes b => a == b
  | .array a, .array b => beqItems a b
  | .object s a, .object t b => s == t && beqEntries a b
  | _, _ => false

def beqItems : List Value → List Value → Bool
  | [], [] => true
  | a :: as, b :: bs => beq a b && beqItems as bs
  | _, _ => false

def beqEntries : List (Text × Value) → List (Text × Value) → Bool
  | [], [] => true
  | a :: as, b :: bs => beqEntry a b && beqEntries as bs
  | _, _ => false

def beqEntry : Text × Value → Text × Value → Bool
  | (k, a), (l, b) => k == l && beq a b

end

instance : BEq Value := ⟨beq⟩

def str (s : String) : Value := .string (Text.ofString s)

def num (n : Nat) : Value := .number n.toFloat

def isNullish : Value → Bool
  | .undefined | .null => true
  | _ => false

def orElse (v d : Value) : Value := if v.isNullish then d else v

/-- Whether a condition holds of the value: `undefined`, `null`, `false`, zero, not-a-number
and the empty text fail, and every other value holds. -/
def truthy : Value → Bool
  | .undefined | .null => false
  | .bool b => b
  | .number x => !(x == 0 || x.isNaN)
  | .string s => !s.units.isEmpty
  | .bigint n => n != 0
  | _ => true

end Value

/-- An array index: the canonical decimal text of an integer below `2^32 - 1`. -/
def Text.isArrayIndex (k : Text) : Bool :=
  match k.units with
  | [] => false
  | [0x30] => true
  | 0x30 :: _ => false
  | us => us.all (fun u => 0x30 ≤ u && u ≤ 0x39) && us.length ≤ 10 &&
      us.foldl (fun acc u => acc * 10 + (u.toNat - 0x30)) 0 < Nat.pow 2 32 - 1

def Text.indexValue (k : Text) : Nat := k.units.foldl (fun acc u => acc * 10 + (u.toNat - 0x30)) 0

namespace Props

variable {α : Type}

def get? (ps : List (Text × α)) (k : Text) : Option α := (ps.find? (·.1 == k)).map (·.2)

def contains (ps : List (Text × α)) (k : Text) : Bool := ps.any (·.1 == k)

/-- Whether a new key `k` is placed before an existing key `j`: an index goes before every
larger index and before every key that is no index. -/
def goesBefore (k j : Text) : Bool :=
  k.isArrayIndex && (!j.isArrayIndex || k.indexValue < j.indexValue)

/-- Places a new key in the host order. -/
def insertNew (ps : List (Text × α)) (k : Text) (v : α) : List (Text × α) :=
  match ps with
  | [] => [(k, v)]
  | (j, w) :: rest => if goesBefore k j then (k, v) :: (j, w) :: rest else (j, w) :: insertNew rest k v

def replace (ps : List (Text × α)) (k : Text) (v : α) : List (Text × α) :=
  ps.map fun (j, w) => if j == k then (j, v) else (j, w)

def set (ps : List (Text × α)) (k : Text) (v : α) : List (Text × α) :=
  if contains ps k then replace ps k v else insertNew ps k v

def ofList (kvs : List (Text × α)) : List (Text × α) := kvs.foldl (fun ps (k, v) => set ps k v) []

def keys (ps : List (Text × α)) : List Text := ps.map (·.1)

theorem keys_map {β : Type} (ps : List (Text × α)) (f : Text × α → Text × β)
    (names : ∀ kv, (f kv).1 = kv.1) : keys (ps.map f) = keys ps := by
  unfold keys
  rw [List.map_map]
  exact List.map_congr_left fun kv _ => names kv

theorem keys_replace (ps : List (Text × α)) (k : Text) (v : α) : keys (replace ps k v) = keys ps :=
  keys_map ps _ fun ⟨j, _⟩ => by dsimp only; split <;> rfl

theorem keys_insertNew_perm (ps : List (Text × α)) (k : Text) (v : α) :
    (keys (insertNew ps k v)).Perm (k :: keys ps) := by
  induction ps with
  | nil => exact .refl _
  | cons p rest ih =>
    obtain ⟨j, w⟩ := p
    unfold insertNew
    split
    · exact .refl _
    · exact (ih.cons j).trans (.swap k j _)

theorem nodup_keys_set {ps : List (Text × α)} (distinct : (keys ps).Nodup) (k : Text) (v : α) :
    (keys (set ps k v)).Nodup := by
  unfold set
  split
  · rwa [keys_replace]
  · next absent =>
    have fresh : k ∉ keys ps := by simpa [contains, keys] using absent
    exact (keys_insertNew_perm ps k v).nodup_iff.mpr (List.nodup_cons.mpr ⟨fresh, distinct⟩)

theorem nodup_keys_foldl {β : Type} (f : List (Text × α) → β → List (Text × α))
    (step : ∀ ps b, (keys ps).Nodup → (keys (f ps b)).Nodup) :
    ∀ (bs : List β) (acc : List (Text × α)), (keys acc).Nodup → (keys (bs.foldl f acc)).Nodup
  | [], _, distinct => distinct
  | b :: bs, acc, distinct => nodup_keys_foldl f step bs (f acc b) (step acc b distinct)

theorem nodup_keys_ofList (kvs : List (Text × α)) : (keys (ofList kvs)).Nodup :=
  nodup_keys_foldl _ (fun _ kv distinct => nodup_keys_set distinct kv.1 kv.2) kvs [] List.nodup_nil


end Props

end PeerMessaging
