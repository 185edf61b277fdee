import PeerMessaging.Registry
import PeerMessaging.Value.Basic
/-!
Message types of the text encoding. A message is a set of own properties (slots), each with its
flags: enumerable or hidden, writable or read-only, or an accessor that reads and writes a value
through a getter and a setter.

A message turns into wire attributes from its enumerable slots in order: a slot holding
`undefined` is left out, a slot that is not a wire value is a fault, and a slot named
`__proto__` cannot become an attribute. Attributes received from the wire change only writable
data slots the message already has, and never one named `__proto__`, `constructor` or
`prototype`; every flag stays as it was.

Own slots shadow what the type provides under the same name: an own `typeName` is the name the
message reports (and, on a fresh message, the key its type registers under), an own
`constructor` gives the class name it shows, and own `toAttributes` or `applyAttributes` slots
replace those steps.
-/

/-!
## Wire values

Wire values: what a text frame can carry. Text, booleans, `null` and finite numbers are wire
values; an array is one when its elements are, and an object whose prototype is the plain one or
none is one when its own values are. Everything else (undefined, big integers, symbols,
functions, dates, maps, bytes, class instances) is not.
-/
namespace PeerMessaging

namespace Value

mutual

def isWire : Value → Bool
  | .string _ | .bool _ | .null => true
  | .number x => x.isFinite
  | .array items => allWire items
  | .object .plain props | .object .noPrototype props => allWireProps props
  | _ => false

def allWire : List Value → Bool
  | [] => true
  | v :: rest => isWire v && allWire rest

def allWireProps : List (Text × Value) → Bool
  | [] => true
  | (_, v) :: rest => isWire v && allWireProps rest

end

def isWireAttributes (v : Value) : Bool :=
  match v with
  | .object .. => v.isWire
  | _ => false

end Value

end PeerMessaging

namespace PeerMessaging

/-- An own property of a message. -/
structure Slot where
  value : Value
  enumerable : Bool
  writable : Bool
  /-- Whether the slot may be redefined or deleted; every slot a message defines may be. -/
  configurable : Bool
  /-- Read and written through a getter and a setter rather than held as data. -/
  accessor : Bool

namespace Slot

def data (v : Value) : Slot := ⟨v, true, true, true, false⟩

end Slot

/-- A text message type defined by the user: its label, the name it reports, the slots of a
fresh message by kind, and whether it refuses every attribute from the wire. -/
structure CustomTextType where
  label : String
  name : Value
  fields : List (Text × Value)
  readonly : List (Text × Value)
  hidden : List (Text × Value)
  accessors : List (Text × Value)
  refusesAttributes : Bool

/-- A message type of the text encoding. -/
inductive TextType where
  | builtin (k : Kind)
  | custom (c : CustomTextType)

/-- A message of the text encoding: its type and its own slots in host order, at most one of
each name. -/
@[ext]
structure TextMessage where
  type : TextType
  slots : List (Text × Slot)
  distinct : (Props.keys slots).Nodup

/-- The slots of a fresh message of a user type: fields, read-only fields, hidden fields and
accessors, defined in that order. -/
def CustomTextType.initialSlots (c : CustomTextType) : List (Text × Slot) :=
  let defs := c.fields.map (fun (k, v) => (k, Slot.mk v true true true false)) ++
    c.readonly.map (fun (k, v) => (k, Slot.mk v true false true false)) ++
    c.hidden.map (fun (k, v) => (k, Slot.mk v false true true false)) ++
    c.accessors.map (fun (k, v) => (k, Slot.mk v true true true true))
  Props.ofList defs

theorem identify_keys_nodup (username hostname : Slot) :
    (Props.keys [(Text.ofString "username", username), (Text.ofString "hostname", hostname)]).Nodup := by
  simp only [Props.keys, List.map_cons, List.map_nil]
  decide

namespace TextType

def name : TextType → Value
  | .builtin k => Value.str ("Msg" ++ k.name)
  | .custom c => c.name

/-- The name a fresh message of the type reports, which is the key the type registers under: an
own `typeName` slot of a fresh message shadows the type's name. -/
def reportedName : TextType → Value
  | .builtin k => Value.str ("Msg" ++ k.name)
  | .custom c => ((Props.get? c.initialSlots (Text.ofString "typeName")).map (·.value)).getD c.name

def label : TextType → String
  | .builtin k => "Msg" ++ k.name
  | .custom c => c.label

def builtins : List TextType := Kind.all.map .builtin

def fresh (host : Identity) : TextType → TextMessage
  | .builtin .identify =>
    ⟨.builtin .identify,
      [(Text.ofString "username", Slot.data (.string host.username)),
       (Text.ofString "hostname", Slot.data (.string host.hostname))], identify_keys_nodup _ _⟩
  | .builtin k => ⟨.builtin k, [], List.nodup_nil⟩
  | .custom c => ⟨.custom c, c.initialSlots, Props.nodup_keys_ofList _⟩

instance : Keyed TextType where
  keyOf := TextType.reportedName
  checkKey k := do
    let n ← k.lengthProperty.mapError Fault.host
    if n.isZero then .error (Fault.invalid k .emptyName) else .ok ()

end TextType

namespace TextMessage

def identifyOf (host : Identity) (username hostname : Value) : TextMessage :=
  ⟨.builtin .identify,
    [(Text.ofString "username", Slot.data (username.orElse (.string host.username))),
     (Text.ofString "hostname", Slot.data (hostname.orElse (.string host.hostname)))], identify_keys_nodup _ _⟩

def define (m : TextMessage) (k : Text) (v : Value) : TextMessage :=
  { m with slots := Props.set m.slots k (Slot.data v), distinct := Props.nodup_keys_set m.distinct k _ }

def get? (m : TextMessage) (k : Text) : Option Value := (Props.get? m.slots k).map (·.value)

def typeName (m : TextMessage) : Value := (m.get? (Text.ofString "typeName")).getD m.type.name

def className (m : TextMessage) : Except HostError Value :=
  match m.get? (Text.ofString "constructor") with
  | some c => c.nameProperty
  | none => .ok (Value.str m.type.label)

def reserved (k : Text) : Bool :=
  k == Text.ofString "__proto__" || k == Text.ofString "constructor" || k == Text.ofString "prototype"

/-- The wire attributes of the enumerable slots in `slots`, for a type named `typeName`. -/
def attributesOf (typeName : Value) : List (Text × Slot) → Except Fault (List (Text × Value))
  | [] => .ok []
  | (k, s) :: rest =>
    if !s.enumerable then attributesOf typeName rest
    else match s.value with
      | .undefined => attributesOf typeName rest
      | v =>
        if !v.isWire then .error (Fault.unsupported typeName k)
        else
          (attributesOf typeName rest).map fun attrs =>
            if k == Text.ofString "__proto__" then attrs else (k, v) :: attrs

def toAttributes (m : TextMessage) : Except Fault Value :=
  match m.get? (Text.ofString "toAttributes") with
  | some .function => .ok .undefined
  | some _ => .error (.host (.notAFunction "message.toAttributes"))
  | none => (attributesOf m.typeName m.slots).map (.object .plain)

def assignable (k : Text) (s : Slot) : Bool := !reserved k && !s.accessor && s.writable

/-- Assigns the received attributes to the slots that accept them. -/
def assign (slots : List (Text × Slot)) (attrs : List (Text × Value)) : List (Text × Slot) :=
  slots.map fun (k, s) =>
    if assignable k s then
      match Props.get? attrs k with
      | some v => (k, { s with value := v })
      | none => (k, s)
    else (k, s)

theorem keys_assign (slots : List (Text × Slot)) (attrs : List (Text × Value)) :
    Props.keys (assign slots attrs) = Props.keys slots := by
  refine Props.keys_map slots _ fun ⟨k, s⟩ => ?_
  dsimp only
  split
  · cases Props.get? attrs k <;> rfl
  · rfl

def assigned (m : TextMessage) (attrs : List (Text × Value)) : TextMessage :=
  { m with slots := assign m.slots attrs, distinct := keys_assign m.slots attrs ▸ m.distinct }

/-- Applies received attributes; a type that refuses attributes fails. An own
`applyAttributes` slot shadows the type's step: a function changes nothing, and any other value
cannot be called. -/
def applyAttributes (m : TextMessage) (attrs : List (Text × Value)) : Except Fault TextMessage :=
  match m.get? (Text.ofString "applyAttributes") with
  | some .function => .ok m
  | some _ => .error (.host (.notAFunction "message.applyAttributes"))
  | none =>
    match m.type with
    | .custom c => if c.refusesAttributes then .error .hookFailed else .ok (m.assigned attrs)
    | .builtin _ => .ok (m.assigned attrs)

end TextMessage

end PeerMessaging
