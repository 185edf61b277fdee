import Mathlib.Data.List.Forall2
import PeerMessaging.Proofs.TextMessages
/-!
Received attributes. The default step that applies attributes from the wire walks the message's
own slots and changes nothing but values: each slot keeps its name, its place and its flags, and
only a writable data slot of an unreserved name that the attributes name takes their value. The
message's type, and with it the class it resolves to, never changes.

The name a message reports is its own `typeName` slot where it has one. The wire writes such a
slot as it writes any other field, so the reported name changes exactly when the message keeps it
in a writable data slot and the attributes name it.
-/

namespace PeerMessaging

namespace TextMessage

/-- The value a slot holds after receiving `attrs`: what `attrs` holds under its name, if the
slot is assignable and `attrs` names it, else its own. -/
def receivedValue (attrs : List (Text × Value)) (k : Text) (s : Slot) : Value :=
  if assignable k s then (Props.get? attrs k).getD s.value else s.value

/-- What receiving `attrs` leaves of a slot: its name, its flags, and the value it receives. -/
def Received (attrs : List (Text × Value)) (before after : Text × Slot) : Prop :=
  after.1 = before.1 ∧ after.2.enumerable = before.2.enumerable ∧
    after.2.writable = before.2.writable ∧ after.2.configurable = before.2.configurable ∧
    after.2.accessor = before.2.accessor ∧ after.2.value = receivedValue attrs before.1 before.2

variable {attrs : List (Text × Value)}

theorem received_assign (attrs : List (Text × Value)) (slots : List (Text × Slot)) :
    List.Forall₂ (Received attrs) slots (assign slots attrs) := by
  unfold assign
  rw [List.forall₂_map_right_iff, List.forall₂_same]
  intro slot _
  obtain ⟨k, s⟩ := slot
  dsimp only
  split
  · next writable =>
    cases named : Props.get? attrs k <;> simp [Received, receivedValue, writable, named]
  · next fixed => simp [Received, receivedValue, fixed]

theorem Received.keys {before after : List (Text × Slot)}
    (received : List.Forall₂ (Received attrs) before after) :
    after.map (·.1) = before.map (·.1) := by
  induction received with
  | nil => rfl
  | cons slot _ ih => simp [slot.1, ih]

/-- After receiving, the slot under a name holds the value that slot received. -/
theorem Received.get? {before after : List (Text × Slot)}
    (received : List.Forall₂ (Received attrs) before after) (k : Text) :
    (Props.get? after k).map Slot.value = (Props.get? before k).map (receivedValue attrs k) := by
  induction received with
  | nil => rfl
  | @cons b a before after slot _ ih =>
    obtain ⟨name, -, -, -, -, value⟩ := slot
    obtain ⟨j, s⟩ := b
    obtain ⟨j', s'⟩ := a
    dsimp only at name value
    subst name
    rw [Props.get?_cons, Props.get?_cons]
    by_cases same : j' = k
    · subst same
      simp [value]
    · simp [same, ih]

/-- The name a message reports after receiving: its own unless it keeps that name in a writable
data slot, which then holds what the attributes hold under `typeName`. -/
theorem Received.typeName {m m' : TextMessage} (sameType : m'.type = m.type)
    (received : List.Forall₂ (Received attrs) m.slots m'.slots) :
    m'.typeName = m.typeName ∨ ∃ s, Props.get? m.slots (Text.ofString "typeName") = some s ∧
      s.writable = true ∧ s.accessor = false ∧
      Props.get? attrs (Text.ofString "typeName") = some m'.typeName := by
  have slot := Received.get? received (Text.ofString "typeName")
  unfold TextMessage.typeName TextMessage.get?
  rw [slot, sameType]
  cases own : Props.get? m.slots (Text.ofString "typeName") with
  | none => simp
  | some s =>
    by_cases writable : assignable (Text.ofString "typeName") s = true
    · -- a writable data slot: the wire writes it when the attributes name it
      cases named : Props.get? attrs (Text.ofString "typeName") with
      | none => simp [receivedValue, writable, named]
      | some v =>
        right
        have unreserved : reserved (Text.ofString "typeName") = false := by decide
        have flags : s.accessor = false ∧ s.writable = true := by
          simpa [assignable, unreserved] using writable
        exact ⟨s, rfl, flags.2, flags.1, by simp [receivedValue, writable, named]⟩
    · simp [receivedValue, writable]

theorem applyAttributes_default {m : TextMessage}
    (ownDefault : m.get? (Text.ofString "applyAttributes") = none)
    (accepting : ∀ c, m.type = .custom c → c.refusesAttributes = false) :
    m.applyAttributes attrs = .ok (m.assigned attrs) := by
  obtain ⟨type, slots, distinct⟩ := m
  unfold applyAttributes
  rw [ownDefault]
  cases type with
  | builtin k => rfl
  | custom c => simp [accepting c rfl]

end TextMessage

open TextMessage in
/-- The default step that applies received attributes changes only the values of fields. The
message keeps its type, the names of its slots in order and every slot's flags; a writable data
slot of an unreserved name that the attributes name holds their value there, and every other slot
keeps its value. So the name the message reports changes only when the message keeps it in a
writable data slot named `typeName`, which then holds what the attributes hold under that name. -/
theorem received_attributes_change_only_fields (m : TextMessage) (attrs : List (Text × Value))
    (ownDefault : m.get? (Text.ofString "applyAttributes") = none)
    (accepting : ∀ c, m.type = .custom c → c.refusesAttributes = false) :
    ∃ m', m.applyAttributes attrs = .ok m' ∧ m'.type = m.type ∧
      m'.slots.map (·.1) = m.slots.map (·.1) ∧ List.Forall₂ (Received attrs) m.slots m'.slots ∧
      (m'.typeName = m.typeName ∨ ∃ s, Props.get? m.slots (Text.ofString "typeName") = some s ∧
        s.writable = true ∧ s.accessor = false ∧
        Props.get? attrs (Text.ofString "typeName") = some m'.typeName) := by
  have received := received_assign attrs m.slots
  refine ⟨m.assigned attrs, applyAttributes_default ownDefault accepting, rfl,
    Received.keys received, received, ?_⟩
  exact Received.typeName rfl received

/-- An identify message that receives a `username`, a `__proto__` naming another type and a
`typeName` keeps its type and the name it reports: it has no slot under either of the last two. -/
theorem identify_keeps_its_name_receiving_proto :
    (TextType.fresh ⟨Text.ofString "user", Text.ofString "host"⟩ (.builtin .identify)).get?
        (Text.ofString "applyAttributes") = none ∧
    (∀ c, (TextType.fresh ⟨Text.ofString "user", Text.ofString "host"⟩
        (.builtin .identify)).type = .custom c → c.refusesAttributes = false) ∧
    ∃ m', (TextType.fresh ⟨Text.ofString "user", Text.ofString "host"⟩
        (.builtin .identify)).applyAttributes
        [(Text.ofString "username", Value.str "alice"),
         (Text.ofString "__proto__", .object .plain [(Text.ofString "typeName", Value.str "MsgQuit")]),
         (Text.ofString "typeName", Value.str "x")] = .ok m' ∧
      m'.type = .builtin .identify ∧
      m'.typeName = (TextType.fresh ⟨Text.ofString "user", Text.ofString "host"⟩
        (.builtin .identify)).typeName := by
  have ownDefault : (TextType.fresh ⟨Text.ofString "user", Text.ofString "host"⟩
      (.builtin .identify)).get? (Text.ofString "applyAttributes") = none := rfl
  have accepting : ∀ c, (TextType.fresh ⟨Text.ofString "user", Text.ofString "host"⟩
      (.builtin .identify)).type = .custom c → c.refusesAttributes = false := by
    intro c custom
    cases custom
  obtain ⟨m', applied, type, -, -, name⟩ := received_attributes_change_only_fields _
    [(Text.ofString "username", Value.str "alice"),
     (Text.ofString "__proto__", .object .plain [(Text.ofString "typeName", Value.str "MsgQuit")]),
     (Text.ofString "typeName", Value.str "x")] ownDefault accepting
  refine ⟨ownDefault, accepting, m', applied, type, ?_⟩
  rcases name with same | ⟨s, own, -⟩
  · exact same
  · -- the identify message keeps its name in no slot
    cases own

/-- A type may keep its name in a field, and the wire then writes it: a fresh message of a type
`T` whose fields are `a = 1` and `typeName = "X"` reports the name `X`, and after receiving
`{"a": 2, "typeName": "Y"}` it reports `Y`. -/
theorem wire_rewrites_typeName_field :
    (TextType.fresh ⟨Text.ofString "user", Text.ofString "host"⟩
        (.custom ⟨"T", Value.str "T", [(Text.ofString "a", Value.num 1),
          (Text.ofString "typeName", Value.str "X")], [], [], [], false⟩)).typeName = Value.str "X" ∧
    ((TextType.fresh ⟨Text.ofString "user", Text.ofString "host"⟩
        (.custom ⟨"T", Value.str "T", [(Text.ofString "a", Value.num 1),
          (Text.ofString "typeName", Value.str "X")], [], [], [], false⟩)).applyAttributes
        [(Text.ofString "a", Value.num 2), (Text.ofString "typeName", Value.str "Y")]).map
      TextMessage.typeName = .ok (Value.str "Y") :=
  ⟨rfl, rfl⟩

end PeerMessaging
