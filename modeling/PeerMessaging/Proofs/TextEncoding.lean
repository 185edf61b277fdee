import PeerMessaging.Proofs.TextGrammar
/-!
Text encoding. The default walk over a message's slots sends the value of each enumerable slot
unless it is `undefined`, and stops at the first enumerable slot holding any other value that is
no wire value, naming its key. Otherwise the message is encoded as the JSON text of its name and
the object of what it sends, then a line feed; that text has no line feed of its own, so the reader
cuts the line exactly before the encoding's last byte, whatever follows.

What the walk sends under `__proto__` is lost: it becomes the prototype of the attribute object
rather than a property of it, and the JSON text leaves it out. The encoding is the JSON text of
every defined enumerable slot only for messages that send nothing under that name.
-/

namespace PeerMessaging

namespace Slot

def refused (s : Slot) : Bool := (s.sent?.map fun v => !v.isWire).getD false

theorem refused_eq_false_iff {s : Slot} :
    s.refused = false ↔ (s.enumerable = true → s.value = .undefined ∨ s.value.isWire = true) := by
  unfold refused sent?
  split <;> simp_all

theorem refused_eq_true {s : Slot} (refused : s.refused = true) :
    s.enumerable = true ∧ s.value ≠ .undefined ∧ s.value.isWire = false := by
  unfold Slot.refused sent? at refused
  split at refused <;> simp_all

end Slot

namespace TextMessage

def shownAttributes (slots : List (Text × Slot)) : List (Text × Value) :=
  slots.filterMap fun kv => kv.2.sent?.map (kv.1, ·)

theorem sentAttributes_eq_shown {slots : List (Text × Slot)}
    (noProto : ∀ kv ∈ slots, kv.1 = Text.ofString "__proto__" → kv.2.sent? = none) :
    sentAttributes slots = shownAttributes slots := by
  induction slots with
  | nil => rfl
  | cons first rest ih =>
    obtain ⟨k, s⟩ := first
    have others := ih fun kv member => noProto kv (.tail _ member)
    rw [sentAttributes_cons, others]
    by_cases proto : k = Text.ofString "__proto__"
    · simp [shownAttributes, proto, noProto (k, s) (.head _) proto]
    · cases sent : s.sent? <;> simp [shownAttributes, proto, sent]

variable (name : Value) {k : Text} {s : Slot} (rest : List (Text × Slot))

theorem attributesOf_cons_refused (refused : s.refused = true) :
    attributesOf name ((k, s) :: rest) = .error (Fault.unsupported name k) := by
  obtain ⟨shown, defined, notWire⟩ := Slot.refused_eq_true refused
  rw [attributesOf, if_neg (by simp [shown])]
  split
  · next undefined => exact absurd undefined defined
  · rw [if_pos (by simp [notWire])]

theorem attributesOf_cons_passed (passed : s.refused = false) (f : Fault) :
    attributesOf name ((k, s) :: rest) = .error f ↔ attributesOf name rest = .error f := by
  rw [attributesOf]
  cases shown : s.enumerable with
  | false => simp
  | true =>
    simp only [Bool.not_true, Bool.false_eq_true, if_false]
    split
    · exact Iff.rfl
    · next defined =>
      have isWire : s.value.isWire = true :=
        (Slot.refused_eq_false_iff.1 passed shown).resolve_left defined
      simp only [isWire, Bool.not_true, Bool.false_eq_true, if_false]
      cases attributesOf name rest <;> simp [Except.map]

/-- The walk fails at the slot that `find?` gives for refusal, naming its key. -/
theorem attributesOf_eq_error_iff_find (slots : List (Text × Slot)) (f : Fault) :
    attributesOf name slots = .error f ↔
      ∃ kv, slots.find? (·.2.refused) = some kv ∧ f = Fault.unsupported name kv.1 := by
  induction slots with
  | nil => simp [attributesOf]
  | cons first rest ih =>
    obtain ⟨j, t⟩ := first
    cases here : t.refused
    · -- the walk passes this slot, and so does `find?`
      rw [attributesOf_cons_passed name rest here, ih, List.find?_cons_of_neg (by simp [here])]
    · -- the walk stops here, where `find?` does
      rw [attributesOf_cons_refused name rest here, List.find?_cons_of_pos (by simp [here])]
      constructor
      · intro failed
        cases failed
        exact ⟨(j, t), rfl, rfl⟩
      · rintro ⟨kv, found, rfl⟩
        cases found
        rfl

theorem attributesOf_eq_error_iff (slots : List (Text × Slot)) (f : Fault) :
    attributesOf name slots = .error f ↔ ∃ before k s after, slots = before ++ (k, s) :: after ∧
      (∀ kv ∈ before, kv.2.refused = false) ∧ s.refused = true ∧ f = Fault.unsupported name k := by
  rw [attributesOf_eq_error_iff_find]
  constructor
  · rintro ⟨⟨k, s⟩, found, rfl⟩
    obtain ⟨refused, before, after, split, passed⟩ := List.find?_eq_some_iff_append.1 found
    exact ⟨before, k, s, after, split, fun kv member => by simpa using passed kv member, refused, rfl⟩
  · rintro ⟨before, k, s, after, split, passed, refused, rfl⟩
    refine ⟨(k, s), List.find?_eq_some_iff_append.2 ⟨refused, before, after, split, ?_⟩, rfl⟩
    intro kv member
    simp [passed kv member]

/-- A walk that succeeds refused no slot. -/
theorem passing_of_attributesOf_ok {slots : List (Text × Slot)} {attrs : List (Text × Value)}
    (walked : attributesOf name slots = .ok attrs) : ∀ kv ∈ slots, kv.2.refused = false := by
  intro kv member
  cases refused : kv.2.refused
  · rfl
  · -- the first refused slot, which exists, would fail the walk
    obtain ⟨before, after, split⟩ := List.append_of_mem member
    obtain ⟨first, hit, firstRefused⟩ : ∃ first, slots.find? (fun kv => kv.2.refused) = some first ∧
        first.2.refused = true := by
      cases found : slots.find? (fun kv => kv.2.refused) with
      | none =>
        have := List.find?_eq_none.1 found kv member
        simp [refused] at this
      | some first =>
        have firstRefused := List.find?_some found
        exact ⟨first, rfl, firstRefused⟩
    obtain ⟨-, before', after', whole, passed⟩ := List.find?_eq_some_iff_append.1 hit
    have failed := (attributesOf_eq_error_iff name slots (Fault.unsupported name first.1)).2
      ⟨before', first.1, first.2, after', whole, fun kv member => by simpa using passed kv member,
        firstRefused, rfl⟩
    rw [walked] at failed
    cases failed

end TextMessage

namespace JsonLines

variable {m : TextMessage} {name : Text} (defaultWalk : m.get? (Text.ofString "toAttributes") = none)
  (named : m.typeName = .string name)
include defaultWalk named

theorem toAttributes_default :
    m.toAttributes = (TextMessage.attributesOf (.string name) m.slots).map (.object .plain) := by
  unfold TextMessage.toAttributes
  rw [defaultWalk, named]

theorem encode_of_passing (passing : ∀ kv ∈ m.slots, kv.2.refused = false) :
    ∃ parts, List.Forall₂ Json.Written [.string name, .object .plain (TextMessage.sentAttributes m.slots)] parts ∧
      Json.write (.array [.string name, .object .plain (TextMessage.sentAttributes m.slots)]) =
        .ok (some (Json.lit "[" ++ Json.commaJoin parts ++ Json.lit "]")) ∧
      encode m = .ok ((Json.lit "[" ++ Json.commaJoin parts ++ Json.lit "]").toUtf8 ++ [lineFeed]) := by
  have wire : ∀ kv ∈ m.slots, kv.2.enumerable = true → kv.2.value = .undefined ∨ kv.2.value.isWire = true :=
    fun kv member => Slot.refused_eq_false_iff.1 (passing kv member)
  have attributes : m.toAttributes = .ok (.object .plain (TextMessage.sentAttributes m.slots)) := by
    rw [toAttributes_default defaultWalk named, TextMessage.attributesOf_sent _ wire]
    rfl
  obtain ⟨parts, each, written⟩ := write_envelope name (TextMessage.allWireProps_sentAttributes wire)
  exact ⟨parts, each, written, encode_of_toAttributes attributes named written⟩

/-- Encoding fails exactly as the walk over the slots does. -/
theorem encode_eq_error_iff (f : Fault) :
    encode m = .error f ↔ TextMessage.attributesOf (.string name) m.slots = .error f := by
  cases walked : TextMessage.attributesOf (.string name) m.slots with
  | error g =>
    have failed : encode m = .error g := by
      unfold encode
      rw [toAttributes_default defaultWalk named, walked]
      rfl
    rw [failed]
    constructor <;> intro same <;> cases same <;> rfl
  | ok attrs =>
    obtain ⟨_, _, _, encoded⟩ := encode_of_passing defaultWalk named
      (TextMessage.passing_of_attributesOf_ok _ walked)
    rw [encoded]
    simp

end JsonLines

open JsonLines TextMessage in
/-- Text encoding gives one line, or fails at the first slot it cannot send. For a message with the
default walk and the name `name`, encoding fails exactly when an enumerable slot holds a value that
is neither `undefined` nor a wire value, with the unsupported-attribute fault for `name` and the key
of the first such slot. Otherwise the encoding is a line and then a line feed that is the only
one, so the reader takes exactly the bytes before it as the line, whatever follows; for a message
that sends nothing under `__proto__`, the line is the JSON text of `name` and the object of the
defined enumerable slots in order. -/
theorem text_encoding_is_one_line (m : TextMessage) (name : Text)
    (defaultWalk : m.get? (Text.ofString "toAttributes") = none) (named : m.typeName = .string name) :
    (∀ f, encode m = .error f ↔ ∃ before k s after, m.slots = before ++ (k, s) :: after ∧
      (∀ kv ∈ before, kv.2.refused = false) ∧ s.refused = true ∧ f = Fault.unsupported (.string name) k) ∧
    ((∀ kv ∈ m.slots, kv.2.refused = false) →
      ∃ line : Text, encode m = .ok (line.toUtf8 ++ [lineFeed]) ∧ lineFeed ∉ line.toUtf8 ∧
        (∀ registry host rest e, extract registry host ((line.toUtf8 ++ [lineFeed]) ++ rest) = .ok e →
          e.consumed = line.toUtf8.length) ∧
        ((∀ kv ∈ m.slots, kv.1 = Text.ofString "__proto__" → kv.2.sent? = none) →
          Json.write (.array [.string name, .object .plain (shownAttributes m.slots)]) = .ok (some line))) := by
  refine ⟨fun f => (encode_eq_error_iff defaultWalk named f).trans
    (attributesOf_eq_error_iff _ m.slots f), fun passing => ?_⟩
  obtain ⟨parts, each, written, encoded⟩ := encode_of_passing defaultWalk named passing
  have wire : Value.allWireProps (sentAttributes m.slots) = true :=
    allWireProps_sentAttributes fun kv member => Slot.refused_eq_false_iff.1 (passing kv member)
  have clear : lineFeed ∉ (Json.lit "[" ++ Json.commaJoin parts ++ Json.lit "]").toUtf8 :=
    Text.utf8OfUnits_lineFeed (Json.written_array each).oneLine.noLineFeed
  refine ⟨_, encoded, clear, fun registry host rest e read => ?_, fun noProto => ?_⟩
  · -- the line holds the envelope it was written from, so a read ends with the line
    rw [List.append_assoc, List.singleton_append] at read
    exact consumed_of_envelope registry host clear rest (envelope_of_written wire each) read
  · -- nothing is sent under `__proto__`, so what is sent is all that is shown
    rwa [← sentAttributes_eq_shown noProto]

/-- An identify message is encoded as one line: the JSON text of its name and its username and
hostname, then a line feed. -/
theorem identify_encoded_as_one_line :
    (TextType.fresh ⟨Text.ofString "user", Text.ofString "host"⟩ (.builtin .identify)).get?
        (Text.ofString "toAttributes") = none ∧
    (TextType.fresh ⟨Text.ofString "user", Text.ofString "host"⟩ (.builtin .identify)).typeName =
      .string (Text.ofString "MsgIdentify") ∧
    (∀ kv ∈ (TextType.fresh ⟨Text.ofString "user", Text.ofString "host"⟩ (.builtin .identify)).slots,
      kv.1 = Text.ofString "__proto__" → kv.2.sent? = none) ∧
    ∃ line : Text, Json.write (.array [.string (Text.ofString "MsgIdentify"), .object .plain
        (TextMessage.shownAttributes (TextType.fresh ⟨Text.ofString "user", Text.ofString "host"⟩
          (.builtin .identify)).slots)]) = .ok (some line) ∧
      JsonLines.encode (TextType.fresh ⟨Text.ofString "user", Text.ofString "host"⟩
        (.builtin .identify)) = .ok (line.toUtf8 ++ [JsonLines.lineFeed]) ∧
      JsonLines.lineFeed ∉ line.toUtf8 := by
  have defaultWalk : (TextType.fresh ⟨Text.ofString "user", Text.ofString "host"⟩
      (.builtin .identify)).get? (Text.ofString "toAttributes") = none := rfl
  have named : (TextType.fresh ⟨Text.ofString "user", Text.ofString "host"⟩
      (.builtin .identify)).typeName = .string (Text.ofString "MsgIdentify") := rfl
  have slots : (TextType.fresh ⟨Text.ofString "user", Text.ofString "host"⟩
      (.builtin .identify)).slots =
      [(Text.ofString "username", Slot.data (.string (Text.ofString "user"))),
       (Text.ofString "hostname", Slot.data (.string (Text.ofString "host")))] := rfl
  have noProto : ∀ kv ∈ (TextType.fresh ⟨Text.ofString "user", Text.ofString "host"⟩
      (.builtin .identify)).slots, kv.1 = Text.ofString "__proto__" → kv.2.sent? = none := by
    simp only [slots, List.mem_cons, List.not_mem_nil, or_false]
    rintro kv (rfl | rfl) proto <;> exact absurd proto (by decide)
  have passing : ∀ kv ∈ (TextType.fresh ⟨Text.ofString "user", Text.ofString "host"⟩
      (.builtin .identify)).slots, kv.2.refused = false := by
    simp only [slots, List.mem_cons, List.not_mem_nil, or_false]
    rintro kv (rfl | rfl) <;> rfl
  obtain ⟨line, encoded, clear, -, written⟩ := (text_encoding_is_one_line _ _ defaultWalk named).2 passing
  exact ⟨defaultWalk, named, noProto, line, written noProto, encoded, clear⟩

/-- A slot named `__proto__` is left out of the encoding: a message of a type `P` whose fields are
`__proto__ = 1` and `y = 3` is encoded as `["P",{"y":3}]` and a line feed, not as the JSON text
`["P",{"__proto__":1,"y":3}]` of its name and its defined enumerable slots. -/
theorem proto_slot_left_out_of_encoding :
    (JsonLines.encode (TextType.fresh ⟨Text.ofString "user", Text.ofString "host"⟩
        (.custom ⟨"P", Value.str "P", [(Text.ofString "__proto__", Value.num 1),
          (Text.ofString "y", Value.num 3)], [], [], [], false⟩))).toOption =
      some (Text.ofString "[\"P\",\x7b\"y\":3\x7d]\n").toUtf8 ∧
    (Json.write (.array [.string (Text.ofString "P"), .object .plain
        (TextMessage.shownAttributes (TextType.fresh ⟨Text.ofString "user", Text.ofString "host"⟩
          (.custom ⟨"P", Value.str "P", [(Text.ofString "__proto__", Value.num 1),
            (Text.ofString "y", Value.num 3)], [], [], [], false⟩)).slots)])).toOption =
      some (some (Text.ofString "[\"P\",\x7b\"__proto__\":1,\"y\":3\x7d]")) ∧
    (Text.ofString "[\"P\",\x7b\"y\":3\x7d]\n").toUtf8 ≠
      (Text.ofString "[\"P\",\x7b\"__proto__\":1,\"y\":3\x7d]").toUtf8 ++ [JsonLines.lineFeed] :=
  ⟨by decide +kernel, by decide +kernel, by decide +kernel⟩

end PeerMessaging
