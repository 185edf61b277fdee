import PeerMessaging.Proofs.JsonReading
import PeerMessaging.Proofs.TextMessages
import PeerMessaging.Proofs.SelfDelimiting
import PeerMessaging.Proofs.Utf8Forms
/-!
The grammar of text frames. A line is the bytes before the first line feed. It holds an envelope
when it is well-formed UTF-8 whose text, less one leading byte order mark, is JSON denoting a pair
of a string and an object in which no number literal overflowed to an infinity. A buffer without
a line feed, or whose line holds no envelope, is read as incomplete. An envelope's name must be
registered; a fresh message of its type then takes the attributes, and the line is a message, or
is skipped when the type refuses them.

The reader checks the attributes for wire values; on what JSON text denotes that check only looks
for infinities, which is why the grammar names no other condition on them.
-/

namespace PeerMessaging

namespace JsonLines

/-- The line holds the envelope `[name, attrs]`. -/
def Envelope (line : List UInt8) (name : Text) (attrs : List (Text × Value)) : Prop :=
  ∃ units, Text.Utf8Form line units ∧ ∃ shape,
    Json.parse? ⟨Text.dropByteOrderMark units⟩ = some (.array [.string name, .object shape attrs]) ∧
    (Value.object shape attrs).hasInfinity = false

theorem object_isJson {t : Text} {name : Text} {shape : Shape} {attrs : List (Text × Value)}
    (json : Json.parse? t = some (.array [.string name, .object shape attrs])) :
    (Value.object shape attrs).isJson = true := by
  have pair : Value.allJson [.string name, .object shape attrs] = true := Json.parse_isJson json
  exact Value.allJson_iff.1 pair _ (by simp)

theorem envelope_eq_some_iff {line : List UInt8} {name : Text} {attrs : List (Text × Value)} :
    envelope? line = some (name, attrs) ↔ Envelope line name attrs := by
  constructor
  · intro found
    unfold envelope? at found
    split at found
    · next n a parsed =>
      split at found
      · next shape props =>
        split at found
        · next wire =>
          cases found
          obtain ⟨t, decoded, json⟩ := Option.bind_eq_some_iff.1 parsed
          obtain ⟨units, read, rfl⟩ := Option.map_eq_some_iff.1 decoded
          -- the object is something JSON text denotes, so being wire is having no infinity
          have object := object_isJson json
          exact ⟨units, Text.unitsOfUtf8_eq_some_iff.1 read, shape, json,
            (Value.isWire_iff_of_isJson _ object).1 wire⟩
        · cases found
      · cases found
    · cases found
  · rintro ⟨units, form, shape, json, finite⟩
    have object := object_isJson json
    have parsed : (Text.ofUtf8? line).bind Json.parse? =
        some (.array [.string name, .object shape attrs]) := by
      simp [Text.ofUtf8?, Text.unitsOfUtf8_eq_some_iff.2 form, json]
    have wire := (Value.isWire_iff_of_isJson _ object).2 finite
    unfold envelope?
    rw [parsed]
    simp [Value.isWireAttributes, wire]

theorem envelope_eq_none_iff {line : List UInt8} :
    envelope? line = none ↔ ¬ ∃ name attrs, Envelope line name attrs := by
  constructor
  · rintro none ⟨name, attrs, envelope⟩
    rw [envelope_eq_some_iff.2 envelope] at none
    cases none
  · intro nothing
    cases found : envelope? line with
    | none => rfl
    | some parts => exact absurd ⟨parts.1, parts.2, envelope_eq_some_iff.1 found⟩ nothing

section Line

variable (registry : Registry TextType) (host : Identity) {line : List UInt8}
  (clear : lineFeed ∉ line) (rest : List UInt8)
include clear

theorem extract_unparsed (unparsed : envelope? line = none) :
    extract registry host (line ++ lineFeed :: rest) = .ok .incomplete := by
  unfold extract
  simp only [idxOf_line clear, List.take_left, unparsed]

variable {name : Text} {attrs : List (Text × Value)} (found : envelope? line = some (name, attrs))
include found

theorem extract_unregistered (missing : registry.find? (.string name) = none) :
    extract registry host (line ++ lineFeed :: rest) = .error (Fault.unknown (.string name)) := by
  unfold extract
  simp [idxOf_line clear, found, Registry.resolve, missing, bind, Except.bind]

theorem extract_applied {type : TextType} (registered : registry.find? (.string name) = some type)
    {m : TextMessage} (applied : (type.fresh host).applyAttributes attrs = .ok m) :
    extract registry host (line ++ lineFeed :: rest) = .ok (.message m line.length) := by
  unfold extract
  simp only [idxOf_line clear, List.take_left, found, Registry.resolve, registered, bind, Except.bind,
    applied]
  rfl

theorem extract_refused {type : TextType} (registered : registry.find? (.string name) = some type)
    {f : Fault} (refused : (type.fresh host).applyAttributes attrs = .error f) :
    extract registry host (line ++ lineFeed :: rest) = .ok (.skipped line.length) := by
  unfold extract
  simp only [idxOf_line clear, List.take_left, found, Registry.resolve, registered, bind, Except.bind,
    refused]
  rfl

theorem extract_registered_ok {type : TextType} (registered : registry.find? (.string name) = some type) :
    ∃ e, extract registry host (line ++ lineFeed :: rest) = .ok e := by
  cases applied : (type.fresh host).applyAttributes attrs with
  | ok m => exact ⟨_, extract_applied registry host clear rest found registered applied⟩
  | error f => exact ⟨_, extract_refused registry host clear rest found registered applied⟩

/-- A line that holds an envelope is read whole whenever it is read without a fault. -/
theorem consumed_of_envelope {e : Extraction TextMessage}
    (read : extract registry host (line ++ lineFeed :: rest) = .ok e) : e.consumed = line.length := by
  cases registered : registry.find? (.string name) with
  | none =>
    rw [extract_unregistered registry host clear rest found registered] at read
    cases read
  | some type =>
    cases applied : (type.fresh host).applyAttributes attrs with
    | ok m =>
      rw [extract_applied registry host clear rest found registered applied] at read
      cases read
      rfl
    | error f =>
      rw [extract_refused registry host clear rest found registered applied] at read
      cases read
      rfl

end Line

end JsonLines

open JsonLines in
/-- The text reader accepts exactly its grammar. A buffer without a line feed is read as
incomplete. Otherwise the line before the first line feed is read as incomplete unless it holds an
envelope `[name, attrs]`; then the read fails with an unknown type for `name` exactly when no type
is registered under it, and else gives the fresh message of that type after it took `attrs`, or a
skipped line when the type refuses them, both reported with the line's length. -/
theorem text_reader_accepts_its_grammar (registry : Registry TextType) (host : Identity) :
    (∀ buffer, lineFeed ∉ buffer → extract registry host buffer = .ok .incomplete) ∧
    ∀ line rest, lineFeed ∉ line →
      ((¬ ∃ name attrs, Envelope line name attrs) →
        extract registry host (line ++ lineFeed :: rest) = .ok .incomplete) ∧
      ∀ name attrs, Envelope line name attrs →
        (extract registry host (line ++ lineFeed :: rest) = .error (Fault.unknown (.string name)) ↔
          registry.find? (.string name) = none) ∧
        ∀ type, registry.find? (.string name) = some type →
          (∀ m, (type.fresh host).applyAttributes attrs = .ok m →
            extract registry host (line ++ lineFeed :: rest) = .ok (.message m line.length)) ∧
          (∀ f, (type.fresh host).applyAttributes attrs = .error f →
            extract registry host (line ++ lineFeed :: rest) = .ok (.skipped line.length)) := by
  refine ⟨fun buffer clear => extract_of_no_line registry host (List.idxOf?_eq_none_iff.2 clear), ?_⟩
  intro line rest clear
  refine ⟨fun unparsed => extract_unparsed registry host clear rest (envelope_eq_none_iff.2 unparsed), ?_⟩
  intro name attrs envelope
  have found := envelope_eq_some_iff.2 envelope
  refine ⟨⟨fun failed => ?_, extract_unregistered registry host clear rest found⟩, fun type registered =>
    ⟨fun m applied => extract_applied registry host clear rest found registered applied,
      fun f refused => extract_refused registry host clear rest found registered refused⟩⟩
  -- a registered name reads without a fault, so the fault says the name is unknown
  cases registry_find : registry.find? (.string name) with
  | none => rfl
  | some type =>
    obtain ⟨e, read⟩ := extract_registered_ok registry host clear rest found registry_find
    rw [read] at failed
    cases failed

/-- The line `["MsgJoin",{"n":[1e400]}]` holds no envelope: its one number overflows to an
infinity. So it is read as incomplete, with the built-in types registered. -/
theorem overflowing_line_not_read :
    JsonLines.lineFeed ∉ (Text.ofString "[\"MsgJoin\",\x7b\"n\":[1e400]\x7d]").toUtf8 ∧
    (¬ ∃ name attrs, JsonLines.Envelope (Text.ofString "[\"MsgJoin\",\x7b\"n\":[1e400]\x7d]").toUtf8 name attrs) ∧
    JsonLines.extract (Registry.empty.registerAll TextType.builtins).1
        ⟨Text.ofString "user", Text.ofString "host"⟩
        ((Text.ofString "[\"MsgJoin\",\x7b\"n\":[1e400]\x7d]").toUtf8 ++ JsonLines.lineFeed :: []) =
      .ok .incomplete := by
  have clear : JsonLines.lineFeed ∉ (Text.ofString "[\"MsgJoin\",\x7b\"n\":[1e400]\x7d]").toUtf8 := by
    decide +kernel
  have unparsed : (JsonLines.envelope? (Text.ofString "[\"MsgJoin\",\x7b\"n\":[1e400]\x7d]").toUtf8).isNone =
      true := by
    decide +kernel
  have nothing := JsonLines.envelope_eq_none_iff.1 (Option.isNone_iff_eq_none.1 unparsed)
  exact ⟨clear, nothing, ((text_reader_accepts_its_grammar (Registry.empty.registerAll TextType.builtins).1
    ⟨Text.ofString "user", Text.ofString "host"⟩).2 _ [] clear).1 nothing⟩

end PeerMessaging
