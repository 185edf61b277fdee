import PeerMessaging.Proofs.JsonValues
import PeerMessaging.Proofs.TextFrames
/-!
Text messages read back. A message sends, under each key, the value of its own enumerable slot
there unless that value is `undefined`; the receiver makes a fresh message of the type its name
resolves to, and each writable data slot of an unreserved name takes the image of what was sent
under that name. The frames of messages that send only wire values are one line each, and a buffer
of such frames reads back as those received messages in order.

The image keeps every value as it was except that negative zero reads as zero, so a message that
sends `-0` is received holding `0`.
-/

namespace PeerMessaging

namespace Props

variable {α : Type}

theorem get?_cons (j : Text) (w : α) (rest : List (Text × α)) (k : Text) :
    get? ((j, w) :: rest) k = if j = k then some w else get? rest k := by
  by_cases same : j = k <;> simp [get?, same]

theorem get?_eq_none {ps : List (Text × α)} {k : Text} (absent : k ∉ ps.map (·.1)) : get? ps k = none := by
  induction ps with
  | nil => rfl
  | cons first rest ih =>
    obtain ⟨j, w⟩ := first
    simp only [List.map_cons, List.mem_cons, not_or] at absent
    rw [get?_cons, if_neg (Ne.symm absent.1), ih absent.2]

theorem replace_cons (i : Text) (w : α) (rest : List (Text × α)) (k : Text) (v : α) :
    replace ((i, w) :: rest) k v = (if i == k then (i, v) else (i, w)) :: replace rest k v := rfl

theorem get?_replace (ps : List (Text × α)) (k : Text) (v : α) (j : Text) :
    get? (replace ps k v) j = if j = k then (get? ps j).map fun _ => v else get? ps j := by
  induction ps with
  | nil => split <;> rfl
  | cons first rest ih =>
    obtain ⟨i, w⟩ := first
    rw [replace_cons]
    by_cases hit : i = k
    · subst hit
      rw [if_pos (beq_self_eq_true i), get?_cons, get?_cons, ih]
      by_cases same : i = j
      · subst same; simp
      · simp [same]
    · rw [if_neg (by simpa using hit), get?_cons, get?_cons, ih]
      by_cases same : i = j
      · subst same; simp [hit]
      · simp [same]

theorem insertNew_cons (j : Text) (w : α) (rest : List (Text × α)) (k : Text) (v : α) :
    insertNew ((j, w) :: rest) k v =
      if goesBefore k j then (k, v) :: (j, w) :: rest else (j, w) :: insertNew rest k v := rfl

theorem get?_insertNew {ps : List (Text × α)} {k : Text} (fresh : contains ps k = false) (v : α) (j : Text) :
    get? (insertNew ps k v) j = if j = k then some v else get? ps j := by
  induction ps with
  | nil => simp [insertNew, get?_cons, eq_comm]
  | cons first rest ih =>
    obtain ⟨i, w⟩ := first
    simp only [contains, List.any_cons, Bool.or_eq_false_iff, beq_eq_false_iff_ne] at fresh
    rw [insertNew_cons]
    split
    · rw [get?_cons, get?_cons]
      by_cases same : j = k
      · subst same; simp
      · simp [same, Ne.symm same]
    · rw [get?_cons, get?_cons, ih (by simpa [contains] using fresh.2)]
      by_cases same : j = k
      · subst same; simp [fresh.1]
      · simp [same]

/-- Defining a key changes the value under that key and no other. -/
theorem get?_set (ps : List (Text × α)) (k : Text) (v : α) (j : Text) :
    get? (set ps k v) j = if j = k then some v else get? ps j := by
  unfold set
  split
  next known =>
    rw [get?_replace]
    split
    next same =>
      subst same
      -- the key is there, so its old value is replaced
      obtain ⟨⟨i, w⟩, member, hit⟩ := List.any_eq_true.1 known
      simp only [beq_iff_eq] at hit
      subst hit
      cases found : get? ps i with
      | none =>
        simp [get?, List.find?_eq_none] at found
        exact absurd (found i w member) (by simp)
      | some _ => rfl
    next => rfl
  next fresh => exact get?_insertNew (by simpa using fresh) v j

theorem get?_foldl_set {kvs : List (Text × α)} (distinct : (kvs.map (·.1)).Nodup) (acc : List (Text × α))
    (j : Text) : get? (kvs.foldl (fun ps kv => set ps kv.1 kv.2) acc) j = (get? kvs j).or (get? acc j) := by
  induction kvs generalizing acc with
  | nil => rfl
  | cons first rest ih =>
    obtain ⟨k, v⟩ := first
    simp only [List.map_cons, List.nodup_cons] at distinct
    rw [List.foldl_cons, ih distinct.2, get?_set, get?_cons]
    by_cases same : j = k
    · subst same
      simp [get?_eq_none distinct.1]
    · simp [same, Ne.symm same]

theorem get?_ofList {kvs : List (Text × α)} (distinct : (kvs.map (·.1)).Nodup) (j : Text) :
    get? (ofList kvs) j = get? kvs j := by
  have defined := get?_foldl_set distinct [] j
  rw [show get? ([] : List (Text × α)) j = none from rfl, Option.or_none] at defined
  exact defined

end Props

namespace Value

theorem get?_jsonImageProps (props : List (Text × Value)) (k : Text) :
    Props.get? (jsonImageProps props) k = (Props.get? props k).map jsonImage := by
  induction props with
  | nil => rfl
  | cons first rest ih =>
    obtain ⟨j, v⟩ := first
    rw [jsonImageProps, Props.get?_cons, Props.get?_cons, ih]
    split <;> rfl

theorem keys_jsonImageProps (props : List (Text × Value)) :
    (jsonImageProps props).map (·.1) = props.map (·.1) := by
  induction props with
  | nil => rfl
  | cons first rest ih =>
    obtain ⟨j, v⟩ := first
    simp [jsonImageProps, ih]

end Value

def Slot.sent? (s : Slot) : Option Value :=
  match s.enumerable, s.value with
  | false, _ => none
  | true, .undefined => none
  | true, v => some v

namespace Slot

theorem sent?_hidden {s : Slot} (hidden : s.enumerable = false) : s.sent? = none := by
  simp [sent?, hidden]

theorem sent?_undefined {s : Slot} (undefined : s.value = .undefined) : s.sent? = none := by
  unfold sent?
  split <;> simp_all

theorem sent?_defined {s : Slot} (shown : s.enumerable = true) (defined : s.value ≠ .undefined) :
    s.sent? = some s.value := by
  unfold sent?
  split <;> simp_all

theorem sent?_eq_some {s : Slot} {v : Value} (sent : s.sent? = some v) :
    s.enumerable = true ∧ s.value = v := by
  unfold sent? at sent
  split at sent <;> simp_all

end Slot

namespace TextMessage

def sentAttributes (slots : List (Text × Slot)) : List (Text × Value) :=
  slots.filterMap fun kv => if kv.1 = Text.ofString "__proto__" then none else kv.2.sent?.map (kv.1, ·)

def sentValue? (m : TextMessage) (k : Text) : Option Value := (Props.get? m.slots k).bind Slot.sent?

/-- The message a receiver makes of what `m` sends: a fresh message of its type, whose writable
data slots of unreserved names hold the images of what `m` sends under their names. -/
def receivedAs (host : Identity) (m : TextMessage) : TextMessage :=
  { m.type.fresh host with
    slots := (m.type.fresh host).slots.map fun kv =>
      if assignable kv.1 kv.2 then
        (m.sentValue? kv.1).elim kv fun v => (kv.1, { kv.2 with value := v.jsonImage })
      else kv
    distinct := by
      rw [Props.keys_map]
      · exact (m.type.fresh host).distinct
      · intro kv
        dsimp only
        split
        · cases m.sentValue? kv.1 <;> rfl
        · rfl }

theorem sentAttributes_cons (k : Text) (s : Slot) (rest : List (Text × Slot)) :
    sentAttributes ((k, s) :: rest) =
      if k = Text.ofString "__proto__" then sentAttributes rest
      else (s.sent?.map fun v => [(k, v)]).getD [] ++ sentAttributes rest := by
  by_cases proto : k = Text.ofString "__proto__"
  · simp [sentAttributes, proto]
  · cases sent : s.sent? <;> simp [sentAttributes, proto, sent]

theorem keys_sentAttributes (slots : List (Text × Slot)) :
    ((sentAttributes slots).map (·.1)).Sublist (slots.map (·.1)) := by
  induction slots with
  | nil => exact .slnil
  | cons first rest ih =>
    obtain ⟨k, s⟩ := first
    rw [sentAttributes_cons, List.map_cons]
    split
    · exact ih.cons k
    · cases s.sent? with
      | none => exact ih.cons k
      | some v => exact ih.cons_cons k

theorem get?_sentAttributes {slots : List (Text × Slot)} (distinct : (slots.map (·.1)).Nodup) {k : Text}
    (ordinary : k ≠ Text.ofString "__proto__") :
    Props.get? (sentAttributes slots) k = (Props.get? slots k).bind Slot.sent? := by
  induction slots with
  | nil => rfl
  | cons first rest ih =>
    obtain ⟨j, s⟩ := first
    simp only [List.map_cons, List.nodup_cons] at distinct
    have later := ih distinct.2
    rw [sentAttributes_cons, Props.get?_cons]
    by_cases same : j = k
    · subst same
      have absent : (Props.get? rest j).bind Slot.sent? = none := by
        rw [Props.get?_eq_none distinct.1]; rfl
      rw [if_neg ordinary, if_pos rfl, Option.bind_some]
      cases sent : s.sent? with
      | none => simpa [sent, absent] using later
      | some v => simp [Props.get?_cons]
    · rw [if_neg same, ← later]
      split
      · rfl
      · cases s.sent? with
        | none => rfl
        | some v => simp [Props.get?_cons, same]

/-- The walk over the slots sends what `sentAttributes` says, when every enumerable slot holds a
wire value or `undefined`. -/
theorem attributesOf_sent (name : Value) {slots : List (Text × Slot)}
    (wire : ∀ kv ∈ slots, kv.2.enumerable = true → kv.2.value = .undefined ∨ kv.2.value.isWire = true) :
    attributesOf name slots = .ok (sentAttributes slots) := by
  induction slots with
  | nil => rfl
  | cons first rest ih =>
    obtain ⟨k, s⟩ := first
    have others := ih fun kv member => wire kv (.tail _ member)
    rw [attributesOf, sentAttributes_cons]
    cases shown : s.enumerable with
    | false =>
      simp only [Bool.not_false, if_true, others, Slot.sent?_hidden shown]
      split <;> rfl
    | true =>
      simp only [Bool.not_true, Bool.false_eq_true, if_false]
      split
      next undefined => rw [others, Slot.sent?_undefined undefined]; split <;> rfl
      next defined =>
        have isWire : s.value.isWire = true := (wire (k, s) (.head _) shown).resolve_left defined
        rw [Slot.sent?_defined shown defined, isWire, others]
        by_cases proto : k = Text.ofString "__proto__" <;> simp [proto, Except.map]

theorem allWireProps_sentAttributes {slots : List (Text × Slot)}
    (wire : ∀ kv ∈ slots, kv.2.enumerable = true → kv.2.value = .undefined ∨ kv.2.value.isWire = true) :
    Value.allWireProps (sentAttributes slots) = true := by
  induction slots with
  | nil => rfl
  | cons first rest ih =>
    obtain ⟨k, s⟩ := first
    have others := ih fun kv member => wire kv (.tail _ member)
    rw [sentAttributes_cons]
    split
    · exact others
    · cases sent : s.sent? with
      | none => exact others
      | some v =>
        obtain ⟨shown, same⟩ := Slot.sent?_eq_some sent
        have isWire : v.isWire = true := by
          rcases wire (k, s) (.head _) shown with undefined | isWire
          · rw [Slot.sent?_undefined undefined] at sent
            cases sent
          · exact same ▸ isWire
        simp [Value.allWireProps, isWire, others]

theorem type_fresh (host : Identity) (t : TextType) : (t.fresh host).type = t := by
  cases t with
  | builtin k => cases k <;> rfl
  | custom c => rfl

/-- A fresh message takes what is sent to its assignable slots: the received attributes are the
images of what `m` sends. -/
theorem assign_sent (host : Identity) (m : TextMessage) :
    (m.type.fresh host).assigned (Props.ofList (Value.jsonImageProps (sentAttributes m.slots))) =
      m.receivedAs host := by
  have keys : ((Value.jsonImageProps (sentAttributes m.slots)).map (·.1)).Nodup := by
    rw [Value.keys_jsonImageProps]
    exact (keys_sentAttributes m.slots).nodup m.distinct
  ext1
  · rfl
  unfold assigned assign receivedAs
  apply List.map_congr_left
  intro kv _
  obtain ⟨k, s⟩ := kv
  dsimp only
  split
  next writable =>
    have ordinary : k ≠ Text.ofString "__proto__" := by
      intro proto
      simp [assignable, reserved, proto] at writable
    rw [Props.get?_ofList keys, Value.get?_jsonImageProps, get?_sentAttributes m.distinct ordinary]
    unfold sentValue?
    cases (Props.get? m.slots k).bind Slot.sent? <;> rfl
  next => rfl

end TextMessage

/-- The messages the text round trip is about: a message whose name is text that resolves to its
type, that sends through the default attribute walk only wire values (or `undefined`), and whose
fresh counterpart takes attributes through the default step. -/
structure Sendable (registry : Registry TextType) (host : Identity) (m : TextMessage) : Prop where
  named : ∃ name, m.typeName = .string name ∧ registry.resolve (.string name) = .ok m.type
  defaultAttributes : m.get? (Text.ofString "toAttributes") = none
  wire : ∀ kv ∈ m.slots, kv.2.enumerable = true → kv.2.value = .undefined ∨ kv.2.value.isWire = true
  defaultApply : (m.type.fresh host).get? (Text.ofString "applyAttributes") = none
  accepts : ∀ c, m.type = .custom c → c.refusesAttributes = false

namespace JsonLines

theorem idxOf_line {line : List UInt8} (clear : lineFeed ∉ line) (rest : List UInt8) :
    (line ++ lineFeed :: rest).idxOf? lineFeed = some line.length := by
  unfold List.idxOf?
  have absent : List.findIdx? (fun x => x == lineFeed) line = none := by
    apply List.findIdx?_eq_none_iff.2
    intro x member
    simp only [beq_eq_false_iff_ne]
    rintro rfl
    exact clear member
  rw [List.findIdx?_append, absent]
  simp [List.findIdx?_cons]

theorem write_envelope (name : Text) {attrs : List (Text × Value)} (wire : Value.allWireProps attrs = true) :
    ∃ parts, List.Forall₂ Json.Written [.string name, .object .plain attrs] parts ∧
      Json.write (.array [.string name, .object .plain attrs]) =
        .ok (some (Json.lit "[" ++ Json.commaJoin parts ++ Json.lit "]")) := by
  have items : Value.allWire [.string name, .object .plain attrs] = true := by
    simp [Value.allWire, Value.isWire, wire]
  obtain ⟨parts, texts, each⟩ := Json.writeItems_wire _ items
  exact ⟨parts, each, by simp [Json.write, texts]⟩

theorem encode_of_toAttributes {m : TextMessage} {name : Text} {attrs : List (Text × Value)}
    (attributes : m.toAttributes = .ok (.object .plain attrs)) (named : m.typeName = .string name)
    {line : Text} (written : Json.write (.array [.string name, .object .plain attrs]) = .ok (some line)) :
    encode m = .ok (line.toUtf8 ++ [lineFeed]) := by
  unfold encode
  rw [attributes, named]
  simp [bind, Except.bind, written, Except.mapError, pure, Except.pure]

/-- The written envelope of a name and wire attributes, as a line, holds that name and the images
of the attributes. -/
theorem envelope_of_written {name : Text} {attrs : List (Text × Value)} (wire : Value.allWireProps attrs = true)
    {parts : List Text} (each : List.Forall₂ Json.Written [.string name, .object .plain attrs] parts) :
    envelope? (Json.lit "[" ++ Json.commaJoin parts ++ Json.lit "]").toUtf8 =
      some (name, Props.ofList (Value.jsonImageProps attrs)) := by
  have written := Json.written_array each
  have units : (Json.lit "[" ++ Json.commaJoin parts ++ Json.lit "]").units =
      0x5B :: ((Json.commaJoin parts).units ++ [0x5D]) := by
    simp [Text.append_units, Json.lit, Text.ofString, Text.unitsOfCodePoint]
  -- the line opens with a bracket, so no byte order mark is dropped
  have decoded : Text.ofUtf8? (Json.lit "[" ++ Json.commaJoin parts ++ Json.lit "]").toUtf8 =
      some (Json.lit "[" ++ Json.commaJoin parts ++ Json.lit "]") := by
    rw [Text.ofUtf8_toUtf8, written.oneLine.wellFormed,
      (Text.dropByteOrderMark_eq_self _).2 (by rw [units, List.head?_cons]; decide)]
  have imageWire := Value.isWire_jsonImage (.object .plain attrs) wire
  unfold envelope?
  rw [decoded, Option.bind_some, Json.parse_written written]
  simp only [Value.jsonImage, Value.jsonImages, Value.isWireAttributes]
  exact if_pos imageWire

variable (registry : Registry TextType) (host : Identity)

theorem applyAttributes_fresh {m : TextMessage} (sendable : Sendable registry host m)
    (attrs : List (Text × Value)) :
    (m.type.fresh host).applyAttributes attrs = .ok ((m.type.fresh host).assigned attrs) := by
  unfold TextMessage.applyAttributes
  rw [sendable.defaultApply, TextMessage.type_fresh]
  cases type : m.type with
  | builtin k => cases k <;> rfl
  | custom c =>
    simp only [sendable.accepts c type, Bool.false_eq_true, if_false]

/-- A sendable message's frame is one line, read back off the front of any buffer as the message
the receiver makes of it. -/
theorem frame_of_sendable {m : TextMessage} (sendable : Sendable registry host m) :
    ∃ line : List UInt8, encode m = .ok (line ++ [lineFeed]) ∧ line ≠ [] ∧
      ∀ rest, extract registry host (line ++ lineFeed :: rest) = .ok (.message (m.receivedAs host) line.length) := by
  obtain ⟨name, typeName, resolved⟩ := sendable.named
  have attributes : m.toAttributes = .ok (.object .plain (TextMessage.sentAttributes m.slots)) := by
    unfold TextMessage.toAttributes
    rw [sendable.defaultAttributes, TextMessage.attributesOf_sent _ sendable.wire]
    rfl
  have attrsWire := TextMessage.allWireProps_sentAttributes sendable.wire
  obtain ⟨parts, each, writeEnvelope⟩ := write_envelope name attrsWire
  refine ⟨(Json.lit "[" ++ Json.commaJoin parts ++ Json.lit "]").toUtf8, ?_, ?_, ?_⟩
  · exact encode_of_toAttributes attributes typeName writeEnvelope
  · exact Text.utf8OfUnits_ne_nil (by simp [Text.append_units, Json.lit, Text.ofString, Text.unitsOfCodePoint])
  · intro rest
    have clear : lineFeed ∉ (Json.lit "[" ++ Json.commaJoin parts ++ Json.lit "]").toUtf8 :=
      Text.utf8OfUnits_lineFeed (Json.written_array each).oneLine.noLineFeed
    unfold extract
    rw [idxOf_line clear]
    simp only [List.take_left, envelope_of_written attrsWire each, resolved, bind, Except.bind,
      applyAttributes_fresh registry host sendable, TextMessage.assign_sent host m]
    rfl

theorem extract_empty : extract registry host [] = .ok .incomplete := rfl

end JsonLines

theorem textCodec_reads_empty (registry : Registry TextType) (host : Identity) :
    (textCodec registry host).reads [] = [.ok .incomplete] :=
  Codec.reads_of_stall (JsonLines.extract_empty registry host) rfl

/-- The frames of sendable messages, concatenated, read back in order as the messages a receiver
makes of them, each reported with its frame's length less the line feed, and then an incomplete
read of the empty rest. -/
theorem text_frames_read_back (registry : Registry TextType) (host : Identity) (ms : List TextMessage)
    (sendable : ∀ m ∈ ms, Sendable registry host m) :
    ∃ frames : List (List UInt8), ms.mapM JsonLines.encode = .ok frames ∧
      (textCodec registry host).reads frames.flatten =
        List.zipWith (fun m frame => .ok (.message (m.receivedAs host) (frame.length - 1))) ms frames ++
          [.ok .incomplete] := by
  induction ms with
  | nil => exact ⟨[], rfl, by simp [textCodec_reads_empty]⟩
  | cons m ms ih =>
    obtain ⟨line, encoded, nonempty, extracted⟩ :=
      JsonLines.frame_of_sendable registry host (sendable m (.head _))
    obtain ⟨frames, encodedAll, reads⟩ := ih fun x member => sendable x (.tail _ member)
    refine ⟨(line ++ [JsonLines.lineFeed]) :: frames, by simp [List.mapM_cons, encoded, encodedAll]; rfl, ?_⟩
    have moves : (Extraction.message (m.receivedAs host) line.length).advance (textCodec registry host).terminator =
        (line ++ [JsonLines.lineFeed]).length := by
      simp [Extraction.advance, Extraction.consumed, textCodec, List.length_pos_iff.mpr nonempty]
    have read : (textCodec registry host).extract ((line ++ [JsonLines.lineFeed]) ++ frames.flatten) =
        .ok (.message (m.receivedAs host) line.length) := by
      rw [List.append_assoc]
      exact extracted _
    rw [List.flatten_cons, Codec.reads_frame _ read moves (by simp), reads]
    simp

theorem sendable_identify {registry : Registry TextType} (host : Identity) (u h : Text)
    (known : registry.resolve (Value.str "MsgIdentify") = .ok (.builtin .identify)) :
    Sendable registry host (TextMessage.identifyOf host (.string u) (.string h)) := by
  refine ⟨⟨Text.ofString "MsgIdentify", rfl, known⟩, rfl, ?_, rfl, fun c same => by cases same⟩
  intro kv member _
  simp only [TextMessage.identifyOf, Value.orElse, Value.isNullish, Bool.false_eq_true, if_false,
    List.mem_cons, List.not_mem_nil, or_false] at member
  rcases member with rfl | rfl <;> exact .inr rfl

/-- An identity with a quote, a line feed, a lone surrogate and a letter beyond ASCII in its
username, then a `Point` whose `x` holds a nested array with a fraction, an escaped quote and an
object with an index key, through the built-in types and `Point`. -/
theorem text_frames_read_back_sample :
    (∀ m ∈ [TextMessage.identifyOf ⟨Text.ofString "user", Text.ofString "host"⟩
        (.string ⟨[0x22, 0x0A, 0xD800, 0xE9]⟩) (.string (Text.ofString "h")),
        (TextType.fresh ⟨Text.ofString "user", Text.ofString "host"⟩
          (.custom ⟨"Point", Value.str "Point", [(Text.ofString "x", Value.num 1)], [], [], [], false⟩)).define
            (Text.ofString "x") (.array [.number 2.5, .string (Text.ofString "q\""),
              .object .plain [(Text.ofString "1", .bool true), (Text.ofString "k", .null)]])],
      Sendable (Registry.empty.registerAll (TextType.builtins ++
        [.custom ⟨"Point", Value.str "Point", [(Text.ofString "x", Value.num 1)], [], [], [], false⟩])).1
        ⟨Text.ofString "user", Text.ofString "host"⟩ m) ∧
    ∃ frames : List (List UInt8),
      [TextMessage.identifyOf ⟨Text.ofString "user", Text.ofString "host"⟩
        (.string ⟨[0x22, 0x0A, 0xD800, 0xE9]⟩) (.string (Text.ofString "h")),
        (TextType.fresh ⟨Text.ofString "user", Text.ofString "host"⟩
          (.custom ⟨"Point", Value.str "Point", [(Text.ofString "x", Value.num 1)], [], [], [], false⟩)).define
            (Text.ofString "x") (.array [.number 2.5, .string (Text.ofString "q\""),
              .object .plain [(Text.ofString "1", .bool true), (Text.ofString "k", .null)]])].mapM
          JsonLines.encode = .ok frames ∧
      (textCodec (Registry.empty.registerAll (TextType.builtins ++
          [.custom ⟨"Point", Value.str "Point", [(Text.ofString "x", Value.num 1)], [], [], [], false⟩])).1
          ⟨Text.ofString "user", Text.ofString "host"⟩).reads frames.flatten =
        List.zipWith (fun m frame => .ok (.message (m.receivedAs ⟨Text.ofString "user",
          Text.ofString "host"⟩) (frame.length - 1)))
          [TextMessage.identifyOf ⟨Text.ofString "user", Text.ofString "host"⟩
            (.string ⟨[0x22, 0x0A, 0xD800, 0xE9]⟩) (.string (Text.ofString "h")),
            (TextType.fresh ⟨Text.ofString "user", Text.ofString "host"⟩
              (.custom ⟨"Point", Value.str "Point", [(Text.ofString "x", Value.num 1)], [], [], [], false⟩)).define
                (Text.ofString "x") (.array [.number 2.5, .string (Text.ofString "q\""),
                  .object .plain [(Text.ofString "1", .bool true), (Text.ofString "k", .null)]])]
          frames ++ [.ok .incomplete] := by
  have sendable : ∀ m ∈ [TextMessage.identifyOf ⟨Text.ofString "user", Text.ofString "host"⟩
        (.string ⟨[0x22, 0x0A, 0xD800, 0xE9]⟩) (.string (Text.ofString "h")),
        (TextType.fresh ⟨Text.ofString "user", Text.ofString "host"⟩
          (.custom ⟨"Point", Value.str "Point", [(Text.ofString "x", Value.num 1)], [], [], [], false⟩)).define
            (Text.ofString "x") (.array [.number 2.5, .string (Text.ofString "q\""),
              .object .plain [(Text.ofString "1", .bool true), (Text.ofString "k", .null)]])],
      Sendable (Registry.empty.registerAll (TextType.builtins ++
        [.custom ⟨"Point", Value.str "Point", [(Text.ofString "x", Value.num 1)], [], [], [], false⟩])).1
        ⟨Text.ofString "user", Text.ofString "host"⟩ m := by
    intro m member
    simp only [List.mem_cons, List.not_mem_nil, or_false] at member
    rcases member with rfl | rfl
    · exact sendable_identify _ _ _ rfl
    · refine ⟨⟨Text.ofString "Point", rfl, rfl⟩, rfl, ?_, rfl, fun c same => by cases same; rfl⟩
      intro kv member _
      rw [show ((TextType.fresh ⟨Text.ofString "user", Text.ofString "host"⟩
          (.custom ⟨"Point", Value.str "Point", [(Text.ofString "x", Value.num 1)], [], [], [], false⟩)).define
            (Text.ofString "x") (.array [.number 2.5, .string (Text.ofString "q\""),
              .object .plain [(Text.ofString "1", .bool true), (Text.ofString "k", .null)]])).slots =
          [(Text.ofString "x", Slot.data (.array [.number 2.5, .string (Text.ofString "q\""),
            .object .plain [(Text.ofString "1", .bool true), (Text.ofString "k", .null)]]))] from rfl,
        List.mem_singleton] at member
      subst member
      exact .inr (by decide)
  exact ⟨sendable, text_frames_read_back _ _ _ sendable⟩

/-- A `Point` holding `x = -0` is sent as `["Point",{"x":0}]` and read back holding `x = 0`,
which is not `-0`. -/
theorem negative_zero_read_back_as_zero :
    JsonLines.encode ((TextType.fresh ⟨Text.ofString "user", Text.ofString "host"⟩
        (.custom ⟨"Point", Value.str "Point", [(Text.ofString "x", Value.num 1)], [], [], [], false⟩)).define
          (Text.ofString "x") (.number (-0))) =
      .ok [0x5b, 0x22, 0x50, 0x6f, 0x69, 0x6e, 0x74, 0x22, 0x2c, 0x7b, 0x22, 0x78, 0x22, 0x3a, 0x30, 0x7d, 0x5d, 0x0a] ∧
    (textCodec (Registry.empty.registerAll
        (TextType.builtins ++ [.custom ⟨"Point", Value.str "Point", [(Text.ofString "x", Value.num 1)], [], [], [],
          false⟩])).1 ⟨Text.ofString "user", Text.ofString "host"⟩).reads
        [0x5b, 0x22, 0x50, 0x6f, 0x69, 0x6e, 0x74, 0x22, 0x2c, 0x7b, 0x22, 0x78, 0x22, 0x3a, 0x30, 0x7d, 0x5d, 0x0a] =
      [.ok (.message ((TextType.fresh ⟨Text.ofString "user", Text.ofString "host"⟩
        (.custom ⟨"Point", Value.str "Point", [(Text.ofString "x", Value.num 1)], [], [], [], false⟩)).define
          (Text.ofString "x") (.number 0)) 17), .ok .incomplete] ∧
    (0 : Float) ≠ -0 := by
  have sendable : Sendable (Registry.empty.registerAll
      (TextType.builtins ++ [.custom ⟨"Point", Value.str "Point", [(Text.ofString "x", Value.num 1)], [], [], [],
        false⟩])).1 ⟨Text.ofString "user", Text.ofString "host"⟩
      ((TextType.fresh ⟨Text.ofString "user", Text.ofString "host"⟩
        (.custom ⟨"Point", Value.str "Point", [(Text.ofString "x", Value.num 1)], [], [], [], false⟩)).define
          (Text.ofString "x") (.number (-0))) := by
    refine ⟨⟨Text.ofString "Point", rfl, rfl⟩, rfl, ?_, rfl, ?_⟩
    · intro kv member _
      have slots : ((TextType.fresh ⟨Text.ofString "user", Text.ofString "host"⟩
          (.custom ⟨"Point", Value.str "Point", [(Text.ofString "x", Value.num 1)], [], [], [], false⟩)).define
            (Text.ofString "x") (.number (-0))).slots = [(Text.ofString "x", Slot.data (.number (-0)))] := rfl
      rw [slots, List.mem_singleton] at member
      subst member
      right
      decide
    · intro c same
      cases same
      rfl
  obtain ⟨line, encoded, nonempty, extracted⟩ := JsonLines.frame_of_sendable _ _ sendable
  have concrete : JsonLines.encode ((TextType.fresh ⟨Text.ofString "user", Text.ofString "host"⟩
      (.custom ⟨"Point", Value.str "Point", [(Text.ofString "x", Value.num 1)], [], [], [], false⟩)).define
        (Text.ofString "x") (.number (-0))) =
      .ok [0x5b, 0x22, 0x50, 0x6f, 0x69, 0x6e, 0x74, 0x22, 0x2c, 0x7b, 0x22, 0x78, 0x22, 0x3a, 0x30, 0x7d, 0x5d, 0x0a] :=
    rfl
  have sameLine : line = [0x5b, 0x22, 0x50, 0x6f, 0x69, 0x6e, 0x74, 0x22, 0x2c, 0x7b, 0x22, 0x78, 0x22, 0x3a,
      0x30, 0x7d, 0x5d] := by
    rw [concrete] at encoded
    have bytes := congrArg List.dropLast (Except.ok.inj encoded)
    rw [List.dropLast_concat] at bytes
    exact bytes.symm
  subst sameLine
  have received : ((TextType.fresh ⟨Text.ofString "user", Text.ofString "host"⟩
      (.custom ⟨"Point", Value.str "Point", [(Text.ofString "x", Value.num 1)], [], [], [], false⟩)).define
        (Text.ofString "x") (.number (-0))).receivedAs ⟨Text.ofString "user", Text.ofString "host"⟩ =
      (TextType.fresh ⟨Text.ofString "user", Text.ofString "host"⟩
        (.custom ⟨"Point", Value.str "Point", [(Text.ofString "x", Value.num 1)], [], [], [], false⟩)).define
          (Text.ofString "x") (.number 0) := by
    rfl
  refine ⟨concrete, ?_, ?_⟩
  · have read := extracted []
    rw [received] at read
    rw [← List.append_nil [0x5b, 0x22, 0x50, 0x6f, 0x69, 0x6e, 0x74, 0x22, 0x2c, 0x7b, 0x22, 0x78, 0x22, 0x3a,
      0x30, 0x7d, 0x5d, 0x0a], Codec.reads_frame [] read rfl (by simp), textCodec_reads_empty]
    rfl
  · intro same
    have bits := congrArg Float.toBits same
    revert bits
    decide

end PeerMessaging
