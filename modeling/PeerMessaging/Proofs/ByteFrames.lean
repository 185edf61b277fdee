import PeerMessaging.ByteFrames.Frame
import PeerMessaging.Proofs.Utf8
import PeerMessaging.Proofs.Reading
/-!
Byte frames read back. A message without payload is the two bytes of its length and code; an
identity carries `username@hostname` in UTF-8. Read off the front of any buffer, each frame gives
back its message and moves past exactly its bytes, so the frames of a sequence of built-in
messages read back one by one and then leave an empty buffer. The one thing reading changes is a
byte order mark at the head of a username, which the UTF-8 reader drops.
-/

namespace PeerMessaging

namespace ByteMessage

/-- A message whose username begins with a byte order mark. -/
def Marked (m : ByteMessage) : Prop :=
  ∃ u : Text, m.get? (Text.ofString "username") = some (.string u) ∧ u.units.head? = some 0xFEFF

theorem identifyOf_strings (host : Identity) (u h : Text) :
    identifyOf host (.string u) (.string h) =
      ⟨.builtin .identify, ByteType.identityProps (.string u) (.string h), none⟩ := rfl

theorem identity_units (u h : Text) : u ++ Text.ofString "@" ++ h = ⟨u.units ++ 0x40 :: h.units⟩ := by
  have sign : Text.ofString "@" = ⟨[0x40]⟩ := by decide
  rw [sign]
  show (⟨(u.units ++ [0x40]) ++ h.units⟩ : Text) = _
  simp

section Identity

variable (u h : Text)

theorem get_username :
    Props.get? (ByteType.identityProps (.string u) (.string h)) (Text.ofString "username") =
      some (.string u) := by
  simp [Props.get?, ByteType.identityProps]

theorem get_hostname :
    Props.get? (ByteType.identityProps (.string u) (.string h)) (Text.ofString "hostname") =
      some (.string h) := by
  have distinct : Text.ofString "username" ≠ Text.ofString "hostname" := by decide
  simp [Props.get?, ByteType.identityProps, distinct]

theorem identityText_strings :
    identityText (.string u) (.string h) = .ok (u ++ Text.ofString "@" ++ h) := by
  simp [identityText, Value.toText]
  rfl

theorem code_identifyOf (host : Identity) :
    (identifyOf host (.string u) (.string h)).code = Value.num 1 := by
  have absent : Props.get? (ByteType.identityProps (.string u) (.string h)) (Text.ofString "code") =
      none := by
    simp [Props.get?, ByteType.identityProps]
    decide
  simp [code, get?, identifyOf_strings, absent, ByteType.code]

theorem payload_identifyOf (host : Identity) :
    (identifyOf host (.string u) (.string h)).payload = .ok (u ++ Text.ofString "@" ++ h).toUtf8 := by
  have absent : Props.get? (ByteType.identityProps (.string u) (.string h))
      (Text.ofString "encodePayload") = none := by
    simp [Props.get?, ByteType.identityProps]
    decide
  simp [payload, get?, identifyOf_strings, absent, identity, get_username, get_hostname,
    identityText_strings, Except.map]

end Identity

theorem marked_identifyOf (host : Identity) (u h : Text) :
    (identifyOf host (.string u) (.string h)).Marked ↔ u.units.head? = some 0xFEFF := by
  simp [Marked, get?, identifyOf_strings, get_username]

theorem splitAtSign_around {before after : List UInt16} (noSign : 0x40 ∉ before) :
    splitAtSign ⟨before ++ 0x40 :: after⟩ = some (⟨before⟩, ⟨after⟩) := by
  have keep : ∀ u ∈ before, (u != 0x40) = true := by
    intro u member
    have : u ≠ 0x40 := fun same => noSign (same ▸ member)
    simpa using this
  simp [splitAtSign, List.takeWhile_append_of_pos keep, List.dropWhile_append_of_pos keep]

theorem define_identity (u h x y : Value) :
    ((⟨.builtin .identify, ByteType.identityProps x y, none⟩ : ByteMessage).define
      (Text.ofString "username") u).define (Text.ofString "hostname") h =
      ⟨.builtin .identify, ByteType.identityProps u h, none⟩ := by
  have distinct : Text.ofString "username" ≠ Text.ofString "hostname" := by decide
  simp [define, Props.set, Props.contains, Props.replace, ByteType.identityProps, distinct,
    distinct.symm]

/-- An identity payload of well-formed parts reads back as its parts, the username without a
leading byte order mark. -/
theorem readPayload_identity (x y : Value) {u h : Text} (wellFormedUser : u.WellFormed)
    (wellFormedHost : h.WellFormed) (noSign : 0x40 ∉ u.units) :
    (⟨.builtin .identify, ByteType.identityProps x y, none⟩ : ByteMessage).readPayload
        (u ++ Text.ofString "@" ++ h).toUtf8 =
      .ok ⟨.builtin .identify,
        ByteType.identityProps (.string ⟨Text.dropByteOrderMark u.units⟩) (.string h), none⟩ := by
  have wellFormed : (u ++ Text.ofString "@" ++ h).WellFormed := by
    rw [identity_units]
    exact Text.WellFormed.around wellFormedUser wellFormedHost (by decide)
  have read : Text.ofUtf8? (u ++ Text.ofString "@" ++ h).toUtf8 =
      some ⟨Text.dropByteOrderMark u.units ++ 0x40 :: h.units⟩ := by
    rw [Text.ofUtf8_toUtf8, wellFormed, identity_units,
      Text.dropByteOrderMark_around _ _ (by decide)]
  have noSign' : 0x40 ∉ Text.dropByteOrderMark u.units :=
    fun member => noSign (Text.mem_of_mem_dropByteOrderMark member)
  simp only [readPayload, read, Option.bind_some, splitAtSign_around noSign', define_identity]

end ByteMessage

namespace ByteFrames

theorem validCode_one : ByteType.validCode? (Value.num 1) = some 1 := by decide

theorem validCode_builtin (k : Kind) :
    ∃ c : UInt8, ByteType.validCode? (ByteType.builtin k).code = some c.toNat ∧
      (ByteType.builtin k).code = Value.num c.toNat := by
  cases k
  · exact ⟨1, by decide, rfl⟩
  · exact ⟨2, by decide, rfl⟩
  · exact ⟨3, by decide, rfl⟩
  · exact ⟨4, by decide, rfl⟩

theorem encode_identifyOf (host : Identity) {u h : Text}
    (fits : (u ++ Text.ofString "@" ++ h).toUtf8.length ≤ 253) :
    encode (ByteMessage.identifyOf host (.string u) (.string h)) =
      .ok (((u ++ Text.ofString "@" ++ h).toUtf8.length + 2).toUInt8 :: 1 ::
        (u ++ Text.ofString "@" ++ h).toUtf8) := by
  have small : ¬ (u ++ Text.ofString "@" ++ h).toUtf8.length + headerSize > maxFrame := by
    simp only [headerSize, maxFrame]
    omega
  simp only [encode, ByteMessage.code_identifyOf, validCode_one, ByteMessage.payload_identifyOf,
    bind, Except.bind, if_neg small]
  rfl

/-- The frame of an identity, read off the front of any buffer, gives the identity back. -/
theorem extract_identity_frame (registry : Registry ByteType) (host : Identity)
    (known : registry.resolve (Value.num 1) = .ok (.builtin .identify)) {u h : Text}
    (wellFormedUser : u.WellFormed) (wellFormedHost : h.WellFormed) (noSign : 0x40 ∉ u.units)
    (fits : (u ++ Text.ofString "@" ++ h).toUtf8.length ≤ 253) (rest : List UInt8) :
    extract registry host
        ((((u ++ Text.ofString "@" ++ h).toUtf8.length + 2).toUInt8 :: 1 ::
          (u ++ Text.ofString "@" ++ h).toUtf8) ++ rest) =
      .ok (.message (ByteMessage.identifyOf host (.string ⟨Text.dropByteOrderMark u.units⟩) (.string h))
        ((u ++ Text.ofString "@" ++ h).toUtf8.length + 2)) := by
  generalize payloadIs : (u ++ Text.ofString "@" ++ h).toUtf8 = payload at fits ⊢
  have total : (payload.length + 2).toUInt8.toNat = payload.length + 2 := by
    simp
    omega
  have nonempty : payload ≠ [] := by
    rw [← payloadIs, ByteMessage.identity_units]
    exact Text.utf8OfUnits_ne_nil (by simp)
  have long : 0 < payload.length := List.length_pos_iff.mpr nonempty
  have read := ByteMessage.readPayload_identity (.string host.username) (.string host.hostname)
    wellFormedUser wellFormedHost noSign
  rw [payloadIs] at read
  have cut : (payload ++ rest).take (payload.length + 2 - 2) = payload := by simp
  have fresh : ByteType.fresh host (.builtin .identify) =
      ⟨.builtin .identify, ByteType.identityProps (.string host.username) (.string host.hostname),
        none⟩ := rfl
  simp only [List.cons_append, extract, total, List.length_cons, List.length_append, headerSize]
  rw [if_neg (by omega), if_neg (by omega)]
  simp only [UInt8.toNat_one, known, bind, Except.bind, if_pos (show payload.length + 2 > 2 by omega),
    cut, fresh, read]
  rfl

theorem bare_message (host : Identity) {k : Kind} (payloadFree : k ≠ .identify) :
    ByteType.fresh host (.builtin k) = ⟨.builtin k, [], none⟩ := by
  cases k <;> simp_all [ByteType.fresh]

/-- A message without payload is its length and its code, and reads back off any buffer. -/
theorem frame_bare (registry : Registry ByteType) (host : Identity) {k : Kind}
    (known : registry.resolve (ByteType.builtin k).code = .ok (.builtin k))
    (payloadFree : k ≠ .identify) :
    ∃ c : UInt8, encode (ByteType.fresh host (.builtin k)) = .ok [2, c] ∧
      ∀ rest, extract registry host ([2, c] ++ rest) =
        .ok (.message (ByteType.fresh host (.builtin k)) 2) := by
  obtain ⟨c, valid, codeIs⟩ := validCode_builtin k
  have noPayload : (⟨.builtin k, [], none⟩ : ByteMessage).payload = .ok [] := by
    cases k <;> simp_all [ByteMessage.payload, ByteMessage.get?, Props.get?]
  have small : ¬ ([] : List UInt8).length + headerSize > maxFrame := by decide
  have back : c.toNat.toUInt8 = c := by simp
  refine ⟨c, ?_, fun rest => ?_⟩
  · simp only [bare_message host payloadFree, encode, ByteMessage.code, ByteMessage.get?, Props.get?,
      List.find?_nil, Option.map_none, Option.getD_none, valid, noPayload, bind, Except.bind,
      if_neg small, back]
    rfl
  · rw [codeIs] at known
    have long : ¬ (2 : UInt8).toNat > (2 :: c :: rest).length := by simp
    have short : ¬ (2 : UInt8).toNat < headerSize := by decide
    have payloadFree' : ¬ (2 : UInt8).toNat > headerSize := by decide
    simp only [List.cons_append, List.nil_append, extract, if_neg long, if_neg short, known, bind,
      Except.bind, if_neg payloadFree', bare_message host payloadFree]
    rfl

theorem extract_of_short (registry : Registry ByteType) (host : Identity) {total : UInt8}
    {rest : List UInt8} (short : total.toNat > rest.length + 1 ∨ rest = [] ∨ total.toNat < headerSize) :
    extract registry host (total :: rest) = .ok .incomplete := by
  rcases rest with _ | ⟨code, body⟩
  · simp [extract]
  · simp only [extract, List.length_cons]
    split
    · rfl
    · rw [if_pos (by simp at short; omega)]

/-- What a whole frame reads as, once its code is known: a fresh message of the type when the
frame is only a header, else the payload read into one, a failed read skipping the frame unless
it names an unknown type. -/
theorem extract_frame (registry : Registry ByteType) (host : Identity) {total code : UInt8}
    {body : List UInt8} (long : 2 ≤ total.toNat) (fits : total.toNat ≤ body.length + 2) :
    extract registry host (total :: code :: body) =
      (registry.resolve (Value.num code.toNat)).bind fun type =>
        if total.toNat > headerSize then
          match (type.fresh host).readPayload (body.take (total.toNat - headerSize)) with
          | .ok m => .ok (.message m total.toNat)
          | .error f => if f.isUnknownType then .error f else .ok (.skipped total.toNat)
        else .ok (.message (type.fresh host) total.toNat) := by
  have within : ¬ total.toNat > (total :: code :: body).length := by
    simp only [List.length_cons]
    omega
  have header : ¬ total.toNat < headerSize := by
    unfold headerSize
    omega
  simp only [extract, if_neg within, if_neg header]
  rfl

theorem extract_append_of_whole (registry : Registry ByteType) (host : Identity) {total code : UInt8}
    {body : List UInt8} (long : 2 ≤ total.toNat) (fits : total.toNat ≤ body.length + 2)
    (more : List UInt8) :
    extract registry host (total :: code :: body ++ more) = extract registry host (total :: code :: body) := by
  have same : (body ++ more).take (total.toNat - headerSize) = body.take (total.toNat - headerSize) :=
    List.take_append_of_le_length (by unfold headerSize; omega)
  rw [List.cons_append, List.cons_append, extract_frame registry host long (by simp; omega),
    extract_frame registry host long fits, same]

theorem consumed_of_whole (registry : Registry ByteType) (host : Identity) {total code : UInt8}
    {body : List UInt8} (long : 2 ≤ total.toNat) (fits : total.toNat ≤ body.length + 2)
    {e : Extraction ByteMessage} (read : extract registry host (total :: code :: body) = .ok e) :
    e.consumed = total.toNat := by
  rw [extract_frame registry host long fits] at read
  cases resolved : registry.resolve (Value.num code.toNat) with
  | error f => simp [resolved, Except.bind] at read
  | ok type =>
    simp only [resolved, Except.bind] at read
    -- a payload read that fails with an unknown type is no read; every other outcome is the frame
    repeat' split at read
    all_goals cases read
    all_goals rfl

theorem whole_of_not_short {total : UInt8} {rest : List UInt8}
    (long : ¬ (total.toNat > rest.length + 1 ∨ rest = [] ∨ total.toNat < headerSize)) :
    ∃ code body, rest = code :: body ∧ 2 ≤ total.toNat ∧ total.toNat ≤ body.length + 2 := by
  cases rest with
  | nil => simp at long
  | cons code body =>
    simp only [List.length_cons, not_or, headerSize] at long
    exact ⟨code, body, rfl, by omega, by omega⟩

theorem extract_append (registry : Registry ByteType) (host : Identity) {buffer : List UInt8}
    (more : List UInt8) (found : extract registry host buffer ≠ .ok .incomplete) :
    extract registry host (buffer ++ more) = extract registry host buffer := by
  rcases buffer with _ | ⟨total, rest⟩
  · simp [extract] at found
  · by_cases short : total.toNat > rest.length + 1 ∨ rest = [] ∨ total.toNat < headerSize
    · exact absurd (extract_of_short registry host short) found
    · obtain ⟨code, body, rfl, long, fits⟩ := whole_of_not_short short
      exact extract_append_of_whole registry host long fits more

theorem extract_consumed_le (registry : Registry ByteType) (host : Identity) {buffer : List UInt8}
    {e : Extraction ByteMessage} (read : extract registry host buffer = .ok e) :
    e.consumed ≤ buffer.length := by
  rcases buffer with _ | ⟨total, rest⟩
  · simp [extract] at read
    simp [← read, Extraction.consumed]
  · by_cases short : total.toNat > rest.length + 1 ∨ rest = [] ∨ total.toNat < headerSize
    · rw [extract_of_short registry host short] at read
      cases read
      simp [Extraction.consumed]
    · obtain ⟨code, body, rfl, long, fits⟩ := whole_of_not_short short
      rw [consumed_of_whole registry host long fits read]
      simp only [List.length_cons]
      omega

end ByteFrames

theorem byteCodec_stable (registry : Registry ByteType) (host : Identity) :
    (byteCodec registry host).Stable where
  extract_append more found := ByteFrames.extract_append registry host more found
  advance_le read := by
    have within := ByteFrames.extract_consumed_le registry host read
    simp only [Extraction.advance, byteCodec]
    split <;> omega

/-- The messages the round trip is about: `Join()`, `Retry()` and `Quit()` as their constructors
make them, and `Identify(u, h)` for well-formed texts with no `@` in the username whose payload
fits a frame. -/
inductive Framable (host : Identity) : ByteMessage → Prop
  | bare {k : Kind} (payloadFree : k ≠ .identify) : Framable host (ByteType.fresh host (.builtin k))
  | identify {u h : Text} (wellFormedUser : u.WellFormed) (wellFormedHost : h.WellFormed)
      (noSign : 0x40 ∉ u.units) (fits : (u ++ Text.ofString "@" ++ h).toUtf8.length ≤ 253) :
      Framable host (ByteMessage.identifyOf host (.string u) (.string h))

section Registry

variable (registry : Registry ByteType) (host : Identity)
  (known : ∀ k : Kind, registry.resolve (ByteType.builtin k).code = .ok (.builtin k))
include known

/-- Each framable message encodes to a frame that reads back, off the front of any buffer, as a
message that is the same one exactly when its username has no leading byte order mark. -/
theorem frame_of_framable {m : ByteMessage} (framable : Framable host m) :
    ∃ frame read, ByteFrames.encode m = .ok frame ∧ frame ≠ [] ∧
      (∀ rest, ByteFrames.extract registry host (frame ++ rest) = .ok (.message read frame.length)) ∧
      (read = m ↔ ¬ m.Marked) := by
  cases framable with
  | bare payloadFree =>
    obtain ⟨c, encoded, read⟩ := ByteFrames.frame_bare registry host (known _) payloadFree
    refine ⟨[2, c], _, encoded, by simp, read, ?_⟩
    simp [ByteMessage.Marked, ByteFrames.bare_message host payloadFree, ByteMessage.get?,
      Props.get?]
  | @identify u h wellFormedUser wellFormedHost noSign fits =>
    refine ⟨_, _, ByteFrames.encode_identifyOf host fits, by simp,
      fun rest => ByteFrames.extract_identity_frame registry host (known .identify) wellFormedUser
        wellFormedHost noSign fits rest, ?_⟩
    rw [ByteMessage.marked_identifyOf, ByteMessage.identifyOf_strings,
      ByteMessage.identifyOf_strings]
    obtain ⟨units⟩ := u
    simp only [ByteMessage.mk.injEq, ByteType.identityProps, List.cons.injEq, Prod.mk.injEq,
      Value.string.injEq, Text.mk.injEq, true_and, and_true]
    exact Text.dropByteOrderMark_eq_self units

omit known in
theorem extract_empty : ByteFrames.extract registry host [] = .ok .incomplete := rfl

omit known in
theorem reads_empty : (byteCodec registry host).reads [] = [.ok .incomplete] :=
  Codec.reads_of_stall (extract_empty registry host) rfl

/-- The frames of framable messages, concatenated, read back as the messages in order, each
reported with its frame's length, and then an incomplete read of the empty rest; exactly when
no username begins with a byte order mark. -/
theorem byte_frames_read_back (ms : List ByteMessage) (framable : ∀ m ∈ ms, Framable host m) :
    ∃ frames : List (List UInt8), ms.mapM ByteFrames.encode = .ok frames ∧
      ((byteCodec registry host).reads frames.flatten =
          List.zipWith (fun m frame => .ok (.message m frame.length)) ms frames ++ [.ok .incomplete] ↔
        ∀ m ∈ ms, ¬ m.Marked) := by
  induction ms with
  | nil => exact ⟨[], rfl, by simp [reads_empty]⟩
  | cons m ms ih =>
    obtain ⟨frame, read, encoded, nonempty, extracted, same⟩ :=
      frame_of_framable registry host known (framable m (by simp))
    obtain ⟨frames, encodedAll, exact⟩ := ih (fun x member => framable x (by simp [member]))
    refine ⟨frame :: frames, by simp [List.mapM_cons, encoded, encodedAll]; rfl, ?_⟩
    have moves : (Extraction.message read frame.length).advance (byteCodec registry host).terminator =
        frame.length := by
      simp [Extraction.advance, Extraction.consumed, byteCodec, List.length_pos_iff.mpr nonempty]
    rw [List.flatten_cons, Codec.reads_frame _ (extracted _) moves nonempty]
    simp only [List.zipWith_cons_cons, List.cons_append, List.cons.injEq, Except.ok.injEq,
      Extraction.message.injEq, and_true, List.forall_mem_cons, same, exact]

end Registry

theorem builtin_registry_known (k : Kind) :
    (Registry.empty.registerAll ByteType.builtins).1.resolve (ByteType.builtin k).code =
      .ok (.builtin k) := by
  cases k <;> rfl

/-- An identity with a character beyond the basic plane and a hostname holding `@`, then a join,
through the built-in registry. -/
theorem byte_frames_read_back_sample :
    (∀ k : Kind, (Registry.empty.registerAll ByteType.builtins).1.resolve (ByteType.builtin k).code =
      .ok (.builtin k)) ∧
    (∀ m ∈ [ByteMessage.identifyOf ⟨Text.ofString "user", Text.ofString "host"⟩
        (.string (Text.ofString "ü😀")) (.string (Text.ofString "a@b")),
        ByteType.fresh ⟨Text.ofString "user", Text.ofString "host"⟩ (.builtin .join)],
      Framable ⟨Text.ofString "user", Text.ofString "host"⟩ m) ∧
    ∃ frames : List (List UInt8),
      [ByteMessage.identifyOf ⟨Text.ofString "user", Text.ofString "host"⟩
        (.string (Text.ofString "ü😀")) (.string (Text.ofString "a@b")),
        ByteType.fresh ⟨Text.ofString "user", Text.ofString "host"⟩ (.builtin .join)].mapM
          ByteFrames.encode = .ok frames ∧
      ((byteCodec (Registry.empty.registerAll ByteType.builtins).1
          ⟨Text.ofString "user", Text.ofString "host"⟩).reads frames.flatten =
          List.zipWith (fun m frame => .ok (.message m frame.length))
            [ByteMessage.identifyOf ⟨Text.ofString "user", Text.ofString "host"⟩
              (.string (Text.ofString "ü😀")) (.string (Text.ofString "a@b")),
              ByteType.fresh ⟨Text.ofString "user", Text.ofString "host"⟩ (.builtin .join)]
            frames ++ [.ok .incomplete] ↔
        ∀ m ∈ [ByteMessage.identifyOf ⟨Text.ofString "user", Text.ofString "host"⟩
            (.string (Text.ofString "ü😀")) (.string (Text.ofString "a@b")),
            ByteType.fresh ⟨Text.ofString "user", Text.ofString "host"⟩ (.builtin .join)],
          ¬ m.Marked) := by
  have framable : ∀ m ∈ [ByteMessage.identifyOf ⟨Text.ofString "user", Text.ofString "host"⟩
        (.string (Text.ofString "ü😀")) (.string (Text.ofString "a@b")),
        ByteType.fresh ⟨Text.ofString "user", Text.ofString "host"⟩ (.builtin .join)],
      Framable ⟨Text.ofString "user", Text.ofString "host"⟩ m := by
    intro m member
    simp only [List.mem_cons, List.not_mem_nil, or_false] at member
    rcases member with rfl | rfl
    · exact .identify (by decide) (by decide) (by decide) (by decide)
    · exact .bare (by decide)
  exact ⟨builtin_registry_known, framable,
    byte_frames_read_back _ _ builtin_registry_known _ framable⟩

/-- `Identify("\uFEFFa", "b")` does not read back: its frame gives the username `a`. -/
theorem marked_username_read_back_unmarked :
    ByteFrames.encode (ByteMessage.identifyOf ⟨Text.ofString "user", Text.ofString "host"⟩
        (.string ⟨[0xFEFF, 0x61]⟩) (.string ⟨[0x62]⟩)) =
      .ok [8, 1, 0xEF, 0xBB, 0xBF, 0x61, 0x40, 0x62] ∧
    (byteCodec (Registry.empty.registerAll ByteType.builtins).1
        ⟨Text.ofString "user", Text.ofString "host"⟩).reads
        [8, 1, 0xEF, 0xBB, 0xBF, 0x61, 0x40, 0x62] =
      [.ok (.message (ByteMessage.identifyOf ⟨Text.ofString "user", Text.ofString "host"⟩
        (.string ⟨[0x61]⟩) (.string ⟨[0x62]⟩)) 8), .ok .incomplete] ∧
    ByteMessage.identifyOf ⟨Text.ofString "user", Text.ofString "host"⟩
        (.string ⟨[0x61]⟩) (.string ⟨[0x62]⟩) ≠
      ByteMessage.identifyOf ⟨Text.ofString "user", Text.ofString "host"⟩
        (.string ⟨[0xFEFF, 0x61]⟩) (.string ⟨[0x62]⟩) := by
  have fits : ((⟨[0xFEFF, 0x61]⟩ : Text) ++ Text.ofString "@" ++ ⟨[0x62]⟩).toUtf8.length ≤ 253 := by
    decide
  have payload : ((⟨[0xFEFF, 0x61]⟩ : Text) ++ Text.ofString "@" ++ ⟨[0x62]⟩).toUtf8 =
      [0xEF, 0xBB, 0xBF, 0x61, 0x40, 0x62] := by
    decide
  have read := ByteFrames.extract_identity_frame (Registry.empty.registerAll ByteType.builtins).1
    ⟨Text.ofString "user", Text.ofString "host"⟩ (builtin_registry_known .identify)
    (by decide) (by decide) (by decide) fits []
  rw [payload] at read
  refine ⟨?_, ?_, ?_⟩
  · rw [ByteFrames.encode_identifyOf _ fits, payload]
    rfl
  · rw [← List.append_nil [8, 1, 0xEF, 0xBB, 0xBF, 0x61, 0x40, 0x62]]
    rw [Codec.reads_frame [] read rfl (by simp), reads_empty]
    rfl
  · simp [ByteMessage.identifyOf_strings, ByteType.identityProps]

end PeerMessaging
