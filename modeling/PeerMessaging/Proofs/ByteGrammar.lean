import PeerMessaging.Proofs.SelfDelimiting
import PeerMessaging.Proofs.Utf8Forms
/-!
The grammar of byte frames. A buffer holds a frame when its length byte covers the two header
bytes and reaches no further than the buffer; otherwise nothing is read. A frame's code must be
registered. A frame of only a header is a fresh message of its type; a longer one has its payload
read into a fresh message, a failed read skipping the frame unless it names an unknown type. An
identify payload is read exactly when it is well-formed UTF-8 whose text, less one leading byte
order mark, holds an `@`: the username is the text before the first `@` and the hostname the text
after it.
-/

namespace PeerMessaging

namespace ByteMessage

/-- An identify payload that reads as `username@hostname`: the UTF-8 form of scalar values whose
units, less one leading byte order mark, are the username, an `@` and the hostname, with no `@`
in the username. -/
def IdentityPayload (payload : List UInt8) (username hostname : Text) : Prop :=
  ∃ units, Text.Utf8Form payload units ∧
    Text.dropByteOrderMark units = username.units ++ 0x40 :: hostname.units ∧ 0x40 ∉ username.units

/-- Text splits at its first `@` exactly into the text before it, which holds no `@`, and the text
after it. -/
theorem splitAtSign_eq_some {t u h : Text} :
    splitAtSign t = some (u, h) ↔ t.units = u.units ++ 0x40 :: h.units ∧ 0x40 ∉ u.units := by
  constructor
  · intro split
    unfold splitAtSign at split
    cases rest : t.units.dropWhile (· != 0x40) with
    | nil => simp [rest] at split
    | cons sign after =>
      simp only [rest, Option.some.injEq, Prod.mk.injEq] at split
      obtain ⟨rfl, rfl⟩ := split
      -- the first unit the scan stops at is the `@`, and every unit before it is another one
      have stop := List.head_dropWhile_not (· != (0x40 : UInt16)) (l := t.units) (by simp [rest])
      have signIs : sign = 0x40 := by simpa [rest] using stop
      have whole := (List.takeWhile_append_dropWhile (p := (· != (0x40 : UInt16))) (l := t.units)).symm
      rw [rest, signIs] at whole
      refine ⟨whole, ?_⟩
      intro member
      have := List.all_eq_true.mp (List.all_takeWhile (p := (· != (0x40 : UInt16))) (l := t.units))
        0x40 member
      simp at this
  · rintro ⟨whole, noSign⟩
    obtain ⟨units⟩ := t
    simp only at whole
    subst whole
    exact splitAtSign_around noSign

/-- A fresh identify message reads a payload exactly when the payload reads as
`username@hostname`, and then holds those two texts; a payload it cannot read fails it without
naming an unknown type. -/
theorem readPayload_identify (host : Identity) (payload : List UInt8) :
    (∃ u h, IdentityPayload payload u h ∧
        (ByteType.fresh host (.builtin .identify)).readPayload payload =
          .ok (identifyOf host (.string u) (.string h))) ∨
      ((¬ ∃ u h, IdentityPayload payload u h) ∧
        (ByteType.fresh host (.builtin .identify)).readPayload payload = .error .hookFailed) := by
  have fresh : ByteType.fresh host (.builtin .identify) =
      ⟨.builtin .identify, ByteType.identityProps (.string host.username) (.string host.hostname),
        none⟩ := rfl
  cases reads : (Text.ofUtf8? payload).bind splitAtSign with
  | some parts =>
    -- the payload is well-formed, and its text splits at an `@`
    obtain ⟨u, h⟩ := parts
    obtain ⟨text, decoded, split⟩ := Option.bind_eq_some_iff.mp reads
    obtain ⟨units, form, rfl⟩ := Option.map_eq_some_iff.mp decoded
    left
    refine ⟨u, h, ⟨units, Text.unitsOfUtf8_eq_some_iff.mp form, splitAtSign_eq_some.mp split⟩, ?_⟩
    rw [fresh, readPayload, reads]
    simp only [define_identity]
    rfl
  | none =>
    right
    refine ⟨?_, by rw [fresh, readPayload, reads]⟩
    rintro ⟨u, h, units, form, split, noSign⟩
    have decoded : Text.ofUtf8? payload = some ⟨Text.dropByteOrderMark units⟩ := by
      simp [Text.ofUtf8?, Text.unitsOfUtf8_eq_some_iff.mpr form]
    have splits : splitAtSign ⟨Text.dropByteOrderMark units⟩ = some (u, h) :=
      splitAtSign_eq_some.mpr ⟨split, noSign⟩
    rw [decoded, Option.bind_some, splits] at reads
    cases reads

/-- A payload reads as an identity exactly when it is well-formed UTF-8 whose text, less one
leading byte order mark, holds an `@`. -/
theorem identityPayload_exists_iff (payload : List UInt8) :
    (∃ u h, IdentityPayload payload u h) ↔
      ∃ units, Text.Utf8Form payload units ∧ 0x40 ∈ Text.dropByteOrderMark units := by
  constructor
  · rintro ⟨u, h, units, form, split, -⟩
    exact ⟨units, form, by simp [split]⟩
  · rintro ⟨units, form, sign⟩
    cases split : splitAtSign ⟨Text.dropByteOrderMark units⟩ with
    | some parts =>
      obtain ⟨u, h⟩ := parts
      exact ⟨u, h, units, form, splitAtSign_eq_some.mp split⟩
    | none =>
      -- the scan for an `@` stops at the one the text holds
      unfold splitAtSign at split
      cases rest : (Text.dropByteOrderMark units).dropWhile (· != 0x40) with
      | nil =>
        have scanned := List.any_dropWhile (p := (· != (0x40 : UInt16)))
          (l := Text.dropByteOrderMark units)
        rw [rest] at scanned
        have none : ∀ x ∈ Text.dropByteOrderMark units, ¬x = 0x40 := by simpa using scanned.symm
        exact absurd rfl (none 0x40 sign)
      | cons sign after => simp [rest] at split

end ByteMessage

namespace ByteFrames

variable (registry : Registry ByteType) (host : Identity)

theorem extract_eq_incomplete_iff {buffer : List UInt8} :
    extract registry host buffer = .ok .incomplete ↔ frameEnd? buffer = none := by
  constructor
  · intro nothing
    cases frame : frameEnd? buffer with
    | none => rfl
    | some n =>
      -- a whole frame is used whole, and a frame has at least its header
      have used := consumed_of_frame registry host frame nothing
      obtain ⟨_, _, _, _, _, long, _⟩ := frameEnd_eq_some.mp frame
      simp [Extraction.consumed] at used
      omega
  · exact extract_of_no_frame registry host

section Frame

variable {total code : UInt8} {body : List UInt8} (long : 2 ≤ total.toNat)
  (fits : total.toNat ≤ body.length + 2)
include long fits

theorem extract_unregistered (missing : registry.find? (Value.num code.toNat) = none) :
    extract registry host (total :: code :: body) = .error (Fault.unknown (Value.num code.toNat)) := by
  rw [extract_frame registry host long fits]
  simp [Registry.resolve, missing, Except.bind]

theorem extract_header_only {type : ByteType}
    (registered : registry.find? (Value.num code.toNat) = some type) (header : total.toNat = 2) :
    extract registry host (total :: code :: body) = .ok (.message (type.fresh host) 2) := by
  rw [extract_frame registry host long fits]
  simp [Registry.resolve, registered, Except.bind, headerSize, header]

theorem extract_payload_ok {type : ByteType} {m : ByteMessage}
    (registered : registry.find? (Value.num code.toNat) = some type) (payload : 2 < total.toNat)
    (read : (type.fresh host).readPayload (body.take (total.toNat - 2)) = .ok m) :
    extract registry host (total :: code :: body) = .ok (.message m total.toNat) := by
  rw [extract_frame registry host long fits]
  have read' : (type.fresh host).readPayload (body.take (total.toNat - headerSize)) = .ok m := read
  simp only [Registry.resolve, registered, Except.bind]
  rw [if_pos (show total.toNat > headerSize from payload), read']

theorem extract_payload_error {type : ByteType} {f : Fault}
    (registered : registry.find? (Value.num code.toNat) = some type) (payload : 2 < total.toNat)
    (failed : (type.fresh host).readPayload (body.take (total.toNat - 2)) = .error f) :
    extract registry host (total :: code :: body) =
      if f.isUnknownType then .error f else .ok (.skipped total.toNat) := by
  rw [extract_frame registry host long fits]
  have failed' : (type.fresh host).readPayload (body.take (total.toNat - headerSize)) = .error f :=
    failed
  simp only [Registry.resolve, registered, Except.bind]
  rw [if_pos (show total.toNat > headerSize from payload), failed']

theorem extract_identify (registered : registry.find? (Value.num code.toNat) = some (.builtin .identify))
    (payload : 2 < total.toNat) :
    (∃ u h, ByteMessage.IdentityPayload (body.take (total.toNat - 2)) u h ∧
        extract registry host (total :: code :: body) =
          .ok (.message (ByteMessage.identifyOf host (.string u) (.string h)) total.toNat)) ∨
      ((¬ ∃ units, Text.Utf8Form (body.take (total.toNat - 2)) units ∧
          0x40 ∈ Text.dropByteOrderMark units) ∧
        extract registry host (total :: code :: body) = .ok (.skipped total.toNat)) := by
  rcases ByteMessage.readPayload_identify host (body.take (total.toNat - 2)) with
    ⟨u, h, identity, read⟩ | ⟨unread, failed⟩
  · exact .inl ⟨u, h, identity, extract_payload_ok registry host long fits registered payload read⟩
  · refine .inr ⟨(not_congr (ByteMessage.identityPayload_exists_iff _)).mp unread, ?_⟩
    rw [extract_payload_error registry host long fits registered payload failed]
    rfl

end Frame

end ByteFrames

/-- The byte reader accepts exactly its grammar. Nothing is read exactly when the buffer is
empty, its length byte reaches past it or is below the header. Otherwise the frame's code must be
registered, else the read fails with an unknown type for that code. A frame of only a header is
a fresh message of the code's type; a longer one has its payload read into a fresh message,
giving the message, or a skipped frame when the read fails without naming an unknown type, which
the read then fails with. An identify payload gives a message exactly when it is well-formed
UTF-8 whose text, less one leading byte order mark, holds an `@`, and the message's username and
hostname are the text before and after the first `@`. -/
theorem byte_reader_accepts_its_grammar (registry : Registry ByteType) (host : Identity)
    (buffer : List UInt8) :
    (ByteFrames.extract registry host buffer = .ok .incomplete ↔
      buffer = [] ∨ ∃ total rest, buffer = total :: rest ∧
        (total.toNat > buffer.length ∨ total.toNat < 2)) ∧
    ∀ (total code : UInt8) (body : List UInt8), buffer = total :: code :: body →
      2 ≤ total.toNat → total.toNat ≤ buffer.length →
      (registry.find? (Value.num code.toNat) = none →
        ByteFrames.extract registry host buffer = .error (Fault.unknown (Value.num code.toNat))) ∧
      ∀ type : ByteType, registry.find? (Value.num code.toNat) = some type →
        (total.toNat = 2 → ByteFrames.extract registry host buffer = .ok (.message (type.fresh host) 2)) ∧
        (2 < total.toNat →
          (∀ m, (type.fresh host).readPayload (body.take (total.toNat - 2)) = .ok m →
            ByteFrames.extract registry host buffer = .ok (.message m total.toNat)) ∧
          (∀ f, (type.fresh host).readPayload (body.take (total.toNat - 2)) = .error f →
            ByteFrames.extract registry host buffer =
              if f.isUnknownType then .error f else .ok (.skipped total.toNat))) ∧
        (type = .builtin .identify → 2 < total.toNat →
          (∃ u h, ByteMessage.IdentityPayload (body.take (total.toNat - 2)) u h ∧
            ByteFrames.extract registry host buffer =
              .ok (.message (ByteMessage.identifyOf host (.string u) (.string h)) total.toNat)) ∨
          ((¬ ∃ units, Text.Utf8Form (body.take (total.toNat - 2)) units ∧
              0x40 ∈ Text.dropByteOrderMark units) ∧
            ByteFrames.extract registry host buffer = .ok (.skipped total.toNat))) := by
  constructor
  · rw [ByteFrames.extract_eq_incomplete_iff, ByteFrames.frameEnd_eq_none]
    constructor
    · rintro (empty | ⟨total, rest, rfl, short⟩)
      · exact .inl empty
      · exact .inr ⟨total, rest, rfl, by simp only [List.length_cons]; omega⟩
    · rintro (empty | ⟨total, rest, rfl, short⟩)
      · exact .inl empty
      · exact .inr ⟨total, rest, rfl, by simp only [List.length_cons] at short; omega⟩
  · rintro total code body rfl long within
    have fits : total.toNat ≤ body.length + 2 := by simpa using within
    refine ⟨ByteFrames.extract_unregistered registry host long fits, ?_⟩
    intro type registered
    refine ⟨ByteFrames.extract_header_only registry host long fits registered,
      fun payload => ⟨fun m read => ByteFrames.extract_payload_ok registry host long fits registered
        payload read, fun f failed => ByteFrames.extract_payload_error registry host long fits
        registered payload failed⟩, ?_⟩
    rintro rfl payload
    exact ByteFrames.extract_identify registry host long fits registered payload

/-- An identify frame whose payload starts with the overlong form `C0 80` of U+0000 is skipped:
no scalar values have those bytes as their form. -/
theorem overlong_identity_payload_skipped :
    ¬ ∃ units, Text.Utf8Form [0xC0, 0x80, 0x40] units ∧ 0x40 ∈ Text.dropByteOrderMark units := by
  have registered : (Registry.empty.registerAll ByteType.builtins).1.find?
      (Value.num (1 : UInt8).toNat) = some (.builtin .identify) := rfl
  have skipped : ByteFrames.extract (Registry.empty.registerAll ByteType.builtins).1
      ⟨Text.ofString "user", Text.ofString "host"⟩ [5, 1, 0xC0, 0x80, 0x40] =
        .ok (.skipped 5) := rfl
  have grammar := (byte_reader_accepts_its_grammar (Registry.empty.registerAll ByteType.builtins).1
    ⟨Text.ofString "user", Text.ofString "host"⟩ [5, 1, 0xC0, 0x80, 0x40]).2
    5 1 [0xC0, 0x80, 0x40] rfl (by decide) (by decide)
  rcases (grammar.2 _ registered).2.2 rfl (by decide) with ⟨_, _, _, read⟩ | ⟨unread, _⟩
  · rw [skipped] at read
    cases read
  · exact unread

end PeerMessaging
