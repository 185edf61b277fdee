import PeerMessaging.Proofs.ByteGrammar
import PeerMessaging.Proofs.RegistryKeys
/-!
Identity frames written back. The reader takes the text of a well-formed identify payload and
splits it at its first `@`; the writer joins the two halves with an `@` again and writes the text
as UTF-8, which gives back the bytes of any well-formed payload. So an identify frame read off a
buffer is written back as exactly the bytes it was read from, with two provisos: the payload does
not start with a byte order mark, which the reader drops, and the registry files the identify
type under its own code, as every registry a codec is set up with does.
-/

namespace PeerMessaging

namespace ByteMessage

theorem type_fresh (host : Identity) (t : ByteType) : (ByteType.fresh host t).type = t := by
  cases t with
  | builtin k => cases k <;> rfl
  | custom c => rfl

theorem type_readPayload {m m' : ByteMessage} {payload : List UInt8}
    (read : m.readPayload payload = .ok m') : m'.type = m.type := by
  unfold readPayload at read
  split at read
  · split at read
    · cases read
      rfl
    · cases read
  · split at read <;> cases read <;> rfl
  · cases read
    rfl

theorem toUtf8_of_identityPayload {payload : List UInt8} {u h : Text} (identity : IdentityPayload payload u h)
    (unmarked : ¬ [0xEF, 0xBB, 0xBF] <+: payload) : (u ++ Text.ofString "@" ++ h).toUtf8 = payload := by
  obtain ⟨units, form, split, -⟩ := identity
  rw [Text.dropByteOrderMark_of_unmarked form unmarked] at split
  rw [identity_units]
  show Text.utf8OfUnits (u.units ++ 0x40 :: h.units) = payload
  rw [← split]
  exact Text.utf8OfUnits_of_form form

end ByteMessage

namespace ByteFrames

variable {registry : Registry ByteType} {host : Identity}

/-- A message read from a frame has the type the frame's code names. -/
theorem type_of_extract {total code : UInt8} {body : List UInt8} (long : 2 ≤ total.toNat)
    (fits : total.toNat ≤ body.length + 2) {type : ByteType}
    (registered : registry.find? (Value.num code.toNat) = some type) {m : ByteMessage} {n : Nat}
    (read : extract registry host (total :: code :: body) = .ok (.message m n)) : m.type = type := by
  rw [extract_frame registry host long fits] at read
  simp only [Registry.resolve, registered, Except.bind] at read
  split at read
  · -- a payload, read into a fresh message of the type
    split at read
    · next m' readIn =>
      cases read
      rw [ByteMessage.type_readPayload readIn, ByteMessage.type_fresh]
    · split at read <;> cases read
  · cases read
    exact ByteMessage.type_fresh host type

theorem code_of_identify (keyed : registry.OwnKeyed) {code : UInt8}
    (registered : registry.find? (Value.num code.toNat) = some (.builtin .identify)) : code = 1 := by
  have same : Value.sameValueZero (Value.num 1) (Value.num code.toNat) = true :=
    keyed.keyOf_find registered
  have small : code.toNat < 2 ^ 53 := by
    have := code.toNat_lt
    omega
  -- the key `1` is a whole number, so it is no not-a-number and equal only to itself
  have notNaN : (1 : Nat).toFloat.isNaN = false := Number.isNaN_toFloat (by norm_num)
  have equal : ((1 : Nat).toFloat == code.toNat.toFloat) = true := by
    simpa only [Value.sameValueZero, Value.num, notNaN, Bool.false_and, Bool.or_false] using same
  have one := (Number.toFloat_beq_toFloat (by norm_num) small).1 equal
  exact UInt8.toNat_inj.mp one.symm

/-- An identify message read off a buffer from a frame with a payload was read from a frame with
the identify code, whose payload reads as the message's `username@hostname`. -/
theorem identify_of_extract (keyed : registry.OwnKeyed) {buffer : List UInt8} {m : ByteMessage} {n : Nat}
    (read : extract registry host buffer = .ok (.message m n)) (identify : m.type = .builtin .identify)
    (payload : 2 < n) :
    ∃ total body u h, buffer = total :: 1 :: body ∧ total.toNat = n ∧ n ≤ body.length + 2 ∧
      ByteMessage.IdentityPayload (body.take (n - 2)) u h ∧
      m = ByteMessage.identifyOf host (.string u) (.string h) := by
  -- the buffer holds a frame of `n` bytes
  cases frame : frameEnd? buffer with
  | none =>
    rw [extract_of_no_frame registry host frame] at read
    cases read
  | some n' =>
    have used : n = n' := consumed_of_frame registry host frame read
    subst used
    obtain ⟨total, code, body, rfl, rfl, long, fits⟩ := frameEnd_eq_some.mp frame
    -- its code names the identify type, which is found only under the identify code
    cases registered : registry.find? (Value.num code.toNat) with
    | none =>
      rw [extract_unregistered registry host long fits registered] at read
      cases read
    | some type =>
      have typeIs : type = .builtin .identify :=
        (type_of_extract long fits registered read).symm.trans identify
      subst typeIs
      have codeIs := code_of_identify keyed registered
      subst codeIs
      rcases extract_identify registry host long fits registered payload with
        ⟨u, h, identity, identified⟩ | ⟨_, skipped⟩
      · rw [read] at identified
        cases identified
        exact ⟨total, body, u, h, rfl, rfl, fits, identity, rfl⟩
      · rw [read] at skipped
        cases skipped

end ByteFrames

end PeerMessaging
