import PeerMessaging.Proofs.Receiving
import PeerMessaging.Proofs.WholeNumbers
/-!
Sending. A send appends a message's frame to the write buffer, and a pump offers the whole
buffer to the channel, which takes some front part of it; only that part leaves the buffer.
So the bytes the channel has taken, followed by the buffer, are always the frames of the sends
that went through, in order, and the tally of sent bytes counts the bytes taken, as long as the
channel reports whole numbers and the counts stay below `2^53`.
-/

namespace PeerMessaging

/-- A call on the sending side: a pump, or a message to send. -/
inductive Post (μ : Type) where
  | pump
  | send (msg : μ)

def Post.frames {μ : Type} (codec : Codec μ) : List (Post μ) → List (List UInt8)
  | [] => []
  | .pump :: calls => frames codec calls
  | .send msg :: calls =>
    match codec.encode msg with
    | .ok frame => frame :: frames codec calls
    | .error _ => frames codec calls

/-- A channel that keeps in `delivered` every byte it accepts. A write of fewer than `2^53` bytes
that goes through reports a whole number of bytes, at most those offered, and accepts exactly
that many from the front; a failed write, a read and a shutdown accept nothing. -/
structure KeepsWrites {σ : Type} [Channel σ] (delivered : σ → List UInt8) : Prop where
  send_ok : ∀ (ch : σ) (data : List UInt8) (k : Float), data.length < 2 ^ 53 →
    (Channel.send ch data).2 = .ok k →
      ∃ n ≤ data.length, k = n.toFloat ∧
        delivered (Channel.send ch data).1 = delivered ch ++ data.take n
  send_error : ∀ (ch : σ) (data : List UInt8) (f : ChannelFault),
    (Channel.send ch data).2 = .error f → delivered (Channel.send ch data).1 = delivered ch
  receive : ∀ (ch : σ) (size : Float), delivered (Channel.receive ch size).1 = delivered ch
  shutdown : ∀ ch : σ, delivered (Channel.shutdown ch) = delivered ch

namespace Messenger

variable {σ μ : Type} [Channel σ]

def post (codec : Codec μ) : List (Post μ) → Messenger → σ → Messenger × σ
  | [], m, ch => (m, ch)
  | .pump :: calls, m, ch => post codec calls (m.pump ch).2.1 (m.pump ch).2.2
  | .send msg :: calls, m, ch =>
    match m.send codec msg with
    | .ok m' => post codec calls m' ch
    | .error _ => post codec calls m ch

/-!
## One pump

A pump forwards a front part of the write buffer: it drops some `n` bytes from the front, the
channel keeps exactly those, and the tally grows by `n`.
-/

section Forwarding

omit [Channel σ]

variable (delivered : σ → List UInt8)

/-- From one state to another, a front part of the write buffer went to the channel. -/
def Forwards (before after : Messenger × σ) : Prop :=
  before.1.writeBuffer.length < 2 ^ 53 →
    ∃ n ≤ before.1.writeBuffer.length,
      after.1.writeBuffer = before.1.writeBuffer.drop n ∧
      delivered after.2 = delivered before.2 ++ before.1.writeBuffer.take n ∧
      after.1.messagesSent = before.1.messagesSent ∧
      ∀ B : Nat, before.1.bytesSent = B.toFloat → B + before.1.writeBuffer.length < 2 ^ 53 →
        after.1.bytesSent = (B + n).toFloat

variable {delivered}

theorem forwards_of_same {before after : Messenger × σ}
    (buffer : after.1.writeBuffer = before.1.writeBuffer)
    (kept : delivered after.2 = delivered before.2)
    (sent : after.1.messagesSent = before.1.messagesSent)
    (tally : after.1.bytesSent = before.1.bytesSent) : Forwards delivered before after := by
  intro _
  refine ⟨0, Nat.zero_le _, by simp [buffer], by simp [kept], sent, ?_⟩
  intro B counted _
  rw [tally, counted, Nat.add_zero]

theorem forwards_refl (p : Messenger × σ) : Forwards delivered p p :=
  forwards_of_same rfl rfl rfl rfl

theorem forwards_trans {p q r : Messenger × σ} (first : Forwards delivered p q)
    (second : Forwards delivered q r) : Forwards delivered p r := by
  intro fits
  obtain ⟨n, within, buffer, kept, sent, tally⟩ := first fits
  have fitsAfter : q.1.writeBuffer.length < 2 ^ 53 := by
    rw [buffer, List.length_drop]
    omega
  obtain ⟨n', within', buffer', kept', sent', tally'⟩ := second fitsAfter
  rw [buffer, List.length_drop] at within'
  refine ⟨n + n', by omega, ?_, ?_, sent'.trans sent, ?_⟩
  · rw [buffer', buffer, List.drop_drop]
  · rw [kept', kept, buffer, List.append_assoc, ← List.take_add]
  · intro B counted bound
    rw [tally' (B + n) (tally B counted bound) (by rw [buffer, List.length_drop]; omega),
      Nat.add_assoc]

end Forwarding

section Channel

variable {delivered : σ → List UInt8} (keeps : KeepsWrites delivered)
include keeps

theorem forwards_close (m : Messenger) (ch : σ) : Forwards delivered (m, ch) (m.close ch) := by
  unfold close
  split
  · exact forwards_refl _
  · exact forwards_of_same rfl (keeps.shutdown ch) rfl rfl

theorem forwards_onFault (m : Messenger) (ch : σ) (e : ChannelFault) :
    Forwards delivered (m, ch) (m.onFault ch e) := by
  unfold onFault
  split
  · split
    · exact forwards_refl _
    · exact forwards_of_same rfl rfl rfl rfl
  · exact forwards_close keeps m ch

theorem forwards_readOnce (m : Messenger) (ch : σ) : Forwards delivered (m, ch) (m.readOnce ch) := by
  have read := keeps.receive ch m.chunkSize
  unfold readOnce
  split
  · next ch' e handed =>
    rw [handed] at read
    apply forwards_trans _ (forwards_onFault keeps m ch' e)
    exact forwards_of_same rfl read rfl rfl
  · next ch' data handed =>
    rw [handed] at read
    split
    · exact forwards_of_same rfl read rfl rfl
    · exact forwards_of_same rfl read rfl rfl

/-- A write drops from the buffer as many bytes as the channel took, and adds their count to the
tally. -/
theorem forwards_writeOnce (m : Messenger) (ch : σ) : Forwards delivered (m, ch) (m.writeOnce ch) := by
  unfold writeOnce
  split
  · next ch' f failed =>
    have kept := keeps.send_error ch m.writeBuffer f (by rw [failed])
    rw [failed] at kept
    apply forwards_trans _ (forwards_onFault keeps m ch' f)
    exact forwards_of_same rfl kept rfl rfl
  · next ch' sent accepted =>
    intro fits
    change m.writeBuffer.length < 2 ^ 53 at fits
    obtain ⟨n, within, report, kept⟩ := keeps.send_ok ch m.writeBuffer sent fits (by rw [accepted])
    rw [accepted] at kept
    have small : n < 2 ^ 53 := by omega
    have zero : (0 : Float) = (0 : Nat).toFloat := rfl
    split
    · next positive =>
      -- a positive whole report is the count the buffer gives up
      have cut : Number.sliceBound sent m.writeBuffer.length = n := by
        rw [report, Number.sliceBound_toFloat small fits, Nat.min_eq_left within]
      refine ⟨n, within, by simp [cut], kept, rfl, ?_⟩
      intro B counted bound
      change B + m.writeBuffer.length < 2 ^ 53 at bound
      show m.bytesSent + sent = _
      rw [counted, report, Number.toFloat_add_toFloat (by omega)]
    · next notPositive =>
      -- a report of nothing takes nothing
      have none : n = 0 := by
        rw [report, GT.gt, zero, Number.toFloat_lt_toFloat (by decide) small] at notPositive
        omega
      rw [none, List.take_zero, List.append_nil] at kept
      exact forwards_of_same rfl kept rfl rfl fits

theorem forwards_pump (m : Messenger) (ch : σ) : Forwards delivered (m, ch) (m.pump ch).2 :=
  pump_keeps (Forwards delivered) forwards_refl (fun _ _ _ => forwards_trans)
    (forwards_close keeps) (forwards_readOnce keeps) (forwards_writeOnce keeps) m ch

/-!
## A run of sends and pumps

The bytes taken over a run are those the channel keeps, and the bytes taken followed by the write
buffer are what was buffered before followed by the frames of the sends that went through.
-/

/-- Over a run of sends and pumps, the channel keeps the bytes taken, the bytes taken followed by
the write buffer are the bytes buffered before and then the frames of the sends that went
through, each such send is counted, and the tally grows by the count of the bytes taken. -/
theorem post_forwards (codec : Codec μ) (calls : List (Post μ)) (m : Messenger) (ch : σ) (B : Nat)
    (counted : m.bytesSent = B.toFloat)
    (fits : B + m.writeBuffer.length + (Post.frames codec calls).flatten.length < 2 ^ 53) :
    ∃ taken : List UInt8,
      delivered (m.post codec calls ch).2 = delivered ch ++ taken ∧
      taken ++ (m.post codec calls ch).1.writeBuffer = m.writeBuffer ++ (Post.frames codec calls).flatten ∧
      (m.post codec calls ch).1.bytesSent = (B + taken.length).toFloat ∧
      (m.post codec calls ch).1.messagesSent = m.messagesSent + (Post.frames codec calls).length := by
  induction calls generalizing m ch B with
  | nil => exact ⟨[], by simp [post], by simp [post, Post.frames], by simp [post, counted], rfl⟩
  | cons call calls ih =>
    cases call with
    | pump =>
      -- the pump forwards `n` bytes, and the rest of the run starts from there
      simp only [Post.frames] at fits
      obtain ⟨n, within, buffer, kept, sent, tally⟩ :=
        forwards_pump keeps m ch (show m.writeBuffer.length < 2 ^ 53 by omega)
      dsimp only at within buffer kept sent tally
      have bound : B + n + (m.pump ch).2.1.writeBuffer.length +
          (Post.frames codec calls).flatten.length < 2 ^ 53 := by
        rw [buffer, List.length_drop]
        omega
      obtain ⟨taken, kept', rest, tally', sent'⟩ :=
        ih (m.pump ch).2.1 (m.pump ch).2.2 (B + n) (tally B counted (by omega)) bound
      refine ⟨m.writeBuffer.take n ++ taken, ?_, ?_, ?_, ?_⟩
      · rw [post, kept', kept, List.append_assoc]
      · rw [post, List.append_assoc, rest, buffer, ← List.append_assoc, List.take_append_drop,
          Post.frames]
      · rw [post, tally', List.length_append, List.length_take, Nat.min_eq_left within,
          Nat.add_assoc]
      · rw [post, sent', sent, Post.frames]
    | send msg =>
      cases encoded : codec.encode msg with
      | error f =>
        -- the send raises, and the run goes on from the same messenger
        have frames : Post.frames codec (.send msg :: calls) = Post.frames codec calls := by
          simp [Post.frames, encoded]
        rw [frames] at fits ⊢
        have raised : m.post codec (.send msg :: calls) ch = m.post codec calls ch := by
          simp [post, send_of_encode_error m encoded]
        rw [raised]
        exact ih m ch B counted fits
      | ok frame =>
        -- the frame joins the end of the write buffer, and the send is counted
        have frames : Post.frames codec (.send msg :: calls) = frame :: Post.frames codec calls := by
          simp [Post.frames, encoded]
        have queued : m.post codec (.send msg :: calls) ch =
            ({ m with writeBuffer := m.writeBuffer ++ frame, messagesSent := m.messagesSent + 1 } :
              Messenger).post codec calls ch := by
          simp [post, send_of_encode m encoded]
        rw [frames, List.flatten_cons, List.length_append] at fits
        obtain ⟨taken, kept, rest, tally, sent⟩ :=
          ih { m with writeBuffer := m.writeBuffer ++ frame, messagesSent := m.messagesSent + 1 } ch B
            counted (by simp only [List.length_append]; omega)
        refine ⟨taken, ?_, ?_, ?_, ?_⟩
        · rw [queued, kept]
        · rw [queued, rest, frames, List.flatten_cons, List.append_assoc]
        · rw [queued, tally]
        · rw [queued, sent, frames, List.length_cons, Nat.add_assoc, Nat.add_comm 1]

end Channel

/-!
## Draining at a steady rate

On a channel that is never readable nor in error, is always writable and takes `L` bytes of each
write, every pump takes the next `L` bytes off the write buffer, so a buffer of `N` bytes is empty
after exactly `⌈N / L⌉` pumps.
-/

def pumps (m : Messenger) (ch : σ) : Nat → Messenger × σ
  | 0 => (m, ch)
  | k + 1 => (m.pump ch).2.1.pumps (m.pump ch).2.2 k

section Steady

variable {L : Nat} (atLeastOne : 1 ≤ L)
  (quiet : ∀ ch : σ, Channel.poll ch = .ok ⟨false, true, false⟩)
  (takes : ∀ (ch : σ) (data : List UInt8),
    (Channel.send ch data).2 = .ok (min data.length L).toFloat)
include atLeastOne quiet takes

theorem pump_steady (m : Messenger) (ch : σ) (opened : m.closed = false)
    (fits : m.writeBuffer.length < 2 ^ 53) :
    (m.pump ch).2.1.closed = false ∧ (m.pump ch).2.1.writeBuffer = m.writeBuffer.drop L := by
  unfold pump
  simp only [opened, quiet ch, Bool.false_eq_true, if_false, Bool.not_false, Bool.true_and]
  by_cases empty : m.writeBuffer = []
  · simp [empty, opened]
  · -- the write takes `min N L` bytes, at least one, and reports as many
    have pair : Channel.send ch m.writeBuffer =
        ((Channel.send ch m.writeBuffer).1, .ok (min m.writeBuffer.length L).toFloat) := by
      rw [← takes ch m.writeBuffer]
    have some : 0 < min m.writeBuffer.length L := by
      have := List.length_pos_iff.mpr empty
      omega
    have positive : (min m.writeBuffer.length L).toFloat > 0 :=
      (Number.toFloat_lt_toFloat (show 0 < 2 ^ 53 by decide) (by omega)).mpr some
    have cut : Number.sliceBound (min m.writeBuffer.length L).toFloat m.writeBuffer.length =
        min m.writeBuffer.length L := by
      rw [Number.sliceBound_toFloat (by omega) fits, Nat.min_eq_left (Nat.min_le_left _ _)]
    have nonempty : m.writeBuffer.isEmpty = false := by simpa using empty
    simp only [nonempty, Bool.not_false, if_true, writeOnce]
    rw [pair]
    simp only [if_pos positive, cut, opened, true_and]
    by_cases within : L ≤ m.writeBuffer.length
    · rw [Nat.min_eq_right within]
    · rw [Nat.min_eq_left (by omega), List.drop_length, List.drop_eq_nil_of_le (by omega)]

theorem pumps_steady (k : Nat) (m : Messenger) (ch : σ) (opened : m.closed = false)
    (fits : m.writeBuffer.length < 2 ^ 53) :
    (m.pumps ch k).1.closed = false ∧ (m.pumps ch k).1.writeBuffer = m.writeBuffer.drop (k * L) := by
  induction k generalizing m ch with
  | zero => exact ⟨opened, by simp [pumps]⟩
  | succ k ih =>
    obtain ⟨stillOpen, buffer⟩ := pump_steady atLeastOne quiet takes m ch opened fits
    obtain ⟨closedAfter, bufferAfter⟩ :=
      ih (m.pump ch).2.1 (m.pump ch).2.2 stillOpen (by rw [buffer, List.length_drop]; omega)
    refine ⟨closedAfter, ?_⟩
    rw [pumps, bufferAfter, buffer, List.drop_drop, Nat.succ_mul, Nat.add_comm]

theorem pumps_empty_iff (k : Nat) (m : Messenger) (ch : σ) (opened : m.closed = false)
    (fits : m.writeBuffer.length < 2 ^ 53) :
    (m.pumps ch k).1.writeBuffer = [] ↔ (m.writeBuffer.length + L - 1) / L ≤ k := by
  rw [(pumps_steady atLeastOne quiet takes k m ch opened fits).2, List.drop_eq_nil_iff,
    Nat.div_le_iff_le_mul_add_pred (by omega), Nat.mul_comm k L]
  omega

end Steady

end Messenger

/-- A channel that is never readable and takes at most `limit` bytes of each write, keeping what
it takes. -/
structure Sink (limit : Nat) where
  accepted : List UInt8

instance (limit : Nat) : Channel (Sink limit) where
  localAddress _ := Value.str "local"
  remoteAddress _ := Value.str "remote"
  poll _ := .ok ⟨false, true, false⟩
  receive s _ := (s, .error ChannelFault.wouldBlock)
  send s data := (⟨s.accepted ++ data.take limit⟩, .ok (min data.length limit).toFloat)
  shutdown s := s

theorem Sink.keepsWrites (limit : Nat) : KeepsWrites fun s : Sink limit => s.accepted where
  send_ok ch data k _ reported := by
    refine ⟨min data.length limit, Nat.min_le_left _ _, ?_, ?_⟩
    · exact (Except.ok.inj reported).symm
    · show ch.accepted ++ data.take limit = ch.accepted ++ data.take (min data.length limit)
      by_cases within : limit ≤ data.length
      · rw [Nat.min_eq_right within]
      · rw [Nat.min_eq_left (by omega), List.take_length, List.take_of_length_le (by omega)]
  send_error ch data f failed := by cases failed
  receive _ _ := rfl
  shutdown _ := rfl

/-- The sending side keeps every byte in order: over any run of sends and pumps on a channel that
reports whole numbers, the bytes the channel took followed by the write buffer are the frames of
the sends that went through, the tally counts the bytes taken, the pending bytes are the rest, and
the sends that went through are counted. On a channel that is never readable nor in error, always
writable and takes `L ≥ 1` bytes a write, a buffer of `N` bytes empties after exactly `⌈N / L⌉`
pumps. -/
theorem sends_reach_channel_in_order {σ μ : Type} [Channel σ] (codec : Codec μ) (calls : List (Post μ))
    (m : Messenger) (ch : σ) :
    (∀ (delivered : σ → List UInt8), KeepsWrites delivered → ∀ B : Nat,
      m.bytesSent = B.toFloat →
      B + m.writeBuffer.length + (Post.frames codec calls).flatten.length < 2 ^ 53 →
      ∃ taken : List UInt8,
        delivered (m.post codec calls ch).2 = delivered ch ++ taken ∧
        taken ++ (m.post codec calls ch).1.writeBuffer =
          m.writeBuffer ++ (Post.frames codec calls).flatten ∧
        (m.post codec calls ch).1.bytesSent = (B + taken.length).toFloat ∧
        (m.post codec calls ch).1.writeBuffer.length =
          m.writeBuffer.length + (Post.frames codec calls).flatten.length - taken.length ∧
        (m.post codec calls ch).1.messagesSent = m.messagesSent + (Post.frames codec calls).length) ∧
    (∀ L : Nat, 1 ≤ L →
      (∀ ch : σ, Channel.poll ch = .ok ⟨false, true, false⟩) →
      (∀ (ch : σ) (data : List UInt8), (Channel.send ch data).2 = .ok (min data.length L).toFloat) →
      m.closed = false → m.writeBuffer.length < 2 ^ 53 →
      ∀ k : Nat, (m.pumps ch k).1.writeBuffer = [] ↔ (m.writeBuffer.length + L - 1) / L ≤ k) := by
  constructor
  · intro delivered keeps B counted fits
    obtain ⟨taken, kept, rest, tally, sent⟩ :=
      Messenger.post_forwards keeps codec calls m ch B counted fits
    have pending := congrArg List.length rest
    simp only [List.length_append] at pending
    exact ⟨taken, kept, rest, tally, by omega, sent⟩
  · intro L atLeastOne quiet takes opened fits k
    exact Messenger.pumps_empty_iff atLeastOne quiet takes k m ch opened fits

theorem sink_run_sample :
    (∃ taken : List UInt8,
      let codec := byteCodec (Registry.empty.registerAll ByteType.builtins).1
        ⟨Text.ofString "user", Text.ofString "host"⟩
      let calls : List (Post ByteMessage) :=
        [.send (ByteType.fresh ⟨Text.ofString "user", Text.ofString "host"⟩ (.builtin .join)),
          .pump, .send (ByteType.fresh ⟨Text.ofString "user", Text.ofString "host"⟩ (.builtin .quit)),
          .pump]
      let run := (Messenger.mk (.str "local") (.str "remote") 1024 [] [] false 0 0 0 0 false false).post
        codec calls (⟨[]⟩ : Sink 1)
      run.2.accepted = [] ++ taken ∧
        taken ++ run.1.writeBuffer = [] ++ (Post.frames codec calls).flatten ∧
        run.1.bytesSent = (0 + taken.length).toFloat ∧
        run.1.writeBuffer.length = 0 + (Post.frames codec calls).flatten.length - taken.length ∧
        run.1.messagesSent = 0 + (Post.frames codec calls).length) ∧
    let m : Messenger :=
      ⟨.str "local", .str "remote", 1024, [], [1, 2, 3, 4, 5, 6, 7], false, 0, 0, 0, 0, false, false⟩
    (m.pumps (⟨[]⟩ : Sink 3) 3).1.writeBuffer = [] ∧ (m.pumps (⟨[]⟩ : Sink 3) 2).1.writeBuffer ≠ [] := by
  refine ⟨(sends_reach_channel_in_order _ _ _ ⟨[]⟩).1 (fun s : Sink 1 => s.accepted) (Sink.keepsWrites 1) 0
    rfl (by decide), ?_⟩
  have drains := (sends_reach_channel_in_order (byteCodec Registry.empty
      ⟨Text.ofString "user", Text.ofString "host"⟩) []
    ⟨.str "local", .str "remote", 1024, [], [1, 2, 3, 4, 5, 6, 7], false, 0, 0, 0, 0, false, false⟩
    (⟨[]⟩ : Sink 3)).2 3 (by decide) (fun _ => rfl) (fun _ _ => rfl) rfl (by decide)
  exact ⟨(drains 3).2 (by decide), fun empty => absurd ((drains 2).1 empty) (by decide)⟩

/-- A channel may report a fractional count: half a byte taken leaves the whole frame pending while
the tally counts the half, so the pending bytes are no longer the encoded total less the tally. -/
theorem half_byte_report_skews_tally :
    let run := (Messenger.mk (.str "10.0.0.1") (.str "10.0.0.2") 1024 [] [] false 0 0 0 0 false false).post
      (byteCodec (Registry.empty.registerAll ByteType.builtins).1
        ⟨Text.ofString "user", Text.ofString "host"⟩)
      [.send (ByteType.fresh ⟨Text.ofString "user", Text.ofString "host"⟩ (.builtin .join)), .pump]
      { Script.between (.str "10.0.0.1") (.str "10.0.0.2") with sendLimit := some 0.5 }
    run.1.writeBuffer.length = 2 ∧ run.1.bytesSent = 0.5 ∧ run.2.delivered = [] := by
  refine ⟨by decide, ?_, by decide⟩
  rfl

end PeerMessaging
