import PeerMessaging.Transport.Messenger
import PeerMessaging.Transport.Script
import PeerMessaging.Proofs.ByteFrames
import PeerMessaging.Proofs.TextFrames
/-!
Receiving over a stable codec. A messenger's user makes `pump` and `receive` calls in any order.
A pump adds to the read buffer only what the channel hands out, and a receive takes one read off
the front of the buffer, so the receives that move the buffer report the reads of the whole
stream in order, however the stream was cut into chunks and however the calls interleave. A
receive that moves nothing changes nothing, and one that meets an unknown type meets it again on
every later call.
-/

namespace PeerMessaging

/-- A call a messenger's user makes. -/
inductive Call where
  | pump
  | receive

/-- What a receive call returned, and how many bytes it took off the read buffer. -/
structure Receipt (μ : Type) where
  outcome : Except Fault (Option μ)
  taken : Nat

def Receipt.ofRead {μ : Type} (terminator : Nat) (e : Extraction μ) : Receipt μ :=
  ⟨.ok e.message?, e.advance terminator⟩

/-- A channel that hands out the stream `pending` in order: a read gives a front part of what is
pending (a failed read gives nothing), and writes and shutdowns leave it. -/
structure HandsOut {σ : Type} [Channel σ] (pending : σ → List UInt8) : Prop where
  receive : ∀ (ch : σ) (size : Float),
    pending ch = (Channel.receive ch size).2.toOption.getD [] ++ pending (Channel.receive ch size).1
  send : ∀ (ch : σ) (data : List UInt8), pending (Channel.send ch data).1 = pending ch
  shutdown : ∀ ch : σ, pending (Channel.shutdown ch) = pending ch

/-- The scripted channel hands out its inbound chunks in order, cut wherever reads cut them. -/
theorem Script.handsOut : HandsOut fun s : Script => s.inbound.flatten := by
  constructor
  · intro s size
    show s.inbound.flatten = (s.receive size).2.toOption.getD [] ++ (s.receive size).1.inbound.flatten
    unfold Script.receive
    split
    · rfl
    · split
      · next empty => split <;> simp [empty, Except.toOption]
      · next chunk rest queued =>
        split
        · simp only [queued, Except.toOption, List.flatten_cons, Option.getD_some]
          rw [← List.append_assoc, List.take_append_drop]
        · simp [queued, Except.toOption]
  · intro s data
    show (s.send data).1.inbound.flatten = _
    unfold Script.send
    split <;> rfl
  · intro s
    rfl

namespace Messenger

variable {σ μ : Type} [Channel σ]

def session (codec : Codec μ) : List Call → Messenger → σ → List (Receipt μ) × Messenger × σ
  | [], m, ch => ([], m, ch)
  | .pump :: calls, m, ch => session codec calls (m.pump ch).2.1 (m.pump ch).2.2
  | .receive :: calls, m, ch =>
    let after := session codec calls (m.receive codec).2 ch
    (⟨(m.receive codec).1, m.readBuffer.length - (m.receive codec).2.readBuffer.length⟩ :: after.1,
      after.2)

/-!
## One pump

A pump closes, reads once, writes once, or reads and then writes. Whatever each of these keeps,
and keeps again when they follow one another, a pump keeps.
-/

theorem pump_keeps (keeps : Messenger × σ → Messenger × σ → Prop) (refl : ∀ p, keeps p p)
    (trans : ∀ p q r, keeps p q → keeps q r → keeps p r)
    (closing : ∀ (m : Messenger) ch, keeps (m, ch) (m.close ch))
    (reading : ∀ (m : Messenger) ch, keeps (m, ch) (m.readOnce ch))
    (writing : ∀ (m : Messenger) ch, keeps (m, ch) (m.writeOnce ch)) (m : Messenger) (ch : σ) :
    keeps (m, ch) (m.pump ch).2 := by
  unfold pump
  split
  · exact refl _
  · split
    · exact closing m ch
    · next r _ =>
      split
      · exact closing m ch
      · -- the read, when the channel is readable, then the write, when still open
        have read : keeps (m, ch) (if r.readable then m.readOnce ch else (m, ch)) := by
          split
          · exact reading m ch
          · exact refl _
        generalize (if r.readable then m.readOnce ch else (m, ch)) = p at read ⊢
        obtain ⟨m₁, ch₁⟩ := p
        apply trans _ _ _ read
        show keeps (m₁, ch₁)
          (if (!m₁.closed && r.writable && !m₁.writeBuffer.isEmpty) = true then m₁.writeOnce ch₁
            else (m₁, ch₁))
        split
        · exact writing m₁ ch₁
        · exact refl _

/-!
## The read side of a pump

Closing and writing leave the read buffer; a read appends what the channel handed out. Over a
channel that hands out a stream in order, the read buffer followed by what the channel still
holds is therefore the same before and after a pump.
-/

section ReadSide

variable (m : Messenger) (ch : σ)

@[simp] theorem readBuffer_close : (m.close ch).1.readBuffer = m.readBuffer := by
  unfold close
  split <;> rfl

@[simp] theorem readBuffer_onFault (e : ChannelFault) :
    (m.onFault ch e).1.readBuffer = m.readBuffer := by
  unfold onFault
  split
  · split <;> rfl
  · exact readBuffer_close m ch

@[simp] theorem readBuffer_writeOnce : (m.writeOnce ch).1.readBuffer = m.readBuffer := by
  unfold writeOnce
  split
  · exact readBuffer_onFault ..
  · split <;> rfl

theorem readBuffer_readOnce :
    (m.readOnce ch).1.readBuffer =
      m.readBuffer ++ (Channel.receive ch m.chunkSize).2.toOption.getD [] := by
  unfold readOnce
  split
  · next handed => simp [handed, Except.toOption]
  · next data handed =>
    split
    · next ended => simp [handed, Except.toOption, List.isEmpty_iff.mp ended]
    · simp [handed, Except.toOption]

theorem readBuffer_pump : ∃ data, (m.pump ch).2.1.readBuffer = m.readBuffer ++ data := by
  apply pump_keeps (fun p q => ∃ data, q.1.readBuffer = p.1.readBuffer ++ data)
  · intro p
    exact ⟨[], by simp⟩
  · rintro p q r ⟨first, grew⟩ ⟨second, grewAgain⟩
    exact ⟨first ++ second, by rw [grewAgain, grew, List.append_assoc]⟩
  · intro m ch
    exact ⟨[], by simp⟩
  · intro m ch
    exact ⟨_, readBuffer_readOnce m ch⟩
  · intro m ch
    exact ⟨[], by simp⟩

variable {pending : σ → List UInt8} (hands : HandsOut pending)
include hands

theorem pending_close : pending (m.close ch).2 = pending ch := by
  unfold close
  split
  · rfl
  · exact hands.shutdown ch

theorem pending_onFault (e : ChannelFault) : pending (m.onFault ch e).2 = pending ch := by
  unfold onFault
  split
  · split <;> rfl
  · exact pending_close m ch hands

theorem pending_writeOnce : pending (m.writeOnce ch).2 = pending ch := by
  unfold writeOnce
  split
  · next sent =>
    rw [pending_onFault _ _ hands, ← hands.send ch m.writeBuffer, sent]
  · next sent =>
    rw [← hands.send ch m.writeBuffer, sent]
    split <;> rfl

theorem pending_readOnce : pending (m.readOnce ch).2 = pending (Channel.receive ch m.chunkSize).1 := by
  unfold readOnce
  split
  · next handed =>
    rw [pending_onFault _ _ hands, handed]
  · next handed =>
    rw [handed]
    split <;> rfl

/-- The bytes in flight, buffered or still in the channel, are the same after a pump. -/
theorem stream_pump :
    (m.pump ch).2.1.readBuffer ++ pending (m.pump ch).2.2 = m.readBuffer ++ pending ch := by
  apply pump_keeps (fun p q => q.1.readBuffer ++ pending q.2 = p.1.readBuffer ++ pending p.2)
  · intro p
    rfl
  · intro p q r kept keptAgain
    exact keptAgain.trans kept
  · intro m ch
    rw [readBuffer_close, pending_close m ch hands]
  · intro m ch
    show (m.readOnce ch).1.readBuffer ++ pending (m.readOnce ch).2 = m.readBuffer ++ pending ch
    rw [readBuffer_readOnce, pending_readOnce m ch hands, hands.receive ch m.chunkSize,
      List.append_assoc]
  · intro m ch
    rw [readBuffer_writeOnce, pending_writeOnce m ch hands]

end ReadSide

/-!
## One receive

A receive either leaves the messenger as it was, or takes one read that moves off the front of
the read buffer.
-/

section Receive

variable {codec : Codec μ} (m : Messenger)

theorem receive_of_error {f : Fault} (failed : codec.extract m.readBuffer = .error f) :
    m.receive codec = (if f.isUnknownType then .error f else .ok none, m) := by
  by_cases unknown : f.isUnknownType <;> simp [receive, failed, unknown]

theorem receive_of_advance {e : Extraction μ} (read : codec.extract m.readBuffer = .ok e)
    (moves : 0 < e.advance codec.terminator) :
    m.receive codec = (.ok e.message?,
      { m with readBuffer := m.readBuffer.drop (e.advance codec.terminator),
               messagesReceived := m.messagesReceived + if e.message?.isSome then 1 else 0 }) := by
  unfold receive
  rw [read]
  simp [Nat.pos_iff_ne_zero.mp moves]

variable (codec) in
theorem receive_cases :
    (m.receive codec).2 = m ∨
      ∃ e : Extraction μ, codec.extract m.readBuffer = .ok e ∧ 0 < e.advance codec.terminator ∧
        m.receive codec = (.ok e.message?,
          { m with readBuffer := m.readBuffer.drop (e.advance codec.terminator),
                   messagesReceived := m.messagesReceived + if e.message?.isSome then 1 else 0 }) := by
  cases read : codec.extract m.readBuffer with
  | error f =>
    left
    rw [receive_of_error m read]
  | ok e =>
    by_cases moves : 0 < e.advance codec.terminator
    · exact .inr ⟨e, rfl, moves, receive_of_advance m read moves⟩
    · left
      unfold receive
      simp [read, Nat.eq_zero_of_not_pos moves]

theorem receive_of_reported {f : Fault} (reported : (m.receive codec).1 = .error f) :
    codec.extract m.readBuffer = .error f ∧ f.isUnknownType = true ∧ (m.receive codec).2 = m := by
  cases read : codec.extract m.readBuffer with
  | error f' =>
    rw [receive_of_error m read] at reported ⊢
    by_cases unknown : f'.isUnknownType <;> simp_all
  | ok e =>
    by_cases moves : 0 < e.advance codec.terminator
    · rw [receive_of_advance m read moves] at reported
      cases reported
    · unfold receive at reported
      simp [read, Nat.eq_zero_of_not_pos moves] at reported

/-- Over a stable codec, a receive that leaves the read buffer changes nothing, and reports
nothing or an unknown type. -/
theorem receive_still (stable : codec.Stable) (still : (m.receive codec).2.readBuffer = m.readBuffer) :
    (m.receive codec).2 = m ∧
      ((m.receive codec).1 = .ok none ∨
        ∃ f, (m.receive codec).1 = .error f ∧ f.isUnknownType = true) := by
  cases read : codec.extract m.readBuffer with
  | error f =>
    rw [receive_of_error m read]
    by_cases unknown : f.isUnknownType <;> simp [unknown]
  | ok e =>
    by_cases moves : 0 < e.advance codec.terminator
    · -- a read that moves takes bytes off a buffer that holds them
      rw [receive_of_advance m read moves] at still
      have within := stable.advance_le read
      have shorter := congrArg List.length still
      simp only [List.length_drop] at shorter
      omega
    · unfold receive
      simp [read, Nat.eq_zero_of_not_pos moves]

end Receive

/-!
## A session

A session is any sequence of pumps and receives. Over a stable codec and a channel that hands
out a stream in order, the receives that move report the reads of the stream in flight, one by
one: what was in flight before reads as those frames and then as what is in flight after.
-/

section Session

variable {codec : Codec μ}

@[simp] theorem session_nil (m : Messenger) (ch : σ) : m.session codec [] ch = ([], m, ch) := rfl

@[simp] theorem session_pump (calls : List Call) (m : Messenger) (ch : σ) :
    m.session codec (.pump :: calls) ch = (m.pump ch).2.1.session codec calls (m.pump ch).2.2 := rfl

theorem session_receive (calls : List Call) (m : Messenger) (ch : σ) :
    m.session codec (.receive :: calls) ch =
      (⟨(m.receive codec).1, m.readBuffer.length - (m.receive codec).2.readBuffer.length⟩ ::
        ((m.receive codec).2.session codec calls ch).1, ((m.receive codec).2.session codec calls ch).2) :=
  rfl

/-- The receipts of the calls after a receive that reports an unknown type all report it again:
pumps only append to the read buffer, and a fault stays whatever follows. -/
theorem session_of_unknown (stable : codec.Stable) {f : Fault} (unknown : f.isUnknownType = true)
    (calls : List Call) (m : Messenger) (ch : σ) (failed : codec.extract m.readBuffer = .error f) :
    ∀ r ∈ (m.session codec calls ch).1, r = ⟨.error f, 0⟩ := by
  induction calls generalizing m ch with
  | nil => simp
  | cons call calls ih =>
    cases call with
    | pump =>
      obtain ⟨data, grew⟩ := readBuffer_pump m ch
      rw [session_pump]
      exact ih _ _ (by rw [grew, stable.error_append data failed])
    | receive =>
      have same := receive_of_error m failed
      rw [unknown, if_pos rfl] at same
      intro r member
      rw [session_receive, same] at member
      simp only [Nat.sub_self, List.mem_cons] at member
      rcases member with first | later
      · exact first
      · exact ih m ch failed r later

/-- Once a receive reports a fault, every later receive reports it again and takes nothing. -/
theorem session_keeps_failing (stable : codec.Stable) (calls : List Call) (m : Messenger) (ch : σ)
    {before after : List (Receipt μ)} {f : Fault} {taken : Nat}
    (receipts : (m.session codec calls ch).1 = before ++ ⟨.error f, taken⟩ :: after) :
    ∀ r ∈ after, r = ⟨.error f, 0⟩ := by
  induction calls generalizing m ch before with
  | nil => simp at receipts
  | cons call calls ih =>
    cases call with
    | pump =>
      rw [session_pump] at receipts
      exact ih _ _ receipts
    | receive =>
      rw [session_receive] at receipts
      cases before with
      | nil =>
        -- this receive is the one that failed
        simp only [List.nil_append, List.cons.injEq, Receipt.mk.injEq] at receipts
        obtain ⟨⟨outcome, -⟩, rest⟩ := receipts
        obtain ⟨failed, unknown, same⟩ := receive_of_reported m outcome
        rw [← rest, same]
        exact session_of_unknown stable unknown calls m ch failed
      | cons first before =>
        simp only [List.cons_append, List.cons.injEq] at receipts
        exact ih _ _ receipts.2

/-- The receives of a session that move report the reads of the bytes in flight, in order: the
bytes in flight before the session read as those frames, then as the bytes in flight after it. -/
theorem session_follows_reads (stable : codec.Stable) {pending : σ → List UInt8}
    (hands : HandsOut pending) (calls : List Call) (m : Messenger) (ch : σ) :
    ∃ frames : List (Extraction μ),
      (m.session codec calls ch).1.filter (0 < ·.taken) = frames.map (Receipt.ofRead codec.terminator) ∧
      codec.reads (m.readBuffer ++ pending ch) =
        frames.map .ok ++
          codec.reads ((m.session codec calls ch).2.1.readBuffer ++ pending (m.session codec calls ch).2.2) := by
  induction calls generalizing m ch with
  | nil => exact ⟨[], rfl, by simp⟩
  | cons call calls ih =>
    cases call with
    | pump =>
      rw [session_pump, ← stream_pump m ch hands]
      exact ih _ _
    | receive =>
      rw [session_receive]
      rcases receive_cases codec m with same | ⟨e, read, moves, moved⟩
      · -- nothing moved: the receipt takes nothing and the session goes on from the same state
        obtain ⟨frames, receipts, reads⟩ := ih m ch
        refine ⟨frames, ?_, ?_⟩
        · simp [same, receipts]
        · rw [same]
          exact reads
      · -- one read moved: it is the next read of the bytes in flight
        have within := stable.advance_le read
        obtain ⟨frames, receipts, reads⟩ := ih (m.receive codec).2 ch
        rw [moved] at receipts reads ⊢
        refine ⟨e :: frames, ?_, ?_⟩
        · have taken : m.readBuffer.length - (m.readBuffer.drop (e.advance codec.terminator)).length =
              e.advance codec.terminator := by
            simp only [List.length_drop]
            omega
          simp only [taken, List.filter_cons, moves, decide_true, if_true, receipts, List.map_cons]
          rfl
        · rw [stable.reads_append (pending ch) read moves, reads]
          rfl

end Session

end Messenger

/-!
## Receiving in order

What a messenger's user sees over a codec, on every channel that hands out a stream in order and
for every sequence of calls. Both codecs are stable, so both give it.
-/

/-- How a messenger receives over a codec, whatever the channel and the order of calls. -/
structure Codec.ReceivesInOrder {μ : Type} (codec : Codec μ) : Prop where
  /-- The receives that move report the reads of the stream in flight, in order: the stream
  reads as their frames and then as what is left in flight after them. -/
  follows_reads : ∀ {σ : Type} [Channel σ] (pending : σ → List UInt8), HandsOut pending →
    ∀ (calls : List Call) (m : Messenger) (ch : σ), ∃ frames : List (Extraction μ),
      (m.session codec calls ch).1.filter (0 < ·.taken) = frames.map (Receipt.ofRead codec.terminator) ∧
      codec.reads (m.readBuffer ++ pending ch) =
        frames.map .ok ++
          codec.reads ((m.session codec calls ch).2.1.readBuffer ++ pending (m.session codec calls ch).2.2)
  /-- A receive that leaves the read buffer changes nothing, and reports nothing or an unknown
  type. -/
  still : ∀ m : Messenger, (m.receive codec).2.readBuffer = m.readBuffer →
    (m.receive codec).2 = m ∧
      ((m.receive codec).1 = .ok none ∨ ∃ f, (m.receive codec).1 = .error f ∧ f.isUnknownType = true)
  /-- Once a receive reports a fault, every later receive reports it again and takes nothing. -/
  keeps_failing : ∀ {σ : Type} [Channel σ] (calls : List Call) (m : Messenger) (ch : σ)
    (before after : List (Receipt μ)) (f : Fault) (taken : Nat),
    (m.session codec calls ch).1 = before ++ ⟨.error f, taken⟩ :: after → ∀ r ∈ after, r = ⟨.error f, 0⟩

theorem Codec.Stable.receivesInOrder {μ : Type} {codec : Codec μ} (stable : codec.Stable) :
    codec.ReceivesInOrder where
  follows_reads _ hands calls m ch := Messenger.session_follows_reads stable hands calls m ch
  still m := Messenger.receive_still m stable
  keeps_failing calls m ch _ _ _ _ receipts := Messenger.session_keeps_failing stable calls m ch receipts

theorem receives_follow_stream_reads :
    (∀ (registry : Registry ByteType) (host : Identity), (byteCodec registry host).ReceivesInOrder) ∧
      ∀ (registry : Registry TextType) (host : Identity), (textCodec registry host).ReceivesInOrder :=
  ⟨fun registry host => (byteCodec_stable registry host).receivesInOrder,
    fun registry host => (textCodec_stable registry host).receivesInOrder⟩

end PeerMessaging
