import PeerMessaging.Exchange
import PeerMessaging.Proofs.Closing
import PeerMessaging.Proofs.SelfDelimiting
/-!
The identity exchange. Once the hello is queued, each round pumps once and then reads frames until
one describes an identity or none is complete; a skipped frame also ends the round's reading, as a
receive answers nothing for it as for an incomplete frame. So an identity the exchange answers is
always that of the first frame that describes one, past quiet messages and skipped frames, and a
stream with no frame that names an identity gets no answer. It is answered whenever no skipped
frame comes before it: after a skipped frame the next pump may find the end of the stream and
close. A hello that fails to encode ends the exchange before it starts, with the messenger left as
it was; otherwise the exchange ends with the messenger closed. The hello is all that the exchange
writes, and its first pump writes it unless it finds the stream already ended.
-/

namespace PeerMessaging

namespace IdentityProtocol

variable {μ : Type} (p : IdentityProtocol μ)

/-- A frame the exchange reads past: a message that describes no identity. -/
def Quiet (e : Extraction μ) : Prop := ∃ msg, e.message? = some msg ∧ p.describe msg = .ok none

/-- A frame that describes the identity `t`. -/
def Describes (e : Extraction μ) (t : Text) : Prop :=
  ∃ msg, e.message? = some msg ∧ p.describe msg = .ok (some t)

/-- A frame the exchange may read past: a quiet message, or a skipped frame. -/
def Passes (e : Extraction μ) : Prop := p.Quiet e ∨ ∃ n, e = .skipped n

/-- A frame that names no identity and fails no description: it holds no message, or a quiet
one. -/
def Silent (e : Extraction μ) : Prop := ∀ msg, e.message? = some msg → p.describe msg = .ok none

/-- A protocol whose codec reads a stream that arrives in parts: later bytes never change a frame
found, an empty buffer holds no frame, and every frame found moves the buffer on. -/
structure ReadsFrames : Prop where
  stable : p.codec.Stable
  empty : p.codec.extract [] = .ok .incomplete
  moves : ∀ {buffer : List UInt8} {e : Extraction μ}, p.codec.extract buffer = .ok e →
    e ≠ .incomplete → 0 < e.advance p.codec.terminator

variable {p}

theorem Describes.not_quiet {e : Extraction μ} {t : Text} (describes : p.Describes e t) :
    ¬ p.Quiet e := by
  rintro ⟨msg, found, quiet⟩
  obtain ⟨msg', found', named⟩ := describes
  rw [found] at found'
  cases found'
  rw [quiet] at named
  cases named

theorem Describes.eq {e : Extraction μ} {t t' : Text} (describes : p.Describes e t)
    (describes' : p.Describes e t') : t = t' := by
  obtain ⟨msg, found, named⟩ := describes
  obtain ⟨msg', found', named'⟩ := describes'
  rw [found] at found'
  cases found'
  rw [named] at named'
  cases named'
  rfl

theorem skipped_not_quiet (n : Nat) : ¬ p.Quiet (.skipped n) := by
  rintro ⟨msg, found, -⟩
  cases found

theorem incomplete_not_quiet : ¬ p.Quiet .incomplete := by
  rintro ⟨msg, found, -⟩
  cases found

/-!
## Reading past quiet messages

Two readings of one stream as quiet messages followed by a frame that is not quiet agree on where
that frame stands.
-/

theorem after_quiets {quiets pre : List (Extraction μ)} {rest post : List (Except Fault (Extraction μ))}
    {e : Extraction μ} (same : quiets.map .ok ++ rest = pre.map .ok ++ .ok e :: post)
    (quiet : ∀ q ∈ quiets, p.Quiet q) (loud : ¬ p.Quiet e) :
    ∃ pre' : List (Extraction μ), (∀ q ∈ pre', q ∈ pre) ∧ rest = pre'.map .ok ++ .ok e :: post := by
  induction quiets generalizing pre with
  | nil => exact ⟨pre, fun q member => member, same⟩
  | cons q quiets ih =>
    cases pre with
    | nil =>
      simp only [List.map_cons, List.map_nil, List.cons_append, List.nil_append, List.cons.injEq,
        Except.ok.injEq] at same
      exact absurd (same.1 ▸ quiet q (by simp)) loud
    | cons q' pre =>
      simp only [List.map_cons, List.cons_append, List.cons.injEq] at same
      obtain ⟨pre', within, rest⟩ := ih same.2 (fun r member => quiet r (by simp [member]))
      exact ⟨pre', fun r member => by simp [within r member], rest⟩

theorem loud_first {pre : List (Extraction μ)} {rest post : List (Except Fault (Extraction μ))}
    {x e : Extraction μ} (same : .ok x :: rest = pre.map .ok ++ .ok e :: post)
    (quiet : ∀ q ∈ pre, p.Quiet q) (loud : ¬ p.Quiet x) : x = e ∧ rest = post := by
  cases pre with
  | nil =>
    simp only [List.map_nil, List.nil_append, List.cons.injEq, Except.ok.injEq] at same
    exact same
  | cons q pre =>
    simp only [List.map_cons, List.cons_append, List.cons.injEq, Except.ok.injEq] at same
    exact absurd (same.1 ▸ quiet q (by simp)) loud

end IdentityProtocol

namespace Messenger

variable {μ : Type} (p : IdentityProtocol μ)

/-- How a round of reading ended, against the buffer it left and the frame it read last, past the
quiet messages: a frame that describes an identity, a skipped frame, a frame whose description
failed, or no frame when the buffer holds nothing complete or an unknown type. -/
def Stops (buffer : List UInt8) : RoundEnd → Option (Extraction μ) → Prop
  | .identity t, some x => p.Describes x t
  | .waiting, some x => ∃ n, x = .skipped n
  | .waiting, none =>
    (∃ x, p.codec.extract buffer = .ok x ∧ x.advance p.codec.terminator = 0) ∨
      ∃ f, p.codec.extract buffer = .error f ∧ f.isUnknownType = false
  | .unknownType, none => ∃ f, p.codec.extract buffer = .error f ∧ f.isUnknownType = true
  | .failed f, some x => ∃ msg, x.message? = some msg ∧ p.describe msg = .error f
  | _, _ => False

variable {p}

theorem receive_keeps (codec : Codec μ) (m : Messenger) :
    ∃ buffer count, (m.receive codec).2 = { m with readBuffer := buffer, messagesReceived := count } := by
  rcases receive_cases codec m with same | ⟨e, -, -, moved⟩
  · exact ⟨m.readBuffer, m.messagesReceived, same⟩
  · exact ⟨_, _, by rw [moved]⟩

/-- A round of reading changes only the read buffer and the count of messages received. -/
theorem collect_keeps (m : Messenger) (fuel : Nat) :
    ∃ buffer count, (m.collect p fuel).2 = { m with readBuffer := buffer, messagesReceived := count } := by
  induction fuel generalizing m with
  | zero => exact ⟨m.readBuffer, m.messagesReceived, rfl⟩
  | succ fuel ih =>
    obtain ⟨buffer, count, received⟩ := receive_keeps p.codec m
    unfold collect
    generalize m.receive p.codec = r at received
    obtain ⟨outcome, m'⟩ := r
    dsimp only at received
    subst received
    cases outcome with
    | error f => exact ⟨buffer, count, rfl⟩
    | ok found =>
      cases found with
      | none => exact ⟨buffer, count, rfl⟩
      | some msg =>
        dsimp only
        split
        · exact ⟨buffer, count, rfl⟩
        · exact ih _
        · exact ⟨buffer, count, rfl⟩

/-- One read of a round, of a frame that moves the buffer on: the round reads on past a quiet
message, and otherwise stops at the frame as `Stops` says. -/
theorem collect_step {m m₁ : Messenger} {e : Extraction μ} (fuel : Nat)
    (received : m.receive p.codec = (.ok e.message?, m₁)) (moves : 0 < e.advance p.codec.terminator) :
    (p.Quiet e ∧ m.collect p (fuel + 1) = m₁.collect p fuel) ∨
      ∃ ending, m.collect p (fuel + 1) = (ending, m₁) ∧ Stops p m₁.readBuffer ending (some e) := by
  rw [collect.eq_2, received]
  cases found : e.message? with
  | none =>
    -- no message: a frame that moves the buffer and holds none was skipped
    refine .inr ⟨.waiting, rfl, ?_⟩
    cases e with
    | incomplete => simp [Extraction.advance, Extraction.consumed] at moves
    | skipped n => exact ⟨n, rfl⟩
    | message msg n => cases found
  | some msg =>
    dsimp only
    cases described : p.describe msg with
    | error f => exact .inr ⟨.failed f, rfl, msg, found, described⟩
    | ok named =>
      cases named with
      | none => exact .inl ⟨⟨msg, found, described⟩, rfl⟩
      | some t => exact .inr ⟨.identity t, rfl, msg, found, described⟩

/-- A round of reading, with enough fuel to read its whole buffer, reads the stream in flight as
quiet messages, then at most one frame it stops at, then what is left: it stops as `Stops` says. -/
theorem collect_reads (stable : p.codec.Stable) (m : Messenger) (fuel : Nat)
    (enough : m.readBuffer.length < fuel) (rest : List UInt8) :
    ∃ (quiets : List (Extraction μ)) (last : Option (Extraction μ)),
      p.codec.reads (m.readBuffer ++ rest) =
        quiets.map .ok ++ last.toList.map .ok ++ p.codec.reads ((m.collect p fuel).2.readBuffer ++ rest) ∧
      (∀ q ∈ quiets, p.Quiet q) ∧ Stops p (m.collect p fuel).2.readBuffer (m.collect p fuel).1 last := by
  induction fuel generalizing m with
  | zero => exact absurd enough (Nat.not_lt_zero _)
  | succ fuel ih =>
    cases read : p.codec.extract m.readBuffer with
    | error f =>
      -- a fault stops the round where it stands
      have stays : m.collect p (fuel + 1) = (if f.isUnknownType then .unknownType else .waiting, m) := by
        unfold collect
        rw [receive_of_error m read]
        by_cases unknown : f.isUnknownType <;> simp [unknown]
      refine ⟨[], none, by rw [stays]; rfl, by simp, ?_⟩
      rw [stays]
      by_cases unknown : f.isUnknownType
      · simp only [unknown, if_true]
        exact ⟨f, read, unknown⟩
      · simp only [unknown, Bool.false_eq_true, if_false]
        exact .inr ⟨f, read, by simpa using unknown⟩
    | ok e =>
      by_cases moves : 0 < e.advance p.codec.terminator
      · -- the frame is read off: the round stops at it, or reads on past a quiet message
        have reads := stable.reads_append rest read moves
        obtain ⟨m₁, received, dropped⟩ : ∃ m₁ : Messenger, m.receive p.codec = (.ok e.message?, m₁) ∧
            m₁.readBuffer = m.readBuffer.drop (e.advance p.codec.terminator) :=
          ⟨_, receive_of_advance m read moves, rfl⟩
        have shorter : m₁.readBuffer.length < fuel := by
          have within := stable.advance_le read
          rw [dropped, List.length_drop]
          omega
        rw [← dropped] at reads
        rcases collect_step fuel received moves with ⟨quiet, goesOn⟩ | ⟨ending, stays, stops⟩
        · obtain ⟨quiets, last, readsOn, quietsOn, stops⟩ := ih m₁ shorter
          refine ⟨e :: quiets, last, ?_, List.forall_mem_cons.2 ⟨quiet, quietsOn⟩, ?_⟩
          · rw [goesOn, reads, readsOn]
            rfl
          · rw [goesOn]
            exact stops
        · refine ⟨[], some e, by rw [stays, reads]; rfl, by simp, ?_⟩
          rw [stays]
          exact stops
      · have still : m.receive p.codec = (.ok none, m) := by
          unfold receive
          simp [read, Nat.eq_zero_of_not_pos moves]
        have stays : m.collect p (fuel + 1) = (.waiting, m) := by
          unfold collect
          rw [still]
        refine ⟨[], none, by rw [stays]; rfl, by simp, ?_⟩
        rw [stays]
        exact .inl ⟨e, read, Nat.eq_zero_of_not_pos moves⟩

/-- A round that stops at no frame naming an identity ends waiting or at an unknown type. -/
theorem Stops.quiet_end {buffer : List UInt8} {ending : RoundEnd} {last : Option (Extraction μ)}
    (stops : Stops p buffer ending last) (silent : ∀ x ∈ last, p.Silent x) :
    ending = .waiting ∨ ending = .unknownType := by
  cases ending <;> cases last
  case identity.some t x =>
    obtain ⟨msg, found, named⟩ := stops
    rw [silent x rfl msg found] at named
    cases named
  case failed.some f x =>
    obtain ⟨msg, found, failed⟩ := stops
    rw [silent x rfl msg found] at failed
    cases failed
  case waiting.none | waiting.some => exact .inl rfl
  case unknownType.none => exact .inr rfl
  all_goals exact stops.elim

/-!
## Every exchange

Whatever the channel: a hello that fails to encode ends the exchange at once; otherwise every
round ends in a close or a drain, or goes on, so the exchange ends closed. Over a channel that
hands out a stream in order, an identity answered is that of the first frame describing one, and
a stream in which no frame names an identity gets none.
-/

section Rounds

variable {σ : Type} [Channel σ] [BEq σ]

theorem exchange_of_hello_error {f : Fault} (failed : p.codec.encode p.hello = .error f)
    (running : Bool) (m : Messenger) (ch : σ) (fuel : Nat) :
    m.exchange p running ch fuel = (.error f, m, ch) := by
  unfold exchange
  rw [send_of_encode_error m failed]

theorem closed_exchangeRounds (m : Messenger) (ch : σ) (fuel : Nat) :
    (exchangeRounds p m ch fuel).2.1.closed = true := by
  induction fuel generalizing m ch with
  | zero => exact closed_close m ch
  | succ fuel ih =>
    rw [exchangeRounds.eq_2]
    generalize m.pump ch = pumped
    obtain ⟨open?, m', ch'⟩ := pumped
    dsimp only
    split
    · exact closed_close m' ch'
    · generalize m'.collect p (m'.readBuffer.length + 1) = collected
      obtain ⟨ending, m''⟩ := collected
      cases ending with
      | identity t => exact closed_drain m'' ch' _
      | unknownType => exact closed_close m'' ch'
      | failed f => exact closed_close m'' ch'
      | waiting =>
        dsimp only
        split
        · exact closed_close m'' ch'
        · exact ih m'' ch'

theorem closed_exchange {bytes : List UInt8} (encoded : p.codec.encode p.hello = .ok bytes)
    (running : Bool) (m : Messenger) (ch : σ) (fuel : Nat) :
    (m.exchange p running ch fuel).2.1.closed = true := by
  unfold exchange
  rw [send_of_encode m encoded]
  dsimp only
  split
  · exact closed_exchangeRounds _ ch fuel
  · exact closed_close _ ch

/-- An identity that the rounds answer is that of the first frame describing one in the stream in
flight, past quiet messages and skipped frames. -/
theorem exchangeRounds_sound (stable : p.codec.Stable) {pending : σ → List UInt8}
    (hands : HandsOut pending) {t : Text} (m : Messenger) (ch : σ) (fuel : Nat)
    (answered : (exchangeRounds p m ch fuel).1 = .ok (some t)) :
    ∃ (passed : List (Extraction μ)) (x : Extraction μ) (rest : List (Except Fault (Extraction μ))),
      p.codec.reads (m.readBuffer ++ pending ch) = passed.map .ok ++ .ok x :: rest ∧
        (∀ q ∈ passed, p.Passes q) ∧ p.Describes x t := by
  induction fuel generalizing m ch with
  | zero => cases answered
  | succ fuel ih =>
    have inFlight := stream_pump m ch hands
    rw [exchangeRounds.eq_2] at answered
    generalize m.pump ch = pumped at answered inFlight
    obtain ⟨open?, m', ch'⟩ := pumped
    dsimp only at answered inFlight
    split at answered
    · cases answered
    · obtain ⟨quiets, last, reads, quiet, stops⟩ :=
        collect_reads stable m' _ (Nat.lt_succ_self _) (pending ch')
      generalize m'.collect p (m'.readBuffer.length + 1) = collected at answered reads stops
      obtain ⟨ending, m''⟩ := collected
      dsimp only at reads stops
      rw [← inFlight]
      cases ending with
      | identity t' =>
        -- the round read the identity: it is the frame it stopped at
        cases last with
        | none => exact stops.elim
        | some x =>
          have same : t' = t := by simpa using answered
          subst same
          refine ⟨quiets, x, p.codec.reads (m''.readBuffer ++ pending ch'), ?_,
            fun q member => .inl (quiet q member), stops⟩
          rw [reads]
          simp
      | waiting =>
        -- the round read past quiet messages and at most one skipped frame; the next rounds
        -- answered
        dsimp only at answered
        split at answered
        · cases answered
        · obtain ⟨passed, x, rest, readsOn, passes, describes⟩ := ih m'' ch' answered
          refine ⟨quiets ++ last.toList ++ passed, x, rest, ?_, ?_, describes⟩
          · rw [reads, readsOn]
            simp
          · intro q member
            simp only [List.mem_append, Option.mem_toList] at member
            rcases member with (quieted | stopped) | later
            · exact .inl (quiet q quieted)
            · rw [stopped] at stops
              exact .inr stops
            · exact passes q later
      | unknownType => cases answered
      | failed f => cases answered

/-- Rounds over a channel that hands out a stream in order answer no identity, and no fault, when
no frame of the stream in flight names one. -/
theorem exchangeRounds_none (stable : p.codec.Stable) {pending : σ → List UInt8}
    (hands : HandsOut pending) (m : Messenger) (ch : σ) (fuel : Nat)
    (silent : ∀ x, .ok x ∈ p.codec.reads (m.readBuffer ++ pending ch) → p.Silent x) :
    (exchangeRounds p m ch fuel).1 = .ok none := by
  induction fuel generalizing m ch with
  | zero => rfl
  | succ fuel ih =>
    have inFlight := stream_pump m ch hands
    rw [exchangeRounds.eq_2]
    generalize m.pump ch = pumped at inFlight
    obtain ⟨open?, m', ch'⟩ := pumped
    dsimp only at inFlight ⊢
    split
    · rfl
    · obtain ⟨quiets, last, reads, -, stops⟩ :=
        collect_reads stable m' _ (Nat.lt_succ_self _) (pending ch')
      generalize m'.collect p (m'.readBuffer.length + 1) = collected at reads stops
      obtain ⟨ending, m''⟩ := collected
      dsimp only at reads stops
      -- what the round read, and what is in flight after it, was in flight before it
      rw [inFlight] at reads
      have before : ∀ x, .ok x ∈ quiets.map .ok ++ last.toList.map .ok ++
          p.codec.reads (m''.readBuffer ++ pending ch') → p.Silent x := by
        rw [← reads]
        exact silent
      rcases stops.quiet_end (fun x member => before x (by simp [Option.mem_def.mp member])) with rfl | rfl
      · dsimp only
        split
        · rfl
        · exact ih m'' ch' fun x member => before x (by simp [member])
      · rfl

/-- An exchange whose hello encodes answers no identity, and no fault, when no frame of the stream
in flight names one. -/
theorem exchange_none (stable : p.codec.Stable) {pending : σ → List UInt8} (hands : HandsOut pending)
    {bytes : List UInt8} (encoded : p.codec.encode p.hello = .ok bytes) (running : Bool)
    (m : Messenger) (ch : σ) (fuel : Nat)
    (silent : ∀ x, .ok x ∈ p.codec.reads (m.readBuffer ++ pending ch) → p.Silent x) :
    (m.exchange p running ch fuel).1 = .ok none := by
  unfold exchange
  rw [send_of_encode m encoded]
  dsimp only
  split
  · exact exchangeRounds_none stable hands _ ch fuel silent
  · rfl

end Rounds

end Messenger

/-!
## A loaded scripted channel

A scripted channel that accepts every write in full and hands out its chunks, then the end of the
stream. A pump of an open messenger over it, at the default chunk size, reads a nonempty front
part of what the channel holds and writes all that is pending.
-/

namespace Script

/-- A scripted channel with its chunks loaded: polls report it readable and writable, reads
hand out the chunks and then the end of the stream, and writes are accepted in full. -/
structure Loaded (s : Script) : Prop where
  ended : s.ended = true
  errored : s.errored = false
  pollFails : s.pollFails = false
  writable : s.writable = true
  receiveError : s.receiveError = none
  sendError : s.sendError = none
  sendLimit : s.sendLimit = none
  chunks : ∀ c ∈ s.inbound, c ≠ []
  fits : s.inbound.flatten.length < 2 ^ 53

variable {s : Script}

theorem Loaded.withInbound (loaded : s.Loaded) {inbound : List (List UInt8)}
    (chunks : ∀ c ∈ inbound, c ≠ []) (fits : inbound.flatten.length < 2 ^ 53) :
    ({ s with inbound := inbound } : Script).Loaded :=
  ⟨loaded.ended, loaded.errored, loaded.pollFails, loaded.writable, loaded.receiveError,
    loaded.sendError, loaded.sendLimit, chunks, fits⟩

theorem Loaded.withDelivered (loaded : s.Loaded) (delivered : List UInt8) :
    ({ s with delivered := delivered } : Script).Loaded :=
  ⟨loaded.ended, loaded.errored, loaded.pollFails, loaded.writable, loaded.receiveError,
    loaded.sendError, loaded.sendLimit, loaded.chunks, loaded.fits⟩

theorem Loaded.poll (loaded : s.Loaded) : Channel.poll s = .ok ⟨true, true, false⟩ := by
  show s.poll = _
  simp [Script.poll, loaded.pollFails, loaded.ended, loaded.writable, loaded.errored]

/-- A read at the default chunk size hands out a nonempty front part of the chunks. -/
theorem Loaded.receive (loaded : s.Loaded) (queued : s.inbound ≠ []) :
    ∃ (data : List UInt8) (s' : Script),
      Channel.receive s Messenger.defaultChunkSize = (s', .ok data) ∧ data ≠ [] ∧
        s.inbound.flatten = data ++ s'.inbound.flatten ∧ s'.Loaded ∧ s'.delivered = s.delivered := by
  obtain ⟨c, rest, queue⟩ := List.exists_cons_of_ne_nil queued
  have chunk : c ≠ [] := loaded.chunks c (by simp [queue])
  have fits := loaded.fits
  have restChunks : ∀ d ∈ rest, d ≠ [] := fun d member => loaded.chunks d (by simp [queue, member])
  rw [queue, List.flatten_cons, List.length_append] at fits
  have small : c.length < 2 ^ 53 := by omega
  have limit : Messenger.defaultChunkSize = (1024 : Nat).toFloat := rfl
  by_cases long : 1024 < c.length
  · -- a long chunk is cut at the chunk size, and the rest of it stays queued
    have beyond : Messenger.defaultChunkSize < c.length.toFloat := by
      rw [limit, Number.toFloat_lt_toFloat (by norm_num) small]
      exact long
    have cut : Number.sliceBound Messenger.defaultChunkSize c.length = 1024 := by
      rw [limit, Number.sliceBound_toFloat (by norm_num) small]
      omega
    refine ⟨c.take 1024, { s with inbound := c.drop 1024 :: rest }, ?_, ?_, ?_, ?_, rfl⟩
    · show s.receive _ = _
      unfold Script.receive
      simp only [loaded.receiveError, queue]
      rw [if_pos beyond, cut]
    · simpa using chunk
    · simp [queue, ← List.append_assoc]
    · apply loaded.withInbound
      · intro d member
        rcases List.mem_cons.mp member with rfl | later
        · simp
          omega
        · exact restChunks d later
      · simp only [List.flatten_cons, List.length_append, List.length_drop]
        omega
  · have within : ¬ Messenger.defaultChunkSize < c.length.toFloat := by
      rw [limit, Number.toFloat_lt_toFloat (by norm_num) small]
      exact long
    refine ⟨c, { s with inbound := rest }, ?_, chunk, by simp [queue], ?_, rfl⟩
    · show s.receive _ = _
      unfold Script.receive
      simp only [loaded.receiveError, queue]
      rw [if_neg within]
    · exact loaded.withInbound restChunks (by omega)

theorem Loaded.send (loaded : s.Loaded) (data : List UInt8) (small : data.length < 2 ^ 53) :
    Channel.send s data = ({ s with delivered := s.delivered ++ data }, .ok data.length.toFloat) := by
  show s.send data = _
  unfold Script.send
  simp only [loaded.sendError, loaded.sendLimit, Number.sliceBound_toFloat small small, Nat.min_self,
    List.take_length]

theorem inbound_of_beq {s t : Script} (same : (s == t) = true) : s.inbound = t.inbound := by
  cases s
  cases t
  simp only [BEq.beq] at same
  unfold instBEqScript.beq at same
  simp only [Bool.and_eq_true] at same
  exact beq_iff_eq.mp same.2.2.1

theorem shorter_of_handed {s s' : Script} {data : List UInt8} (nonempty : data ≠ [])
    (handed : s.inbound.flatten = data ++ s'.inbound.flatten) :
    s'.inbound.flatten.length < s.inbound.flatten.length := by
  rw [handed, List.length_append]
  have := List.length_pos_iff.mpr nonempty
  omega

theorem beq_eq_false_of_shorter {s s' : Script}
    (shorter : s'.inbound.flatten.length < s.inbound.flatten.length) : (s' == s) = false := by
  cases same : (s' == s) with
  | false => rfl
  | true =>
    rw [inbound_of_beq same] at shorter
    exact absurd shorter (Nat.lt_irrefl _)

theorem delivered_receive (s : Script) (size : Float) :
    (Channel.receive s size).1.delivered = s.delivered := by
  show (s.receive size).1.delivered = _
  unfold Script.receive
  split
  · rfl
  · split
    · rfl
    · split <;> rfl

theorem delivered_send_nil (s : Script) : (Channel.send s []).1.delivered = s.delivered := by
  show (s.send []).1.delivered = _
  unfold Script.send
  split <;> simp

end Script

namespace Messenger

variable {m : Messenger} {s : Script}

theorem readOnce_loaded (loaded : s.Loaded) (queued : s.inbound ≠ [])
    (chunk : m.chunkSize = defaultChunkSize) :
    ∃ (data : List UInt8) (s' : Script), data ≠ [] ∧ s.inbound.flatten = data ++ s'.inbound.flatten ∧
      s'.Loaded ∧ s'.delivered = s.delivered ∧
      m.readOnce s = ({ m with
        readBuffer := m.readBuffer ++ data, hasReceived := true,
        bytesReceived := m.bytesReceived + data.length }, s') := by
  obtain ⟨data, s', received, nonempty, handed, loaded', same⟩ := loaded.receive queued
  refine ⟨data, s', nonempty, handed, loaded', same, ?_⟩
  unfold readOnce
  rw [chunk, received]
  dsimp only
  rw [if_neg (by simpa using nonempty)]

theorem writeOnce_loaded (loaded : s.Loaded) (pending : m.writeBuffer ≠ [])
    (small : m.writeBuffer.length < 2 ^ 53) :
    m.writeOnce s = ({ m with
      writeBuffer := [], hasSent := true, bytesSent := m.bytesSent + m.writeBuffer.length.toFloat },
      { s with delivered := s.delivered ++ m.writeBuffer }) := by
  have positive : (0 : Float) < m.writeBuffer.length.toFloat := by
    rw [show (0 : Float) = (0 : Nat).toFloat from rfl, Number.toFloat_lt_toFloat (by norm_num) small]
    exact List.length_pos_iff.mpr pending
  unfold writeOnce
  rw [loaded.send _ small]
  dsimp only
  rw [if_pos positive, Number.sliceBound_toFloat small small, Nat.min_self, List.drop_length]

/-- A pump of an open messenger over a loaded channel that still holds chunks reads a nonempty
front part of them, writes all that is pending, and leaves the messenger open. -/
theorem pump_loaded (loaded : s.Loaded) (opened : m.closed = false)
    (chunk : m.chunkSize = defaultChunkSize) (queued : s.inbound ≠ [])
    (small : m.writeBuffer.length < 2 ^ 53) :
    ∃ (data : List UInt8) (s' : Script) (m' : Messenger), data ≠ [] ∧
      s.inbound.flatten = data ++ s'.inbound.flatten ∧ s'.Loaded ∧
      s'.delivered = s.delivered ++ m.writeBuffer ∧ m.pump s = (true, m', s') ∧ m'.closed = false ∧
      m'.readBuffer = m.readBuffer ++ data ∧ m'.writeBuffer = [] ∧ m'.chunkSize = m.chunkSize := by
  obtain ⟨data, s₁, nonempty, handed, loaded₁, same, read⟩ := readOnce_loaded loaded queued chunk
  obtain ⟨m₁, read, opened₁, grew, kept, sized⟩ : ∃ m₁ : Messenger, m.readOnce s = (m₁, s₁) ∧
      m₁.closed = false ∧ m₁.readBuffer = m.readBuffer ++ data ∧ m₁.writeBuffer = m.writeBuffer ∧
      m₁.chunkSize = m.chunkSize :=
    ⟨_, read, opened, rfl, rfl, rfl⟩
  unfold pump
  rw [if_neg (by simp [opened]), loaded.poll]
  dsimp only
  simp only [Bool.false_eq_true, if_false, if_true]
  rw [read]
  dsimp only
  by_cases pending : m.writeBuffer = []
  · -- nothing is pending, so nothing is written
    rw [if_neg (by simp [opened₁, kept, pending])]
    exact ⟨data, s₁, m₁, nonempty, handed, loaded₁, by simp [same, pending], by simp [opened₁],
      opened₁, grew, by rw [kept, pending], sized⟩
  · rw [if_pos (by simp [opened₁, kept, pending]),
      writeOnce_loaded loaded₁ (by rwa [kept]) (by rwa [kept])]
    refine ⟨data, { s₁ with delivered := s₁.delivered ++ m₁.writeBuffer }, { m₁ with
      writeBuffer := [], hasSent := true, bytesSent := m₁.bytesSent + m₁.writeBuffer.length.toFloat },
      nonempty, handed, loaded₁.withDelivered _, by simp [same, kept], by simp [opened₁], opened₁,
      grew, rfl, sized⟩

theorem delivered_close (m : Messenger) (s : Script) : (m.close s).2.delivered = s.delivered := by
  unfold close
  split <;> rfl

theorem delivered_drain (m : Messenger) (s : Script) (budget : Nat) (idle : m.writeBuffer = []) :
    (m.drain s budget).2.delivered = s.delivered := by
  have flushed : m.flush s budget = (m, s) := by
    cases budget with
    | zero => rfl
    | succ budget => simp [flush, idle]
  unfold drain
  rw [flushed]
  exact delivered_close m s

theorem pump_ended (loaded : s.Loaded) (opened : m.closed = false) (drained : s.inbound = []) :
    (m.pump s).1 = false ∧ (m.pump s).2.2.delivered = s.delivered := by
  have ended : Channel.receive s m.chunkSize = (s, .ok []) := by
    show s.receive _ = _
    simp [Script.receive, loaded.receiveError, drained, loaded.ended]
  unfold pump
  rw [if_neg (by simp [opened]), loaded.poll]
  dsimp only
  simp only [Bool.false_eq_true, if_false, if_true]
  unfold readOnce
  rw [ended]
  simp

/-- A pump with nothing pending writes nothing and leaves nothing pending. -/
theorem pump_idle (m : Messenger) (s : Script) (idle : m.writeBuffer = []) :
    (m.pump s).2.1.writeBuffer = [] ∧ (m.pump s).2.2.delivered = s.delivered := by
  -- each part of a pump keeps an empty write buffer and what the channel got
  have closing : ∀ (m : Messenger) (s : Script), m.writeBuffer = [] →
      (m.close s).1.writeBuffer = [] ∧ (m.close s).2.delivered = s.delivered := by
    intro m s idle
    exact ⟨by unfold close; split <;> exact idle, delivered_close m s⟩
  have faulting : ∀ (m : Messenger) (s : Script) (e : ChannelFault), m.writeBuffer = [] →
      (m.onFault s e).1.writeBuffer = [] ∧ (m.onFault s e).2.delivered = s.delivered := by
    intro m s e idle
    unfold onFault
    split
    · split <;> exact ⟨idle, rfl⟩
    · exact closing m s idle
  refine pump_keeps (fun q r => q.1.writeBuffer = [] → r.1.writeBuffer = [] ∧ r.2.delivered = q.2.delivered)
    (fun _ idle => ⟨idle, rfl⟩) ?_ closing ?_ ?_ m s idle
  · intro q r t first second idle
    obtain ⟨idle', same⟩ := first idle
    obtain ⟨idle'', same'⟩ := second idle'
    exact ⟨idle'', same'.trans same⟩
  · intro m s idle
    have read := Script.delivered_receive s m.chunkSize
    unfold readOnce
    split
    · next s' e handed =>
      rw [handed] at read
      obtain ⟨idle', same⟩ := faulting m s' e idle
      exact ⟨idle', same.trans read⟩
    · next s' data handed =>
      rw [handed] at read
      split <;> exact ⟨idle, read⟩
  · intro m s idle
    have written := Script.delivered_send_nil s
    unfold writeOnce
    rw [idle] at ⊢
    split
    · next s' e failed =>
      rw [failed] at written
      obtain ⟨idle', same⟩ := faulting m s' e idle
      exact ⟨idle', same.trans written⟩
    · next s' sent accepted =>
      rw [accepted] at written
      split
      · exact ⟨by simp, written⟩
      · exact ⟨idle, written⟩

section Writes

variable {μ : Type} {p : IdentityProtocol μ}

/-- A round whose pump leaves nothing pending when it leaves the messenger open delivers what
the pump delivered, when the rounds after it with nothing pending deliver nothing more. -/
theorem delivered_round (m : Messenger) (s : Script) (fuel : Nat)
    (emptied : (m.pump s).1 = true → (m.pump s).2.1.writeBuffer = [])
    (later : ∀ m' : Messenger, m'.writeBuffer = [] →
      (exchangeRounds p m' (m.pump s).2.2 fuel).2.2.delivered = (m.pump s).2.2.delivered) :
    (exchangeRounds p m s (fuel + 1)).2.2.delivered = (m.pump s).2.2.delivered := by
  rw [exchangeRounds.eq_2]
  generalize m.pump s = pumped at emptied later
  obtain ⟨open?, m', s'⟩ := pumped
  dsimp only at emptied later ⊢
  split
  · exact delivered_close m' s'
  · next stillOpen =>
    have idle : m'.writeBuffer = [] := emptied (by simpa using stillOpen)
    -- reading changes neither the write buffer nor the channel
    obtain ⟨buffer, count, kept⟩ := collect_keeps (p := p) m' (m'.readBuffer.length + 1)
    generalize m'.collect p (m'.readBuffer.length + 1) = collected at kept
    obtain ⟨ending, m''⟩ := collected
    dsimp only at kept
    have idle' : m''.writeBuffer = [] := by rw [kept]; exact idle
    cases ending with
    | identity t => exact delivered_drain m'' s' _ idle'
    | unknownType => exact delivered_close m'' s'
    | failed f => exact delivered_close m'' s'
    | waiting =>
      dsimp only
      split
      · exact delivered_close m'' s'
      · exact later m'' idle'

theorem delivered_exchangeRounds_idle (m : Messenger) (s : Script) (fuel : Nat)
    (idle : m.writeBuffer = []) : (exchangeRounds p m s fuel).2.2.delivered = s.delivered := by
  induction fuel generalizing m s with
  | zero => exact delivered_close m s
  | succ fuel ih =>
    obtain ⟨emptied, same⟩ := pump_idle m s idle
    rw [delivered_round m s fuel (fun _ => emptied) (fun m' idle' => ih m' _ idle'), same]

/-- Over a loaded channel, an exchange that runs, from an open messenger with nothing pending,
offers the channel its hello and nothing else, however it ends; a stream that ended before any
chunk gets nothing, as the first pump finds the end and closes before it writes. -/
theorem delivered_exchange {bytes : List UInt8} (encoded : p.codec.encode p.hello = .ok bytes)
    (small : bytes.length < 2 ^ 53) {s : Script} (loaded : s.Loaded) {m : Messenger}
    (opened : m.closed = false) (idle : m.writeBuffer = []) (chunk : m.chunkSize = defaultChunkSize)
    {fuel : Nat} (running : 0 < fuel) :
    (m.exchange p true s fuel).2.2.delivered = s.delivered ++ if s.inbound = [] then [] else bytes := by
  obtain ⟨fuel, rfl⟩ := Nat.exists_eq_add_one_of_ne_zero (Nat.pos_iff_ne_zero.mp running)
  unfold exchange
  rw [send_of_encode m encoded]
  dsimp only
  rw [if_pos rfl]
  have queuedHello :
      ({ m with writeBuffer := m.writeBuffer ++ bytes, messagesSent := m.messagesSent + 1 } : Messenger).closed =
        false := opened
  by_cases queued : s.inbound = []
  · -- the first pump finds the end of the stream and closes with the hello still pending
    obtain ⟨stopped, same⟩ := pump_ended loaded queuedHello queued
    rw [delivered_round _ s fuel (fun still => absurd (stopped.symm.trans still) Bool.false_ne_true)
      (fun m' idle' => delivered_exchangeRounds_idle m' _ fuel idle'), same, if_pos queued,
      List.append_nil]
  · -- the first pump reads a chunk and writes the hello whole
    obtain ⟨data, s', m', -, -, -, delivered', pumped, -, -, emptied, -⟩ :=
      pump_loaded loaded queuedHello chunk queued (by simpa [idle] using small)
    rw [delivered_round _ s fuel (fun _ => by rw [pumped]; exact emptied)
      (fun m' idle' => delivered_exchangeRounds_idle m' _ fuel idle'), pumped, if_neg queued]
    simpa [idle] using delivered'

end Writes

/-!
## Answering over a loaded channel

While the identity is still to come and every frame before it is a quiet message, each round
reads more of the stream, reads past the quiet messages, and stops either at the identity or at
an incomplete frame; so the rounds reach the identity before the stream ends.
-/

section Answers

variable {μ : Type} {p : IdentityProtocol μ}

theorem reads_of_fault (stable : p.codec.Stable) {buffer : List UInt8} {f : Fault}
    (failed : p.codec.extract buffer = .error f) (rest : List UInt8) :
    p.codec.reads (buffer ++ rest) = [.error f] :=
  Codec.reads_of_error (stable.error_append rest failed)

theorem fault_not_first {f : Fault} {pre : List (Extraction μ)} {e : Extraction μ}
    {post : List (Except Fault (Extraction μ))} : [.error f] ≠ pre.map .ok ++ .ok e :: post := by
  cases pre <;> simp

theorem failed_not_quiet {x : Extraction μ} {msg : μ} {f : Fault} (found : x.message? = some msg)
    (failed : p.describe msg = .error f) : ¬ p.Quiet x := by
  rintro ⟨msg', found', quiet⟩
  rw [found] at found'
  cases found'
  rw [failed] at quiet
  cases quiet

variable (frames : p.ReadsFrames) {t : Text} {e : Extraction μ} (describes : p.Describes e t)
include frames describes

/-- A round of reading over a stream in flight that reaches a frame describing `t` past quiet
messages stops at that frame, or else at an incomplete frame before it. -/
theorem round_reaches {buffer rest : List UInt8} {ending : RoundEnd} {last : Option (Extraction μ)}
    {pre : List (Extraction μ)} {post : List (Except Fault (Extraction μ))} (stops : Stops p buffer ending last)
    (reads : last.toList.map .ok ++ p.codec.reads (buffer ++ rest) = pre.map .ok ++ .ok e :: post)
    (quiet : ∀ q ∈ pre, p.Quiet q) :
    ending = .identity t ∨ ending = .waiting ∧ last = none ∧ p.codec.extract buffer = .ok .incomplete := by
  -- a frame the round stopped at is not quiet, so it is the frame describing `t`
  cases ending <;> cases last
  case identity.some t' x =>
    obtain ⟨same, -⟩ := IdentityProtocol.loud_first reads quiet stops.not_quiet
    subst same
    exact .inl (congrArg RoundEnd.identity (stops.eq describes))
  case waiting.some x =>
    obtain ⟨n, rfl⟩ := stops
    obtain ⟨same, -⟩ := IdentityProtocol.loud_first reads quiet (IdentityProtocol.skipped_not_quiet n)
    subst same
    obtain ⟨msg, found, -⟩ := describes
    cases found
  case failed.some f x =>
    obtain ⟨msg, found, failed⟩ := stops
    obtain ⟨same, -⟩ := IdentityProtocol.loud_first reads quiet (failed_not_quiet found failed)
    subst same
    obtain ⟨msg', found', named⟩ := describes
    rw [found] at found'
    cases found'
    rw [failed] at named
    cases named
  case waiting.none =>
    -- no frame was read off: the buffer holds an incomplete frame or a fault, and a fault ends
    -- the stream before the identity
    rcases stops with ⟨x, read, still⟩ | ⟨f, failed, -⟩
    · have incomplete : x = .incomplete := by
        by_contra moving
        have := frames.moves read moving
        omega
      exact .inr ⟨rfl, rfl, incomplete ▸ read⟩
    · rw [Option.toList_none, List.map_nil, List.nil_append, reads_of_fault frames.stable failed] at reads
      exact absurd reads fault_not_first
  case unknownType.none =>
    obtain ⟨f, failed, -⟩ := stops
    rw [Option.toList_none, List.map_nil, List.nil_append, reads_of_fault frames.stable failed] at reads
    exact absurd reads fault_not_first
  all_goals exact stops.elim

omit frames in
theorem not_reaches_of_stuck {buffer : List UInt8} {pre : List (Extraction μ)}
    {post : List (Except Fault (Extraction μ))} (stuck : p.codec.extract buffer = .ok .incomplete)
    (reads : p.codec.reads buffer = pre.map .ok ++ .ok e :: post) (quiet : ∀ q ∈ pre, p.Quiet q) :
    False := by
  rw [Codec.reads_of_stall stuck (by simp [Extraction.advance, Extraction.consumed])] at reads
  obtain ⟨same, -⟩ := IdentityProtocol.loud_first reads quiet IdentityProtocol.incomplete_not_quiet
  subst same
  obtain ⟨msg, found, -⟩ := describes
  cases found

/-- Rounds over a loaded channel, from a read buffer that holds no frame, answer the identity
that the stream in flight reaches past quiet messages. -/
theorem exchangeRounds_answers (fuel : Nat) (m : Messenger) (s : Script)
    (pre : List (Extraction μ)) (post : List (Except Fault (Extraction μ))) (loaded : s.Loaded)
    (opened : m.closed = false) (chunk : m.chunkSize = defaultChunkSize)
    (small : m.writeBuffer.length < 2 ^ 53) (stuck : p.codec.extract m.readBuffer = .ok .incomplete)
    (reads : p.codec.reads (m.readBuffer ++ s.inbound.flatten) = pre.map .ok ++ .ok e :: post)
    (quiet : ∀ q ∈ pre, p.Quiet q) (short : s.inbound.flatten.length < fuel) :
    (exchangeRounds p m s fuel).1 = .ok (some t) := by
  induction fuel generalizing m s pre with
  | zero => exact absurd short (Nat.not_lt_zero _)
  | succ fuel ih =>
    -- the channel still holds chunks: the buffer alone reads as an incomplete frame
    have queued : s.inbound ≠ [] := by
      intro empty
      rw [empty, List.flatten_nil, List.append_nil] at reads
      exact not_reaches_of_stuck describes stuck reads quiet
    obtain ⟨data, s', m', nonempty, handed, loaded', -, pumped, opened', grew, emptied, sized⟩ :=
      pump_loaded loaded opened chunk queued small
    have readsNow : p.codec.reads (m'.readBuffer ++ s'.inbound.flatten) = pre.map .ok ++ .ok e :: post := by
      rw [grew, List.append_assoc, ← handed]
      exact reads
    obtain ⟨quiets, last, readsCollect, quieted, stops⟩ :=
      collect_reads frames.stable m' _ (Nat.lt_succ_self _) s'.inbound.flatten
    obtain ⟨buffer, count, kept⟩ := collect_keeps m' (m'.readBuffer.length + 1)
    rw [readsNow, List.append_assoc] at readsCollect
    obtain ⟨pre', within, readsRest⟩ :=
      IdentityProtocol.after_quiets readsCollect.symm quieted describes.not_quiet
    have quiet' : ∀ q ∈ pre', p.Quiet q := fun q member => quiet q (within q member)
    rw [exchangeRounds.eq_2, pumped]
    dsimp only
    rw [if_neg (by simp)]
    generalize m'.collect p (m'.readBuffer.length + 1) = collected at kept readsRest stops
    obtain ⟨ending, m''⟩ := collected
    dsimp only at kept readsRest stops
    subst kept
    dsimp only at readsRest stops
    rcases round_reaches frames describes stops readsRest quiet' with rfl | ⟨rfl, rfl, read⟩
    · -- the round stopped at the identity
      rfl
    · -- the round stopped at an incomplete frame, having read some of the channel
      simp only [Option.toList_none, List.map_nil, List.nil_append] at readsRest
      have longer := Script.shorter_of_handed nonempty handed
      dsimp only
      rw [if_neg (by simp [Script.beq_eq_false_of_shorter longer])]
      exact ih { m' with readBuffer := buffer, messagesReceived := count } s' pre' loaded' opened'
        (sized.trans chunk) (by simp [emptied]) read readsRest quiet' (by omega)

variable {σ : Type} [Channel σ] [BEq σ]

omit frames describes in
/-- An exchange whose rounds answer an identity answers that of the first frame describing one
in the stream in flight. -/
theorem exchange_sound (stable : p.codec.Stable) {pending : σ → List UInt8} (hands : HandsOut pending)
    {t : Text} (running : Bool) (m : Messenger) (ch : σ) (fuel : Nat)
    (answered : (m.exchange p running ch fuel).1 = .ok (some t)) :
    ∃ (passed : List (Extraction μ)) (x : Extraction μ) (rest : List (Except Fault (Extraction μ))),
      p.codec.reads (m.readBuffer ++ pending ch) = passed.map .ok ++ .ok x :: rest ∧
        (∀ q ∈ passed, p.Passes q) ∧ p.Describes x t := by
  unfold exchange at answered
  cases encoded : p.codec.encode p.hello with
  | error f =>
    rw [send_of_encode_error m encoded] at answered
    cases answered
  | ok bytes =>
    rw [send_of_encode m encoded] at answered
    dsimp only at answered
    split at answered
    · exact exchangeRounds_sound stable hands
        { m with writeBuffer := m.writeBuffer ++ bytes, messagesSent := m.messagesSent + 1 } ch fuel answered
    · cases answered

/-- Over a loaded channel, a fresh open messenger at the default chunk size answers the identity
that the stream reaches past quiet messages, ends closed, and the channel gets the hello. -/
theorem exchange_answers {bytes : List UInt8} (encoded : p.codec.encode p.hello = .ok bytes)
    (small : bytes.length < 2 ^ 53) {s : Script} (loaded : s.Loaded) {m : Messenger}
    (opened : m.closed = false) (fresh : m.readBuffer = []) (idle : m.writeBuffer = [])
    (chunk : m.chunkSize = defaultChunkSize) {pre : List (Extraction μ)}
    {post : List (Except Fault (Extraction μ))}
    (reads : p.codec.reads s.inbound.flatten = pre.map .ok ++ .ok e :: post)
    (quiet : ∀ q ∈ pre, p.Quiet q) {fuel : Nat} (short : s.inbound.flatten.length < fuel) :
    (m.exchange p true s fuel).1 = .ok (some t) ∧ (m.exchange p true s fuel).2.1.closed = true ∧
      (m.exchange p true s fuel).2.2.delivered = s.delivered ++ bytes := by
  -- a stream that reaches an identity has a chunk, so the first pump writes the hello
  have queued : s.inbound ≠ [] := by
    intro empty
    rw [empty, List.flatten_nil] at reads
    exact not_reaches_of_stuck describes frames.empty reads quiet
  have delivered := delivered_exchange encoded small loaded opened idle chunk (Nat.zero_lt_of_lt short)
  rw [if_neg queued] at delivered
  refine ⟨?_, closed_exchange encoded true m s fuel, delivered⟩
  unfold exchange
  rw [send_of_encode m encoded]
  dsimp only
  rw [if_pos rfl]
  exact exchangeRounds_answers frames describes fuel _ s pre post loaded opened chunk
    (by simpa [idle] using small) (by simp [fresh, frames.empty]) (by simp [fresh, reads]) quiet short

end Answers

end Messenger

/-!
## The exchanges of both encodings

Both codecs read frames off a stream that arrives in parts, so over either encoding the exchange
ends closed once its hello is queued, answers only the first identity described, and answers it
whenever no skipped frame comes first.
-/

namespace JsonLines

theorem extract_of_empty_line (registry : Registry TextType) (host : Identity) {buffer : List UInt8}
    (line : buffer.idxOf? lineFeed = some 0) : extract registry host buffer = .ok .incomplete := by
  unfold extract
  rw [line]
  rfl

end JsonLines

namespace IdentityProtocol

theorem bytes_readsFrames (host : Identity) : (bytes host).ReadsFrames where
  stable := byteCodec_stable _ host
  empty := rfl
  moves {buffer} {e} read found := by
    cases frame : ByteFrames.frameEnd? buffer with
    | none =>
      have stall : (bytes host).codec.extract buffer = .ok .incomplete :=
        ByteFrames.extract_of_no_frame _ host frame
      rw [stall] at read
      cases read
      exact absurd rfl found
    | some n =>
      -- a frame uses its whole length, at least its two header bytes
      obtain ⟨total, code, body, -, rfl, long, -⟩ := ByteFrames.frameEnd_eq_some.mp frame
      have used := ByteFrames.consumed_of_frame _ host frame read
      simp only [Extraction.advance, used]
      rw [if_pos (by omega)]
      omega

theorem text_readsFrames (host : Identity) : (text host).ReadsFrames where
  stable := textCodec_stable _ host
  empty := rfl
  moves {buffer} {e} read found := by
    cases line : buffer.idxOf? JsonLines.lineFeed with
    | none =>
      have stall : (text host).codec.extract buffer = .ok .incomplete :=
        JsonLines.extract_of_no_line _ host line
      rw [stall] at read
      cases read
      exact absurd rfl found
    | some position =>
      rcases JsonLines.consumed_of_line _ host line read with same | used
      · exact absurd same found
      · -- a line that is a frame holds something before its line feed
        cases position with
        | zero =>
          have stall : (text host).codec.extract buffer = .ok .incomplete :=
            JsonLines.extract_of_empty_line _ host line
          rw [stall] at read
          cases read
          exact absurd rfl found
        | succ k =>
          simp only [Extraction.advance, used]
          rw [if_pos (by omega)]
          omega

/-- An identity that is found is described, never absent. -/
theorem map_some_ne_ok_none (found : Except Fault Text) : found.map some ≠ .ok none := by
  cases found <;> simp [Except.map]

/-- An identify message describes its identity or fails to, and every other message describes
none. -/
theorem bytes_describe_eq_none_iff (host : Identity) (msg : ByteMessage) :
    (bytes host).describe msg = .ok none ↔ msg.type ≠ .builtin .identify := by
  show msg.identity? = .ok none ↔ _
  unfold ByteMessage.identity?
  split
  · next identify => simpa [identify] using map_some_ne_ok_none msg.identity
  · next other => simpa using other

theorem text_describe_eq_none_iff (host : Identity) (msg : TextMessage) :
    (text host).describe msg = .ok none ↔ msg.type ≠ .builtin .identify := by
  show msg.identity? = .ok none ↔ _
  unfold TextMessage.identity?
  split
  · next identify => simpa [identify] using map_some_ne_ok_none _
  · next other => simpa using other

variable {μ : Type}

/-- What the identity exchange does over a protocol. A hello that fails to encode ends it at
once with the fault, the messenger and the channel left as they were; otherwise it ends with the
messenger closed. Over a channel that hands out a stream in order, an identity answered is that of
the first frame describing one, past quiet messages and skipped frames, and when no frame names an
identity the answer is none. Over a loaded scripted channel, with a fresh open messenger and fuel
beyond the stream's length, the identity that the stream reaches past quiet messages alone is
answered; and however an exchange that runs ends, the channel is offered the hello and nothing
else, unless the stream ended before any chunk and the first pump closed before writing. -/
structure Exchanges (p : IdentityProtocol μ) : Prop where
  helloFails : ∀ {σ : Type} [Channel σ] [BEq σ] (f : Fault) (running : Bool) (m : Messenger) (ch : σ)
    (fuel : Nat), p.codec.encode p.hello = .error f → m.exchange p running ch fuel = (.error f, m, ch)
  closes : ∀ {σ : Type} [Channel σ] [BEq σ] (bytes : List UInt8) (running : Bool) (m : Messenger)
    (ch : σ) (fuel : Nat), p.codec.encode p.hello = .ok bytes →
      (m.exchange p running ch fuel).2.1.closed = true
  sound : ∀ {σ : Type} [Channel σ] [BEq σ] (pending : σ → List UInt8), HandsOut pending →
    ∀ (running : Bool) (m : Messenger) (ch : σ) (fuel : Nat) (t : Text),
      (m.exchange p running ch fuel).1 = .ok (some t) →
      ∃ (passed : List (Extraction μ)) (x : Extraction μ) (rest : List (Except Fault (Extraction μ))),
        p.codec.reads (m.readBuffer ++ pending ch) = passed.map .ok ++ .ok x :: rest ∧
          (∀ q ∈ passed, p.Passes q) ∧ p.Describes x t
  answers : ∀ (bytes : List UInt8) (s : Script) (m : Messenger) (fuel : Nat)
    (pre : List (Extraction μ)) (e : Extraction μ) (post : List (Except Fault (Extraction μ)))
    (t : Text), p.codec.encode p.hello = .ok bytes → bytes.length < 2 ^ 53 → s.Loaded →
      m.closed = false → m.readBuffer = [] → m.writeBuffer = [] →
      m.chunkSize = Messenger.defaultChunkSize →
      p.codec.reads s.inbound.flatten = pre.map .ok ++ .ok e :: post → (∀ q ∈ pre, p.Quiet q) →
      p.Describes e t → s.inbound.flatten.length < fuel →
      (m.exchange p true s fuel).1 = .ok (some t) ∧ (m.exchange p true s fuel).2.1.closed = true ∧
        (m.exchange p true s fuel).2.2.delivered = s.delivered ++ bytes
  noIdentity : ∀ {σ : Type} [Channel σ] [BEq σ] (pending : σ → List UInt8), HandsOut pending →
    ∀ (bytes : List UInt8) (running : Bool) (m : Messenger) (ch : σ) (fuel : Nat),
      p.codec.encode p.hello = .ok bytes →
      (∀ x, .ok x ∈ p.codec.reads (m.readBuffer ++ pending ch) → p.Silent x) →
      (m.exchange p running ch fuel).1 = .ok none
  helloFirst : ∀ (bytes : List UInt8) (s : Script) (m : Messenger) (fuel : Nat),
    p.codec.encode p.hello = .ok bytes → bytes.length < 2 ^ 53 → s.Loaded → m.closed = false →
      m.writeBuffer = [] → m.chunkSize = Messenger.defaultChunkSize → 0 < fuel →
      (m.exchange p true s fuel).2.2.delivered = s.delivered ++ if s.inbound = [] then [] else bytes

theorem ReadsFrames.exchanges {p : IdentityProtocol μ} (frames : p.ReadsFrames) : p.Exchanges where
  helloFails _ running m ch fuel failed := Messenger.exchange_of_hello_error failed running m ch fuel
  closes _ running m ch fuel encoded := Messenger.closed_exchange encoded running m ch fuel
  sound _ hands running m ch fuel _ answered :=
    Messenger.exchange_sound frames.stable hands running m ch fuel answered
  answers _ _ _ _ _ _ _ _ encoded small loaded opened fresh idle chunk reads quiet describes short :=
    Messenger.exchange_answers frames describes encoded small loaded opened fresh idle chunk reads quiet
      short
  noIdentity _ hands _ running m ch fuel encoded silent :=
    Messenger.exchange_none frames.stable hands encoded running m ch fuel silent
  helloFirst _ _ _ _ encoded small loaded opened idle chunk running :=
    Messenger.delivered_exchange encoded small loaded opened idle chunk running

end IdentityProtocol

/-- The identity exchange over either encoding offers its hello first, ends closed once the hello
is queued, answers only the first identity the stream describes, answers it whenever no skipped
frame comes first, and answers none when no identify message is read. -/
theorem exchange_answers_first_identity (host : Identity) :
    (IdentityProtocol.bytes host).Exchanges ∧ (IdentityProtocol.text host).Exchanges ∧
      (∀ msg, (IdentityProtocol.bytes host).describe msg = .ok none ↔ msg.type ≠ .builtin .identify) ∧
      (∀ msg, (IdentityProtocol.text host).describe msg = .ok none ↔ msg.type ≠ .builtin .identify) :=
  ⟨(IdentityProtocol.bytes_readsFrames host).exchanges, (IdentityProtocol.text_readsFrames host).exchanges,
    IdentityProtocol.bytes_describe_eq_none_iff host, IdentityProtocol.text_describe_eq_none_iff host⟩

theorem eq_ok_of_toOption {ε α : Type} {r : Except ε α} {a : α} (some : r.toOption = .some a) :
    r = .ok a := by
  cases r <;> simp_all [Except.toOption]

theorem extract_a_at_b (host : Identity) (rest : List UInt8) :
    (IdentityProtocol.bytes host).codec.extract ([5, 1, 0x61, 0x40, 0x62] ++ rest) =
      .ok (.message (ByteMessage.identifyOf host (.string ⟨[0x61]⟩) (.string ⟨[0x62]⟩)) 5) := by
  have frame := ByteFrames.extract_identity_frame (Registry.empty.registerAll ByteType.builtins).1 host
    (builtin_registry_known .identify) (u := ⟨[0x61]⟩) (h := ⟨[0x62]⟩) (by decide) (by decide)
    (by decide) (by decide) rest
  have payload : ((⟨[0x61]⟩ : Text) ++ Text.ofString "@" ++ ⟨[0x62]⟩).toUtf8 = [0x61, 0x40, 0x62] := by
    decide
  rw [payload] at frame
  exact frame

theorem encode_hello (host : Identity)
    (fits : (host.username ++ Text.ofString "@" ++ host.hostname).toUtf8.length ≤ 253) :
    (IdentityProtocol.bytes host).codec.encode (IdentityProtocol.bytes host).hello =
      .ok (((host.username ++ Text.ofString "@" ++ host.hostname).toUtf8.length + 2).toUInt8 :: 1 ::
        (host.username ++ Text.ofString "@" ++ host.hostname).toUtf8) :=
  ByteFrames.encode_identifyOf host fits

theorem describes_a_at_b (host : Identity) :
    (IdentityProtocol.bytes host).Describes
      (.message (ByteMessage.identifyOf host (.string ⟨[0x61]⟩) (.string ⟨[0x62]⟩)) 5)
      (Text.ofString "a@b") := by
  have joined : (⟨[0x61]⟩ : Text) ++ Text.ofString "@" ++ ⟨[0x62]⟩ = Text.ofString "a@b" := by decide
  refine ⟨_, rfl, ?_⟩
  simp [IdentityProtocol.bytes, ByteMessage.identity?, ByteMessage.identity, ByteMessage.identifyOf_strings,
    ByteMessage.get?, ByteMessage.get_username, ByteMessage.get_hostname,
    ByteMessage.identityText_strings, joined, Except.map]

/-- The identity `a@b` in one chunk before the end of the stream is answered, with the hello
written first. -/
theorem identity_in_one_chunk_answered :
    let host : Identity := ⟨Text.ofString "user", Text.ofString "host"⟩
    let s : Script := { Script.between (.str "10.0.0.1") (.str "10.0.0.2") with
      inbound := [[5, 1, 0x61, 0x40, 0x62]], ended := true }
    let m : Messenger := ⟨.str "10.0.0.1", .str "10.0.0.2", Messenger.defaultChunkSize, [], [], false,
      0, 0, 0, 0, false, false⟩
    (∃ x : Extraction ByteMessage, (IdentityProtocol.bytes host).codec.reads s.inbound.flatten =
        [.ok x, .ok .incomplete] ∧ (IdentityProtocol.bytes host).Describes x (Text.ofString "a@b")) ∧
      (m.exchange (IdentityProtocol.bytes host) true s (s.exchangeFuel m)).1 =
        .ok (some (Text.ofString "a@b")) ∧
      (m.exchange (IdentityProtocol.bytes host) true s (s.exchangeFuel m)).2.1.closed = true := by
  intro host s m
  have hello := encode_hello host (by decide)
  have loaded : s.Loaded := ⟨rfl, rfl, rfl, rfl, rfl, rfl, rfl, by simp [s], by decide⟩
  have read : (IdentityProtocol.bytes host).codec.reads s.inbound.flatten =
      [.ok (.message (ByteMessage.identifyOf host (.string ⟨[0x61]⟩) (.string ⟨[0x62]⟩)) 5), .ok .incomplete] := by
    show (IdentityProtocol.bytes host).codec.reads ([5, 1, 0x61, 0x40, 0x62] ++ []) = _
    rw [Codec.reads_frame [] (extract_a_at_b host []) rfl (by simp),
      Codec.reads_of_stall (IdentityProtocol.bytes_readsFrames host).empty rfl]
  obtain ⟨answered, closed, -⟩ := (exchange_answers_first_identity host).1.answers _ s m
    (s.exchangeFuel m) [] _ [.ok .incomplete] _ hello (by decide) loaded rfl rfl rfl rfl read (by simp)
    (describes_a_at_b host) (by decide)
  exact ⟨⟨_, read, describes_a_at_b host⟩, answered, closed⟩

/-- A frame skipped for want of an `@`, then the identity `a@b`, in one chunk before the end of
the stream: the round that reads the chunk stops at the skipped frame, the next pump finds the end
of the stream, and no identity is answered although the stream describes one. -/
theorem skipped_frame_then_end_loses_identity :
    let host : Identity := ⟨Text.ofString "user", Text.ofString "host"⟩
    let s : Script := { Script.between (.str "10.0.0.1") (.str "10.0.0.2") with
      inbound := [[3, 1, 0x61, 5, 1, 0x61, 0x40, 0x62]], ended := true }
    let m : Messenger := ⟨.str "10.0.0.1", .str "10.0.0.2", Messenger.defaultChunkSize, [], [], false,
      0, 0, 0, 0, false, false⟩
    (∃ x : Extraction ByteMessage, (IdentityProtocol.bytes host).codec.reads s.inbound.flatten =
        [.ok (.skipped 3), .ok x, .ok .incomplete] ∧
        (IdentityProtocol.bytes host).Describes x (Text.ofString "a@b")) ∧
      (m.exchange (IdentityProtocol.bytes host) true s (s.exchangeFuel m)).1 = .ok none := by
  intro host s m
  have hello := encode_hello host (by decide)
  have skip : (IdentityProtocol.bytes host).codec.extract [3, 1, 0x61, 5, 1, 0x61, 0x40, 0x62] =
      .ok (.skipped 3) := rfl
  have read : (IdentityProtocol.bytes host).codec.reads s.inbound.flatten =
      [.ok (.skipped 3),
        .ok (.message (ByteMessage.identifyOf host (.string ⟨[0x61]⟩) (.string ⟨[0x62]⟩)) 5),
        .ok .incomplete] := by
    show (IdentityProtocol.bytes host).codec.reads [3, 1, 0x61, 5, 1, 0x61, 0x40, 0x62] = _
    rw [Codec.reads_of_advance skip (by decide) (by simp)]
    show _ :: (IdentityProtocol.bytes host).codec.reads ([5, 1, 0x61, 0x40, 0x62] ++ []) = _
    rw [Codec.reads_frame [] (extract_a_at_b host []) rfl (by simp),
      Codec.reads_of_stall (IdentityProtocol.bytes_readsFrames host).empty rfl]
  refine ⟨⟨_, read, describes_a_at_b host⟩, ?_⟩
  unfold Messenger.exchange
  rw [Messenger.send_of_encode m hello]
  exact eq_ok_of_toOption (by decide +kernel)

end PeerMessaging
