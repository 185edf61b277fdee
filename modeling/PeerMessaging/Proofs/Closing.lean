import PeerMessaging.Proofs.Sending
import PeerMessaging.Proofs.FloatFields
/-!
Closing a messenger. A messenger closes in one of seven ways: a call of `close` or `drain`, a
failed poll, a channel that reports an error, a read or write that fails otherwise than with a
connection error, the end of the stream, or a connection error other than an operation that would
block. The first five shut the channel down, the last two do not. Closing is final: every call
keeps a closed messenger closed, and a pump on it touches nothing. So whatever the channel does
and whatever the calls, the channel is shut down once when the first closing shuts it down, and
never otherwise. A drain pumps while bytes are pending and the messenger is open, at most as many
times as there are whole numbers below its budget, and then closes.
-/

namespace PeerMessaging

/-- What closes a messenger. -/
inductive Closing where
  /-- A call of `close`. -/
  | closeCall
  /-- A drain that ends with the messenger still open. -/
  | drainCall
  /-- A poll that fails. -/
  | pollFailed
  /-- A poll that reports the channel in error. -/
  | channelErrored
  /-- A read or write that fails otherwise than with a connection error. -/
  | ioFailed
  /-- A read that finds the end of the stream. -/
  | endOfStream
  /-- A read or write that fails with a connection error other than a blocked operation. -/
  | connectionLost
  deriving DecidableEq

namespace Closing

def shutsDown : Closing → Bool
  | endOfStream | connectionLost => false
  | _ => true

def ofFault : ChannelFault → Option Closing
  | .plain => some .ioFailed
  | .coded code => if code == Text.ofString "EAGAIN" then none else some .connectionLost

end Closing

/-- A channel that counts its shutdowns: a shutdown adds one, and reads and writes add none. -/
structure CountsShutdowns {σ : Type} [Channel σ] (shutdowns : σ → Nat) : Prop where
  shutdown : ∀ ch : σ, shutdowns (Channel.shutdown ch) = shutdowns ch + 1
  receive : ∀ (ch : σ) (size : Float), shutdowns (Channel.receive ch size).1 = shutdowns ch
  send : ∀ (ch : σ) (data : List UInt8), shutdowns (Channel.send ch data).1 = shutdowns ch

theorem Script.countsShutdowns : CountsShutdowns Script.shutdowns where
  shutdown _ := rfl
  receive s size := by
    show (s.receive size).1.shutdowns = s.shutdowns
    unfold Script.receive
    split
    · rfl
    · split
      · rfl
      · split <;> rfl
  send s data := by
    show (s.send data).1.shutdowns = s.shutdowns
    unfold Script.send
    split <;> rfl

/-- A call a messenger's user makes. -/
inductive Action (μ : Type) where
  | pump
  | receive
  | send (msg : μ)
  | close
  | drain (budget : Float)

namespace Messenger

variable {σ μ : Type} [Channel σ]

def act (codec : Codec μ) : Action μ → Messenger → σ → Messenger × σ
  | .pump, m, ch => (m.pump ch).2
  | .receive, m, ch => ((m.receive codec).2, ch)
  | .send msg, m, ch => ((m.send codec msg).toOption.getD m, ch)
  | .close, m, ch => m.close ch
  | .drain budget, m, ch => m.drain ch (attemptsBelow budget)

def perform (codec : Codec μ) : List (Action μ) → Messenger → σ → Messenger × σ
  | [], m, ch => (m, ch)
  | a :: actions, m, ch => perform codec actions (m.act codec a ch).1 (m.act codec a ch).2

/-!
## How each operation closes

Each operation on an open messenger closes it in at most one way, read off what the channel
answers. A pump closes through its poll, else through its read, else through its write.
-/

def readClosing (m : Messenger) (ch : σ) : Option Closing :=
  match (Channel.receive ch m.chunkSize).2 with
  | .error e => Closing.ofFault e
  | .ok data => if data.isEmpty then some .endOfStream else none

def writeClosing (m : Messenger) (ch : σ) : Option Closing :=
  match (Channel.send ch m.writeBuffer).2 with
  | .error e => Closing.ofFault e
  | .ok _ => none

/-- The closing a pump of an open messenger causes, if any. -/
def pumpClosing (m : Messenger) (ch : σ) : Option Closing :=
  match Channel.poll ch with
  | .error _ => some .pollFailed
  | .ok r =>
    if r.errored then some .channelErrored
    else if r.readable then
      (m.readClosing ch).or
        (if r.writable && !(m.readOnce ch).1.writeBuffer.isEmpty then
          (m.readOnce ch).1.writeClosing (m.readOnce ch).2
        else none)
    else if r.writable && !m.writeBuffer.isEmpty then m.writeClosing ch
    else none

def flushClosing (m : Messenger) (ch : σ) : Nat → Option Closing
  | 0 => none
  | budget + 1 =>
    if !m.closed && !m.writeBuffer.isEmpty then
      (m.pumpClosing ch).or ((m.pump ch).2.1.flushClosing (m.pump ch).2.2 budget)
    else none

def actionClosing : Action μ → Messenger → σ → Option Closing
  | .pump, m, ch => m.pumpClosing ch
  | .receive, _, _ => none
  | .send _, _, _ => none
  | .close, _, _ => some .closeCall
  | .drain budget, m, ch => (m.flushClosing ch (attemptsBelow budget)).or (some .drainCall)

def firstClosing (codec : Codec μ) : List (Action μ) → Messenger → σ → Option Closing
  | [], _, _ => none
  | a :: actions, m, ch =>
    if m.closed then none
    else (actionClosing a m ch).or (firstClosing codec actions (m.act codec a ch).1 (m.act codec a ch).2)

/-!
## Closed is final

A pump, a close and a drain of a closed messenger leave it and the channel as they are; a read
and a send leave the channel and the flag.
-/

@[simp] theorem closed_receive (codec : Codec μ) (m : Messenger) :
    (m.receive codec).2.closed = m.closed := by
  rcases receive_cases codec m with same | ⟨e, -, -, moved⟩
  · rw [same]
  · rw [moved]

@[simp] theorem closed_send (codec : Codec μ) (msg : μ) (m : Messenger) :
    ((m.send codec msg).toOption.getD m).closed = m.closed := by
  cases encoded : codec.encode msg with
  | error f => simp [send_of_encode_error m encoded, Except.toOption]
  | ok bytes => simp [send_of_encode m encoded, Except.toOption]

theorem flush_of_closed {m : Messenger} (ch : σ) (closed : m.closed = true) (budget : Nat) :
    m.flush ch budget = (m, ch) := by
  cases budget with
  | zero => rfl
  | succ budget => simp [flush, closed]

theorem act_of_closed (codec : Codec μ) (a : Action μ) {m : Messenger} (ch : σ)
    (closed : m.closed = true) :
    (m.act codec a ch).1.closed = true ∧ (m.act codec a ch).2 = ch := by
  cases a with
  | pump => simp [act, pump_of_closed ch closed, closed]
  | receive => simp [act, closed]
  | send msg => simp [act, closed]
  | close => simp [act, close_of_closed ch closed, closed]
  | drain budget => simp [act, drain, flush_of_closed ch closed, close_of_closed ch closed, closed]

theorem perform_of_closed (codec : Codec μ) (actions : List (Action μ)) {m : Messenger} (ch : σ)
    (closed : m.closed = true) :
    (m.perform codec actions ch).1.closed = true ∧ (m.perform codec actions ch).2 = ch := by
  induction actions generalizing m ch with
  | nil => exact ⟨closed, rfl⟩
  | cons a actions ih =>
    obtain ⟨stillClosed, same⟩ := act_of_closed codec a ch closed
    have rest := ih (m.act codec a ch).2 stillClosed
    simp only [perform]
    rw [same] at rest ⊢
    exact rest

theorem pump_answer (m : Messenger) (ch : σ) : (m.pump ch).1 = !(m.pump ch).2.1.closed := by
  unfold pump
  split
  · next closed => simp [closed]
  · split
    · simp
    · split
      · simp
      · rfl

/-!
## One step closes in at most one way

From an open messenger, a step closes it exactly when it has a closing, and adds one shutdown
exactly when that closing shuts the channel down.
-/

section Steps

variable {shutdowns : σ → Nat}

/-- From `before` to `after`, the messenger closed as `closing` says, and the channel was shut
down once if the closing shuts it down. -/
def ClosesAs (shutdowns : σ → Nat) (closing : Option Closing) (before after : Messenger × σ) : Prop :=
  after.1.closed = closing.isSome ∧
    shutdowns after.2 = shutdowns before.2 + if closing.any Closing.shutsDown then 1 else 0

omit [Channel σ] in
theorem ClosesAs.after_open {closing : Option Closing} {p q r : Messenger × σ}
    (first : ClosesAs shutdowns none p q) (second : ClosesAs shutdowns closing q r) :
    ClosesAs shutdowns closing p r := by
  obtain ⟨-, kept⟩ := first
  obtain ⟨closed, counted⟩ := second
  refine ⟨closed, ?_⟩
  rw [counted, kept]
  simp

omit [Channel σ] in
theorem closesAs_none {m m' : Messenger} {ch ch' : σ} (opened : m'.closed = false)
    (kept : shutdowns ch' = shutdowns ch) : ClosesAs shutdowns none (m, ch) (m', ch') :=
  ⟨opened, by simp [kept]⟩

variable (counts : CountsShutdowns shutdowns)
include counts

theorem closesAs_close {m : Messenger} (ch : σ) (opened : m.closed = false) {c : Closing}
    (shuts : c.shutsDown = true) : ClosesAs shutdowns (some c) (m, ch) (m.close ch) := by
  simp [ClosesAs, close, opened, counts.shutdown ch, shuts]

theorem closesAs_onFault {m : Messenger} (ch : σ) (opened : m.closed = false) (e : ChannelFault) :
    ClosesAs shutdowns (Closing.ofFault e) (m, ch) (m.onFault ch e) := by
  cases e with
  | plain => exact closesAs_close counts ch opened rfl
  | coded code =>
    by_cases blocked : code == Text.ofString "EAGAIN"
    · simp [ClosesAs, onFault, Closing.ofFault, blocked, opened]
    · simp [ClosesAs, onFault, Closing.ofFault, blocked, Closing.shutsDown]

theorem closesAs_readOnce {m : Messenger} (ch : σ) (opened : m.closed = false) :
    ClosesAs shutdowns (m.readClosing ch) (m, ch) (m.readOnce ch) := by
  have kept := counts.receive ch m.chunkSize
  unfold readOnce readClosing
  generalize Channel.receive ch m.chunkSize = answer at kept ⊢
  obtain ⟨ch', result⟩ := answer
  dsimp only at kept
  cases result with
  | error e =>
    obtain ⟨closed, counted⟩ := closesAs_onFault counts ch' opened e
    exact ⟨closed, by rw [counted, kept]⟩
  | ok data =>
    dsimp only
    split
    · simp [ClosesAs, kept, Closing.shutsDown]
    · simp [ClosesAs, kept, opened]

theorem closesAs_writeOnce {m : Messenger} (ch : σ) (opened : m.closed = false) :
    ClosesAs shutdowns (m.writeClosing ch) (m, ch) (m.writeOnce ch) := by
  have kept := counts.send ch m.writeBuffer
  unfold writeOnce writeClosing
  generalize Channel.send ch m.writeBuffer = answer at kept ⊢
  obtain ⟨ch', result⟩ := answer
  dsimp only at kept
  cases result with
  | error e =>
    obtain ⟨closed, counted⟩ := closesAs_onFault counts ch' opened e
    exact ⟨closed, by rw [counted, kept]⟩
  | ok sent =>
    dsimp only
    split <;> simp [ClosesAs, kept, opened]

theorem closesAs_write_step {m : Messenger} (ch : σ) (opened : m.closed = false) (writable : Bool) :
    ClosesAs shutdowns (if writable && !m.writeBuffer.isEmpty then m.writeClosing ch else none) (m, ch)
      (if (!m.closed && writable && !m.writeBuffer.isEmpty) = true then m.writeOnce ch else (m, ch)) := by
  by_cases writes : (writable && !m.writeBuffer.isEmpty) = true
  · have go : (!m.closed && writable && !m.writeBuffer.isEmpty) = true := by
      simp only [opened, Bool.not_false, Bool.true_and]
      exact writes
    rw [if_pos writes, if_pos go]
    exact closesAs_writeOnce counts ch opened
  · have stay : ¬ (!m.closed && writable && !m.writeBuffer.isEmpty) = true := by
      simp only [opened, Bool.not_false, Bool.true_and]
      exact writes
    rw [if_neg writes, if_neg stay]
    exact closesAs_none opened rfl

theorem closesAs_pump {m : Messenger} (ch : σ) (opened : m.closed = false) :
    ClosesAs shutdowns (m.pumpClosing ch) (m, ch) (m.pump ch).2 := by
  unfold pump pumpClosing
  rw [if_neg (by simp [opened])]
  generalize Channel.poll ch = polled
  cases polled with
  | error _ => exact closesAs_close counts ch opened rfl
  | ok r =>
    dsimp only
    by_cases errored : r.errored = true
    · rw [if_pos errored, if_pos errored]
      exact closesAs_close counts ch opened rfl
    rw [if_neg errored, if_neg errored]
    by_cases readable : r.readable = true
    · -- the read closes the messenger, or leaves it open for the write
      rw [if_pos readable, if_pos readable]
      have read := closesAs_readOnce counts ch opened
      cases closing : m.readClosing ch with
      | some c =>
        rw [closing] at read
        have closed : (m.readOnce ch).1.closed = true := by simpa using read.1
        simp only [Option.some_or, closed, Bool.not_true, Bool.false_and, Bool.false_eq_true,
          if_false]
        exact read
      | none =>
        rw [closing] at read
        have stillOpen : (m.readOnce ch).1.closed = false := by simpa using read.1
        rw [Option.none_or]
        exact read.after_open (closesAs_write_step counts (m.readOnce ch).2 stillOpen r.writable)
    · rw [if_neg readable, if_neg readable]
      exact closesAs_write_step counts ch opened r.writable

theorem closesAs_flush (budget : Nat) {m : Messenger} (ch : σ) (opened : m.closed = false) :
    ClosesAs shutdowns (m.flushClosing ch budget) (m, ch) (m.flush ch budget) := by
  induction budget generalizing m ch with
  | zero => exact closesAs_none opened rfl
  | succ budget ih =>
    unfold flush flushClosing
    split
    · -- one pump, which either closes the messenger and ends the drain's pumping, or not
      have pumped := closesAs_pump counts ch opened
      cases closing : m.pumpClosing ch with
      | some c =>
        rw [closing] at pumped
        have closed : (m.pump ch).2.1.closed = true := by simpa using pumped.1
        simp only [Option.some_or, flush_of_closed _ closed]
        exact pumped
      | none =>
        rw [closing] at pumped
        have stillOpen : (m.pump ch).2.1.closed = false := by simpa using pumped.1
        simp only [Option.none_or]
        exact pumped.after_open (ih (m.pump ch).2.2 stillOpen)
    · exact closesAs_none opened rfl

theorem closesAs_drain (budget : Nat) {m : Messenger} (ch : σ) (opened : m.closed = false) :
    ClosesAs shutdowns ((m.flushClosing ch budget).or (some .drainCall)) (m, ch)
      (m.drain ch budget) := by
  have flushed := closesAs_flush counts budget ch opened
  unfold drain
  generalize m.flush ch budget = after at flushed ⊢
  obtain ⟨m', ch'⟩ := after
  dsimp only
  cases closing : m.flushClosing ch budget with
  | some c =>
    -- a pump closed the messenger, so the closing call does nothing
    rw [closing] at flushed
    have closed : m'.closed = true := by simpa using flushed.1
    rw [Option.some_or, close_of_closed _ closed]
    exact flushed
  | none =>
    rw [closing] at flushed
    have stillOpen : m'.closed = false := by simpa using flushed.1
    rw [Option.none_or]
    exact flushed.after_open (closesAs_close counts _ stillOpen rfl)

theorem closesAs_act (codec : Codec μ) (a : Action μ) {m : Messenger} (ch : σ)
    (opened : m.closed = false) :
    ClosesAs shutdowns (actionClosing a m ch) (m, ch) (m.act codec a ch) := by
  cases a with
  | pump => exact closesAs_pump counts ch opened
  | receive => exact closesAs_none (by simp [opened]) rfl
  | send msg => exact closesAs_none (by simp [opened]) rfl
  | close => exact closesAs_close counts ch opened rfl
  | drain budget => exact closesAs_drain counts _ ch opened

/-- Over a run from an open messenger, the messenger ends closed exactly when some call closed
it, and the channel was shut down once when the first closing shuts it down, never otherwise. -/
theorem closesAs_perform (codec : Codec μ) (actions : List (Action μ)) {m : Messenger} (ch : σ)
    (opened : m.closed = false) :
    ClosesAs shutdowns (firstClosing codec actions m ch) (m, ch) (m.perform codec actions ch) := by
  induction actions generalizing m ch with
  | nil => exact closesAs_none opened rfl
  | cons a actions ih =>
    have step := closesAs_act counts codec a ch opened
    simp only [firstClosing, opened, Bool.false_eq_true, if_false]
    cases closing : actionClosing a m ch with
    | some c =>
      -- the call closed the messenger; the calls after it touch nothing
      rw [closing] at step
      have closed : (m.act codec a ch).1.closed = true := by simpa using step.1
      obtain ⟨stillClosed, same⟩ := perform_of_closed codec actions (m.act codec a ch).2 closed
      rw [Option.some_or]
      refine ⟨stillClosed, ?_⟩
      show shutdowns ((m.act codec a ch).1.perform codec actions (m.act codec a ch).2).2 = _
      rw [same, step.2]
    | none =>
      rw [closing] at step
      have stillOpen : (m.act codec a ch).1.closed = false := by simpa using step.1
      rw [Option.none_or]
      exact step.after_open (ih (m.act codec a ch).2 stillOpen)

end Steps

/-!
## A blocked operation changes nothing

A read or write that the channel answers with `EAGAIN` leaves the messenger as it was.
-/

theorem onFault_wouldBlock (m : Messenger) (ch : σ) : m.onFault ch ChannelFault.wouldBlock = (m, ch) := by
  simp [onFault, ChannelFault.wouldBlock]

theorem readOnce_of_wouldBlock {m : Messenger} {ch ch' : σ}
    (blocked : Channel.receive ch m.chunkSize = (ch', .error (.coded (Text.ofString "EAGAIN")))) :
    m.readOnce ch = (m, ch') := by
  simp only [readOnce, blocked]
  exact onFault_wouldBlock m ch'

theorem writeOnce_of_wouldBlock {m : Messenger} {ch ch' : σ}
    (blocked : Channel.send ch m.writeBuffer = (ch', .error (.coded (Text.ofString "EAGAIN")))) :
    m.writeOnce ch = (m, ch') := by
  simp only [writeOnce, blocked]
  exact onFault_wouldBlock m ch'

/-!
## Draining

A drain's pumps are the first pumps of the messenger: it goes on while the messenger is open with
bytes pending and the budget lasts, and stops at the first pump after which either fails.
-/

/-- The pumps of a drain are its first `j` pumps, for a `j` within the budget: every pump before
the `j`-th found the messenger open with bytes pending, and when the budget was not spent the
`j`-th found it closed or with nothing pending. -/
theorem flush_eq_pumps (m : Messenger) (ch : σ) (budget : Nat) :
    ∃ j ≤ budget, m.flush ch budget = m.pumps ch j ∧
      (∀ i < j, (m.pumps ch i).1.closed = false ∧ (m.pumps ch i).1.writeBuffer ≠ []) ∧
      (j < budget → (m.pumps ch j).1.closed = true ∨ (m.pumps ch j).1.writeBuffer = []) := by
  induction budget generalizing m ch with
  | zero => exact ⟨0, le_refl 0, rfl, fun i below => absurd below (Nat.not_lt_zero i),
      fun below => absurd below (Nat.lt_irrefl 0)⟩
  | succ budget ih =>
    by_cases going : (!m.closed && !m.writeBuffer.isEmpty) = true
    · obtain ⟨j, within, flushed, before, stop⟩ := ih (m.pump ch).2.1 (m.pump ch).2.2
      have pending : m.closed = false ∧ m.writeBuffer ≠ [] := by simpa using going
      refine ⟨j + 1, by omega, ?_, ?_, fun below => stop (by omega)⟩
      · rw [flush, if_pos going]
        exact flushed
      · intro i below
        cases i with
        | zero => exact pending
        | succ i => exact before i (by omega)
    · have stopped : m.closed = true ∨ m.writeBuffer = [] := by
        simpa [Bool.not_eq_true, or_iff_not_imp_left] using going
      refine ⟨0, by omega, ?_, fun i below => absurd below (Nat.not_lt_zero i), fun _ => stopped⟩
      rw [flush, if_neg going]
      rfl

theorem drain_eq_pumps (m : Messenger) (ch : σ) (budget : Nat) :
    ∃ j ≤ budget, m.drain ch budget = (m.pumps ch j).1.close (m.pumps ch j).2 ∧
      (∀ i < j, (m.pumps ch i).1.closed = false ∧ (m.pumps ch i).1.writeBuffer ≠ []) ∧
      (j < budget → (m.pumps ch j).1.closed = true ∨ (m.pumps ch j).1.writeBuffer = []) := by
  obtain ⟨j, within, flushed, before, stop⟩ := flush_eq_pumps m ch budget
  refine ⟨j, within, ?_, before, stop⟩
  rw [drain, flushed]

theorem closed_drain (m : Messenger) (ch : σ) (budget : Nat) : (m.drain ch budget).1.closed = true :=
  closed_close _ _

end Messenger

namespace Number

def value (x : Float) : ℚ :=
  (if isNegative x then -1 else 1) * significand x * 2 ^ exponent x

/-- Dividing by a power of two and rounding up is adding one less than the power before dividing. -/
theorem ceil_div_two_pow (s k : Nat) :
    ⌈(s : ℚ) * 2 ^ (-(k : Int))⌉ = (((s + Nat.pow 2 k - 1) / Nat.pow 2 k : Nat) : Int) := by
  have positive : 0 < Nat.pow 2 k := Nat.two_pow_pos k
  have scale : ((2 : ℚ) ^ (-(k : Int))) = 1 / (Nat.pow 2 k : Nat) := by
    rw [zpow_neg, zpow_natCast, Nat.pow_eq]
    push_cast
    rw [one_div]
  have denominator : (0 : ℚ) < (Nat.pow 2 k : Nat) := by exact_mod_cast positive
  -- the quotient `c` rounded up: `c · 2^k` is at least `s` and falls short of `s + 2^k`
  have exceeds := Nat.lt_div_mul_add (a := s + Nat.pow 2 k - 1) positive
  have under := Nat.div_mul_le_self (s + Nat.pow 2 k - 1) (Nat.pow 2 k)
  generalize (s + Nat.pow 2 k - 1) / Nat.pow 2 k = c at exceeds under ⊢
  have above : s ≤ c * Nat.pow 2 k := by omega
  have below : c * Nat.pow 2 k + 1 ≤ s + Nat.pow 2 k := by omega
  rw [scale, mul_one_div, Int.ceil_eq_iff]
  constructor
  · rw [lt_div_iff₀ denominator]
    have : ((c * Nat.pow 2 k + 1 : Nat) : ℚ) ≤ (s + Nat.pow 2 k : Nat) := by exact_mod_cast below
    push_cast at this ⊢
    linarith
  · rw [div_le_iff₀ denominator]
    exact_mod_cast above

theorem ceilPart_eq_ceil (x : Float) :
    (ceilPart x : Int) = ⌈(significand x : ℚ) * 2 ^ exponent x⌉ := by
  unfold ceilPart
  generalize exponent x = q
  split
  · next nonnegative =>
    obtain ⟨k, rfl⟩ := Int.eq_ofNat_of_zero_le nonnegative
    rw [zpow_natCast, Int.toNat_natCast, Nat.pow_eq]
    exact_mod_cast (Int.ceil_natCast (significand x * 2 ^ k)).symm
  · next negative =>
    obtain ⟨k, rfl⟩ := Int.exists_eq_neg_ofNat (Int.le_of_lt (Int.not_le.mp negative))
    rw [neg_neg, Int.toNat_natCast, ceil_div_two_pow]

end Number

namespace Messenger

theorem attemptsBelow_of_nan {budget : Float} (nan : budget.isNaN = true) :
    attemptsBelow budget = 0 := by
  simp only [attemptsBelow, nan, Bool.true_or, if_true]

theorem attemptsBelow_of_negative {budget : Float} (negative : Number.isNegative budget = true) :
    attemptsBelow budget = 0 := by
  simp [attemptsBelow, negative]

/-- A finite budget allows as many pumps as its ceiling, and none when that is not positive. -/
theorem attemptsBelow_eq_ceil {budget : Float} (finite : budget.isFinite = true) :
    (attemptsBelow budget : Int) = max 0 ⌈Number.value budget⌉ := by
  have notNaN := (Number.not_nan_of_isFinite budget finite).1
  have scaled : (0 : ℚ) ≤ Number.significand budget * 2 ^ Number.exponent budget := by positivity
  unfold attemptsBelow Number.value
  rw [notNaN, Bool.false_or]
  cases negative : Number.isNegative budget
  · simp only [Bool.false_eq_true, if_false, one_mul]
    rw [Number.ceilPart_eq_ceil, max_eq_right (Int.ceil_nonneg scaled)]
  · have nonpositive : ⌈(-1 : ℚ) * Number.significand budget * 2 ^ Number.exponent budget⌉ ≤ 0 := by
      rw [Int.ceil_le, mul_assoc]
      push_cast
      linarith
    simp only [if_true, Nat.cast_zero]
    rw [max_eq_left nonpositive]

end Messenger

end PeerMessaging
