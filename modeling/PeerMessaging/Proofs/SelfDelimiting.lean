import PeerMessaging.Proofs.ByteFrames
import PeerMessaging.Proofs.TextFrames
/-!
Frames that delimit themselves. Each codec tells from the front of a buffer alone where the frame
there ends: a byte frame at the count in its length byte, a text frame just past its first line
feed. Reading depends on that frame and nothing else: bytes after it change nothing, a buffer
without a whole frame reads as incomplete, and a read moves exactly past the frame or not at all.
-/

namespace PeerMessaging

namespace Codec

variable {μ : Type}

/-- A codec whose frames delimit themselves, where `frameEnd` tells how far the frame at the front
of a buffer reaches, when the buffer holds a whole one. -/
structure Delimits (codec : Codec μ) (frameEnd : List UInt8 → Option Nat) : Prop where
  /-- Bytes after a whole frame change nothing. -/
  append : ∀ {buffer : List UInt8} {n : Nat} (more : List UInt8), frameEnd buffer = some n →
    codec.extract (buffer ++ more) = codec.extract buffer
  /-- A read looks at nothing past the frame. -/
  take : ∀ {buffer : List UInt8} {n : Nat}, frameEnd buffer = some n →
    codec.extract (buffer.take n) = codec.extract buffer
  /-- Without a whole frame nothing is read. -/
  incomplete : ∀ {buffer : List UInt8}, frameEnd buffer = none →
    codec.extract buffer = .ok .incomplete
  /-- A read moves exactly past its frame, or not at all. -/
  advance : ∀ {buffer : List UInt8} {e : Extraction μ}, codec.extract buffer = .ok e →
    e.advance codec.terminator = 0 ∨ frameEnd buffer = some (e.advance codec.terminator)
  /-- A frame lies inside its buffer. -/
  within : ∀ {buffer : List UInt8} {n : Nat}, frameEnd buffer = some n → n ≤ buffer.length

variable {codec : Codec μ} {frameEnd : List UInt8 → Option Nat}

variable (frameEnd) in
theorem extract_take_of_append
    (append : ∀ {buffer : List UInt8} {n : Nat} (more : List UInt8), frameEnd buffer = some n →
      codec.extract (buffer ++ more) = codec.extract buffer)
    (cut : ∀ {buffer : List UInt8} {n : Nat}, frameEnd buffer = some n →
      frameEnd (buffer.take n) = some n)
    {buffer : List UInt8} {n : Nat} (frame : frameEnd buffer = some n) :
    codec.extract (buffer.take n) = codec.extract buffer := by
  calc codec.extract (buffer.take n)
      = codec.extract (buffer.take n ++ buffer.drop n) := (append _ (cut frame)).symm
    _ = codec.extract buffer := by rw [List.take_append_drop]

theorem Delimits.advance_le (delimits : codec.Delimits frameEnd) {buffer : List UInt8}
    {e : Extraction μ} (read : codec.extract buffer = .ok e) :
    e.advance codec.terminator ≤ buffer.length := by
  rcases delimits.advance read with still | frame
  · omega
  · exact delimits.within frame

end Codec

/-!
## Byte frames

A byte frame ends where its length byte says, once that many bytes have arrived and the length
covers at least the header.
-/

namespace ByteFrames

def frameEnd? (buffer : List UInt8) : Option Nat :=
  match buffer.head? with
  | some total => if 2 ≤ total.toNat ∧ total.toNat ≤ buffer.length then some total.toNat else none
  | none => none

theorem frameEnd_eq_some {buffer : List UInt8} {n : Nat} :
    frameEnd? buffer = some n ↔
      ∃ total code body, buffer = total :: code :: body ∧ total.toNat = n ∧ 2 ≤ n ∧
        n ≤ body.length + 2 := by
  constructor
  · intro frame
    match buffer, frame with
    | total :: rest, frame =>
      simp only [frameEnd?, List.head?_cons, List.length_cons] at frame
      split at frame
      · next bounds =>
        cases frame
        obtain ⟨code, body, rfl⟩ : ∃ code body, rest = code :: body := by
          cases rest with
          | nil => simp at bounds; omega
          | cons code body => exact ⟨code, body, rfl⟩
        exact ⟨total, code, body, rfl, rfl, bounds.1, by simpa using bounds.2⟩
      · cases frame
  · rintro ⟨total, code, body, rfl, rfl, long, fits⟩
    simp [frameEnd?, long, fits]

theorem frameEnd_eq_none {buffer : List UInt8} :
    frameEnd? buffer = none ↔
      buffer = [] ∨ ∃ total rest, buffer = total :: rest ∧
        (total.toNat < 2 ∨ total.toNat > rest.length + 1) := by
  match buffer with
  | [] => simp [frameEnd?]
  | total :: rest =>
    simp only [frameEnd?, List.head?_cons, List.length_cons, reduceCtorEq, List.cons.injEq,
      false_or]
    constructor
    · intro none
      refine ⟨total, rest, ⟨rfl, rfl⟩, ?_⟩
      split at none
      · cases none
      · omega
    · rintro ⟨_, _, ⟨rfl, rfl⟩, short⟩
      rw [if_neg (by omega)]

theorem take_frame {total code : UInt8} {body : List UInt8} {n : Nat} (long : 2 ≤ n) :
    (total :: code :: body).take n = total :: code :: body.take (n - 2) := by
  obtain ⟨k, rfl⟩ : ∃ k, n = k + 2 := ⟨n - 2, by omega⟩
  simp

theorem frameEnd_take {buffer : List UInt8} {n : Nat} (frame : frameEnd? buffer = some n) :
    frameEnd? (buffer.take n) = some n := by
  obtain ⟨total, code, body, rfl, rfl, long, fits⟩ := frameEnd_eq_some.mp frame
  rw [take_frame long]
  exact frameEnd_eq_some.mpr ⟨total, code, _, rfl, rfl, long, by simp only [List.length_take]; omega⟩

variable (registry : Registry ByteType) (host : Identity)

theorem consumed_of_frame {buffer : List UInt8} {n : Nat} {e : Extraction ByteMessage}
    (frame : frameEnd? buffer = some n) (read : extract registry host buffer = .ok e) :
    e.consumed = n := by
  obtain ⟨total, code, body, rfl, rfl, long, fits⟩ := frameEnd_eq_some.mp frame
  exact consumed_of_whole registry host long fits read

theorem extract_append_of_frame {buffer : List UInt8} {n : Nat} (more : List UInt8)
    (frame : frameEnd? buffer = some n) :
    extract registry host (buffer ++ more) = extract registry host buffer := by
  obtain ⟨total, code, body, rfl, rfl, long, fits⟩ := frameEnd_eq_some.mp frame
  exact extract_append_of_whole registry host long fits more

theorem extract_of_no_frame {buffer : List UInt8} (none : frameEnd? buffer = none) :
    extract registry host buffer = .ok .incomplete := by
  rcases frameEnd_eq_none.mp none with rfl | ⟨total, rest, rfl, short⟩
  · rfl
  · exact extract_of_short registry host (by unfold headerSize; omega)

theorem extract_of_short_length {total : UInt8} (short : total.toNat < 2) (rest : List UInt8) :
    extract registry host (total :: rest) = .ok .incomplete :=
  extract_of_short registry host (by unfold headerSize; omega)

end ByteFrames

theorem byteCodec_delimits (registry : Registry ByteType) (host : Identity) :
    (byteCodec registry host).Delimits ByteFrames.frameEnd? where
  append more frame := ByteFrames.extract_append_of_frame registry host more frame
  take frame := Codec.extract_take_of_append ByteFrames.frameEnd?
    (fun more frame => ByteFrames.extract_append_of_frame registry host more frame)
    ByteFrames.frameEnd_take frame
  incomplete none := ByteFrames.extract_of_no_frame registry host none
  advance := by
    intro buffer e read
    cases frame : ByteFrames.frameEnd? buffer with
    | none =>
      rw [show (byteCodec registry host).extract buffer = _ from
        ByteFrames.extract_of_no_frame registry host frame] at read
      cases read
      exact .inl rfl
    | some n =>
      have used := ByteFrames.consumed_of_frame registry host frame read
      obtain ⟨_, _, _, _, _, long, _⟩ := ByteFrames.frameEnd_eq_some.mp frame
      right
      simp [Extraction.advance, used, byteCodec, show 0 < n by omega]
  within frame := by
    obtain ⟨total, code, body, rfl, rfl, _, fits⟩ := ByteFrames.frameEnd_eq_some.mp frame
    simpa using fits

/-!
## Text frames

A text frame ends just past the first line feed of the buffer.
-/

namespace JsonLines

def frameEnd? (buffer : List UInt8) : Option Nat := (buffer.idxOf? lineFeed).map (· + 1)

theorem idxOf_take {buffer : List UInt8} {position : Nat}
    (line : buffer.idxOf? lineFeed = some position) :
    (buffer.take (position + 1)).idxOf? lineFeed = some position := by
  have found := idxOf_lt line
  rw [← List.take_append_drop (position + 1) buffer] at line
  unfold List.idxOf? at line ⊢
  rw [List.findIdx?_append] at line
  cases front : (buffer.take (position + 1)).findIdx? (· == lineFeed) with
  | some p => simpa [front] using line
  | none =>
    -- with no line feed in the front part, the first one would lie past it
    simp only [front, Option.none_or, Option.map_eq_some_iff] at line
    obtain ⟨q, -, past⟩ := line
    simp only [List.length_take] at past
    omega

theorem frameEnd_eq_some {buffer : List UInt8} {n : Nat} :
    frameEnd? buffer = some n ↔ ∃ position, buffer.idxOf? lineFeed = some position ∧ n = position + 1 := by
  simp only [frameEnd?, Option.map_eq_some_iff]
  constructor
  · rintro ⟨position, line, rfl⟩
    exact ⟨position, line, rfl⟩
  · rintro ⟨position, line, rfl⟩
    exact ⟨position, line, rfl⟩

variable (registry : Registry TextType) (host : Identity)

theorem extract_append_of_line {buffer : List UInt8} {position : Nat} (more : List UInt8)
    (line : buffer.idxOf? lineFeed = some position) :
    extract registry host (buffer ++ more) = extract registry host buffer := by
  unfold extract
  simp only [idxOf_append more line, line,
    List.take_append_of_le_length (Nat.le_of_lt (idxOf_lt line))]

theorem extract_of_no_line {buffer : List UInt8} (none : buffer.idxOf? lineFeed = none) :
    extract registry host buffer = .ok .incomplete := by
  unfold extract
  rw [none]

end JsonLines

theorem textCodec_delimits (registry : Registry TextType) (host : Identity) :
    (textCodec registry host).Delimits JsonLines.frameEnd? where
  append more frame := by
    obtain ⟨position, line, -⟩ := JsonLines.frameEnd_eq_some.mp frame
    exact JsonLines.extract_append_of_line registry host more line
  take frame := by
    apply Codec.extract_take_of_append JsonLines.frameEnd? _ _ frame
    · intro buffer n more frame
      obtain ⟨position, line, -⟩ := JsonLines.frameEnd_eq_some.mp frame
      exact JsonLines.extract_append_of_line registry host more line
    · intro buffer n frame
      obtain ⟨position, line, rfl⟩ := JsonLines.frameEnd_eq_some.mp frame
      exact JsonLines.frameEnd_eq_some.mpr ⟨position, JsonLines.idxOf_take line, rfl⟩
  incomplete none := by
    simp only [JsonLines.frameEnd?, Option.map_eq_none_iff] at none
    exact JsonLines.extract_of_no_line registry host none
  advance := by
    intro buffer e read
    cases line : buffer.idxOf? JsonLines.lineFeed with
    | none =>
      rw [show (textCodec registry host).extract buffer = _ from
        JsonLines.extract_of_no_line registry host line] at read
      cases read
      exact .inl rfl
    | some position =>
      -- the read moves past the line feed, unless it used nothing
      rcases JsonLines.consumed_of_line registry host line read with rfl | used
      · exact .inl rfl
      · simp only [Extraction.advance, used, textCodec, JsonLines.frameEnd?, line, Option.map_some,
          Option.some.injEq]
        split <;> simp
  within frame := by
    obtain ⟨position, line, rfl⟩ := JsonLines.frameEnd_eq_some.mp frame
    exact JsonLines.idxOf_lt line

/-- Both codecs delimit their frames: a read depends only on the frame at the front of the buffer
and on nothing after it, a buffer that holds no whole frame reads as incomplete, and a read moves
exactly past its frame or not at all. A byte buffer whose length byte is below the header reads as
incomplete whatever follows. -/
theorem frames_delimit_themselves :
    (∀ (registry : Registry ByteType) (host : Identity),
      (byteCodec registry host).Delimits ByteFrames.frameEnd? ∧
        ∀ (total : UInt8) (rest : List UInt8), total.toNat < 2 →
          (byteCodec registry host).extract (total :: rest) = .ok .incomplete) ∧
    ∀ (registry : Registry TextType) (host : Identity),
      (textCodec registry host).Delimits JsonLines.frameEnd? :=
  ⟨fun registry host => ⟨byteCodec_delimits registry host,
      fun _ rest short => ByteFrames.extract_of_short_length registry host short rest⟩,
    textCodec_delimits⟩

/-- The identify frame of `a@b` reads the same with a join frame after it, and a length byte of
one reads as incomplete before any bytes. -/
theorem frames_delimit_themselves_sample :
    ByteFrames.frameEnd? [5, 1, 0x61, 0x40, 0x62] = some 5 ∧
    (byteCodec (Registry.empty.registerAll ByteType.builtins).1
        ⟨Text.ofString "user", Text.ofString "host"⟩).extract
        ([5, 1, 0x61, 0x40, 0x62] ++ [2, 2]) =
      (byteCodec (Registry.empty.registerAll ByteType.builtins).1
        ⟨Text.ofString "user", Text.ofString "host"⟩).extract [5, 1, 0x61, 0x40, 0x62] ∧
    (1 : UInt8).toNat < 2 ∧
    (byteCodec (Registry.empty.registerAll ByteType.builtins).1
        ⟨Text.ofString "user", Text.ofString "host"⟩).extract [1, 2, 2] =
      .ok .incomplete := by
  have byteLaws := frames_delimit_themselves.1 (Registry.empty.registerAll ByteType.builtins).1
    ⟨Text.ofString "user", Text.ofString "host"⟩
  have frame : ByteFrames.frameEnd? [5, 1, 0x61, 0x40, 0x62] = some 5 := by decide
  exact ⟨frame, byteLaws.1.append [2, 2] frame, by decide, byteLaws.2 1 [2, 2] (by decide)⟩

end PeerMessaging
