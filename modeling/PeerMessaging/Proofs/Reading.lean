import PeerMessaging.Registry
/-!
Reading a whole buffer frame after frame. Each step reads the front of what is left, and the next
step starts after the frame and its terminator. Reading ends at a fault, and at a step that moves
nothing: an incomplete frame, or the empty rest of a buffer that was read to its end.
-/

namespace PeerMessaging

namespace Codec

variable {μ : Type}

/-- The outcomes of reading a whole buffer frame after frame. -/
def reads (codec : Codec μ) (buffer : List UInt8) : List (Except Fault (Extraction μ)) :=
  match codec.extract buffer with
  | .error f => [.error f]
  | .ok e =>
    if _stop : e.advance codec.terminator = 0 ∨ buffer = [] then [.ok e]
    else .ok e :: codec.reads (buffer.drop (e.advance codec.terminator))
termination_by buffer.length
decreasing_by
  obtain ⟨moves, nonempty⟩ := not_or.mp _stop
  have : 0 < buffer.length := List.length_pos_iff.mpr nonempty
  simp only [List.length_drop]
  omega

variable {codec : Codec μ} {buffer : List UInt8}

theorem reads_of_error {f : Fault} (failed : codec.extract buffer = .error f) :
    codec.reads buffer = [.error f] := by
  rw [reads, failed]

theorem reads_of_stall {e : Extraction μ} (read : codec.extract buffer = .ok e)
    (stall : e.advance codec.terminator = 0) : codec.reads buffer = [.ok e] := by
  rw [reads, read]
  simp [stall]

theorem reads_of_advance {e : Extraction μ} (read : codec.extract buffer = .ok e)
    (moves : 0 < e.advance codec.terminator) (nonempty : buffer ≠ []) :
    codec.reads buffer = .ok e :: codec.reads (buffer.drop (e.advance codec.terminator)) := by
  rw [reads, read]
  simp [Nat.pos_iff_ne_zero.mp moves, nonempty]

theorem reads_frame {frame : List UInt8} {e : Extraction μ} (rest : List UInt8)
    (read : codec.extract (frame ++ rest) = .ok e)
    (moves : e.advance codec.terminator = frame.length) (nonempty : frame ≠ []) :
    codec.reads (frame ++ rest) = .ok e :: codec.reads rest := by
  rw [reads_of_advance read (by rw [moves]; exact List.length_pos_iff.mpr nonempty)
    (by simp [nonempty]), moves, List.drop_left]

theorem reads_frames {ν : Type} (frame : ν → List UInt8) (outcome : ν → Extraction μ)
    (read : ∀ x rest, codec.extract (frame x ++ rest) = .ok (outcome x))
    (moves : ∀ x, (outcome x).advance codec.terminator = (frame x).length)
    (nonempty : ∀ x, frame x ≠ []) (xs : List ν) (rest : List UInt8) :
    codec.reads ((xs.map frame).flatten ++ rest) = xs.map (.ok ∘ outcome) ++ codec.reads rest := by
  induction xs with
  | nil => rfl
  | cons x xs ih =>
    simp only [List.map_cons, List.flatten_cons, List.append_assoc]
    rw [reads_frame _ (read x _) (moves x) (nonempty x), ih]
    rfl

/-!
## Stable codecs

A codec is stable when bytes arriving after a read cannot change it once it found a frame or a
fault, and when a read never moves past the end of its buffer. Reading a stream that arrives in
parts then follows the reads of the whole stream.
-/

/-- Reads of the front of a buffer that later bytes cannot change. -/
structure Stable (codec : Codec μ) : Prop where
  /-- A read that found a frame or a fault finds it whatever follows. -/
  extract_append : ∀ {buffer : List UInt8} (more : List UInt8),
    codec.extract buffer ≠ .ok .incomplete → codec.extract (buffer ++ more) = codec.extract buffer
  /-- A read moves at most to the end of its buffer. -/
  advance_le : ∀ {buffer : List UInt8} {e : Extraction μ},
    codec.extract buffer = .ok e → e.advance codec.terminator ≤ buffer.length

namespace Stable

variable (stable : codec.Stable)
include stable

theorem error_append {f : Fault} (more : List UInt8) (failed : codec.extract buffer = .error f) :
    codec.extract (buffer ++ more) = .error f := by
  rw [stable.extract_append more (by simp [failed]), failed]

theorem ok_append {e : Extraction μ} (more : List UInt8) (read : codec.extract buffer = .ok e)
    (moves : 0 < e.advance codec.terminator) : codec.extract (buffer ++ more) = .ok e := by
  have found : e ≠ .incomplete := by
    rintro rfl
    simp [Extraction.advance, Extraction.consumed] at moves
  rw [stable.extract_append more (by simpa [read] using found), read]

theorem reads_append {e : Extraction μ} (rest : List UInt8) (read : codec.extract buffer = .ok e)
    (moves : 0 < e.advance codec.terminator) :
    codec.reads (buffer ++ rest) =
      .ok e :: codec.reads (buffer.drop (e.advance codec.terminator) ++ rest) := by
  have within := stable.advance_le read
  have nonempty : buffer ++ rest ≠ [] := by
    intro empty
    simp only [List.append_eq_nil_iff] at empty
    simp [empty.1] at within
    omega
  rw [reads_of_advance (stable.ok_append rest read moves) moves nonempty,
    List.drop_append_of_le_length within]

end Stable

end Codec

end PeerMessaging
