import PeerMessaging.JsonLines.Frame
import PeerMessaging.Proofs.Reading
/-!
Text frames read off a buffer. A text frame ends at the first line feed, so once a line feed has
arrived, nothing that comes after it changes what the line reads as, and the read moves to just
past the line feed at most.
-/

namespace PeerMessaging

namespace JsonLines

variable (registry : Registry TextType) (host : Identity)

theorem idxOf_append {buffer : List UInt8} {position : Nat} (more : List UInt8)
    (line : buffer.idxOf? lineFeed = some position) :
    (buffer ++ more).idxOf? lineFeed = some position := by
  unfold List.idxOf? at line ⊢
  rw [List.findIdx?_append, line]
  rfl

theorem idxOf_lt {buffer : List UInt8} {position : Nat}
    (line : buffer.idxOf? lineFeed = some position) : position < buffer.length := by
  unfold List.idxOf? at line
  obtain ⟨within, -⟩ := List.findIdx?_eq_some_iff_getElem.mp line
  exact within

theorem extract_append {buffer : List UInt8} (more : List UInt8)
    (found : extract registry host buffer ≠ .ok .incomplete) :
    extract registry host (buffer ++ more) = extract registry host buffer := by
  unfold extract at found ⊢
  cases line : buffer.idxOf? lineFeed with
  | none => simp [line] at found
  | some position =>
    simp only [idxOf_append more line,
      List.take_append_of_le_length (Nat.le_of_lt (idxOf_lt line))]

theorem consumed_of_line {buffer : List UInt8} {position : Nat} {e : Extraction TextMessage}
    (line : buffer.idxOf? lineFeed = some position) (read : extract registry host buffer = .ok e) :
    e = .incomplete ∨ e.consumed = position := by
  unfold extract at read
  simp only [line] at read
  split at read
  · cases read
    exact .inl rfl
  · next name attrs _ =>
    cases resolved : registry.resolve (.string name) with
    | error f => simp [resolved, bind, Except.bind] at read
    | ok type =>
      simp only [resolved, bind, Except.bind] at read
      split at read <;> cases read <;> exact .inr rfl

theorem extract_consumed_lt {buffer : List UInt8} {e : Extraction TextMessage}
    (read : extract registry host buffer = .ok e) :
    e.consumed = 0 ∨ e.consumed < buffer.length := by
  cases line : buffer.idxOf? lineFeed with
  | none =>
    unfold extract at read
    simp only [line, Except.ok.injEq] at read
    simp [← read, Extraction.consumed]
  | some position =>
    -- the line is a message or is skipped; either way it is used up to the line feed
    rcases consumed_of_line registry host line read with rfl | used
    · exact .inl rfl
    · exact .inr (used ▸ idxOf_lt line)

end JsonLines

theorem textCodec_stable (registry : Registry TextType) (host : Identity) :
    (textCodec registry host).Stable where
  extract_append more found := JsonLines.extract_append registry host more found
  advance_le read := by
    have within := JsonLines.extract_consumed_lt registry host read
    simp only [Extraction.advance, textCodec]
    split <;> omega

end PeerMessaging
