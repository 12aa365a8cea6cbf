-- Streams between two parties, and messages that go over them piece by piece. A channel
-- holds what is sent and not yet received. A message is sent from a buffer and received
-- into one, and each turn moves as much of it as the channel takes or has.
import Mathlib.Tactic

namespace streams

universe u

variable {β : Type u}

/-- The channel of a stream. `full` is all that is sent over it in the end, of which
`sent` elements have been sent and `got` received. -/
structure Flow (full : List β) (sent got : Nat) (chan : List β) : Prop where
  chan : chan = (full.take sent).drop got
  got_le : got ≤ sent
  sent_le : sent ≤ full.length

/-- The buffer after `piece` is written at `offset`. -/
def write (buf : List β) (offset : Nat) (piece : List β) : List β :=
  buf.take offset ++ piece ++ buf.drop (offset + piece.length)

/-- How much of a message a turn sends, when the channel takes `k` elements at most. -/
def outLen (size offset k : Nat) : Nat := min k (size - offset)

/-- What a turn sends. -/
def outPiece (buf : List β) (size offset k : Nat) : List β :=
  (buf.drop offset).take (outLen size offset k)

/-- How much of a message a turn receives, when the channel gives `k` elements at most. -/
def inLen (size offset k : Nat) (chan : List β) : Nat := min k (min (size - offset) chan.length)

variable {full chan buf msg rest piece : List β} {sent got base offset size k : Nat}

theorem Flow.empty (full : List β) : Flow full 0 0 [] :=
  ⟨rfl, Nat.le_refl 0, Nat.zero_le _⟩

/-- The channel holds what was sent and not received. -/
theorem Flow.length (h : Flow full sent got chan) : chan.length = sent - got := by
  rw [h.chan, List.length_drop, List.length_take, Nat.min_eq_left h.sent_le]

theorem outLen_le (h : offset ≤ size) : offset + outLen size offset k ≤ size := by
  unfold outLen
  omega

theorem inLen_le (h : offset ≤ size) : offset + inLen size offset k chan ≤ size := by
  unfold inLen
  omega

/-! ## A turn of a message that is sent -/

/-- The next part of a stream. -/
theorem Flow.push (h : Flow full sent got chan) (hp : piece = (full.drop sent).take piece.length)
    (hle : sent + piece.length ≤ full.length) :
    Flow full (sent + piece.length) got (chan ++ piece) := by
  refine ⟨?_, Nat.le_trans h.got_le (Nat.le_add_right _ _), hle⟩
  have hgot : got ≤ (full.take sent).length := by
    rw [List.length_take, Nat.min_eq_left h.sent_le]
    exact h.got_le
  rw [List.take_add, List.drop_append_of_le_length hgot, ← h.chan, ← hp]

/-- A turn sends the next part of the message that the buffer holds. -/
theorem Flow.send (h : Flow full (base + offset) got chan) (hfull : full.drop base = msg ++ rest)
    (hbuf : buf.take msg.length = msg) (hoff : offset ≤ msg.length) (k : Nat) :
    Flow full (base + (offset + outLen msg.length offset k)) got
      (chan ++ outPiece buf msg.length offset k) := by
  have hle := outLen_le (k := k) hoff
  have hbufLen : msg.length ≤ buf.length := by
    rw [← hbuf, List.length_take]
    exact Nat.min_le_right _ _
  have hlen : (outPiece buf msg.length offset k).length = outLen msg.length offset k := by
    unfold outPiece
    rw [List.length_take, List.length_drop]
    omega
  have hfullLen : base + msg.length ≤ full.length := by
    have := congrArg List.length hfull
    rw [List.length_drop, List.length_append] at this
    have := h.sent_le
    omega
  -- The piece is the same part of the buffer, of the message and of the stream.
  have hpiece : outPiece buf msg.length offset k =
      (full.drop (base + offset)).take (outLen msg.length offset k) := by
    unfold outPiece
    rw [← List.drop_drop, hfull, List.drop_append_of_le_length hoff,
      List.take_append_of_le_length (by rw [List.length_drop]; omega)]
    have hmsg : msg.drop offset = (buf.drop offset).take (msg.length - offset) := by
      rw [← List.drop_take, hbuf]
    rw [hmsg, List.take_take, Nat.min_eq_left (by omega)]
  have hpush : Flow full (base + offset + (outPiece buf msg.length offset k).length) got
      (chan ++ outPiece buf msg.length offset k) := h.push (by rw [hlen, hpiece]) (by omega)
  rw [hlen, Nat.add_assoc] at hpush
  exact hpush

/-! ## A turn of a message that is received -/

theorem write_length (h : offset + piece.length ≤ buf.length) :
    (write buf offset piece).length = buf.length := by
  unfold write
  rw [List.length_append, List.length_append, List.length_take, List.length_drop]
  omega

theorem write_take (h : offset ≤ buf.length) :
    (write buf offset piece).take (offset + piece.length) = buf.take offset ++ piece := by
  have hlen : (buf.take offset ++ piece).length = offset + piece.length := by
    rw [List.length_append, List.length_take, Nat.min_eq_left h]
  unfold write
  rw [← hlen, List.take_left]

/-- A turn takes the next part of the stream from the channel. -/
theorem Flow.pull (h : Flow full sent got chan) {n : Nat} (hn : n ≤ chan.length) :
    Flow full sent (got + n) (chan.drop n) ∧ chan.take n = (full.drop got).take n := by
  have hlen := h.length
  refine ⟨⟨?_, ?_, h.sent_le⟩, ?_⟩
  · rw [h.chan, List.drop_drop]
  · have := h.got_le
    omega
  · rw [h.chan, List.drop_take, List.take_take, Nat.min_eq_left (by omega)]

/-- A turn receives the next part of a message. The buffer then holds the message as far
as it has come. -/
theorem Flow.recv (h : Flow full sent (base + offset) chan)
    (hbuf : buf.take offset = (full.drop base).take offset) (hle : offset ≤ buf.length)
    (size k : Nat) :
    Flow full sent (base + (offset + inLen size offset k chan))
        (chan.drop (inLen size offset k chan)) ∧
      (write buf offset (chan.take (inLen size offset k chan))).take
          (offset + inLen size offset k chan) =
        (full.drop base).take (offset + inLen size offset k chan) := by
  have hn : inLen size offset k chan ≤ chan.length := by
    unfold inLen
    omega
  obtain ⟨hflow, htake⟩ := h.pull hn
  refine ⟨by rw [← Nat.add_assoc]; exact hflow, ?_⟩
  have hlen : (chan.take (inLen size offset k chan)).length = inLen size offset k chan := by
    rw [List.length_take, Nat.min_eq_left hn]
  have hwrite : (write buf offset (chan.take (inLen size offset k chan))).take
      (offset + (chan.take (inLen size offset k chan)).length) =
        buf.take offset ++ chan.take (inLen size offset k chan) := write_take hle
  rw [hlen] at hwrite
  rw [hwrite, List.take_add, ← hbuf, htake, List.drop_drop]

end streams
