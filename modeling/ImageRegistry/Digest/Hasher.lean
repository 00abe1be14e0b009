import ImageRegistry.Digest.Sha256

/-!
# Hashing in pieces

A message that comes in pieces is hashed without being put together first. A `Hasher` holds the
state after the whole blocks that came in so far, the bytes that do not fill a block yet, and the
number of all bytes, which the padding tells.

Where the pieces end does not matter: `feed_feed` says that two pieces do the same as one piece, and
`finish_feed` that one piece gives the hash of the message. Both rest on `absorb_add` and
`absorb_append`, by which the blocks of a message can be mixed in at two times.
-/

namespace ImageRegistry.Sha256

/-! ### Blocks at two times -/

/-- So many blocks and then some more are mixed in like all of them at once. -/
theorem absorb_add (m n : Nat) (message : List UInt8) (s : State) :
    absorb (m + n) message s = absorb n (message.drop (64 * m)) (absorb m message s) := by
  induction m generalizing message s with
  | zero => simp [absorb]
  | succ m ih =>
    have hdrop : (message.drop 64).drop (64 * m) = message.drop (64 * (m + 1)) := by
      rw [List.drop_drop]
      congr 1
      omega
    rw [show m + 1 + n = (m + n) + 1 by omega, absorb, ih, hdrop, absorb]

/-- What comes after the blocks is not looked at. -/
theorem absorb_append {n : Nat} {message : List UInt8} (h : 64 * n ≤ message.length)
    (rest : List UInt8) (s : State) : absorb n (message ++ rest) s = absorb n message s := by
  induction n generalizing message s with
  | zero => rfl
  | succ n ih =>
    have hlong : 64 ≤ message.length := by omega
    have hrest : 64 * n ≤ (message.drop 64).length := by
      rw [List.length_drop]
      omega
    rw [absorb, List.drop_append_of_le_length hlong, List.take_append_of_le_length hlong,
      ih hrest, absorb]

/-! ### Hashers -/

/-- What is known of a message of which a part has come in. -/
structure Hasher where
  /-- The state after the whole blocks. -/
  state : State
  /-- The bytes after the last whole block. -/
  pending : List UInt8
  /-- The number of all bytes. -/
  length : Nat

namespace Hasher

/-- The hasher before the first piece. -/
def start : Hasher := ⟨initial, [], 0⟩

/-- The hasher after one more piece. -/
def feed (h : Hasher) (piece : List UInt8) : Hasher :=
  let bytes := h.pending ++ piece
  let blocks := bytes.length / 64
  ⟨absorb blocks bytes h.state, bytes.drop (64 * blocks), h.length + piece.length⟩

/-- The hash of the message that has come in. -/
def finish (h : Hasher) : List UInt8 :=
  (absorb ((h.pending.length + 72) / 64) (h.pending ++ padding h.length) h.state).bytes

/-- The whole blocks of a message and what is left of it. -/
theorem feed_start (message : List UInt8) :
    start.feed message = ⟨absorb (message.length / 64) message initial,
      message.drop (64 * (message.length / 64)), message.length⟩ := by
  rw [feed, start]
  simp

/-- Two pieces do the same as one. -/
theorem feed_feed (first second : List UInt8) :
    (start.feed first).feed second = start.feed (first ++ second) := by
  rw [feed_start, feed_start, feed]
  have hle : 64 * (first.length / 64) ≤ first.length := Nat.mul_div_le _ _
  have hbytes : first.drop (64 * (first.length / 64)) ++ second =
      (first ++ second).drop (64 * (first.length / 64)) :=
    (List.drop_append_of_le_length hle).symm
  have hblocks : (first ++ second).length / 64 = first.length / 64 +
      ((first ++ second).drop (64 * (first.length / 64))).length / 64 := by
    rw [List.length_drop, List.length_append]
    omega
  simp only [hbytes]
  rw [hblocks, absorb_add, absorb_append hle, List.drop_drop, Nat.mul_add, List.length_append]

/-- A message in one piece gives its hash. -/
theorem finish_feed (message : List UInt8) : (start.feed message).finish = hash message := by
  rw [feed_start, finish, hash]
  have hle : 64 * (message.length / 64) ≤ message.length := Nat.mul_div_le _ _
  have hblocks : (message.length + 72) / 64 = message.length / 64 +
      ((message.drop (64 * (message.length / 64))).length + 72) / 64 := by
    rw [List.length_drop]
    omega
  simp only
  rw [hblocks, absorb_add, absorb_append hle, List.drop_append_of_le_length hle]

/-- Any number of pieces does the same as the message that they make. -/
theorem foldl_feed (pieces : List (List UInt8)) (message : List UInt8) :
    pieces.foldl feed (start.feed message) = start.feed (message ++ pieces.flatten) := by
  induction pieces generalizing message with
  | nil => simp
  | cons piece rest ih => rw [List.foldl_cons, feed_feed, ih, List.flatten_cons, List.append_assoc]

/-- Hashing the pieces one after the other gives the hash of the message that they make. -/
theorem finish_foldl_feed (pieces : List (List UInt8)) :
    (pieces.foldl feed start).finish = hash pieces.flatten := by
  have hstart : start = start.feed [] := rfl
  rw [hstart, foldl_feed, List.nil_append, finish_feed]

end Hasher

end ImageRegistry.Sha256
