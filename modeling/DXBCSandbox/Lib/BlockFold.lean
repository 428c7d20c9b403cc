/-
Folding a compression function over the blocks of a message, at once and as a stream.

A stream keeps the chaining value and the elements of the block that is not complete yet. It gets
one element at a time, and compresses whenever a block is full. However the message is cut into
calls, the stream ends with the fold over the message's blocks and with what is left of it.
-/
import DXBCSandbox.Lib.LittleEndian
import Mathlib.Data.List.Induction

namespace DXBCSandbox

open List

namespace BlockFold

variable {σ α : Type} (size : ℕ) (compress : σ → List α → σ)

/-- The fold over the blocks of a message. What is left after the last block is not part of it. -/
def blockFold (v : σ) (message : List α) : σ :=
  (List.range (message.length / size)).foldl
    (fun v k => compress v (slice message (size * k) size)) v

def absorb (s : σ × List α) (x : α) : σ × List α :=
  if s.2.length + 1 = size then (compress s.1 (s.2 ++ [x]), []) else (s.1, s.2 ++ [x])

/-- What is left of a message after its last block. -/
def remainder (message : List α) : List α := message.drop (size * (message.length / size))

variable {size compress}

lemma length_remainder (message : List α) :
    (remainder size message).length = message.length % size := by
  rw [remainder, length_drop]
  have h := Nat.div_add_mod message.length size
  omega

lemma foldl_blocks_append (v : σ) (message rest : List α) {n : ℕ}
    (hn : size * n ≤ message.length) :
    (List.range n).foldl (fun v k => compress v (slice (message ++ rest) (size * k) size)) v =
      (List.range n).foldl (fun v k => compress v (slice message (size * k) size)) v := by
  apply foldl_ext
  intro v k hk
  have hk' : k + 1 ≤ n := mem_range.mp hk
  have hle : size * (k + 1) ≤ size * n := Nat.mul_le_mul_left size hk'
  rw [slice_append_left]
  rw [Nat.mul_add, Nat.mul_one] at hle
  omega

lemma blockFold_append (hsize : 0 < size) (v : σ) {message : List α} {n : ℕ}
    (hlen : message.length = size * n) (rest : List α) :
    blockFold size compress v (message ++ rest) =
      blockFold size compress (blockFold size compress v message) rest := by
  have hcnt : (message ++ rest).length / size = n + rest.length / size := by
    rw [length_append, hlen, Nat.add_comm, Nat.add_mul_div_left _ _ hsize, Nat.add_comm]
  have hblocks : message.length / size = n := by
    rw [hlen, Nat.mul_div_cancel_left _ hsize]
  unfold blockFold
  rw [hcnt, hblocks, range_add, foldl_append,
    foldl_blocks_append v message rest (Nat.le_of_eq hlen.symm), foldl_map]
  apply foldl_ext
  intro v k _
  rw [slice_append_right _ _ (by rw [hlen]; exact Nat.mul_le_mul_left size (Nat.le_add_right n k)),
    hlen, Nat.mul_add, Nat.add_sub_cancel_left]

lemma blockFold_block (hsize : 0 < size) (v : σ) {block : List α} (hlen : block.length = size) :
    blockFold size compress v block = compress v block := by
  unfold blockFold
  rw [hlen, Nat.div_self hsize]
  show compress v (slice block (size * 0) size) = _
  rw [Nat.mul_zero, ← hlen, slice_zero_length]

lemma blockFold_short (v : σ) {message : List α} (hlen : message.length < size) :
    blockFold size compress v message = v := by
  rw [blockFold, Nat.div_eq_of_lt hlen, range_zero, foldl_nil]

/-- **The stream is the fold.** The induction is on the message from its end, so that the step is
one element: it completes a block, or it is left over. -/
theorem foldl_absorb (hsize : 0 < size) (v : σ) (message : List α) :
    message.foldl (absorb size compress) (v, []) =
      (blockFold size compress v message, remainder size message) := by
  induction message using reverseRecOn with
  | nil =>
    simp only [foldl_nil, blockFold, remainder, length_nil, Nat.zero_div, range_zero, drop_nil]
  | append_singleton message x ih =>
    have hlen : (remainder size message).length = _ := length_remainder message
    have hdiv := Nat.div_add_mod message.length size
    have hmod := Nat.mod_lt message.length hsize
    have hdrop : (message ++ [x]).drop (size * (message.length / size)) =
        remainder size message ++ [x] := by
      rw [remainder, drop_append_of_le_length (by omega)]
    rw [foldl_append, ih, foldl_cons, foldl_nil, absorb]
    dsimp only
    by_cases hfull : (remainder size message).length + 1 = size
    · have hsum : (message ++ [x]).length = size * (message.length / size + 1) := by
        rw [length_append, length_singleton, Nat.mul_add, Nat.mul_one]
        omega
      have hcnt : (message ++ [x]).length / size = message.length / size + 1 := by
        rw [hsum, Nat.mul_div_cancel_left _ hsize]
      have hblock : slice (message ++ [x]) (size * (message.length / size)) size =
          remainder size message ++ [x] := by
        rw [slice, hdrop]
        apply take_of_length_le
        rw [length_append, length_singleton]
        exact Nat.le_of_eq hfull
      rw [if_pos hfull]
      apply Prod.ext
      · show compress _ _ = blockFold size compress v (message ++ [x])
        unfold blockFold
        rw [hcnt, range_succ, foldl_append, foldl_blocks_append v message [x] (by omega),
          foldl_cons, foldl_nil, hblock]
      · show [] = remainder size (message ++ [x])
        rw [remainder, hcnt, ← hsum, drop_length]
    · have hcnt : (message ++ [x]).length / size = message.length / size := by
        have hsum : (message ++ [x]).length =
            size * (message.length / size) + (message.length % size + 1) := by
          rw [length_append, length_singleton]
          omega
        have hsmall : (message.length % size + 1) / size = 0 := Nat.div_eq_of_lt (by omega)
        rw [hsum, Nat.mul_add_div hsize, hsmall, Nat.add_zero]
      rw [if_neg hfull]
      apply Prod.ext
      · show blockFold size compress v message = blockFold size compress v (message ++ [x])
        unfold blockFold
        rw [hcnt, foldl_blocks_append v message [x] (by omega)]
      · show remainder size message ++ [x] = remainder size (message ++ [x])
        rw [← hdrop, remainder, hcnt]

end BlockFold

end DXBCSandbox
