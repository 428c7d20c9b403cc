/-
What the container checksum computes.

`referenceChecksum` is the fold of MD5's compression function over the message behind its padding.
The streaming computation is that fold: `md5_update` absorbs a message in whatever parts it comes,
and the last block is completed in the context's own block by hand. A second form of the
computation checks every access to the block and to the data, and never fails.
-/
import DXBCSandbox.Lib.BlockFold
import DXBCSandbox.Words

namespace DXBCSandbox

open List Option BlockFold
open UInt32 (ofNat toNat_inj toNat_ofNat' toNat_and)

/-! ## The reference -/

/-- The compression function on a block of 64 bytes. -/
def md5_compress (v : MD5Words) (block : Bytes) : MD5Words :=
  md5_transform v (md5_block_words block)

/-- The two words that the padding adds: the bit count and its variant. The count is that of a
32-bit counter. -/
def bitCount (message : Bytes) : UInt32 := ofNat message.length * 8

def bitMark (message : Bytes) : UInt32 := (bitCount message >>> 2) ||| 1

/-- The padding behind the full blocks of a message: with the bit count first and its variant
last, in one block when the tail leaves room for them, and otherwise in a block of their own. -/
def dxbcTail (message : Bytes) : Bytes :=
  let tail := remainder 64 message
  if tail.length < 56 then
    le32Bytes (bitCount message) ++ (tail ++ (0x80 :: List.replicate (55 - tail.length) 0 ++
      le32Bytes (bitMark message)))
  else
    tail ++ (0x80 :: List.replicate (63 - tail.length) 0) ++
      (le32Bytes (bitCount message) ++ (List.replicate 56 0 ++ le32Bytes (bitMark message)))

def dxbcPadded (message : Bytes) : Bytes :=
  message.take (64 * (message.length / 64)) ++ dxbcTail message

def referenceChecksum (message : Bytes) : MD5Words :=
  blockFold 64 md5_compress md5_init.buf (dxbcPadded message)

/-! ## Checked accesses -/

/-- The byte loop of `md5_update`, which fails where it would leave the block. -/
def md5_update_bytes_checked : (inBuf : Bytes) → (mdi : ℕ) → MD5_CTX → Option MD5_CTX
  | [], _, ctx => some ctx
  | byte :: inBuf, mdi, ctx => do
    guard (mdi < 0x40)
    let ctx := { ctx with block := ctx.block.set mdi byte }
    if mdi + 1 = 0x40 then
      md5_update_bytes_checked inBuf 0
        { ctx with buf := md5_transform ctx.buf (md5_block_words ctx.block) }
    else md5_update_bytes_checked inBuf (mdi + 1) ctx

/-- `md5_update` of the `inLen` bytes at `pos`, which fails where it would leave the data. -/
def md5_update_checked (ctx : MD5_CTX) (data : Bytes) (pos inLen : ℕ) : Option MD5_CTX := do
  guard (pos + inLen ≤ data.length)
  let inBuf := slice data pos inLen
  let len := ofNat inLen
  let mdi := ((ctx.i0 >>> 3) &&& 0x3f).toNat
  let i1 := if ctx.i0 + (len <<< 3) < ctx.i0 then ctx.i1 + 1 else ctx.i1
  md5_update_bytes_checked inBuf mdi
    { ctx with i0 := ctx.i0 + (len <<< 3), i1 := i1 + (len >>> 29) }

def last_chunk_checked (ctx : MD5_CTX) (data : Bytes) (pos inLen : ℕ) : Option MD5_CTX :=
  if inLen ≠ 0 then md5_update_checked ctx data pos inLen else some ctx

/-- `memcpy(&md5Ctx.in[pos], src, src_length)`, which fails where it would leave the block. -/
def block_copy_checked (block : Bytes) (pos : ℕ) (src : Bytes) : Option Bytes := do
  guard (pos + src.length ≤ 0x40)
  pure (overwrite block pos src)

/-- The checksum with every access to the block and to the data checked. -/
def calculate_dxbc_checksum_checked (pData : Bytes) (dwSize : ℕ) : Option MD5Words := do
  let dwHashOffset := 20
  let dwSize := dwSize - dwHashOffset
  let dwNumberOfBits := ofNat dwSize * 8
  let dwFullChunksSize := dwSize / 64 * 64
  let ctx ← md5_update_checked md5_init pData dwHashOffset dwFullChunksSize
  let dwLastChunkSize := dwSize - dwFullChunksSize
  let dwPaddingSize := 64 - dwLastChunkSize
  let pLastChunkData := dwHashOffset + dwFullChunksSize
  if 56 ≤ dwLastChunkSize then
    let ctx ← md5_update_checked ctx pData pLastChunkData dwLastChunkSize
    let ctx ← md5_update_checked ctx MD5_PADDING 0 dwPaddingSize
    pure (md5_transform ctx.buf
      (dwNumberOfBits :: List.replicate 14 (0 : UInt32) ++ [(dwNumberOfBits >>> 2) ||| 1]))
  else
    let ctx ← md5_update_checked ctx (le32Bytes dwNumberOfBits) 0 4
    let ctx ← last_chunk_checked ctx pData pLastChunkData dwLastChunkSize
    let block ← block_copy_checked ctx.block (dwLastChunkSize + 4)
      (MD5_PADDING.take (dwPaddingSize - 4))
    let block ← block_copy_checked block 60 (le32Bytes ((dwNumberOfBits >>> 2) ||| 1))
    pure (md5_transform ctx.buf (md5_block_words block))

/-! ## The stream -/

/-- The context has the chaining value and the pending bytes of a stream. -/
structure Holds (ctx : MD5_CTX) (s : MD5Words × Bytes) : Prop where
  buf : ctx.buf = s.1
  size : ctx.block.length = 64
  pending : ctx.block.take s.2.length = s.2
  open_block : s.2.length < 64

variable {n : ℕ} {block : Bytes}

lemma take_set_succ (h : n < block.length) (byte : UInt8) :
    (block.set n byte).take (n + 1) = block.take n ++ [byte] := by
  rw [take_add_one, take_set_of_le (Nat.le_refl n), getElem?_set_self h]
  rfl

variable {ctx : MD5_CTX}

lemma md5_update_bytes_holds (inBuf : Bytes) {s : MD5Words × Bytes} (h : Holds ctx s) :
    Holds (md5_update_bytes inBuf s.2.length ctx) (inBuf.foldl (absorb 64 md5_compress) s) ∧
      (md5_update_bytes inBuf s.2.length ctx).i0 = ctx.i0 := by
  induction inBuf generalizing ctx s with
  | nil => exact ⟨h, rfl⟩
  | cons byte inBuf ih =>
    have hblock : (ctx.block.set s.2.length byte).take (s.2.length + 1) = s.2 ++ [byte] := by
      rw [take_set_succ (by rw [h.size]; exact h.open_block), h.pending]
    rw [md5_update_bytes, foldl_cons, absorb]
    by_cases hfull : s.2.length + 1 = 64
    · rw [if_pos hfull, if_pos hfull]
      have hwhole : ctx.block.set s.2.length byte = s.2 ++ [byte] := by
        rw [← hblock, hfull]
        exact (take_of_length_le (by rw [length_set]; exact Nat.le_of_eq h.size)).symm
      have hnext : Holds { ctx with
          block := ctx.block.set s.2.length byte,
          buf := md5_transform ctx.buf (md5_block_words (ctx.block.set s.2.length byte)) }
          (md5_compress s.1 (s.2 ++ [byte]), []) := by
        refine ⟨?_, ?_, rfl, Nat.zero_lt_succ 63⟩
        · show md5_transform _ _ = md5_compress _ _
          rw [hwhole, h.buf]
          rfl
        · rw [length_set, h.size]
      exact ih hnext
    · rw [if_neg hfull, if_neg hfull]
      have hlen : (s.2 ++ [byte]).length = s.2.length + 1 := by
        rw [length_append, length_singleton]
      have hnext : Holds { ctx with block := ctx.block.set s.2.length byte }
          (s.1, s.2 ++ [byte]) := by
        refine ⟨h.buf, ?_, ?_, ?_⟩
        · rw [length_set, h.size]
        · rw [hlen]
          exact hblock
        · have hlt := h.open_block
          rw [hlen]
          omega
      rw [← hlen]
      exact ih hnext

/-- The context has absorbed a message: it counts its bits, has folded its full blocks, and holds
the rest. -/
structure Absorbed (ctx : MD5_CTX) (message : Bytes) : Prop where
  count : ctx.i0 = ofNat (8 * message.length)
  holds : Holds ctx (message.foldl (absorb 64 md5_compress) (md5_init.buf, []))

lemma absorbed_init : Absorbed md5_init [] :=
  ⟨rfl, rfl, rfl, rfl, by decide⟩

lemma ofNat_shiftLeft_three (n : ℕ) : ofNat n <<< 3 = ofNat (8 * n) := by
  apply toNat_inj.mp
  rw [UInt32.toNat_shiftLeft, toNat_ofNat', toNat_ofNat']
  show (n % 2 ^ 32) <<< 3 % 2 ^ 32 = 8 * n % 2 ^ 32
  rw [Nat.shiftLeft_eq]
  omega

lemma mdi_eq (n : ℕ) : ((ofNat (8 * n) >>> 3) &&& 0x3f).toNat = n % 64 := by
  rw [toNat_and, UInt32.toNat_shiftRight, toNat_ofNat']
  show (8 * n % 2 ^ 32) >>> 3 &&& 2 ^ 6 - 1 = n % 64
  rw [Nat.and_two_pow_sub_one_eq_mod, Nat.shiftRight_eq_div_pow]
  omega

lemma length_pending (message : Bytes) :
    (message.foldl (absorb 64 md5_compress) (md5_init.buf, [])).2.length = message.length % 64 := by
  rw [foldl_absorb (by decide), length_remainder]

variable {message : Bytes}

/-- **`md5_update` continues the message.** -/
theorem Absorbed.update (h : Absorbed ctx message) (inBuf : Bytes) :
    Absorbed (md5_update ctx inBuf) (message ++ inBuf) := by
  have hpos : ((ctx.i0 >>> 3) &&& 0x3f).toNat =
      (message.foldl (absorb 64 md5_compress) (md5_init.buf, [])).2.length := by
    rw [h.count, mdi_eq, length_pending]
  unfold md5_update
  dsimp only
  rw [hpos]
  have hcnt : ctx.i0 + ofNat inBuf.length <<< 3 =
      ofNat (8 * (message ++ inBuf).length) := by
    rw [h.count, ofNat_shiftLeft_three, length_append, Nat.mul_add, UInt32.ofNat_add]
  rw [hcnt]
  have hstart : ∀ i1, Holds
      { ctx with i0 := ofNat (8 * (message ++ inBuf).length), i1 := i1 }
      (message.foldl (absorb 64 md5_compress) (md5_init.buf, [])) := fun _ =>
    ⟨h.holds.buf, h.holds.size, h.holds.pending, h.holds.open_block⟩
  obtain ⟨hholds, hi0⟩ := md5_update_bytes_holds inBuf (hstart _)
  refine ⟨hi0, ?_⟩
  rw [foldl_append]
  exact hholds

lemma Absorbed.buf_eq (h : Absorbed ctx message) :
    ctx.buf = blockFold 64 md5_compress md5_init.buf message := by
  rw [h.holds.buf, foldl_absorb (by decide)]

lemma Absorbed.pending_eq (h : Absorbed ctx message) :
    ctx.block.take (message.length % 64) = remainder 64 message := by
  have hpending := h.holds.pending
  rw [length_pending, foldl_absorb (by decide)] at hpending
  exact hpending

/-- **Any division of a message.** Behind any calls of `md5_update`, the chaining value is that of
the full blocks of what they were given in a row, the rest is in the block, and the bits are
counted. -/
theorem md5_update_chunks (chunks : List Bytes) : (chunks.foldl md5_update md5_init).buf =
        blockFold 64 md5_compress md5_init.buf chunks.flatten ∧
      (chunks.foldl md5_update md5_init).block.take (chunks.flatten.length % 64) =
        remainder 64 chunks.flatten ∧
      (chunks.foldl md5_update md5_init).i0 = ofNat (8 * chunks.flatten.length) := by
  have hrun : ∀ ctx message, Absorbed ctx message →
      Absorbed (chunks.foldl md5_update ctx) (message ++ chunks.flatten) := by
    induction chunks with
    | nil => exact fun _ _ h => by rwa [flatten_nil, append_nil]
    | cons chunk chunks ih =>
      intro _ _ h
      rw [foldl_cons, flatten_cons, ← append_assoc]
      exact ih _ _ (h.update chunk)
  have h := hrun md5_init [] absorbed_init
  exact ⟨h.buf_eq, h.pending_eq, h.count⟩

/-! ## The last block -/

@[simp] lemma length_le32Bytes (w : UInt32) : (le32Bytes w).length = 4 := rfl

lemma wordAt_le32Bytes (a c : Bytes) (w : UInt32) :
    wordAt (a ++ (le32Bytes w ++ c)) a.length = w := by
  apply toNat_inj.mp
  rw [le32Bytes_eq]
  exact wordAt_append a c w.toNat_lt rfl

lemma md5_block_words_marks (first last : UInt32) :
    md5_block_words (le32Bytes first ++ (List.replicate 56 0 ++ le32Bytes last)) =
      first :: List.replicate 14 (0 : UInt32) ++ [last] := by
  have hfst := wordAt_le32Bytes [] (replicate 56 0 ++ le32Bytes last) first
  have hlast := wordAt_le32Bytes (le32Bytes first ++ replicate 56 0) [] last
  rw [append_nil, append_assoc] at hlast
  rw [nil_append] at hfst
  have hzero : wordsAt (le32Bytes first ++ (replicate 56 0 ++ le32Bytes last)) 4 14 =
      replicate 14 0 := by
    change replicate 14 (le32 0 0 0 0) = _
    rw [show le32 0 0 0 0 = 0 by decide]
  unfold md5_block_words
  rw [wordsAt, Nat.zero_add, show (15 : ℕ) = 14 + 1 from rfl, wordsAt_append, hzero]
  exact congrArg₂ _ hfst (congrArg _ (congrArg₂ _ hlast rfl))

variable {src : Bytes}

lemma overwrite_take {pending : Bytes} (h : block.take pending.length = pending)
    (hsize : pending.length + src.length = block.length) :
    overwrite block pending.length src = pending ++ src := by
  rw [overwrite, h, drop_of_length_le (Nat.le_of_eq hsize.symm), append_nil]

lemma overwrite_end {a b : Bytes} {pos : ℕ} (hpos : pos = a.length)
    (hsize : b.length = src.length) : overwrite (a ++ b) pos src = a ++ src := by
  have hle : (a ++ b).length ≤ a.length + src.length :=
    Nat.le_of_eq (by rw [length_append, hsize])
  rw [overwrite, hpos, take_left, drop_of_length_le hle, append_nil]

lemma take_MD5_PADDING (h : n ≤ 63) : MD5_PADDING.take (n + 1) = 0x80 :: List.replicate n 0 := by
  rw [MD5_PADDING, take_succ_cons, take_replicate, Nat.min_eq_left h]

section Message

variable {message : Bytes}

lemma length_full (message : Bytes) :
    (message.take (64 * (message.length / 64))).length = 64 * (message.length / 64) := by
  rw [length_take, Nat.min_eq_left (Nat.mul_div_le _ _)]

lemma referenceChecksum_eq (message : Bytes) : referenceChecksum message =
      blockFold 64 md5_compress
        (blockFold 64 md5_compress md5_init.buf (message.take (64 * (message.length / 64))))
        (dxbcTail message) :=
  blockFold_append (by decide) _ (length_full message) _

variable {ctx : MD5_CTX}

/-- **Two final blocks**: the tail is completed by the padding, and the two words get a block of
their own. -/
theorem two_blocks_eq (h : Absorbed ctx (message.take (64 * (message.length / 64))))
    (htail : 56 ≤ (remainder 64 message).length) :
    md5_transform (md5_update (md5_update ctx (remainder 64 message))
          (MD5_PADDING.take (64 - (remainder 64 message).length))).buf
        (bitCount message :: List.replicate 14 (0 : UInt32) ++ [bitMark message]) =
      referenceChecksum message := by
  have hlt : (remainder 64 message).length < 64 := by
    rw [length_remainder]
    exact Nat.mod_lt _ (by decide)
  have hpad : MD5_PADDING.take (64 - (remainder 64 message).length) =
      0x80 :: replicate (63 - (remainder 64 message).length) 0 := by
    rw [← take_MD5_PADDING (by omega)]
    congr 1
    omega
  have hbuf := ((h.update (remainder 64 message)).update
    (MD5_PADDING.take (64 - (remainder 64 message).length))).buf_eq
  have hblock : (remainder 64 message ++
      (0x80 :: replicate (63 - (remainder 64 message).length) 0)).length = 64 := by
    rw [length_append, length_cons, length_replicate]
    omega
  rw [hpad, append_assoc, blockFold_append (by decide) _ (length_full message),
    blockFold_block (by decide) _ hblock] at hbuf
  have hmarks : (le32Bytes (bitCount message) ++
      (replicate 56 (0 : UInt8) ++ le32Bytes (bitMark message))).length = 64 := by
    rw [length_append, length_append, length_replicate, length_le32Bytes, length_le32Bytes]
  rw [referenceChecksum_eq, hpad, hbuf, ← md5_block_words_marks, dxbcTail, if_neg (by omega),
    blockFold_append (by decide) _ (hblock.trans (Nat.mul_one 64).symm),
    blockFold_block (by decide) _ hmarks, blockFold_block (by decide) _ hblock]
  simp only [md5_compress]

/-- **One final block**: the bit count and the tail are absorbed, and the rest of the block is
written by hand. -/
theorem one_block_eq
    (h : Absorbed ctx (message.take (64 * (message.length / 64)) ++ (le32Bytes (bitCount
      message) ++ remainder 64 message))) (htail : (remainder 64 message).length < 56) :
    md5_transform ctx.buf (md5_block_words (overwrite
          (overwrite ctx.block ((remainder 64 message).length + 4)
            (MD5_PADDING.take (64 - (remainder 64 message).length - 4)))
          60 (le32Bytes (bitMark message)))) =
      referenceChecksum message := by
  obtain ⟨zeros, hzeros⟩ : ∃ zeros, zeros = 55 - (remainder 64 message).length := ⟨_, rfl⟩
  have hfull := length_full message
  have hlen : (le32Bytes (bitCount message) ++ remainder 64 message).length =
      (remainder 64 message).length + 4 := by
    rw [length_append, length_le32Bytes, Nat.add_comm]
  have hmod : (message.take (64 * (message.length / 64)) ++
      (le32Bytes (bitCount message) ++ remainder 64 message)).length % 64 =
      (remainder 64 message).length + 4 := by
    rw [length_append, hfull, hlen, Nat.mul_add_mod, Nat.mod_eq_of_lt (by omega)]
  have hrest : remainder 64 (message.take (64 * (message.length / 64)) ++
      (le32Bytes (bitCount message) ++ remainder 64 message)) =
      le32Bytes (bitCount message) ++ remainder 64 message := by
    have hdiv : (64 * (message.length / 64) + ((remainder 64 message).length + 4)) / 64 =
        message.length / 64 := by omega
    rw [remainder, length_append, hfull, hlen, hdiv]
    exact drop_left' hfull
  -- the stream has folded the full blocks and nothing else
  have hbuf : ctx.buf = blockFold 64 md5_compress md5_init.buf
      (message.take (64 * (message.length / 64))) := by
    rw [h.buf_eq, blockFold_append (by decide) _ hfull]
    exact blockFold_short _ (by omega)
  have hpending := h.pending_eq
  rw [hmod, hrest, ← hlen] at hpending
  have hpad : MD5_PADDING.take (64 - (remainder 64 message).length - 4) =
      0x80 :: replicate zeros 0 ++ replicate 4 0 := by
    rw [cons_append, replicate_append_replicate, ← take_MD5_PADDING (by omega)]
    congr 1
    omega
  rw [← hlen, overwrite_take hpending (by
      rw [h.holds.size, hlen, length_take]
      show _ + min _ 64 = 64
      omega), hpad, ← append_assoc, overwrite_end (by
      rw [length_append, hlen, length_cons, length_replicate]
      omega) (by rw [length_replicate, length_le32Bytes]), referenceChecksum_eq, dxbcTail,
    if_pos htail, ← hzeros, blockFold_block (by decide), hbuf, md5_compress]
  · simp only [append_assoc, cons_append]
  · simp only [length_append, length_cons, length_replicate, length_le32Bytes]
    omega

end Message

/-! ## The checksum -/

variable {pData : Bytes} {dwSize : ℕ}

/-- **The checksum is the reference's**, of the bytes behind the stored hash. -/
theorem calculate_dxbc_checksum_eq (hsize : 20 ≤ dwSize) (hlen : dwSize ≤ pData.length) :
    calculate_dxbc_checksum pData dwSize = referenceChecksum (slice pData 20 (dwSize - 20)) := by
  have hmessage : (pData.take dwSize).drop 20 = slice pData 20 (dwSize - 20) := by
    rw [slice, drop_take]
  have hcnt : (slice pData 20 (dwSize - 20)).length = dwSize - 20 := length_slice (by omega)
  unfold calculate_dxbc_checksum
  dsimp only
  rw [hmessage]
  generalize slice pData 20 (dwSize - 20) = message at hcnt ⊢
  rw [← hcnt, Nat.mul_comm (message.length / 64) 64]
  have hfull := absorbed_init.update (message.take (64 * (message.length / 64)))
  rw [nil_append] at hfull
  have htail : message.length - 64 * (message.length / 64) = (remainder 64 message).length := by
    rw [remainder, length_drop]
  rw [htail]
  by_cases hlong : 56 ≤ (remainder 64 message).length
  · rw [if_pos hlong]
    exact two_blocks_eq hfull hlong
  · rw [if_neg hlong]
    apply one_block_eq _ (Nat.lt_of_not_le hlong)
    have hmarked := hfull.update (le32Bytes (bitCount message))
    by_cases hempty : (remainder 64 message).length = 0
    · rw [if_neg (not_not_intro hempty), eq_nil_of_length_eq_zero hempty, append_nil]
      exact hmarked
    · rw [if_pos hempty, ← append_assoc]
      exact hmarked.update (remainder 64 message)

/-! ## No access is out of range -/

lemma md5_update_bytes_checked_eq (inBuf : Bytes) {mdi : ℕ} (hmdi : mdi < 64) (ctx : MD5_CTX) :
    md5_update_bytes_checked inBuf mdi ctx = some (md5_update_bytes inBuf mdi ctx) := by
  induction inBuf generalizing mdi ctx with
  | nil => rfl
  | cons byte inBuf ih =>
    have hguard : (guard (mdi < 0x40) : Option Unit) = some () := if_pos hmdi
    rw [md5_update_bytes_checked, md5_update_bytes, hguard, bind_eq_bind, bind_some]
    by_cases hfull : mdi + 1 = 0x40
    · rw [if_pos hfull, if_pos hfull]
      exact ih (by decide) _
    · rw [if_neg hfull, if_neg hfull]
      exact ih (by omega) _

lemma mdi_lt (i0 : UInt32) : ((i0 >>> 3) &&& 0x3f).toNat < 64 := by
  rw [toNat_and]
  exact Nat.lt_succ_of_le Nat.and_le_right

variable {data : Bytes} {pos : ℕ} {inLen : ℕ}

lemma md5_update_checked_eq (ctx : MD5_CTX) (h : pos + inLen ≤ data.length) :
    md5_update_checked ctx data pos inLen = some (md5_update ctx (slice data pos inLen)) := by
  have hguard : (guard (pos + inLen ≤ data.length) : Option Unit) = some () := if_pos h
  unfold md5_update_checked md5_update
  rw [hguard, bind_eq_bind, bind_some, length_slice h]
  exact md5_update_bytes_checked_eq _ (mdi_lt _) _

lemma last_chunk_checked_eq (ctx : MD5_CTX) (h : pos + inLen ≤ data.length) :
    last_chunk_checked ctx data pos inLen =
      some (if inLen ≠ 0 then md5_update ctx (slice data pos inLen) else ctx) := by
  unfold last_chunk_checked
  by_cases hempty : inLen ≠ 0
  · rw [if_pos hempty, if_pos hempty, md5_update_checked_eq ctx h]
  · rw [if_neg hempty, if_neg hempty]

lemma block_copy_checked_eq (block : Bytes) (h : pos + src.length ≤ 64) :
    block_copy_checked block pos src = some (overwrite block pos src) := by
  have hguard : (guard (pos + src.length ≤ 0x40) : Option Unit) = some () := if_pos h
  rw [block_copy_checked, hguard]
  rfl

lemma calculate_dxbc_checksum_checked_eq (hsize : 20 ≤ dwSize) (hlen : dwSize ≤ pData.length) :
    calculate_dxbc_checksum_checked pData dwSize =
      some (calculate_dxbc_checksum pData dwSize) := by
  have hfull : (dwSize - 20) / 64 * 64 ≤ dwSize - 20 := Nat.div_mul_le_self _ _
  have hfst : ((pData.take dwSize).drop 20).take ((dwSize - 20) / 64 * 64) =
      slice pData 20 ((dwSize - 20) / 64 * 64) := by
    rw [drop_take, take_take, Nat.min_eq_left hfull, slice]
  have hlast : ((pData.take dwSize).drop 20).drop ((dwSize - 20) / 64 * 64) =
      slice pData (20 + (dwSize - 20) / 64 * 64) (dwSize - 20 - (dwSize - 20) / 64 * 64) := by
    rw [drop_take, drop_take, drop_drop, slice]
  have hpadding : ∀ n, slice MD5_PADDING 0 n = MD5_PADDING.take n := fun n => rfl
  unfold calculate_dxbc_checksum_checked calculate_dxbc_checksum
  dsimp only
  simp only [bind_eq_bind]
  rw [hfst, hlast, md5_update_checked_eq _ (by omega), bind_some]
  by_cases hlong : 56 ≤ dwSize - 20 - (dwSize - 20) / 64 * 64
  · rw [if_pos hlong, if_pos hlong, md5_update_checked_eq _ (by omega), bind_some,
      md5_update_checked_eq _ (by show 0 + _ ≤ 64; omega), bind_some, hpadding]
    rfl
  · have hbits : slice (le32Bytes (ofNat (dwSize - 20) * 8)) 0 4 =
        le32Bytes (ofNat (dwSize - 20) * 8) := rfl
    have hpad : ∀ n, (MD5_PADDING.take n).length ≤ n := fun n => length_take_le _ _
    rw [if_neg hlong, if_neg hlong, md5_update_checked_eq _ (Nat.le_refl 4), bind_some, hbits,
      last_chunk_checked_eq _ (by omega), bind_some, block_copy_checked_eq _ (by
        have hn := hpad (64 - (dwSize - 20 - (dwSize - 20) / 64 * 64) - 4)
        omega), bind_some, block_copy_checked_eq _ (Nat.le_refl 64)]
    rfl

/-! ## Verification -/

variable {data' : Bytes}

lemma slice_congr (h : data.take n = data'.take n) {offset size : ℕ} (hin : offset + size ≤ n) :
    slice data offset size = slice data' offset size := by
  have hdata : slice (slice data 0 n) offset size = slice data (0 + offset) size :=
    slice_slice data hin
  have hdata' : slice (slice data' 0 n) offset size = slice data' (0 + offset) size :=
    slice_slice data' hin
  rw [Nat.zero_add] at hdata hdata'
  rw [← hdata, ← hdata']
  exact congrArg (slice · offset size) h

lemma wordAt_congr (h : data.take n = data'.take n) (hin : pos + 4 ≤ n) :
    wordAt data pos = wordAt data' pos := by
  have hdata := wordAt_slice data 0 hin
  have hdata' := wordAt_slice data' 0 hin
  rw [Nat.zero_add] at hdata hdata'
  rw [← hdata, ← hdata']
  exact congrArg (wordAt · pos) h

/-- **Verification sees only the bytes of the declared size.** -/
theorem dxbc_verify_hash_congr (rt : UnityCommon) {total_size : ℕ}
    (hdecl : (wordAt data 24).toNat = total_size) (hsize : 32 ≤ total_size)
    (hlen : total_size ≤ data.length) (hlen' : total_size ≤ data'.length)
    (h : data.take total_size = data'.take total_size) :
    dxbc_verify_hash rt data = dxbc_verify_hash rt data' := by
  have hword : wordAt data 24 = wordAt data' 24 := wordAt_congr h (by omega)
  have hstored : slice data 4 16 = slice data' 4 16 := slice_congr h (by omega)
  have hmessage : slice data 20 (total_size - 20) = slice data' 20 (total_size - 20) :=
    slice_congr h (by omega)
  have hlarge : ¬ data.length < 32 := by omega
  have hlarge' : ¬ data'.length < 32 := by omega
  unfold dxbc_verify_hash dxbc_compute_hash
  rw [if_neg hlarge, if_neg hlarge, if_neg hlarge', if_neg hlarge',
    read_u32_le_eq, read_u32_le_eq, ← hword]
  dsimp only
  rw [hdecl, if_neg (by omega), if_neg (by omega), calculate_dxbc_checksum_eq (by omega) hlen,
    calculate_dxbc_checksum_eq (by omega) hlen', hmessage]
  exact congrArg (· == _) hstored

/-- **The checksum of a container.** For every buffer and every size of at least 32 bytes within
it: with all its accesses to the block and to the data checked, the computation succeeds, and it is
the fold of MD5's compression function over the padded bytes from the stored hash to the size;
the computation that the other functions use is the same. Where the size is the declared one,
verification gives the same answer for every buffer with the same bytes up to it. -/
theorem dxbc_checksum_spec (rt : UnityCommon) (data : Bytes) (total_size : ℕ)
    (hsize : 32 ≤ total_size) (hlen : total_size ≤ data.length) :
    calculate_dxbc_checksum_checked data total_size =
        some (referenceChecksum (slice data 20 (total_size - 20))) ∧
      calculate_dxbc_checksum data total_size =
        referenceChecksum (slice data 20 (total_size - 20)) ∧
      ((wordAt data 24).toNat = total_size → ∀ data', total_size ≤ data'.length →
        data.take total_size = data'.take total_size →
        dxbc_verify_hash rt data = dxbc_verify_hash rt data') := by
  have hsum := calculate_dxbc_checksum_eq (show 20 ≤ total_size by omega) hlen
  refine ⟨?_, hsum, fun hdeclared data' hlen' h => ?_⟩
  · rw [calculate_dxbc_checksum_checked_eq (by omega) hlen, hsum]
  · exact dxbc_verify_hash_congr rt hdeclared hsize hlen hlen' h

/-- The checksum of an empty container of 32 bytes, with a byte behind it. -/
theorem dxbc_checksum_spec_sample : calculate_dxbc_checksum_checked
        (asciiBytes "DXBC" ++ List.replicate 20 0 ++ [32, 0, 0, 0] ++ List.replicate 5 0) 32 =
      some (referenceChecksum (List.replicate 4 0 ++ [32, 0, 0, 0] ++ List.replicate 4 0)) :=
  (dxbc_checksum_spec UnityCommon.reference
    (asciiBytes "DXBC" ++ replicate 20 0 ++ [32, 0, 0, 0] ++ replicate 5 0) 32
    (by decide) (by decide)).1

end DXBCSandbox
