/-
The container checksum (`src/dxbc/dxbc_hash.c`): MD5 with its own padding, over
everything after the stored hash.

The padding differs from MD5's. The bit count is written as the first word of the
last block and `(bits >> 2) | 1` as its last word, so a tail of 56 bytes or more
needs a second block.

`md5Ctx.in` is uninitialised in C. Every byte of it is written before it is read,
so the model starts it at zero.
-/
import DXBCSandbox.Runtime

namespace DXBCSandbox

/-! ## The compression function -/

variable (x y z : UInt32)

def MD5_F : UInt32 := (x &&& y) ||| (~~~x &&& z)
def MD5_G : UInt32 := (x &&& z) ||| (y &&& ~~~z)
def MD5_H : UInt32 := x ^^^ y ^^^ z
def MD5_I : UInt32 := y ^^^ (x ||| ~~~z)

def ROTATE_LEFT (x n : UInt32) : UInt32 := (x <<< n) ||| (x >>> (32 - n))

structure MD5Words where
  a : UInt32
  b : UInt32
  c : UInt32
  d : UInt32

/-- `MD5_FF` and its three siblings, for `f` one of the four round functions. Each
updates its first argument. The calls of a round name the four words in rotation,
`(a, b, c, d)`, `(d, a, b, c)`, and so on, so the result is rotated here. -/
def md5_step (f : UInt32 → UInt32 → UInt32 → UInt32) (v : MD5Words) (x s ac : UInt32) : MD5Words :=
  let a := ROTATE_LEFT (v.a + (f v.b v.c v.d + x + ac)) s + v.b
  ⟨v.d, a, v.b, v.c⟩

/-- The input word, rotation and constant of every step of round 1. -/
def md5_round1 : List (ℕ × UInt32 × UInt32) :=
  [(0, 7, 3614090360), (1, 12, 3905402710), (2, 17, 606105819), (3, 22, 3250441966),
   (4, 7, 4118548399), (5, 12, 1200080426), (6, 17, 2821735955), (7, 22, 4249261313),
   (8, 7, 1770035416), (9, 12, 2336552879), (10, 17, 4294925233), (11, 22, 2304563134),
   (12, 7, 1804603682), (13, 12, 4254626195), (14, 17, 2792965006), (15, 22, 1236535329)]

def md5_round2 : List (ℕ × UInt32 × UInt32) :=
  [(1, 5, 4129170786), (6, 9, 3225465664), (11, 14, 643717713), (0, 20, 3921069994),
   (5, 5, 3593408605), (10, 9, 38016083), (15, 14, 3634488961), (4, 20, 3889429448),
   (9, 5, 568446438), (14, 9, 3275163606), (3, 14, 4107603335), (8, 20, 1163531501),
   (13, 5, 2850285829), (2, 9, 4243563512), (7, 14, 1735328473), (12, 20, 2368359562)]

def md5_round3 : List (ℕ × UInt32 × UInt32) :=
  [(5, 4, 4294588738), (8, 11, 2272392833), (11, 16, 1839030562), (14, 23, 4259657740),
   (1, 4, 2763975236), (4, 11, 1272893353), (7, 16, 4139469664), (10, 23, 3200236656),
   (13, 4, 681279174), (0, 11, 3936430074), (3, 16, 3572445317), (6, 23, 76029189),
   (9, 4, 3654602809), (12, 11, 3873151461), (15, 16, 530742520), (2, 23, 3299628645)]

def md5_round4 : List (ℕ × UInt32 × UInt32) :=
  [(0, 6, 4096336452), (7, 10, 1126891415), (14, 15, 2878612391), (5, 21, 4237533241),
   (12, 6, 1700485571), (3, 10, 2399980690), (10, 15, 4293915773), (1, 21, 2240044497),
   (8, 6, 1873313359), (15, 10, 4264355552), (6, 15, 2734768916), (13, 21, 1309151649),
   (4, 6, 4149444226), (11, 10, 3174756917), (2, 15, 718787259), (9, 21, 3951481745)]

def md5_round (f : UInt32 → UInt32 → UInt32 → UInt32) (block : List UInt32)
    (steps : List (ℕ × UInt32 × UInt32)) (v : MD5Words) : MD5Words :=
  steps.foldl (fun v (k, s, ac) => md5_step f v (block.getD k 0) s ac) v

def md5_transform (buf : MD5Words) (block : List UInt32) : MD5Words :=
  let v := md5_round MD5_F block md5_round1 buf
  let v := md5_round MD5_G block md5_round2 v
  let v := md5_round MD5_H block md5_round3 v
  let v := md5_round MD5_I block md5_round4 v
  ⟨buf.a + v.a, buf.b + v.b, buf.c + v.c, buf.d + v.d⟩

/-! ## The streaming context -/

/-- `MD5_CTX`, with the bit count `i` as its two words. -/
structure MD5_CTX where
  i0 : UInt32
  i1 : UInt32
  buf : MD5Words
  block : Bytes

def md5_init : MD5_CTX where
  i0 := 0
  i1 := 0
  buf := ⟨0x67452301, 0xefcdab89, 0x98badcfe, 0x10325476⟩
  block := List.replicate 64 0

def md5_block_words (block : Bytes) : List UInt32 := wordsAt block 0 16

/-- The byte loop of `md5_update`, `mdi` bytes into the block. -/
def md5_update_bytes : (inBuf : Bytes) → (mdi : ℕ) → MD5_CTX → MD5_CTX
  | [], _, ctx => ctx
  | byte :: inBuf, mdi, ctx =>
    let ctx := { ctx with block := ctx.block.set mdi byte }
    if mdi + 1 = 0x40 then
      md5_update_bytes inBuf 0 { ctx with buf := md5_transform ctx.buf (md5_block_words ctx.block) }
    else md5_update_bytes inBuf (mdi + 1) ctx

def md5_update (ctx : MD5_CTX) (inBuf : Bytes) : MD5_CTX :=
  let inLen := UInt32.ofNat inBuf.length
  let mdi := ((ctx.i0 >>> 3) &&& 0x3f).toNat
  let i1 := if ctx.i0 + (inLen <<< 3) < ctx.i0 then ctx.i1 + 1 else ctx.i1
  md5_update_bytes inBuf mdi { ctx with i0 := ctx.i0 + (inLen <<< 3), i1 := i1 + (inLen >>> 29) }

/-! ## The container checksum -/

def MD5_PADDING : Bytes := 0x80 :: List.replicate 63 0

def le32Bytes (w : UInt32) : Bytes :=
  [w.toUInt8, (w >>> 8).toUInt8, (w >>> 16).toUInt8, (w >>> 24).toUInt8]

/-- `memcpy(&dst[pos], src, src_length)`. -/
def overwrite (dst : Bytes) (pos : ℕ) (src : Bytes) : Bytes :=
  dst.take pos ++ src ++ dst.drop (pos + src.length)

/-- The checksum of the first `dwSize` bytes of `pData`. The caller has checked that
there are at least 32 of them. -/
def calculate_dxbc_checksum (pData : Bytes) (dwSize : ℕ) : MD5Words :=
  let dwHashOffset := 20
  let pData := (pData.take dwSize).drop dwHashOffset
  let dwSize := dwSize - dwHashOffset
  let dwNumberOfBits := UInt32.ofNat dwSize * 8
  let dwFullChunksSize := dwSize / 64 * 64
  let ctx := md5_update md5_init (pData.take dwFullChunksSize)
  let dwLastChunkSize := dwSize - dwFullChunksSize
  let dwPaddingSize := 64 - dwLastChunkSize
  let pLastChunkData := pData.drop dwFullChunksSize
  if 56 ≤ dwLastChunkSize then
    let ctx := md5_update ctx pLastChunkData
    let ctx := md5_update ctx (MD5_PADDING.take dwPaddingSize)
    md5_transform ctx.buf
      (dwNumberOfBits :: List.replicate 14 (0 : UInt32) ++ [(dwNumberOfBits >>> 2) ||| 1])
  else
    let ctx := md5_update ctx (le32Bytes dwNumberOfBits)
    let ctx := if dwLastChunkSize ≠ 0 then md5_update ctx pLastChunkData else ctx
    let block := overwrite ctx.block (dwLastChunkSize + 4) (MD5_PADDING.take (dwPaddingSize - 4))
    let block := overwrite block 60 (le32Bytes ((dwNumberOfBits >>> 2) ||| 1))
    md5_transform ctx.buf (md5_block_words block)

/-- `memcpy(out_hash, computed_hash, 16)`. -/
def MD5Words.bytes (v : MD5Words) : Bytes :=
  le32Bytes v.a ++ le32Bytes v.b ++ le32Bytes v.c ++ le32Bytes v.d

section

variable (rt : UnityCommon)

/-- `read_u32_le` of the document and container readers: the word at a byte offset
the caller has checked. -/
def read_u32_le (bytes : Bytes) (pos : ℕ) : UInt32 :=
  rt.read_le32 (byteAt bytes pos) (byteAt bytes (pos + 1)) (byteAt bytes (pos + 2))
    (byteAt bytes (pos + 3))

lemma read_u32_le_eq (bytes : Bytes) (pos : ℕ) : read_u32_le rt bytes pos = wordAt bytes pos := by
  rw [read_u32_le, rt.read_le32_eq, wordAt]

def dxbc_compute_hash (data : Bytes) : Option Bytes :=
  if data.length < 32 then none
  else
    let total_size := (read_u32_le rt data 24).toNat
    if total_size < 32 ∨ data.length < total_size then none
    else some (calculate_dxbc_checksum data total_size).bytes

def dxbc_verify_hash (data : Bytes) : Bool :=
  if data.length < 32 then false
  else
    match dxbc_compute_hash rt data with
    | none => false
    | some computed_hash => (data.drop 4).take 16 == computed_hash

end

end DXBCSandbox
