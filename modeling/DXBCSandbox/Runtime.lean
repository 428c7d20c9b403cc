/-
The shared runtime the decoders are written against.

`common/stream.h` and `common/common.h` come from the `external/UnityCommon`
submodule, which is not part of this repository. The decoders only use three of
its entry points, so they enter the model as the fields of [`UnityCommon`],
together with what their callers rely on: a read of a 32-bit word succeeds
exactly when four bytes are left, returns them in the stream's byte order and
advances by four.

Allocation is not modelled: every `mem_alloc`, `malloc` and `calloc` of the
source is taken to succeed.
-/
import Mathlib.Algebra.Order.Ring.Int
import Mathlib.Data.List.GetD

namespace DXBCSandbox

def INT_MAX : ℕ := 2147483647

def UINT32_MAX : ℕ := 4294967295

def UINT64_MAX : ℕ := 18446744073709551615

def SIZE_MAX : ℕ := 18446744073709551615

/-! ## Bytes and words -/

abbrev Bytes := List UInt8

/-- The proof by which membership in a list of texts is decided. -/
instance lawfulBEqBytes : LawfulBEq Bytes := inferInstance

variable (data : Bytes)

/-- The byte at `i`, zero past the end. -/
def byteAt (i : ℕ) : UInt8 := data.getD i 0

def asciiBytes (name : String) : Bytes := name.toList.map fun c => c.toNat.toUInt8

/-- The digits that `%d` and `%zu` print. -/
def decimalBytes (n : ℕ) : Bytes := (Nat.toDigits 10 n).map fun c => c.toNat.toUInt8

/-- Four bytes in increasing significance. -/
def le32 (b0 b1 b2 b3 : UInt8) : UInt32 :=
  b0.toUInt32 ||| (b1.toUInt32 <<< 8) ||| (b2.toUInt32 <<< 16) ||| (b3.toUInt32 <<< 24)

/-- The little-endian word at byte `pos`. -/
def wordAt (pos : ℕ) : UInt32 :=
  le32 (byteAt data pos) (byteAt data (pos + 1)) (byteAt data (pos + 2)) (byteAt data (pos + 3))

/-- The `n` consecutive little-endian words from byte `pos`. -/
def wordsAt (data : Bytes) (pos : ℕ) : ℕ → List UInt32
  | 0 => []
  | n + 1 => wordAt data pos :: wordsAt data (pos + 4) n

@[simp] lemma wordsAt_length (pos n : ℕ) : (wordsAt data pos n).length = n := by
  induction n generalizing pos with
  | zero => rfl
  | succ n ih => rw [wordsAt, List.length_cons, ih]

lemma wordsAt_append (pos n m : ℕ) :
    wordsAt data pos (n + m) = wordsAt data pos n ++ wordsAt data (pos + 4 * n) m := by
  induction n generalizing pos with
  | zero => simp only [Nat.zero_add, wordsAt, List.nil_append, Nat.mul_zero, Nat.add_zero]
  | succ n ih =>
    rw [show n + 1 + m = (n + m) + 1 by omega, wordsAt, wordsAt, ih,
      show pos + 4 + 4 * n = pos + 4 * (n + 1) by omega, List.cons_append]

lemma wordsAt_getElem? (data : Bytes) (pos n k : ℕ) (hk : k < n) :
    (wordsAt data pos n)[k]? = some (wordAt data (pos + 4 * k)) := by
  induction n generalizing pos k with
  | zero => omega
  | succ n ih =>
    cases k with
    | zero => rfl
    | succ k =>
      rw [wordsAt, List.getElem?_cons_succ, ih _ _ (by omega)]
      congr 2
      omega

/-! ## Streams -/

/-- A `ByteStream` over little-endian data, as `stream_set_endian(stream, false)`
leaves it. The decoders never read one in the other byte order. -/
structure ByteStream where
  data : Bytes
  position : ℕ
  deriving DecidableEq

namespace ByteStream

def size (s : ByteStream) : ℕ := s.data.length

def advance (s : ByteStream) (n : ℕ) : ByteStream := { s with position := s.position + n }

@[simp] lemma advance_data (s : ByteStream) (n : ℕ) : (s.advance n).data = s.data := rfl

@[simp] lemma advance_position (s : ByteStream) (n : ℕ) :
    (s.advance n).position = s.position + n := rfl

lemma advance_advance (s : ByteStream) (n m : ℕ) :
    (s.advance n).advance m = s.advance (n + m) := by
  simp only [advance, Nat.add_assoc]

/-- The words a reader took between two positions of one stream. -/
def consumed (s s' : ByteStream) : List UInt32 :=
  wordsAt s.data s.position ((s'.position - s.position) / 4)

/-- `s'` is `s` after its next words `ws` have been read. -/
def Reads (s s' : ByteStream) (ws : List UInt32) : Prop :=
  s' = s.advance (4 * ws.length) ∧ ws = wordsAt s.data s.position ws.length

lemma Reads.nil (s : ByteStream) : s.Reads s [] := ⟨rfl, rfl⟩

variable {s s' : ByteStream} {ws : List UInt32}

lemma Reads.append {s'' : ByteStream} {vs : List UInt32} (h : s.Reads s' ws)
    (h' : s'.Reads s'' vs) : s.Reads s'' (ws ++ vs) := by
  obtain ⟨rfl, hws⟩ := h
  obtain ⟨rfl, hvs⟩ := h'
  refine ⟨?_, ?_⟩
  · rw [advance_advance, List.length_append, Nat.mul_add]
  · rw [List.length_append, wordsAt_append, ← hws]
    exact congrArg (ws ++ ·) hvs

lemma Reads.data_eq (h : s.Reads s' ws) : s'.data = s.data := by rw [h.1, advance_data]

lemma Reads.position_eq (h : s.Reads s' ws) :
    s'.position = s.position + 4 * ws.length := by rw [h.1, advance_position]

lemma Reads.consumed_eq (h : s.Reads s' ws) : s.consumed s' = ws := by
  rw [consumed, h.position_eq, Nat.add_sub_cancel_left, Nat.mul_div_cancel_left _ (by omega)]
  exact h.2.symm

end ByteStream

/-! ## The runtime -/

/-- What the decoders use of `external/UnityCommon`. `read_le32` stands for the
four-byte `memcpy` followed by the byte-order fix, which is how every caller
uses it. -/
structure UnityCommon where
  read_le32 : UInt8 → UInt8 → UInt8 → UInt8 → UInt32
  stream_read_uint32 : ByteStream → Option (UInt32 × ByteStream)
  stream_read_bytes : ByteStream → ℕ → Option (Bytes × ByteStream)
  read_le32_eq : ∀ b0 b1 b2 b3, read_le32 b0 b1 b2 b3 = le32 b0 b1 b2 b3
  stream_read_uint32_eq : ∀ s, stream_read_uint32 s =
    if s.position ≤ s.size ∧ 4 ≤ s.size - s.position then
      some (wordAt s.data s.position, s.advance 4) else none
  stream_read_bytes_eq : ∀ s n, stream_read_bytes s n =
    if s.position ≤ s.size ∧ n ≤ s.size - s.position then
      some ((s.data.drop s.position).take n, s.advance n) else none

namespace UnityCommon

/-- The runtime computed directly from its description. -/
def reference : UnityCommon where
  read_le32 := le32
  stream_read_uint32 s :=
    if s.position ≤ s.size ∧ 4 ≤ s.size - s.position then
      some (wordAt s.data s.position, s.advance 4) else none
  stream_read_bytes s n :=
    if s.position ≤ s.size ∧ n ≤ s.size - s.position then
      some ((s.data.drop s.position).take n, s.advance n) else none
  read_le32_eq _ _ _ _ := rfl
  stream_read_uint32_eq _ := rfl
  stream_read_bytes_eq _ _ := rfl

lemma stream_read_uint32_reads {rt : UnityCommon} {s s' : ByteStream} {w : UInt32}
    (h : rt.stream_read_uint32 s = some (w, s')) :
    s.Reads s' [w] ∧ s'.position ≤ s.size := by
  rw [rt.stream_read_uint32_eq] at h
  split at h
  · rename_i hc
    simp only [Option.some.injEq, Prod.mk.injEq] at h
    obtain ⟨rfl, rfl⟩ := h
    refine ⟨⟨rfl, rfl⟩, ?_⟩
    rw [ByteStream.advance_position]
    omega
  · exact absurd h (by simp only [reduceCtorEq, not_false_eq_true])

end UnityCommon

/-- The size checks of `common/common.h`. -/
structure SizeChecks where
  dxbc_size_add_overflows : ℕ → ℕ → Bool
  dxbc_size_add_overflows_eq : ∀ a b, dxbc_size_add_overflows a b = decide (SIZE_MAX < a + b)

/-- The size checks computed directly from their description. -/
def SizeChecks.reference : SizeChecks where
  dxbc_size_add_overflows a b := decide (SIZE_MAX < a + b)
  dxbc_size_add_overflows_eq _ _ := rfl

end DXBCSandbox
