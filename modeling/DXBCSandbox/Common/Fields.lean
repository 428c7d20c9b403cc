/-
Fields of records: stores into a buffer of zeros, and loads from a buffer.

A record is a row of fields. The writers store the fields at offsets and the readers load
them from offsets. Both are the same row of bytes: `store_chunks_zeros` for the writers and
`drop_eq_append_iff` for the readers.
-/
import DXBCSandbox.Words
import DXBCSandbox.Common.OraclePack

namespace DXBCSandbox

open List Option

/-! ## Loads -/

variable {pos : ℕ}

lemma slice_eight (data : Bytes) (h : pos + 8 ≤ data.length) :
    slice data pos 8 = (List.range 8).map fun i => byteAt data (pos + i) := by
  have h4 : slice data pos 8 = slice data pos 4 ++ slice data (pos + 4) 4 :=
    slice_add data pos 4 4
  rw [h4, slice_four data (by omega), slice_four data (by omega)]
  rfl

lemma or_byte_toNat {v : UInt64} {b : UInt8} {k : ℕ} (hk : k < 8) (hv : v.toNat < 256 ^ k) :
    (v ||| b.toUInt64 <<< UInt64.ofNat (k * 8)).toNat = v.toNat + 256 ^ k * b.toNat := by
  have hb := b.toNat_lt
  have hpow : (256 : ℕ) ^ k = 2 ^ (k * 8) := by
    rw [show (256 : ℕ) = 2 ^ 8 by decide, ← Nat.pow_mul, Nat.mul_comm]
  have hsmall : b.toNat <<< (k * 8) < 2 ^ 64 := by
    rw [Nat.shiftLeft_eq]
    calc b.toNat * 2 ^ (k * 8) < 256 * 2 ^ (k * 8) :=
          Nat.mul_lt_mul_of_pos_right hb (Nat.two_pow_pos _)
      _ ≤ 256 * 2 ^ 56 := Nat.mul_le_mul_left _ (Nat.pow_le_pow_right (by decide) (by omega))
      _ = 2 ^ 64 := by decide
  rw [UInt64.toNat_or, UInt64.toNat_shiftLeft, UInt8.toNat_toUInt64,
    UInt64.toNat_ofNat_of_lt' (by rw [UInt64.size]; omega), Nat.mod_eq_of_lt (by omega : k * 8 < 64),
    Nat.mod_eq_of_lt hsmall, hpow, or_shiftLeft_eq_add (hpow ▸ hv)]

lemma load_le64_rounds (f : ℕ → UInt8) {k : ℕ} (hk : k ≤ 8) :
    ((List.range k).foldl (fun value i =>
      value ||| (f i).toUInt64 <<< UInt64.ofNat (i * 8)) 0).toNat =
      leValue ((List.range k).map f) := by
  induction k with
  | zero => rfl
  | succ k ih =>
    have ih := ih (by omega)
    have hlt : leValue ((range k).map f) < 256 ^ k := by
      have := leValue_lt ((range k).map f)
      rwa [length_map, length_range] at this
    rw [range_succ, foldl_append, foldl_cons, foldl_nil,
      or_byte_toNat (by omega) (ih ▸ hlt), map_append, map_cons, map_nil,
      leValue_concat, ih, length_map, length_range]

variable {data : Bytes}

lemma load_size_eq (h : pos + 8 ≤ data.length) :
    load_size data pos = leValue (slice data pos 8) := by
  rw [load_size, load_le64, load_le64_rounds (fun i => byteAt data (pos + i)) (Nat.le_refl 8),
    slice_eight data h]

lemma load_le32_eq (h : pos + 4 ≤ data.length) :
    (load_le32 data pos).toNat = leValue (slice data pos 4) := wordAt_toNat h

/-! ## Rows of fields -/

/-- What starts at an offset is a field and a rest exactly when the field is there and the
rest comes behind it. -/
theorem drop_eq_append_iff {α : Type} (data field rest : List α) (offset : ℕ) :
    data.drop offset = field ++ rest ↔
      slice data offset field.length = field ∧ data.drop (offset + field.length) = rest := by
  constructor
  · intro h
    rw [slice, ← drop_drop, h, take_left', drop_left']
    · exact ⟨rfl, rfl⟩
    · rfl
    · rfl
  · rintro ⟨hfld, hrest⟩
    rw [drop_eq_slice_append data offset field.length, hfld, hrest]

variable {offset : ℕ}

lemma length_of_slice_eq {field : Bytes} {size : ℕ} (h : slice data offset size = field)
    (hsize : field.length = size) (hpos : 0 < size) : offset + size ≤ data.length := by
  have hlen := congrArg length h
  rw [slice, length_take, length_drop, hsize] at hlen
  omega

variable {n : ℕ}

lemma slice_eq_word_iff (hn : n < 2 ^ 32) : slice data offset 4 = leBytes 4 n ↔
      offset + 4 ≤ data.length ∧ (load_le32 data offset).toNat = n := by
  constructor
  · intro h
    have hlen := length_of_slice_eq h (length_leBytes 4 n) (by decide)
    rw [load_le32_eq hlen, h, leValue_leBytes (by simpa using hn)]
    exact ⟨hlen, rfl⟩
  · rintro ⟨hlen, rfl⟩
    exact (leBytes_wordAt data offset hlen).symm

lemma slice_eq_size_iff (hn : n ≤ SIZE_MAX) :
    slice data offset 8 = leBytes 8 n ↔ offset + 8 ≤ data.length ∧ load_size data offset = n := by
  unfold SIZE_MAX at hn
  constructor
  · intro h
    have hlen := length_of_slice_eq h (length_leBytes 8 n) (by decide)
    rw [load_size_eq hlen, h, leValue_leBytes (by omega)]
    exact ⟨hlen, rfl⟩
  · rintro ⟨hlen, rfl⟩
    have hround := leBytes_leValue (slice data offset 8)
    rw [length_slice hlen] at hround
    rw [load_size_eq hlen, hround]

lemma slice_eq_word (hn : n < 2 ^ 32) (hlen : offset + 4 ≤ data.length) :
    slice data offset 4 = leBytes 4 n ↔ (load_le32 data offset).toNat = n := by
  rw [slice_eq_word_iff hn, and_iff_right hlen]

lemma slice_eq_size (hn : n ≤ SIZE_MAX) (hlen : offset + 8 ≤ data.length) :
    slice data offset 8 = leBytes 8 n ↔ load_size data offset = n := by
  rw [slice_eq_size_iff hn, and_iff_right hlen]

lemma load_size_le (data : Bytes) (pos : ℕ) : load_size data pos ≤ SIZE_MAX := by
  have := (load_le64 data pos).toNat_lt
  rw [load_size, SIZE_MAX]
  omega

/-! ## Stores -/

def store_chunks (data : Bytes) (pos : ℕ) : List Bytes → Bytes
  | [] => data
  | chunk :: chunks => store_chunks (overwrite data pos chunk) (pos + chunk.length) chunks

lemma overwrite_nil (data : Bytes) (pos : ℕ) : overwrite data pos [] = data := by
  rw [overwrite, append_nil, length_nil, Nat.add_zero, take_append_drop]

lemma overwrite_zeros (a c bytes : Bytes) (h : bytes.length ≤ n) (hpos : pos = a.length) :
    overwrite (a ++ (List.replicate n 0 ++ c)) pos bytes =
      (a ++ bytes) ++ (List.replicate (n - bytes.length) 0 ++ c) := by
  subst hpos
  rw [overwrite, take_left' rfl, ← drop_drop, drop_left' rfl, drop_append,
    drop_replicate, length_replicate, Nat.sub_eq_zero_of_le h, drop_zero]

lemma store_chunks_zeros (chunks : List Bytes) (a c : Bytes)
    (h : chunks.flatten.length ≤ n) (hpos : pos = a.length) :
    store_chunks (a ++ (List.replicate n 0 ++ c)) pos chunks =
      (a ++ chunks.flatten) ++ (List.replicate (n - chunks.flatten.length) 0 ++ c) := by
  induction chunks generalizing a n pos with
  | nil => simp [store_chunks]
  | cons chunk chunks ih =>
    rw [flatten_cons, length_append] at h
    rw [store_chunks, overwrite_zeros a c chunk (by omega) hpos,
      ih (a ++ chunk) (by omega) (by rw [length_append, hpos]), flatten_cons,
      length_append, append_assoc a, Nat.sub_sub]

lemma store_chunks_append (data : Bytes) (pos : ℕ) (as bs : List Bytes) :
    store_chunks data pos (as ++ bs) =
      store_chunks (store_chunks data pos as) (pos + as.flatten.length) bs := by
  induction as generalizing data pos with
  | nil => simp [store_chunks]
  | cons a as ih =>
    rw [cons_append, store_chunks, ih, store_chunks, flatten_cons, length_append, Nat.add_assoc]

lemma store_le32_eq (data : Bytes) (pos : ℕ) (value : UInt32) :
    store_le32 data pos value = overwrite data pos (leBytes 4 value.toNat) := by
  rw [store_le32, le32Bytes_eq]

lemma store_size_eq (data : Bytes) (pos : ℕ) {value : ℕ} (h : value ≤ SIZE_MAX) :
    store_size data pos value = overwrite data pos (leBytes 8 value) := by
  unfold SIZE_MAX at h
  rw [store_size, store_le64, le64Bytes_eq, UInt64.toNat_ofNat_of_lt' (by rw [UInt64.size]; omega)]

/-! ## Sizes -/

lemma add_size_eq_some {left right : ℕ} (hright : right ≤ SIZE_MAX ∨ 0 < left) :
    add_size left right = some n ↔ n = left + right ∧ n ≤ SIZE_MAX := by
  unfold add_size
  split_ifs with h
  · constructor
    · intro h
      simp at h
    · omega
  · rw [some.injEq]
    omega

/-- The checked sum that adds `n` to a total. -/
def SumsTo (f : ℕ → Option ℕ) (n : ℕ) : Prop :=
  ∀ ⦃total : ℕ⦄, 0 < total → total ≤ SIZE_MAX → ∀ t, f total = some t ↔ t = total + n ∧ t ≤ SIZE_MAX

lemma sumsTo_some : SumsTo some 0 := fun total _ hle t => by
  rw [some.injEq]
  omega

lemma sumsTo_add_size (size : ℕ) : SumsTo (add_size · size) size :=
  fun _ hpos _ _ => add_size_eq_some (.inr hpos)

variable {f g : ℕ → Option ℕ} {m k : ℕ}

lemma SumsTo.bind (hf : SumsTo f m) (hg : SumsTo g n) :
    SumsTo (fun total => f total >>= g) (m + n) := fun total hpos hle t => by
  rw [bind_eq_bind, bind_eq_some_iff]
  constructor
  · rintro ⟨next, hnext, ht⟩
    obtain ⟨rfl, hnext⟩ := (hf hpos hle next).mp hnext
    have := (hg (by omega) hnext t).mp ht
    omega
  · intro h
    exact ⟨total + m, (hf hpos hle _).mpr ⟨rfl, by omega⟩,
      (hg (by omega) (by omega) t).mpr (by omega)⟩

/-- A size that is summed up first and then added. -/
theorem SumsTo.add_size (hf : SumsTo f m) (hg : SumsTo g k) (hpos : 0 < n) (hle : n ≤ SIZE_MAX) :
    SumsTo (fun total => do g (← add_size total (← f n))) (n + m + k) := by
  intro total htotal _ t
  simp only [bind_eq_bind, bind_eq_some_iff]
  constructor
  · rintro ⟨size, hsize, next, hnext, ht⟩
    obtain ⟨rfl, -⟩ := (hf hpos hle size).mp hsize
    obtain ⟨rfl, hnext⟩ := (add_size_eq_some (.inr htotal)).mp hnext
    have := (hg (by omega) hnext t).mp ht
    omega
  · intro h
    exact ⟨n + m, (hf hpos hle _).mpr ⟨rfl, by omega⟩, total + (n + m),
      (add_size_eq_some (.inr htotal)).mpr ⟨rfl, by omega⟩,
      (hg (by omega) (by omega) t).mpr (by omega)⟩

lemma multiply_size_eq_some {left right : ℕ} (hright : right ≤ SIZE_MAX) :
    multiply_size left right = some n ↔ n = left * right ∧ n ≤ SIZE_MAX := by
  unfold multiply_size
  have hdiv : left ≠ 0 → (SIZE_MAX / left < right ↔ SIZE_MAX < left * right) := fun h => by
    rw [Nat.div_lt_iff_lt_mul (by omega), Nat.mul_comm]
  split_ifs with h
  · rw [hdiv h.1] at h
    constructor
    · intro h
      simp at h
    · omega
  · rw [some.injEq]
    rcases Nat.eq_zero_or_pos left with rfl | hpos
    · rw [Nat.zero_mul]
      omega
    · rw [hdiv (by omega)] at h
      omega

end DXBCSandbox
