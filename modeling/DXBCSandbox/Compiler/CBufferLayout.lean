/-
The layout of constant-buffer fields (`src/compiler/unity_hlsl_cbuffer_inventory.c`).

A field goes to the cursor, or to the next row of 16 bytes where it would straddle one or is a
matrix. That is the least place that the rules allow after the field before it, so the layout of a
block is determined by its declarations in their order.
-/
import Mathlib.Algebra.Ring.Nat
import Mathlib.Order.Bounds.Basic

namespace DXBCSandbox

open Prod

inductive UnityHlslCBufferStatus where
  | ok | invalidArgument | analysisLimit | malformedExpansion | unsupportedDirective
  | unsupportedDeclaration | missingDeclaration | conflictingDeclaration | allocationFailed
  deriving DecidableEq

/-- The scalar types; `invalid` is any other value of the enumeration. -/
inductive UnityHlslCBufferScalar where
  | float | half | int | uint | bool | invalid
  deriving DecidableEq

structure UnityHlslCBufferField where
  scalar : UnityHlslCBufferScalar
  rows : UInt8
  columns : UInt8
  is_matrix : Bool
  byte_offset : UInt32
  byte_size : UInt32

def shape_is_unsupported (field : UnityHlslCBufferField) : Bool :=
  field.scalar = .invalid ∨ field.rows = 0 ∨ 4 < field.rows ∨ field.columns = 0 ∨
    4 < field.columns ∨
    (if field.is_matrix then field.scalar ≠ .float ∨ field.rows ≠ 4 ∨ field.columns ≠ 4
      else field.rows ≠ 1)

/-- The field and the cursor are as the call leaves them. -/
def unity_hlsl_cbuffer_layout_field (field : UnityHlslCBufferField) (cursor : UInt32) :
    UnityHlslCBufferStatus × UnityHlslCBufferField × UInt32 :=
  if shape_is_unsupported field then (.unsupportedDeclaration, field, cursor)
  else if 65536 < cursor then (.analysisLimit, field, cursor)
  else
    let size := if field.is_matrix then field.columns.toUInt32 * 16 else field.columns.toUInt32 * 4
    let offset := if field.is_matrix ∨ 16 < (cursor &&& 15) + size then (cursor + 15) &&& ~~~15
      else cursor
    if 65536 - offset < size then (.analysisLimit, field, cursor)
    else (.ok, { field with byte_offset := offset, byte_size := size }, offset + size)

def unity_hlsl_cbuffer_layout_extent (cursor : UInt32) : Except UnityHlslCBufferStatus UInt32 :=
  if 65536 < cursor then .error .analysisLimit else .ok ((cursor + 15) &&& ~~~15)

/-- The loop over the declarations of a block: the accepted fields and the cursor. -/
def layout_fields : List UnityHlslCBufferField → (cursor : UInt32) →
    List UnityHlslCBufferField × UInt32
  | [], cursor => ([], cursor)
  | field :: fields, cursor =>
    let laid := unity_hlsl_cbuffer_layout_field field cursor
    let rest := layout_fields fields laid.2.2
    if laid.1 = .ok then (laid.2.1 :: rest.1, rest.2) else rest

namespace CBufferLayout

/-! ## Rows -/

lemma and_row_mask {n : ℕ} (h : n < 2 ^ 32) : n &&& 4294967280 = n / 16 * 16 := by
  have hmask : 4294967280 = (2 ^ 28 - 1) <<< 4 := by decide
  have hrow : n / 16 * 16 = (n >>> 4) <<< 4 := by
    rw [Nat.shiftLeft_eq, Nat.shiftRight_eq_div_pow]
  rw [hmask, hrow]
  apply Nat.eq_of_testBit_eq
  intro i
  rw [Nat.testBit_and, Nat.testBit_shiftLeft, Nat.testBit_shiftLeft, Nat.testBit_shiftRight,
    Nat.testBit_two_pow_sub_one]
  by_cases hi : 4 ≤ i
  · rw [decide_eq_true hi, Bool.true_and, Bool.true_and, show 4 + (i - 4) = i by omega]
    rcases Nat.lt_or_ge i 32 with hlt | hge
    · rw [decide_eq_true (by omega), Bool.and_true]
    · have hzero : n.testBit i = false :=
        Nat.testBit_lt_two_pow (h.trans_le (Nat.pow_le_pow_right (by decide) hge))
      rw [hzero, Bool.false_and]
  · rw [decide_eq_false hi, Bool.false_and, Bool.false_and, Bool.and_false]

lemma toNat_row {cursor : UInt32} (h : cursor ≤ 65536) :
    ((cursor + 15) &&& ~~~15).toNat = (cursor.toNat + 15) / 16 * 16 := by
  have hle : cursor.toNat ≤ 65536 := UInt32.le_iff_toNat_le.mp h
  have hmask : (~~~15 : UInt32).toNat = 4294967280 := by decide
  have hsum : (cursor + 15).toNat = cursor.toNat + 15 := by
    rw [UInt32.toNat_add]
    exact Nat.mod_eq_of_lt (by show cursor.toNat + 15 < 2 ^ 32; omega)
  rw [UInt32.toNat_and, hmask, hsum, and_row_mask (by omega)]

lemma toNat_column (cursor : UInt32) : (cursor &&& 15).toNat = cursor.toNat % 16 := by
  rw [UInt32.toNat_and]
  exact Nat.and_two_pow_sub_one_eq_mod cursor.toNat 4

/-! ## Places -/

def size (field : UnityHlslCBufferField) : ℕ :=
  if field.is_matrix then field.columns.toNat * 16 else field.columns.toNat * 4

/-- The rules for the place of a field: a matrix starts on a row, and anything else starts at a
multiple of four and stays in its row. -/
def Allowed (field : UnityHlslCBufferField) (offset : ℕ) : Prop :=
  4 ∣ offset ∧ if field.is_matrix then 16 ∣ offset else offset % 16 + size field ≤ 16

/-- Every field has the least place that is allowed after the field before it. -/
def Packed : (start : ℕ) → List UnityHlslCBufferField → (stop : ℕ) → Prop
  | start, [], stop => stop = start
  | start, field :: fields, stop =>
    field.byte_size.toNat = size field ∧ 0 < size field ∧
    IsLeast {offset | start ≤ offset ∧ Allowed field offset} field.byte_offset.toNat ∧
    Packed (field.byte_offset.toNat + field.byte_size.toNat) fields stop

def fieldEnd (field : UnityHlslCBufferField) : ℕ :=
  field.byte_offset.toNat + field.byte_size.toNat

namespace Packed

variable {start stop : ℕ} {fields : List UnityHlslCBufferField} (h : Packed start fields stop)

include h

lemma start_le : start ≤ stop := by
  induction fields generalizing start with
  | nil => exact h.ge
  | cons field fields ih =>
    obtain ⟨-, -, hleast, hrest⟩ := h
    have hafter := ih hrest
    have hplace : start ≤ field.byte_offset.toNat := hleast.1.1
    omega

lemma within {field : UnityHlslCBufferField} (hmem : field ∈ fields) :
    start ≤ field.byte_offset.toNat ∧ fieldEnd field ≤ stop := by
  induction fields generalizing start with
  | nil => nomatch hmem
  | cons first fields ih =>
    obtain ⟨-, -, hleast, hrest⟩ := h
    have hplace : start ≤ first.byte_offset.toNat := hleast.1.1
    rcases List.mem_cons.mp hmem with rfl | hmem
    · exact ⟨hplace, hrest.start_le⟩
    · obtain ⟨hafter, hend⟩ := ih hrest hmem
      exact ⟨by omega, hend⟩

lemma increasing : fields.Pairwise fun a b => fieldEnd a ≤ b.byte_offset.toNat := by
  induction fields generalizing start with
  | nil => exact .nil
  | cons field fields ih =>
    obtain ⟨-, -, -, hrest⟩ := h
    exact .cons (fun after hmem => (hrest.within hmem).1) (ih hrest)

lemma allowed {field : UnityHlslCBufferField} (hmem : field ∈ fields) :
    field.byte_size.toNat = size field ∧ 0 < size field ∧
      Allowed field field.byte_offset.toNat := by
  induction fields generalizing start with
  | nil => nomatch hmem
  | cons first fields ih =>
    obtain ⟨hbytes, hpos, hleast, hrest⟩ := h
    rcases List.mem_cons.mp hmem with rfl | hmem
    · exact ⟨hbytes, hpos, hleast.1.2⟩
    · exact ih hrest hmem

lemma stop_le {bound : ℕ} (hstart : start ≤ bound)
    (hbnd : ∀ field ∈ fields, fieldEnd field ≤ bound) : stop ≤ bound := by
  induction fields generalizing start with
  | nil => exact h.trans_le hstart
  | cons field fields ih =>
    obtain ⟨-, -, -, hrest⟩ := h
    exact ih hrest (hbnd field List.mem_cons_self)
      (List.forall_mem_cons.mp hbnd).2

end Packed

section Step

variable {field : UnityHlslCBufferField} {cursor : UInt32}

lemma layout_field_rejected (h : (unity_hlsl_cbuffer_layout_field field cursor).1 ≠ .ok) :
    (unity_hlsl_cbuffer_layout_field field cursor).2 = (field, cursor) := by
  unfold unity_hlsl_cbuffer_layout_field at h ⊢
  dsimp only at h ⊢
  split_ifs at h ⊢ <;> first | rfl | exact absurd rfl h

lemma isLeast_place (hcursor : 4 ∣ cursor.toNat) (hsize : 4 ∣ size field)
    (hsmall : field.is_matrix = false → size field ≤ 16) :
    IsLeast {offset | cursor.toNat ≤ offset ∧ Allowed field offset}
      (if field.is_matrix ∨ 16 < cursor.toNat % 16 + size field then (cursor.toNat + 15) / 16 * 16
        else cursor.toNat) := by
  unfold Allowed
  by_cases hmatrix : field.is_matrix = true
  · rw [if_pos (.inl hmatrix)]
    simp only [hmatrix, if_true]
    constructor
    · rw [Set.mem_ofPred_eq]
      omega
    · rintro offset ⟨hle, -, hrow⟩
      omega
  · have hsize_le := hsmall (Bool.eq_false_iff.mpr hmatrix)
    rw [Bool.eq_false_iff.mpr hmatrix]
    simp only [Bool.false_eq_true, false_or, if_false]
    by_cases hrow : 16 < cursor.toNat % 16 + size field
    · -- Every place in the rest of the row straddles it.
      rw [if_pos hrow]
      constructor
      · rw [Set.mem_ofPred_eq]
        omega
      · rintro offset ⟨hle, hfour, hstays⟩
        omega
    · rw [if_neg hrow]
      constructor
      · rw [Set.mem_ofPred_eq]
        omega
      · exact fun offset h => h.1

lemma toNat_size (hcolumns : field.columns ≤ 4) :
    (if field.is_matrix then field.columns.toUInt32 * 16
      else field.columns.toUInt32 * 4).toNat = size field := by
  have hle : field.columns.toNat ≤ 4 := UInt8.le_iff_toNat_le.mp hcolumns
  unfold size
  split_ifs
  · rw [UInt32.toNat_mul, UInt8.toNat_toUInt32]
    exact Nat.mod_eq_of_lt (by show field.columns.toNat * 16 < 2 ^ 32; omega)
  · rw [UInt32.toNat_mul, UInt8.toNat_toUInt32]
    exact Nat.mod_eq_of_lt (by show field.columns.toNat * 4 < 2 ^ 32; omega)

/-- A field of a supported shape goes to its least place if its end is within the limit. -/
theorem layout_field_eq (hshape : shape_is_unsupported field = false) (hcursor : 4 ∣ cursor.toNat)
    (hcursor_nat : cursor.toNat ≤ 65536) :
    ∃ offset bytes : UInt32, bytes.toNat = size field ∧ 0 < size field ∧ 4 ∣ size field ∧
      IsLeast {offset | cursor.toNat ≤ offset ∧ Allowed field offset} offset.toNat ∧
      unity_hlsl_cbuffer_layout_field field cursor =
        if 65536 < offset.toNat + size field then (.analysisLimit, field, cursor)
        else (.ok, { field with byte_offset := offset, byte_size := bytes }, offset + bytes) := by
  have hcursor_le : cursor ≤ 65536 := UInt32.le_iff_toNat_le.mpr hcursor_nat
  unfold unity_hlsl_cbuffer_layout_field
  rw [hshape, if_neg Bool.false_ne_true, if_neg (UInt32.not_lt.mpr hcursor_le)]
  dsimp only
  unfold shape_is_unsupported at hshape
  rw [decide_eq_false_iff_not] at hshape
  have hcolumns : field.columns ≤ 4 := by
    by_contra hgt
    exact hshape (.inr (.inr (.inr (.inr (.inl (UInt8.not_le.mp hgt))))))
  have hpos : 0 < field.columns.toNat := by
    by_contra hzero
    exact hshape (.inr (.inr (.inr (.inl (UInt8.toNat_inj.mp (by
      rw [UInt8.toNat_zero]
      omega))))))
  have hle : field.columns.toNat ≤ 4 := UInt8.le_iff_toNat_le.mp hcolumns
  have hsize := toNat_size hcolumns
  generalize (if field.is_matrix then field.columns.toUInt32 * 16
    else field.columns.toUInt32 * 4) = bytes at hsize ⊢
  have hsize_bounds : 0 < size field ∧ 4 ∣ size field ∧ size field ≤ 64 ∧
      (field.is_matrix = false → size field ≤ 16) := by
    unfold size
    split_ifs with hmatrix
    · exact ⟨by omega, by omega, by omega, fun hfalse => absurd hmatrix (by rw [hfalse]; decide)⟩
    · exact ⟨by omega, by omega, by omega, fun _ => by omega⟩
  obtain ⟨hsize_pos, hsize_four, hsize_le, hsize_row⟩ := hsize_bounds
  have hstraddle : (16 < (cursor &&& 15) + bytes) ↔ 16 < cursor.toNat % 16 + size field := by
    have hsum : ((cursor &&& 15) + bytes).toNat = cursor.toNat % 16 + size field := by
      rw [UInt32.toNat_add, toNat_column, hsize]
      exact Nat.mod_eq_of_lt (by show cursor.toNat % 16 + size field < 2 ^ 32; omega)
    rw [UInt32.lt_iff_toNat_lt, hsum]
    rfl
  have hoff : (if field.is_matrix ∨ 16 < (cursor &&& 15) + bytes then (cursor + 15) &&& ~~~15
      else cursor).toNat =
      if field.is_matrix ∨ 16 < cursor.toNat % 16 + size field then (cursor.toNat + 15) / 16 * 16
        else cursor.toNat := by
    simp only [hstraddle]
    split_ifs
    · exact toNat_row hcursor_le
    · rfl
  have hleast := isLeast_place hcursor hsize_four hsize_row
  rw [← hoff] at hleast
  have hoffset_le : (if field.is_matrix ∨ 16 < (cursor &&& 15) + bytes then
      (cursor + 15) &&& ~~~15 else cursor).toNat ≤ 65536 := by
    rw [hoff]
    split_ifs <;> omega
  generalize (if field.is_matrix ∨ 16 < (cursor &&& 15) + bytes then (cursor + 15) &&& ~~~15
    else cursor) = offset at hleast hoffset_le ⊢
  -- The subtraction at the limit does not wrap.
  have hsub : (65536 - offset).toNat = 65536 - offset.toNat :=
    UInt32.toNat_sub_of_le _ _ (UInt32.le_iff_toNat_le.mpr hoffset_le)
  have hroom : 65536 - offset < bytes ↔ 65536 < offset.toNat + size field := by
    rw [UInt32.lt_iff_toNat_lt, hsub, hsize]
    omega
  exact ⟨offset, bytes, hsize, hsize_pos, hsize_four, hleast, by simp only [hroom]⟩

/-- **An accepted field** has its least place, and the cursor goes to its end. -/
theorem layout_field_ok {laid : UnityHlslCBufferField} {cursor' : UInt32}
    (h : unity_hlsl_cbuffer_layout_field field cursor = (.ok, laid, cursor'))
    (hcursor : 4 ∣ cursor.toNat) : shape_is_unsupported field = false ∧
    laid = { field with byte_offset := laid.byte_offset, byte_size := laid.byte_size } ∧
    laid.byte_size.toNat = size field ∧ 0 < size field ∧ 4 ∣ size field ∧
    IsLeast {offset | cursor.toNat ≤ offset ∧ Allowed field offset} laid.byte_offset.toNat ∧
    cursor'.toNat = laid.byte_offset.toNat + laid.byte_size.toNat ∧ cursor'.toNat ≤ 65536 := by
  have hchecks : shape_is_unsupported field = false ∧ cursor ≤ 65536 := by
    unfold unity_hlsl_cbuffer_layout_field at h
    split at h
    · nomatch (mk.inj h).1
    rename_i hshape
    split at h
    · nomatch (mk.inj h).1
    rename_i hlimit
    exact ⟨Bool.eq_false_iff.mpr hshape, UInt32.not_lt.mp hlimit⟩
  obtain ⟨offset, bytes, hsize, hpos, hfour, hleast, heq⟩ :=
    layout_field_eq hchecks.1 hcursor (UInt32.le_iff_toNat_le.mp hchecks.2)
  rw [heq] at h
  split at h
  · nomatch (mk.inj h).1
  obtain ⟨rfl, rfl⟩ := mk.inj (mk.inj h).2
  have hsum : (offset + bytes).toNat = offset.toNat + bytes.toNat := by
    rw [UInt32.toNat_add]
    exact Nat.mod_eq_of_lt (by show offset.toNat + bytes.toNat < 2 ^ 32; omega)
  exact ⟨hchecks.1, rfl, hsize, hpos, hfour, hleast, hsum, by rw [hsum]; omega⟩

/-- The shape is supported, and the end of the least place is within the limit. -/
def Accepted (field : UnityHlslCBufferField) (cursor : UInt32) : Prop :=
  shape_is_unsupported field = false ∧ ∃ place,
    IsLeast {offset | cursor.toNat ≤ offset ∧ Allowed field offset} place ∧
    place + size field ≤ 65536

lemma layout_field_accepts (hcursor : 4 ∣ cursor.toNat) :
    (unity_hlsl_cbuffer_layout_field field cursor).1 = .ok ↔ Accepted field cursor := by
  constructor
  · intro hok
    obtain ⟨hshape, -, hsize, -, -, hleast, hend, hlimit⟩ :=
      layout_field_ok (Prod.ext hok rfl) hcursor
    exact ⟨hshape, _, hleast, by omega⟩
  · rintro ⟨hshape, place, hleast, hlimit⟩
    have hle : cursor.toNat ≤ place := hleast.1.1
    obtain ⟨offset, bytes, -, -, -, hleast', heq⟩ := layout_field_eq hshape hcursor (by omega)
    rw [heq, if_neg (by rw [hleast'.unique hleast]; omega)]

end Step

/-! ## Blocks -/

/-- The run of a block: what one accepted field does is repeated from the cursor it leaves. -/
theorem layout_fields_packed (fields : List UnityHlslCBufferField) (cursor : UInt32)
    (hfour : 4 ∣ cursor.toNat) (hle : cursor.toNat ≤ 65536) :
    Packed cursor.toNat (layout_fields fields cursor).1 (layout_fields fields cursor).2.toNat ∧
      4 ∣ (layout_fields fields cursor).2.toNat ∧ (layout_fields fields cursor).2.toNat ≤ 65536 := by
  induction fields generalizing cursor with
  | nil => exact ⟨rfl, hfour, hle⟩
  | cons field fields ih =>
    rw [layout_fields]
    rcases hlaid : unity_hlsl_cbuffer_layout_field field cursor with ⟨status, laid, cursor'⟩
    by_cases hstat : status = .ok
    · subst hstat
      obtain ⟨-, hlaid_eq, hbytes, hpos, hsize, hleast, hend, hend_le⟩ := layout_field_ok hlaid hfour
      have hmatrix : laid.is_matrix = field.is_matrix := by rw [hlaid_eq]
      have hcolumns : laid.columns = field.columns := by rw [hlaid_eq]
      have hsize_eq : size laid = size field := by rw [size, size, hmatrix, hcolumns]
      have hfour' : 4 ∣ cursor'.toNat := by
        have hplace : 4 ∣ laid.byte_offset.toNat := hleast.1.2.1
        omega
      obtain ⟨hpacked, hlimit⟩ := ih cursor' hfour' hend_le
      simp only [if_true]
      refine ⟨⟨?_, ?_, ?_, ?_⟩, hlimit⟩
      · rw [hsize_eq, hbytes]
      · rwa [hsize_eq]
      · unfold Allowed at hleast ⊢
        rwa [hmatrix, hsize_eq]
      · rwa [← hend]
    · have hrej := @layout_field_rejected field cursor (by rw [hlaid]; exact hstat)
      rw [hlaid] at hrej
      obtain ⟨-, hcursor⟩ := mk.inj hrej
      simp only [hstat, if_false, hcursor]
      exact ih cursor hfour hle

lemma layout_extent_ok {cursor : UInt32} (h : cursor.toNat ≤ 65536) :
    ∃ extent : UInt32, unity_hlsl_cbuffer_layout_extent cursor = .ok extent ∧
      extent.toNat = (cursor.toNat + 15) / 16 * 16 := by
  have hle : cursor ≤ 65536 := UInt32.le_iff_toNat_le.mpr h
  refine ⟨(cursor + 15) &&& ~~~15, ?_, toNat_row hle⟩
  rw [unity_hlsl_cbuffer_layout_extent, if_neg (UInt32.not_lt.mpr hle)]

end CBufferLayout

open CBufferLayout in
/-- **Packing.** The accepted fields of any block are disjoint and in order, each at the least
place that is allowed after the field before it, and the extent is the least multiple of a row that
covers them. After any block a field is accepted exactly when its shape is supported and its least
place is within the limit, and it is the field that was passed, with its place. -/
theorem layout_fields_pack (fields : List UnityHlslCBufferField) :
    ((layout_fields fields 0).1.Pairwise fun a b => fieldEnd a ≤ b.byte_offset.toNat) ∧
    (∀ field ∈ (layout_fields fields 0).1, field.byte_size.toNat = size field ∧ 0 < size field ∧
      Allowed field field.byte_offset.toNat) ∧
    Packed 0 (layout_fields fields 0).1 (layout_fields fields 0).2.toNat ∧
    (∃ extent : UInt32, unity_hlsl_cbuffer_layout_extent (layout_fields fields 0).2 = .ok extent ∧
      extent.toNat ≤ 65536 ∧
      IsLeast {bytes | 16 ∣ bytes ∧ ∀ field ∈ (layout_fields fields 0).1, fieldEnd field ≤ bytes}
        extent.toNat) ∧
    (∀ (field : UnityHlslCBufferField) (cursor : UInt32),
      (unity_hlsl_cbuffer_layout_field field cursor).1 ≠ .ok →
      (unity_hlsl_cbuffer_layout_field field cursor).2 = (field, cursor)) ∧
    ∀ field, ((unity_hlsl_cbuffer_layout_field field (layout_fields fields 0).2).1 = .ok ↔
        Accepted field (layout_fields fields 0).2) ∧
      ∀ laid cursor', unity_hlsl_cbuffer_layout_field field (layout_fields fields 0).2 =
          (.ok, laid, cursor') →
        laid = { field with byte_offset := laid.byte_offset, byte_size := laid.byte_size } := by
  obtain ⟨hpacked, hfour, hlimit⟩ := layout_fields_packed fields 0 (by decide) (by decide)
  obtain ⟨extent, hextent, hvalue⟩ := layout_extent_ok hlimit
  refine ⟨hpacked.increasing, fun field hmem => hpacked.allowed hmem, hpacked,
    ⟨extent, hextent, by omega, ⟨by omega, ?_⟩, ?_⟩, fun _ _ h => layout_field_rejected h,
    fun _ => ⟨layout_field_accepts hfour, fun _ _ h => (layout_field_ok h hfour).2.1⟩⟩
  · intro field hmem
    have hend := (hpacked.within hmem).2
    omega
  · rintro bytes ⟨hrow, hcovers⟩
    have hstop := hpacked.stop_le (Nat.zero_le bytes) hcovers
    omega

def sampleFields : List UnityHlslCBufferField :=
  [⟨.float, 1, 3, false, 0, 0⟩, ⟨.float, 4, 4, true, 0, 0⟩, ⟨.float, 1, 1, false, 0, 0⟩]

open CBufferLayout in
theorem layout_fields_pack_sample :
    (layout_fields sampleFields 0).1.map (fun field => (field.byte_offset, field.byte_size)) =
      [(0, 12), (16, 64), (80, 4)] ∧ Packed 0 (layout_fields sampleFields 0).1 84 :=
  ⟨by decide, (layout_fields_pack sampleFields).2.2.1⟩

end DXBCSandbox
