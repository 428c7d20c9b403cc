/-
DXBC operands (`include/dxbc/dxbc_parser.h`) and the recursive operand parser
(`src/dxbc/dxbc_operand.c`).

An operand is a token, a chain of extended tokens, the immediate words its type
asks for and up to three index dimensions, any of which may hold another operand.
The C parser keeps the raw words beside the decoded fields. The decoded fields
are what the translator reads.

The rendered `text` of an operand is not modelled. The parse context and the
opcode only choose how that text looks, so they are not parameters here. Nothing
else depends on them.
-/
import DXBCSandbox.Runtime
import DXBCSandbox.Lib.StepParser

namespace DXBCSandbox

/-! ## Small fixed-size arrays -/

/-- Four values, one for each component. -/
structure Lanes (α : Type) where
  x : α
  y : α
  z : α
  w : α
  deriving DecidableEq

namespace Lanes

variable {α : Type}

/-- The component at an index. The callers mask the index to two bits. -/
def get (l : Lanes α) : ℕ → α
  | 0 => l.x
  | 1 => l.y
  | 2 => l.z
  | _ => l.w

/-- The lanes whose component `i` is `f i`. -/
def ofFn (f : ℕ → α) : Lanes α := ⟨f 0, f 1, f 2, f 3⟩

end Lanes

/-- Three values, one for each index dimension. -/
structure Dims (α : Type) where
  d0 : α
  d1 : α
  d2 : α
  deriving DecidableEq

namespace Dims

variable {α : Type} (t : Dims α)

def get : ℕ → α
  | 0 => t.d0
  | 1 => t.d1
  | _ => t.d2

def set (d : ℕ) (a : α) : Dims α :=
  match d with
  | 0 => { t with d0 := a }
  | 1 => { t with d1 := a }
  | _ => { t with d2 := a }

def const (a : α) : Dims α := ⟨a, a, a⟩

lemma get_set (d e : ℕ) (a : α) (hd : d < 3) (he : e < 3) :
    (t.set d a).get e = if e = d then a else t.get e := by
  rcases d with _ | _ | _ | d <;> rcases e with _ | _ | _ | e <;> first | rfl | omega

end Dims

/-! ## The operand record -/

/-- `DXBCOperandType`. The parser casts the eight-bit field of the token, so a
value without an enumerator can occur. -/
inductive DXBCOperandType where
  | temp | input | output | indexableTemp | immediate32 | immediate64 | sampler | resource
  | constantBuffer | immediateConstantBuffer | label | inputPrimitiveId | outputDepth | null
  | rasterizer | outputCoverageMask | stream | functionBody | functionTable | interface
  | functionInput | functionOutput | outputControlPointId | forkInstanceId | joinInstanceId
  | inputControlPoint | outputControlPoint | inputPatchConstant | domainLocation | thisPointer
  | uav | threadGroupSharedMemory | inputThreadId | inputThreadGroupId | inputThreadIdInGroup
  | inputCoverageMask | inputThreadIdInGroupFlattened | inputGsInstanceId
  | outputDepthGreaterEqual | outputDepthLessEqual | cycleCounter | outputStencilRef
  | innerCoverage | unknown
  | unnamed (code : ℕ)
  deriving DecidableEq

/-- The cast of `(token0 >> 12) & 0xff`. -/
def DXBCOperandType.ofCode : ℕ → DXBCOperandType
  | 0 => .temp
  | 1 => .input
  | 2 => .output
  | 3 => .indexableTemp
  | 4 => .immediate32
  | 5 => .immediate64
  | 6 => .sampler
  | 7 => .resource
  | 8 => .constantBuffer
  | 9 => .immediateConstantBuffer
  | 10 => .label
  | 11 => .inputPrimitiveId
  | 12 => .outputDepth
  | 13 => .null
  | 14 => .rasterizer
  | 15 => .outputCoverageMask
  | 16 => .stream
  | 17 => .functionBody
  | 18 => .functionTable
  | 19 => .interface
  | 20 => .functionInput
  | 21 => .functionOutput
  | 22 => .outputControlPointId
  | 23 => .forkInstanceId
  | 24 => .joinInstanceId
  | 25 => .inputControlPoint
  | 26 => .outputControlPoint
  | 27 => .inputPatchConstant
  | 28 => .domainLocation
  | 29 => .thisPointer
  | 30 => .uav
  | 31 => .threadGroupSharedMemory
  | 32 => .inputThreadId
  | 33 => .inputThreadGroupId
  | 34 => .inputThreadIdInGroup
  | 35 => .inputCoverageMask
  | 36 => .inputThreadIdInGroupFlattened
  | 37 => .inputGsInstanceId
  | 38 => .outputDepthGreaterEqual
  | 39 => .outputDepthLessEqual
  | 40 => .cycleCounter
  | 41 => .outputStencilRef
  | 42 => .innerCoverage
  | 255 => .unknown
  | code => .unnamed code

/-- The fields of a `DXBCOperand` other than the three operand pointers. The
element counts of the C arrays are the lengths of the lists. -/
structure DXBCOperandFields where
  type : DXBCOperandType
  raw_token : UInt32
  extended_tokens : List UInt32
  register_index : ℤ
  swizzle : Lanes ℕ
  /-- 0 is a mask, 1 a swizzle, 2 a scalar select. -/
  swizzle_mode : ℕ
  /-- Bits 4 to 7 are `x`, `y`, `z`, `w`. -/
  destination_mask : ℕ
  has_neg : Bool
  has_abs : Bool
  imm_values : Lanes UInt32
  imm_value_count : ℕ
  immediate_words : List UInt32
  imm64_values : Lanes UInt64
  min_precision : ℕ
  rel_offset0 : ℤ
  rel_offset1 : ℤ
  rel_offset2 : ℤ
  register_index_dim : ℕ
  index_values : Dims UInt64
  index_representations : Dims ℕ
  index_has_immediate : Dims Bool
  index_value_exceeds_int : Dims Bool
  deriving DecidableEq

/-- A `DXBCOperand*`: null, or an operand with its own three pointers. -/
inductive OperandRef where
  | null
  | node (fields : DXBCOperandFields) (rel_op0 rel_op1 rel_op2 : OperandRef)
  deriving DecidableEq

structure DXBCOperand extends DXBCOperandFields where
  rel_op0 : OperandRef
  rel_op1 : OperandRef
  rel_op2 : OperandRef
  deriving DecidableEq

namespace DXBCOperand

/-- `memset(op, 0, sizeof(DXBCOperand))`. -/
def zeroed : DXBCOperand where
  type := .temp
  raw_token := 0
  extended_tokens := []
  register_index := 0
  swizzle := ⟨0, 0, 0, 0⟩
  swizzle_mode := 0
  destination_mask := 0
  has_neg := false
  has_abs := false
  imm_values := ⟨0, 0, 0, 0⟩
  imm_value_count := 0
  immediate_words := []
  imm64_values := ⟨0, 0, 0, 0⟩
  min_precision := 0
  rel_offset0 := 0
  rel_offset1 := 0
  rel_offset2 := 0
  register_index_dim := 0
  index_values := .const 0
  index_representations := .const 0
  index_has_immediate := .const false
  index_value_exceeds_int := .const false
  rel_op0 := .null
  rel_op1 := .null
  rel_op2 := .null

variable (op : DXBCOperand)

def ref : OperandRef :=
  .node op.toDXBCOperandFields op.rel_op0 op.rel_op1 op.rel_op2

def relative_operand : ℕ → OperandRef
  | 0 => op.rel_op0
  | 1 => op.rel_op1
  | _ => op.rel_op2

def set_relative_operand (dimension : ℕ) (rel : OperandRef) : DXBCOperand :=
  match dimension with
  | 0 => { op with rel_op0 := rel }
  | 1 => { op with rel_op1 := rel }
  | _ => { op with rel_op2 := rel }

def set_index_representation (dimension representation : ℕ) : DXBCOperand :=
  { op with index_representations := op.index_representations.set dimension representation }

/-- The stores `op->index_values[dimension] = value` and
`op->index_has_immediate[dimension] = true`. -/
def set_index_value (dimension : ℕ) (value : UInt64) : DXBCOperand :=
  { op with
    index_values := op.index_values.set dimension value
    index_has_immediate := op.index_has_immediate.set dimension true }

/-- `sync_legacy_index`: the narrow copies of an index that older emitters read. -/
def sync_legacy_index (dimension : ℕ) : DXBCOperand :=
  let value := (op.index_values.get dimension).toNat
  let legacy_value : ℤ := if value ≤ INT_MAX then value else -1
  let op := { op with
    index_value_exceeds_int :=
      op.index_value_exceeds_int.set dimension (decide (INT_MAX < value)) }
  match dimension with
  | 0 => { op with register_index := legacy_value, rel_offset1 := legacy_value }
  | 1 => { op with rel_offset0 := legacy_value }
  | _ => { op with rel_offset2 := legacy_value }

/-! What the stores leave alone. -/

@[simp] lemma sync_legacy_index_index_representations (dimension : ℕ) :
    (op.sync_legacy_index dimension).index_representations = op.index_representations := by
  rcases dimension with _ | _ | d <;> rfl

@[simp] lemma sync_legacy_index_index_values (dimension : ℕ) :
    (op.sync_legacy_index dimension).index_values = op.index_values := by
  rcases dimension with _ | _ | d <;> rfl

@[simp] lemma sync_legacy_index_relative_operand (dimension : ℕ) :
    (op.sync_legacy_index dimension).relative_operand = op.relative_operand := by
  rcases dimension with _ | _ | d <;> rfl

@[simp] lemma set_relative_operand_index_representations (dimension : ℕ) (rel : OperandRef) :
    (op.set_relative_operand dimension rel).index_representations = op.index_representations := by
  rcases dimension with _ | _ | d <;> rfl

@[simp] lemma set_relative_operand_index_values (dimension : ℕ) (rel : OperandRef) :
    (op.set_relative_operand dimension rel).index_values = op.index_values := by
  rcases dimension with _ | _ | d <;> rfl

@[simp] lemma set_index_value_relative_operand (dimension : ℕ) (value : UInt64) :
    (op.set_index_value dimension value).relative_operand = op.relative_operand := rfl

@[simp] lemma set_index_representation_relative_operand (dimension r : ℕ) :
    (op.set_index_representation dimension r).relative_operand = op.relative_operand := rfl

@[simp] lemma set_index_value_index_representations (dimension : ℕ) (value : UInt64) :
    (op.set_index_value dimension value).index_representations = op.index_representations := rfl

@[simp] lemma set_index_representation_index_values (dimension r : ℕ) :
    (op.set_index_representation dimension r).index_values = op.index_values := rfl

@[simp] lemma set_index_representation_index_representations (dimension r : ℕ) :
    (op.set_index_representation dimension r).index_representations =
      op.index_representations.set dimension r := rfl

@[simp] lemma set_index_value_index_values (dimension : ℕ) (value : UInt64) :
    (op.set_index_value dimension value).index_values = op.index_values.set dimension value := rfl

lemma relative_operand_set_relative_operand (d e : ℕ) (rel : OperandRef) (hd : d < 3) (he : e < 3)
    :
    (op.set_relative_operand d rel).relative_operand e =
      if e = d then rel else op.relative_operand e := by
  rcases d with _ | _ | _ | d <;> rcases e with _ | _ | _ | e <;> first | rfl | omega

end DXBCOperand

/-! ## The parser -/

def DXBC_MAX_NESTED_OPERAND_TOKENS : ℕ := 126

/-- What one call of the parser passes to the next: the stream, and the number of
operand tokens that may still be read. -/
structure OperandCursor where
  stream : ByteStream
  operand_token_budget : ℕ

/-- A `none` is every path that ends in `operand_parse_failed`. -/
abbrev OperandParser := StateT OperandCursor Option

section Parser

variable (rt : UnityCommon) (limit : ℕ)

def operand_read_u32 : OperandParser UInt32 := fun c =>
  if c.stream.position ≤ limit ∧ 4 ≤ limit - c.stream.position then
    (rt.stream_read_uint32 c.stream).map fun (w, stream) => (w, { c with stream })
  else none

def read_immediate_words : ℕ → OperandParser (List UInt32)
  | 0 => pure []
  | n + 1 => do
    let w ← operand_read_u32 rt limit
    let ws ← read_immediate_words n
    pure (w :: ws)

structure ExtendedTokens where
  tokens : List UInt32
  saw_modifier : Bool
  modifier : ℕ
  min_precision : ℕ

/-- One turn of the extended-token loop after the read. A modifier may occur once. -/
def ExtendedTokens.append (e : ExtendedTokens) (ext : UInt32) : Option ExtendedTokens :=
  let e := { e with tokens := e.tokens ++ [ext] }
  let extension_type := ext &&& 0x3f
  if extension_type = 1 then
    let decoded_modifier := ((ext >>> 6) &&& 0xff).toNat
    let min_precision := ((ext >>> 14) &&& 0x7).toNat
    if e.saw_modifier ∨ 3 < decoded_modifier ∨
        (min_precision ≠ 0 ∧ min_precision ≠ 1 ∧ min_precision ≠ 2 ∧
          min_precision ≠ 4 ∧ min_precision ≠ 5) then none
    else some { e with saw_modifier := true, modifier := decoded_modifier, min_precision }
  else if extension_type ≠ 0 then none
  else some e

/-- The extended-token loop. Every turn takes a word, so the words before `limit`
bound the number of turns. -/
def read_extended_tokens :
    (turns : ℕ) → (has_more_extensions : Bool) → ExtendedTokens → OperandParser ExtendedTokens
  | _, false, e => pure e
  | 0, true, _ => failure
  | turns + 1, true, e => do
    let ext ← operand_read_u32 rt limit
    match e.append ext with
    | none => failure
    | some e => read_extended_tokens turns (ext &&& 0x80000000 != 0) e

variable (token0 : UInt32)

def decode_operand_token (e : ExtendedTokens) : DXBCOperand :=
  let type := DXBCOperandType.ofCode ((token0 >>> 12) &&& 0xff).toNat
  let selection_mode := ((token0 >>> 2) &&& 0x3).toNat
  { DXBCOperand.zeroed with
    raw_token := token0
    extended_tokens := e.tokens
    min_precision := e.min_precision
    type
    register_index_dim := ((token0 >>> 20) &&& 0x3).toNat
    has_neg := e.modifier.testBit 0
    has_abs := e.modifier.testBit 1
    swizzle_mode := selection_mode
    swizzle := ⟨0, 1, 2, 3⟩
    destination_mask :=
      if selection_mode = 0 ∧ type ≠ .immediate32 ∧ type ≠ .immediate64 then
        (token0 &&& 0xf0).toNat else 0 }

/-- The component `(token0 >> (4 + 2 * component)) & 3`. -/
def selected_component (component : ℕ) : ℕ :=
  ((token0 >>> (4 + 2 * component).toUInt32) &&& 3).toNat

/-- The values of an immediate operand after its own selection, with their count. -/
def select_immediate {α : Type} (encoded_component_count : ℕ) (selection_mode : ℕ)
    (raw_values : Lanes α) : Lanes α × ℕ :=
  if encoded_component_count = 1 then
    (.ofFn fun _ => raw_values.get 0, 1)
  else if selection_mode = 1 then
    (.ofFn fun component => raw_values.get (selected_component token0 component), 4)
  else if selection_mode = 2 then
    (.ofFn fun _ => raw_values.get (selected_component token0 0), 1)
  else (raw_values, 4)

/-- `(uint64_t)lo | ((uint64_t)hi << 32)`. -/
def join64 (lo hi : UInt32) : UInt64 := lo.toUInt64 ||| (hi.toUInt64 <<< 32)

def read_immediates (component_count_code : ℕ) (op : DXBCOperand) : OperandParser DXBCOperand := do
  if op.type = .immediate32 ∨ op.type = .immediate64 then
    guard (component_count_code = 1 ∨ component_count_code = 2)
    let encoded_component_count := if component_count_code = 1 then 1 else 4
    let words_per_component := if op.type = .immediate64 then 2 else 1
    let words ← read_immediate_words rt limit (encoded_component_count * words_per_component)
    let op := { op with immediate_words := words }
    if op.type = .immediate32 then
      let (imm_values, imm_value_count) :=
        select_immediate op.raw_token encoded_component_count op.swizzle_mode
          (.ofFn fun component => words.getD component 0)
      pure { op with imm_values, imm_value_count }
    else
      let (imm64_values, imm_value_count) :=
        select_immediate op.raw_token encoded_component_count op.swizzle_mode
          (.ofFn fun component => join64 (words.getD (component * 2) 0)
            (words.getD (component * 2 + 1) 0))
      pure { op with imm64_values, imm_value_count }
  else pure op

/-- One turn of the index loop. `nested` parses a relative operand. -/
def read_index (nested : OperandParser DXBCOperand) (op : DXBCOperand) (dimension : ℕ) :
    OperandParser DXBCOperand := do
  let representation := ((op.raw_token >>> (22 + 3 * dimension).toUInt32) &&& 0x7).toNat
  let op := op.set_index_representation dimension representation
  let op ← match representation with
    | 0 => do
      let lo ← operand_read_u32 rt limit
      pure (op.set_index_value dimension lo.toUInt64)
    | 1 => do
      let lo ← operand_read_u32 rt limit
      let hi ← operand_read_u32 rt limit
      pure (op.set_index_value dimension (join64 lo hi))
    | 2 => do
      let relative ← nested
      pure (op.set_relative_operand dimension relative.ref)
    | 3 => do
      let lo ← operand_read_u32 rt limit
      let relative ← nested
      pure ((op.set_index_value dimension lo.toUInt64).set_relative_operand dimension relative.ref)
    | 4 => do
      let lo ← operand_read_u32 rt limit
      let hi ← operand_read_u32 rt limit
      let relative ← nested
      pure ((op.set_index_value dimension (join64 lo hi)).set_relative_operand dimension
        relative.ref)
    | _ => failure
  pure (op.sync_legacy_index dimension)

/-- The index loop from dimension `d` on, with `n` dimensions to go. -/
def read_indices (nested : OperandParser DXBCOperand) :
    (n d : ℕ) → DXBCOperand → OperandParser DXBCOperand
  | 0, _, op => pure op
  | n + 1, d, op => do
    let op ← read_index rt limit nested op d
    read_indices nested n (d + 1) op

def set_swizzle (op : DXBCOperand) : DXBCOperand :=
  if op.type ≠ .immediate32 ∧ op.type ≠ .immediate64 then
    if op.swizzle_mode = 1 then
      { op with swizzle := .ofFn (selected_component op.raw_token) }
    else if op.swizzle_mode = 2 then
      { op with swizzle := .ofFn fun _ => selected_component op.raw_token 0 }
    else op
  else op

/-- The entry check of the parser and `--*operand_token_budget`. -/
def spend_operand_token : OperandParser Unit := fun c =>
  if c.operand_token_budget ≠ 0 ∧ limit ≤ c.stream.size ∧ c.stream.position ≤ limit ∧
      4 ≤ limit - c.stream.position then
    some ((), { c with operand_token_budget := c.operand_token_budget - 1 })
  else none

/-- The parser after its entry check. `nested` parses the relative operands. -/
def parse_operand_body (nested : OperandParser DXBCOperand) : OperandParser DXBCOperand := do
  let token0 ← operand_read_u32 rt limit
  let e ← read_extended_tokens rt limit (limit / 4) (token0 &&& 0x80000000 != 0)
    ⟨[], false, 0, 0⟩
  let component_count_code := (token0 &&& 0x3).toNat
  let op := decode_operand_token token0 e
  guard ¬(component_count_code = 3 ∨ (component_count_code = 2 ∧ op.swizzle_mode = 3))
  let op ← read_immediates rt limit component_count_code op
  let op ← read_indices rt limit nested op.register_index_dim 0 op
  pure (set_swizzle op)

/-- `parse_operand_recursive_impl`. Every call spends one operand token of the
budget, so a depth of at least the budget is never what stops it. -/
def parse_operand_recursive_impl : (depth : ℕ) → OperandParser DXBCOperand
  | 0 => failure
  | depth + 1 => do
    spend_operand_token limit
    parse_operand_body rt limit (parse_operand_recursive_impl depth)

/-- `parse_operand_recursive`. A failed parse leaves the stream at the operand
boundary, so that no caller reads a partial operand as another one. -/
def parse_operand_recursive (stream : ByteStream) : Option DXBCOperand × ByteStream :=
  let operand_token_budget :=
    if limit ≤ stream.size ∧ stream.position ≤ limit then
      min ((limit - stream.position) / 4) DXBC_MAX_NESTED_OPERAND_TOKENS
    else 0
  match (parse_operand_recursive_impl rt limit operand_token_budget).run
      ⟨stream, operand_token_budget⟩ with
  | some (op, c) => (some op, c.stream)
  | none => (none, if limit ≤ stream.size then { stream with position := limit } else stream)

end Parser

end DXBCSandbox
