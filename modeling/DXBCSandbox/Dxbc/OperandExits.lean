/-
The exits of the operand parser (`src/dxbc/dxbc_operand.c`).

`Operand` says which operand a parse returns. Here the stream is followed past a failure too. A read
that fails leaves the stream where it is, and it is the exit after it that moves the stream to the
limit. So each early return of the source is written out with what it does to the stream.
-/
import DXBCSandbox.Dxbc.Operand

namespace DXBCSandbox

/-- A call that returns an operand or nothing, and always a stream. -/
abbrev OperandRun (α : Type) := OptionT (StateM OperandCursor) α

namespace OperandExits

section Exits

variable (rt : UnityCommon) (limit : ℕ) {α : Type}

/-- `if (limit <= stream->size) stream->position = limit`. -/
def move_to_limit (c : OperandCursor) : OperandCursor :=
  if limit ≤ c.stream.size then { c with stream := { c.stream with position := limit } } else c

def operand_parse_failed : OperandRun α :=
  OptionT.mk fun c => (none, move_to_limit limit c)

/-- `if (!p) return operand_parse_failed(stream, limit, op)`. -/
def orParseFailed (p : OperandRun α) : OperandRun α :=
  OptionT.mk do
    match ← p.run with
    | some a => pure (some a)
    | none => (operand_parse_failed limit).run

def operand_read_u32 : OperandRun UInt32 :=
  OptionT.mk fun c =>
    if c.stream.position ≤ limit ∧ 4 ≤ limit - c.stream.position then
      match rt.stream_read_uint32 c.stream with
      | some (value, stream) => (some value, { c with stream })
      | none => (none, c)
    else (none, c)

def read_immediate_words : ℕ → OperandRun (List UInt32)
  | 0 => pure []
  | n + 1 => do
    let word ← orParseFailed limit (operand_read_u32 rt limit)
    let words ← read_immediate_words n
    pure (word :: words)

/-- The loop over the extended tokens. A turn beyond the words before the limit would fail its
read. -/
def read_extended_tokens :
    (turns : ℕ) → (has_more_extensions : Bool) → ExtendedTokens → OperandRun ExtendedTokens
  | _, false, e => pure e
  | 0, true, _ => operand_parse_failed limit
  | turns + 1, true, e => do
    let ext ← orParseFailed limit (operand_read_u32 rt limit)
    match e.append ext with
    | none => operand_parse_failed limit
    | some e => read_extended_tokens turns (ext &&& 0x80000000 != 0) e

def read_immediates (component_count_code : ℕ) (op : DXBCOperand) : OperandRun DXBCOperand :=
  if op.type = .immediate32 ∨ op.type = .immediate64 then
    if ¬ (component_count_code = 1 ∨ component_count_code = 2) then operand_parse_failed limit
    else do
      let encoded_component_count := if component_count_code = 1 then 1 else 4
      let words_per_component := if op.type = .immediate64 then 2 else 1
      let words ← read_immediate_words rt limit (encoded_component_count * words_per_component)
      let op := { op with immediate_words := words }
      if op.type = .immediate32 then
        let (imm_values, imm_value_count) :=
          select_immediate op.raw_token encoded_component_count op.swizzle_mode
            (.ofFn fun component => words.getD component 0)
        pure { op with imm_values, imm_value_count }
      else
        let (imm64_values, imm_value_count) :=
          select_immediate op.raw_token encoded_component_count op.swizzle_mode
            (.ofFn fun component => join64 (words.getD (component * 2) 0)
              (words.getD (component * 2 + 1) 0))
        pure { op with imm64_values, imm_value_count }
  else pure op

/-- One turn of the loop over the dimensions. -/
def read_index (nested : OperandRun DXBCOperand) (op : DXBCOperand) (dimension : ℕ) :
    OperandRun DXBCOperand := do
  let representation := ((op.raw_token >>> (22 + 3 * dimension).toUInt32) &&& 0x7).toNat
  let op := op.set_index_representation dimension representation
  let op ← match representation with
    | 0 => do
      let lo ← orParseFailed limit (operand_read_u32 rt limit)
      pure (op.set_index_value dimension lo.toUInt64)
    | 1 => do
      let lo ← orParseFailed limit (operand_read_u32 rt limit)
      let hi ← orParseFailed limit (operand_read_u32 rt limit)
      pure (op.set_index_value dimension (join64 lo hi))
    | 2 => do
      let relative ← orParseFailed limit nested
      pure (op.set_relative_operand dimension relative.ref)
    | 3 => do
      let lo ← orParseFailed limit (operand_read_u32 rt limit)
      let relative ← orParseFailed limit nested
      pure ((op.set_index_value dimension lo.toUInt64).set_relative_operand dimension relative.ref)
    | 4 => do
      let lo ← orParseFailed limit (operand_read_u32 rt limit)
      let hi ← orParseFailed limit (operand_read_u32 rt limit)
      let relative ← orParseFailed limit nested
      pure ((op.set_index_value dimension (join64 lo hi)).set_relative_operand dimension
        relative.ref)
    | _ => operand_parse_failed limit
  pure (op.sync_legacy_index dimension)

def read_indices (nested : OperandRun DXBCOperand) :
    (n d : ℕ) → DXBCOperand → OperandRun DXBCOperand
  | 0, _, op => pure op
  | n + 1, d, op => do
    let op ← read_index rt limit nested op d
    read_indices nested n (d + 1) op

def spend_operand_token : OperandRun Unit :=
  OptionT.mk fun c =>
    if c.operand_token_budget = 0 ∨ c.stream.size < limit ∨ limit < c.stream.position ∨
        limit - c.stream.position < 4 then (none, move_to_limit limit c)
    else (some (), { c with operand_token_budget := c.operand_token_budget - 1 })

/-- The parser after its entry check. The first read returns without an exit of its own. -/
def parse_operand_body (turns : ℕ) (nested : OperandRun DXBCOperand) :
    OperandRun DXBCOperand := do
  let token0 ← operand_read_u32 rt limit
  let e ← read_extended_tokens rt limit turns (token0 &&& 0x80000000 != 0) ⟨[], false, 0, 0⟩
  let component_count_code := (token0 &&& 0x3).toNat
  let op := decode_operand_token token0 e
  if component_count_code = 3 ∨ (component_count_code = 2 ∧ op.swizzle_mode = 3) then
    operand_parse_failed limit
  else do
    let op ← read_immediates rt limit component_count_code op
    let op ← read_indices rt limit nested op.register_index_dim 0 op
    pure (set_swizzle op)

/-- `parse_operand_recursive_impl`. A call that its entry check lets through spends one operand
token, so a depth of at least the budget is never what stops it. -/
def parse_operand_recursive_impl (turns : ℕ) : (depth : ℕ) → OperandRun DXBCOperand
  | 0 => operand_parse_failed limit
  | depth + 1 => do
    spend_operand_token limit
    parse_operand_body rt limit turns (parse_operand_recursive_impl turns depth)

/-- The number of operand tokens that a call may spend. -/
def operandTokenBudget (stream : ByteStream) : ℕ :=
  if limit ≤ stream.size ∧ stream.position ≤ limit then
    min ((limit - stream.position) / 4) DXBC_MAX_NESTED_OPERAND_TOKENS
  else 0

/-- `parse_operand_recursive`, with bounds on its loop and on its depth. -/
def parse_operand_within (turns depth : ℕ) (stream : ByteStream) :
    Option DXBCOperand × ByteStream :=
  let (op, c) := (parse_operand_recursive_impl rt limit turns depth).run
    ⟨stream, operandTokenBudget limit stream⟩
  (op, c.stream)

def parse_operand_recursive (stream : ByteStream) : Option DXBCOperand × ByteStream :=
  parse_operand_within rt limit (limit / 4) (operandTokenBudget limit stream) stream

end Exits

end OperandExits

end DXBCSandbox
