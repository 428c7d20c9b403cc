/-
Keyword states and the selection of a variant (`src/translation/shaderlab_variant_domain.c`).

A state is a set of keywords, given as indices that strictly increase. The walks over two states
are loops over two indices; here the lists shrink instead. Signed arithmetic that leaves 32 bits is
a failure of its own. A count that comes with an array is the length of the array.
-/
import DXBCSandbox.Common.VariantKey

namespace DXBCSandbox

def INT32_MIN : ℤ := -2147483648

def INT32_MAX : ℤ := 2147483647

abbrev KeywordIndex := Fin 65536

instance neZeroKeywords : NeZero 65536 := inferInstance

instance : LawfulBEq KeywordIndex := inferInstance

abbrev ShaderLabVariantState := CArray KeywordIndex

def CArray.keywords (state : ShaderLabVariantState) : List KeywordIndex := state.values.getD []

structure ShaderLabVariantCandidate where
  state : ShaderLabVariantState
  supported : Bool

structure ShaderLabVariantScopedState where
  global_keywords : ShaderLabVariantState
  local_keywords : ShaderLabVariantState

/-- The loop of `shaderlab_variant_state_is_canonical`. -/
def strictly_increasing : List KeywordIndex → Bool
  | a :: b :: rest => if b ≤ a then false else strictly_increasing (b :: rest)
  | _ => true

def shaderlab_variant_state_is_canonical (state : ShaderLabVariantState) : Bool :=
  if state.count ≠ 0 ∧ state.values = none then false
  else strictly_increasing state.keywords

/-! ## Merging and masking -/

/-- What a call leaves: its result, the count when it was written, and the output. -/
structure IndexOutput where
  success : Bool
  out_count : Option ℕ
  out_indices : CArray KeywordIndex

/-- The array with its first elements overwritten. Nothing is written behind its end. -/
def CArray.fill {α : Type} (array : CArray α) (written : List α) : CArray α where
  values := array.values.map fun old => (written ++ old.drop written.length).take old.length
  count := array.count
  count_eq := by
    intro l hl
    obtain ⟨old, hold, rfl⟩ := Option.map_eq_some_iff.mp hl
    have hcount := array.count_eq old hold
    rw [List.length_take, List.length_append, List.length_drop]
    omega

/-- The end of both calls: the count is left, and the output is filled when there is one. -/
def write_indices (out_indices : CArray KeywordIndex) (count : ℕ) (written : List KeywordIndex) :
    IndexOutput :=
  if out_indices.values = none then ⟨true, some count, out_indices⟩
  else if out_indices.count < count then ⟨false, some count, out_indices⟩
  else ⟨written.length = count, some count, out_indices.fill written⟩

/-- The first loop of `shaderlab_variant_merge_scopes`. -/
def merge_count (globals locals : List KeywordIndex) (count : ℕ) : ℕ :=
  match globals, locals with
  | [], [] => count
  | _ :: globals, [] => merge_count globals [] (count + 1)
  | [], _ :: locals => merge_count [] locals (count + 1)
  | g :: globals, l :: locals =>
    if g < l then merge_count globals (l :: locals) (count + 1)
    else if l < g then merge_count (g :: globals) locals (count + 1)
    else merge_count globals locals (count + 1)
  termination_by globals.length + locals.length

/-- The second loop of `shaderlab_variant_merge_scopes`. -/
def merge_indices (globals locals : List KeywordIndex) : List KeywordIndex :=
  match globals, locals with
  | [], [] => []
  | g :: globals, [] => g :: merge_indices globals []
  | [], l :: locals => l :: merge_indices [] locals
  | g :: globals, l :: locals =>
    if g < l then g :: merge_indices globals (l :: locals)
    else if l < g then l :: merge_indices (g :: globals) locals
    else g :: merge_indices globals locals
  termination_by globals.length + locals.length

def shaderlab_variant_merge_scopes (scoped_state : ShaderLabVariantScopedState)
    (out_indices : CArray KeywordIndex) : IndexOutput :=
  if ¬ shaderlab_variant_state_is_canonical scoped_state.global_keywords ∨
      ¬ shaderlab_variant_state_is_canonical scoped_state.local_keywords ∨
      (out_indices.values = none ∧ out_indices.count ≠ 0) then ⟨false, none, out_indices⟩
  else
    let globals := scoped_state.global_keywords.keywords
    let locals := scoped_state.local_keywords.keywords
    write_indices out_indices (merge_count globals locals 0) (merge_indices globals locals)

/-- The first loop of `shaderlab_variant_apply_pass_mask`. -/
def mask_count (request mask : List KeywordIndex) (count : ℕ) : ℕ :=
  match request, mask with
  | [], _ => count
  | _ :: _, [] => count
  | r :: request, m :: mask =>
    if r < m then mask_count request (m :: mask) count
    else if m < r then mask_count (r :: request) mask count
    else mask_count request mask (count + 1)
  termination_by request.length + mask.length

/-- The second loop of `shaderlab_variant_apply_pass_mask`. -/
def mask_indices (request mask : List KeywordIndex) : List KeywordIndex :=
  match request, mask with
  | [], _ => []
  | _ :: _, [] => []
  | r :: request, m :: mask =>
    if r < m then mask_indices request (m :: mask)
    else if m < r then mask_indices (r :: request) mask
    else r :: mask_indices request mask
  termination_by request.length + mask.length

def shaderlab_variant_apply_pass_mask (request pass_mask : ShaderLabVariantState)
    (out_indices : CArray KeywordIndex) : IndexOutput :=
  if ¬ shaderlab_variant_state_is_canonical request ∨
      ¬ shaderlab_variant_state_is_canonical pass_mask ∨
      (out_indices.values = none ∧ out_indices.count ≠ 0) then ⟨false, none, out_indices⟩
  else
    write_indices out_indices (mask_count request.keywords pass_mask.keywords 0)
      (mask_indices request.keywords pass_mask.keywords)

/-! ## Scores -/

/-- A call fails by returning `false`, or it leaves 32-bit arithmetic. -/
inductive VariantMatchFailure where
  | refused | overflow
  deriving DecidableEq

def int32 (x : ℤ) : Except VariantMatchFailure ℤ :=
  if INT32_MIN ≤ x ∧ x ≤ INT32_MAX then .ok x else .error .overflow

/-- The loop of `shaderlab_variant_match_score`, which counts in a `uint32_t`. -/
def common_count (request candidate : List KeywordIndex) (common : ℕ) : ℕ :=
  match request, candidate with
  | [], _ => common
  | _ :: _, [] => common
  | r :: request, c :: candidate =>
    if r < c then common_count request (c :: candidate) common
    else if c < r then common_count (r :: request) candidate common
    else common_count request candidate ((common + 1) % 2 ^ 32)
  termination_by request.length + candidate.length

def shaderlab_variant_match_score (request candidate : ShaderLabVariantState) :
    Except VariantMatchFailure ℤ :=
  if ¬ shaderlab_variant_state_is_canonical request ∨
      ¬ shaderlab_variant_state_is_canonical candidate then .error .refused
  else do
    let common : ℕ := common_count request.keywords candidate.keywords 0
    let candidate_only : ℕ := (candidate.count % 2 ^ 32 + 2 ^ 32 - common) % 2 ^ 32
    let gain ← int32 common
    let missing ← int32 candidate_only
    let penalty ← int32 (16 * missing)
    int32 (gain - penalty)

/-! ## Selection -/

def state_is_subset : (state superset : List KeywordIndex) → Bool
  | [], _ => true
  | _ :: _, [] => false
  | s :: state, t :: superset =>
    if s < t then false
    else if t < s then state_is_subset (s :: state) superset
    else state_is_subset state superset

def shaderlab_variant_pass_authority_is_valid (pass_mask : ShaderLabVariantState)
    (candidates : CArray ShaderLabVariantCandidate) : Bool :=
  if ¬ shaderlab_variant_state_is_canonical pass_mask ∨
      (candidates.count ≠ 0 ∧ candidates.values.isNone) then false
  else (candidates.values.getD []).all fun candidate =>
    shaderlab_variant_state_is_canonical candidate.state &&
      state_is_subset candidate.state.keywords pass_mask.keywords

/-- `*out_candidate_index`, where `SIZE_MAX` is `none`, and `*out_score`. -/
structure VariantMatch where
  candidate_index : Option ℕ
  score : ℤ

def select_candidates (request : ShaderLabVariantState) :
    List ShaderLabVariantCandidate → (i : ℕ) → VariantMatch →
      Except VariantMatchFailure VariantMatch
  | [], _, best => .ok best
  | candidate :: candidates, i, best =>
    if ¬ candidate.supported then select_candidates request candidates (i + 1) best
    else do
      let score ← shaderlab_variant_match_score request candidate.state
      if best.candidate_index = none ∨ best.score < score then
        select_candidates request candidates (i + 1) ⟨some i, score⟩
      else select_candidates request candidates (i + 1) best

/-- The candidate and its score. A call that fails selects none. -/
def shaderlab_variant_select_best (request pass_mask : ShaderLabVariantState)
    (candidates : CArray ShaderLabVariantCandidate) : Except VariantMatchFailure (ℕ × ℤ) :=
  if ¬ shaderlab_variant_state_is_canonical request ∨
      ¬ shaderlab_variant_state_is_canonical pass_mask ∨
      ¬ shaderlab_variant_pass_authority_is_valid pass_mask candidates then .error .refused
  else do
    let best ← select_candidates request (candidates.values.getD []) 0 ⟨none, INT32_MIN⟩
    match best.candidate_index with
    | none => .error .refused
    | some i => .ok (i, best.score)

end DXBCSandbox
