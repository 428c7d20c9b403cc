/-
Axes from ordered states (`src/translation/shaderlab_variant_plan.c`).

Keywords that never occur in one state belong together, and each group of them should be an axis.
The groups are placed one after another: the axis of a stride is the group whose keywords change
with that stride. What the axes generate is listed again by `build_axis_state_list`.
-/
import DXBCSandbox.Lib.UnionFind
import DXBCSandbox.Shaderlab.VariantPlan
import Mathlib.Data.List.Sort

namespace DXBCSandbox

open VariantPlan

/-- `keyword_count + (has_default ? 1u : 0u)`. -/
def ShaderLabVariantAxis.radix (axis : ShaderLabVariantAxis) : ℕ :=
  axis.keyword_indices.length + if axis.has_default then 1 else 0

structure FactorComponent where
  keywords : List KeywordIndex
  has_default : Bool
  is_local : Bool
  placed : Bool

def FactorComponent.radix (component : FactorComponent) : ℕ :=
  component.keywords.length + if component.has_default then 1 else 0

namespace VariantFactor

/-! ## Groups of keywords -/

def dsu_find (parents : List ℕ) (index : ℕ) : List ℕ × ℕ := UnionFind.find parents index

variable (states : List (List KeywordIndex))

def keywords_never_cooccur (left right : KeywordIndex) : Bool :=
  states.all fun state => !(state_contains state left && state_contains state right)

def join_keywords (keyword_universe : List KeywordIndex) (parents : List ℕ) (pair : ℕ × ℕ) :
    List ℕ :=
  if ¬ keywords_never_cooccur states (keyword_universe.getD pair.1 0)
      (keyword_universe.getD pair.2 0) then parents
  else
    let left := dsu_find parents pair.1
    let right := dsu_find left.1 pair.2
    if left.2 ≠ right.2 then right.1.set right.2 left.2 else right.1

/-- The pairs of the two loops, in their order. -/
def keyword_pairs (used_count : ℕ) : List (ℕ × ℕ) :=
  (List.range used_count).flatMap fun i =>
    (List.range' (i + 1) (used_count - (i + 1))).map fun j => (i, j)

def count_components : (indices parents : List ℕ) → List ℕ × ℕ
  | [], parents => (parents, 0)
  | i :: rest, parents =>
    let found := dsu_find parents i
    let counted := count_components rest found.1
    (counted.1, if found.2 = i then counted.2 + 1 else counted.2)

/-- The loop over the keywords before one, which looks for its root. -/
def search_component (root : ℕ) : (component_for_keyword : List ℕ) → (previous : ℕ) →
    (parents : List ℕ) → List ℕ × Option ℕ
  | [], _, parents => (parents, none)
  | component :: rest, previous, parents =>
    let found := dsu_find parents previous
    if found.2 = root then (found.1, some component)
    else search_component root rest (previous + 1) found.1

structure ComponentAssignment where
  parents : List ℕ
  component_for_keyword : List ℕ
  assigned_components : ℕ

def assign_component (s : ComponentAssignment) (i : ℕ) : ComponentAssignment :=
  let found := dsu_find s.parents i
  let searched := search_component found.2 s.component_for_keyword 0 found.1
  match searched.2 with
  | some component =>
    ⟨searched.1, s.component_for_keyword ++ [component], s.assigned_components⟩
  | none =>
    ⟨searched.1, s.component_for_keyword ++ [s.assigned_components], s.assigned_components + 1⟩

def component_keywords (keyword_universe : List KeywordIndex) (component_for_keyword : List ℕ)
    (component : ℕ) : List KeywordIndex :=
  ((keyword_universe.zip component_for_keyword).filter fun entry => entry.2 = component).map (·.1)

def group_keywords (keyword_universe : List KeywordIndex) : List (List KeywordIndex) :=
  let used_count := keyword_universe.length
  let parents := (keyword_pairs used_count).foldl (join_keywords states keyword_universe)
    (List.range used_count)
  let counted := count_components (List.range used_count) parents
  let assigned := (List.range used_count).foldl assign_component ⟨counted.1, [], 0⟩
  (List.range counted.2).map (component_keywords keyword_universe assigned.component_for_keyword)

/-! ## Components -/

def scan_options (state : List KeywordIndex) : List KeywordIndex → (option : ℤ) → ℤ
  | [], option => option
  | keyword :: keywords, option =>
    if ¬ state_contains state keyword then scan_options state keywords option
    else if option ≠ -1 then -2
    else scan_options state keywords keyword.val

variable (component : FactorComponent)

def component_option_at (state : List KeywordIndex) : ℤ :=
  scan_options state component.keywords (-1)

/-- The two loops over the keywords of a component. -/
def pairs_never_cooccur (states : List (List KeywordIndex)) : List KeywordIndex → Bool
  | [] => true
  | left :: keywords =>
    keywords.all (keywords_never_cooccur states left) && pairs_never_cooccur states keywords

def check_component (shader : SerializedShader) (states : List (List KeywordIndex))
    (stage_index : ℤ) (keywords : List KeywordIndex) : Planning FactorComponent :=
  if ¬ pairs_never_cooccur states keywords then .error ⟨.nonfactorable, stage_index, -1, -1, -1⟩
  else
    let options := states.map (scan_options · keywords (-1))
    if -2 ∈ options then .error ⟨.nonfactorable, stage_index, -1, -1, -1⟩
    else
      let is_local := keyword_is_local shader (keywords.getD 0 0).val
      match keywords.find? fun keyword => keyword_is_local shader keyword.val ≠ is_local with
      | some raw => .error ⟨.scopeConflict, stage_index, -1, -1, raw.val⟩
      | none => .ok ⟨keywords, -1 ∈ options, is_local, false⟩

/-- The loop over the components, with the product of their radices. -/
def check_components (shader : SerializedShader) (states : List (List KeywordIndex))
    (stage_index : ℤ) :
    List (List KeywordIndex) → (product : ℕ) → Planning (List FactorComponent × ℕ)
  | [], product => .ok ([], product)
  | keywords :: rest, product => do
    let component ← check_component shader states stage_index keywords
    if component.radix = 0 ∨ SIZE_MAX / component.radix < product then
      .error ⟨.nonfactorable, stage_index, -1, -1, -1⟩
    else do
      let checked ← check_components shader states stage_index rest (product * component.radix)
      pure (component :: checked.1, checked.2)

/-! ## Placing the components -/

def first_option : ℕ := if component.has_default then 1 else 0

/-- The loop that reads the options at multiples of the stride, `n` of them. -/
def collect_options (component : FactorComponent) (states : List (List KeywordIndex))
    (stride : ℕ) : (n option_index : ℕ) → (options : List KeywordIndex) →
    Option (List KeywordIndex)
  | 0, _, options => some options
  | n + 1, option_index, options =>
    let option := component_option_at component (states.getD (option_index * stride) [])
    if option < 0 then none
    else if keywordIndex option ∈ options then none
    else collect_options component states stride n (option_index + 1)
      (options ++ [keywordIndex option])

def expected_option (options : List KeywordIndex) (stride i : ℕ) : ℤ :=
  let sequence_option := i / stride % component.radix
  if component.has_default ∧ sequence_option = 0 then -1
  else (options.getD (sequence_option - first_option component) 0).val

def component_matches_stride (states : List (List KeywordIndex)) (stride : ℕ) :
    Option (List KeywordIndex) :=
  let radix := component.radix
  if radix ≤ 1 ∨ states.length < stride ∨ states.length / stride < radix then none
  else if component.has_default ∧ component_option_at component (states.getD 0 []) ≠ -1 then none
  else
    match collect_options component states stride (radix - first_option component)
      (first_option component) [] with
    | none => none
    | some options =>
      if (List.range states.length).all fun i =>
          component_option_at component (states.getD i []) =
            expected_option component options stride i
      then some options
      else none

/-- The loop that selects the component of a stride, with its place and its ordered keywords. -/
def select_component (states : List (List KeywordIndex)) (stride : ℕ) :
    (i : ℕ) → List FactorComponent → Option (ℕ × FactorComponent × List KeywordIndex) →
    Option (ℕ × FactorComponent × List KeywordIndex)
  | _, [], selected => selected
  | i, component :: rest, selected =>
    if component.placed ∨ component.radix ≤ 1 then
      select_component states stride (i + 1) rest selected
    else
      match component_matches_stride component states stride with
      | none => select_component states stride (i + 1) rest selected
      | some order =>
        if selected.all fun s => component.keywords.getD 0 0 < s.2.1.keywords.getD 0 0 then
          select_component states stride (i + 1) rest (some (i, component, order))
        else select_component states stride (i + 1) rest selected

structure Placement where
  components : List FactorComponent
  axes : List ShaderLabVariantAxis
  stride : ℕ

/-- The loop that places the components. Each round places one, so `n` rounds are enough for as
many components. -/
def place_components (states : List (List KeywordIndex)) : (n : ℕ) → Placement → Placement
  | 0, p => p
  | n + 1, p =>
    match select_component states p.stride 0 p.components none with
    | none => p
    | some (i, component, order) =>
      place_components states n
        { components := p.components.set i { component with placed := true }
          axes := p.axes ++ [⟨component.has_default, component.is_local, order⟩]
          stride := p.stride * component.radix }

/-- The loop over the components that were not placed. -/
def append_constants (stage_index : ℤ) : List FactorComponent → Planning (List ShaderLabVariantAxis)
  | [] => .ok []
  | component :: rest =>
    if component.placed then append_constants stage_index rest
    else if component.radix ≠ 1 then .error ⟨.orderMismatch, stage_index, -1, -1, -1⟩
    else do
      let axes ← append_constants stage_index rest
      pure (⟨false, component.is_local, [component.keywords.getD 0 0]⟩ :: axes)

def order_components (stage_index : ℤ) (components : List FactorComponent) :
    Planning (List ShaderLabVariantAxis) := do
  let placement := place_components states (components.length + 1) ⟨components, [], 1⟩
  let constants ← append_constants stage_index placement.components
  let axes := placement.axes ++ constants
  if axes.length ≠ components.length ∨ placement.stride ≠ states.length then
    .error ⟨.orderMismatch, stage_index, -1, -1, -1⟩
  else pure axes

def keyword_is_used (raw : ℕ) : Bool :=
  states.any fun state => state.any fun keyword => keyword.val = raw

def used_keywords (shader : SerializedShader) (states : List (List KeywordIndex)) :
    List KeywordIndex :=
  ((List.range shader.keyword_names.count.toNat).filter (keyword_is_used states)).map
    fun raw : ℕ => keywordIndex raw

end VariantFactor

open VariantFactor

def factor_ordered_states (shader : SerializedShader) (states : List (List KeywordIndex))
    (stage_index : ℤ) : Planning (List ShaderLabVariantAxis) :=
  if states = [] then .error ⟨.nonfactorable, stage_index, -1, -1, -1⟩
  else if ¬ states.all strictly_increasing then .error ⟨.nonfactorable, stage_index, -1, -1, -1⟩
  else
    let keyword_universe := used_keywords shader states
    if keyword_universe = [] then
      if states.length ≠ 1 then .error ⟨.nonfactorable, stage_index, -1, -1, -1⟩ else .ok []
    else do
      let checked ← check_components shader states stage_index
        (group_keywords states keyword_universe) 1
      if checked.2 ≠ states.length then .error ⟨.nonfactorable, stage_index, -1, -1, -1⟩
      else order_components states stage_index checked.1

namespace VariantFactor

/-! ## The states of the axes -/

def axis_state_count (stage_index : ℤ) : List ShaderLabVariantAxis → (state_count : ℕ) → Planning ℕ
  | [], state_count => .ok state_count
  | axis :: axes, state_count =>
    if axis.radix = 0 ∨ SIZE_MAX / axis.radix < state_count then
      .error ⟨.proofLimitExceeded, stage_index, -1, -1, -1⟩
    else axis_state_count stage_index axes (state_count * axis.radix)

/-- The loop over the axes that collects the enabled keywords of a state. -/
def axis_indices (state_index : ℕ) : List ShaderLabVariantAxis → (stride : ℕ) → List KeywordIndex
  | [], _ => []
  | axis :: axes, stride =>
    let option := state_index / stride % axis.radix
    let rest := axis_indices state_index axes (stride * axis.radix)
    if axis.has_default ∧ option = 0 then rest
    else axis.keyword_indices.getD (option - if axis.has_default then 1 else 0) 0 :: rest

/-- The insertion sort. The sorted part is kept in reverse, as an element moves in from its end. -/
def sort_indices (indices : List KeywordIndex) : List KeywordIndex :=
  (indices.foldl (fun sorted value => sorted.orderedInsert (· ≥ ·) value) []).reverse

end VariantFactor

def build_axis_state_list (axes : List ShaderLabVariantAxis) (stage_index : ℤ) :
    Planning (List (List KeywordIndex)) := do
  let state_count ← axis_state_count stage_index axes 1
  pure ((List.range state_count).map fun state_index =>
    sort_indices (axis_indices state_index axes 1))

end DXBCSandbox
