/-
The structured-flow matcher (`is_boundary` and `match_flow_structure` of
`src/translation/hlsl_cfg.c`).

One pass over the instructions pairs every opening flow instruction with its
alternate and its end, every jump with the scope it leaves, and the labels of a switch
in a chain. The matcher keeps the open constructs on a stack of at most 64 entries.

A missing link is `-1` in C and `none` here.
-/
import DXBCSandbox.Usil.Syntax

namespace DXBCSandbox

open USILOpcode

def is_boundary : USILOpcode → Bool
  | IF | ELSE | ENDIF | LOOP | ENDLOOP | SWITCH | CASE | DEFAULT | ENDSWITCH => true
  | BREAK | BREAKC | CONTINUE | CONTINUEC | RET | DISCARD => true
  | GEOMETRY_APPEND | GEOMETRY_RESTART_STRIP => true
  | _ => false

structure HLSLInstructionFlow where
  end_ : Option ℕ
  alternate : Option ℕ
  parent : Option ℕ
  jump_scope : Option ℕ
  first_case : Option ℕ
  next_case : Option ℕ
  has_default : Bool

/-- The entry before the pass: every link is missing. -/
def HLSLInstructionFlow.unlinked : HLSLInstructionFlow :=
  ⟨none, none, none, none, none, none, false⟩

def MAX_FLOW_DEPTH : ℕ := 64

/-- An open construct: `stack[depth]` and `last_case[depth]`. -/
structure OpenScope where
  opener : ℕ
  last_case : Option ℕ

/-- The state of the pass, with the innermost construct first on the stack. -/
structure FlowMatcher where
  stack : List OpenScope
  flow : ℕ → HLSLInstructionFlow

namespace FlowMatcher

variable (s : FlowMatcher)

def modify (index : ℕ) (f : HLSLInstructionFlow → HLSLInstructionFlow) : FlowMatcher :=
  { s with flow := Function.update s.flow index (f (s.flow index)) }

@[simp] lemma modify_stack (index : ℕ) (f : HLSLInstructionFlow → HLSLInstructionFlow) :
    (s.modify index f).stack = s.stack := rfl

@[simp] lemma modify_flow (index k : ℕ) (f : HLSLInstructionFlow → HLSLInstructionFlow) :
    (s.modify index f).flow k = if k = index then f (s.flow index) else s.flow k := by
  simp [modify, Function.update_apply]

/-- The parent of an instruction of the innermost construct: its `ELSE` once there is
one, its opener before. -/
def parent : Option ℕ :=
  match s.stack with
  | [] => none
  | scope :: _ => (s.flow scope.opener).alternate.or (some scope.opener)

def enter (index : ℕ) : FlowMatcher :=
  s.modify index fun e => { e with parent := s.parent }

@[simp] lemma enter_stack (index : ℕ) : (s.enter index).stack = s.stack := rfl

@[simp] lemma enter_flow (index k : ℕ) :
    (s.enter index).flow k =
      if k = index then { s.flow k with parent := s.parent } else s.flow k := by
  rw [enter, modify_flow]
  split_ifs with h
  · rw [h]
  · rfl

end FlowMatcher

/-! ## The branches of the pass

Each takes the state in which the parent of `index` is already recorded. -/

def match_open (s : FlowMatcher) (index : ℕ) : Option FlowMatcher :=
  if s.stack.length = MAX_FLOW_DEPTH then none
  else some { s with stack := ⟨index, none⟩ :: s.stack }

variable (program : USILProgram)

def match_else (s : FlowMatcher) (index : ℕ) : Option FlowMatcher :=
  match s.stack with
  | [] => none
  | scope :: _ =>
    if program.opcode scope.opener ≠ IF ∨ (s.flow scope.opener).alternate.isSome then none
    else
      let s := s.modify scope.opener fun e => { e with alternate := some index }
      some (s.modify index fun e => { e with parent := (s.flow scope.opener).parent })

def required_opener (opcode : USILOpcode) : USILOpcode :=
  if opcode = ENDIF then IF else if opcode = ENDLOOP then LOOP else SWITCH

def match_end (s : FlowMatcher) (index : ℕ) : Option FlowMatcher :=
  match s.stack with
  | [] => none
  | scope :: outer =>
    if program.opcode scope.opener ≠ required_opener (program.opcode index) then none
    else
      let s := s.modify scope.opener fun e => { e with end_ := some index }
      let s := match (s.flow scope.opener).alternate with
        | some alternate => s.modify alternate fun e => { e with end_ := some index }
        | none => s
      let s := s.modify index fun e =>
        { e with jump_scope := some scope.opener, parent := (s.flow scope.opener).parent }
      some { s with stack := outer }

def match_label (s : FlowMatcher) (index : ℕ) : Option FlowMatcher :=
  match s.stack with
  | [] => none
  | scope :: outer =>
    if program.opcode scope.opener ≠ SWITCH ∨
        (program.opcode index = DEFAULT ∧ (s.flow scope.opener).has_default) then none
    else
      let s := if program.opcode index = DEFAULT then
          s.modify scope.opener fun e => { e with has_default := true }
        else s
      let s := match scope.last_case with
        | some label => s.modify label fun e => { e with next_case := some index }
        | none => s.modify scope.opener fun e => { e with first_case := some index }
      some { s with stack := ⟨scope.opener, some index⟩ :: outer }

/-- Whether a jump leaves a construct of this kind. `CONTINUE` looks for a loop only. -/
def is_jump_scope (loop_only : Bool) (kind : USILOpcode) : Bool :=
  kind = LOOP || (!loop_only && kind = SWITCH)

def jump_target (loop_only : Bool) (stack : List OpenScope) : Option ℕ :=
  (stack.map OpenScope.opener).find? fun opener => is_jump_scope loop_only (program.opcode opener)

def match_jump (s : FlowMatcher) (index : ℕ) : Option FlowMatcher :=
  let loop_only := program.opcode index = CONTINUE || program.opcode index = CONTINUEC
  match jump_target program loop_only s.stack with
  | none => none
  | some opener => some (s.modify index fun e => { e with jump_scope := some opener })

def match_flow_step (s : FlowMatcher) (index : ℕ) : Option FlowMatcher :=
  let opcode := program.opcode index
  let s := s.enter index
  if opcode = IF ∨ opcode = LOOP ∨ opcode = SWITCH then match_open s index
  else if opcode = ELSE then match_else program s index
  else if opcode = ENDIF ∨ opcode = ENDLOOP ∨ opcode = ENDSWITCH then match_end program s index
  else if opcode = CASE ∨ opcode = DEFAULT then match_label program s index
  else if opcode = BREAK ∨ opcode = BREAKC ∨ opcode = CONTINUE ∨ opcode = CONTINUEC then
    match_jump program s index
  else some s

def match_flow_loop (program : USILProgram) (s : FlowMatcher) (index : ℕ) : ℕ → Option FlowMatcher
  | 0 => some s
  | count + 1 =>
    match match_flow_step program s index with
    | none => none
    | some s => match_flow_loop program s (index + 1) count

/-- The table of the range, or `none` when the constructs do not match. -/
def match_flow_structure (first_instruction end_instruction : ℕ) :
    Option (ℕ → HLSLInstructionFlow) :=
  match match_flow_loop program ⟨[], fun _ => .unlinked⟩ first_instruction
      (end_instruction - first_instruction) with
  | none => none
  | some s => if s.stack = [] then some s.flow else none

lemma match_flow_loop_succ (s : FlowMatcher) (index count : ℕ) :
    match_flow_loop program s index (count + 1) = (match_flow_step program s index).bind fun s =>
        match_flow_loop program s (index + 1) count := by
  rw [match_flow_loop]
  cases match_flow_step program s index <;> rfl

lemma match_flow_loop_add (s : FlowMatcher) (index m n : ℕ) :
    match_flow_loop program s index (m + n) = (match_flow_loop program s index m).bind fun s =>
        match_flow_loop program s (index + m) n := by
  induction m generalizing s index with
  | zero => simp [match_flow_loop]
  | succ m ih =>
    rw [show m + 1 + n = m + n + 1 by omega, match_flow_loop_succ, match_flow_loop_succ]
    cases match_flow_step program s index with
    | none => rfl
    | some s' =>
      simp only [Option.bind_some]
      rw [ih, show index + 1 + m = index + (m + 1) by omega]

end DXBCSandbox
