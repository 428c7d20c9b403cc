/-
Structured control flow as a tree: what the flow instructions of USIL mean.

A token stream is well nested when it spells a tree. The tree gives the stream its
operational meaning: which instruction can run after which. Nothing here follows the
implementation. The graph builder of `src/translation/hlsl_cfg.c` is compared with it.
-/
import DXBCSandbox.Usil.Syntax

namespace DXBCSandbox

open List USILOpcode

/-- A sequence of statements. Every constructor carries what follows it, so a tree is a
statement list whose statements may hold further lists. -/
inductive FlowTree where
  | nil
  | op (opcode : USILOpcode) (rest : FlowTree)
  | ifThen (body rest : FlowTree)
  | ifElse (body alternate rest : FlowTree)
  | loop (body rest : FlowTree)
  | switch (body rest : FlowTree)
  deriving DecidableEq

variable (opcode : USILOpcode)

/-- The instructions that delimit a construct. They are never a statement alone. -/
def isDelimiter : Bool :=
  opcode = IF || opcode = ELSE || opcode = ENDIF || opcode = LOOP || opcode = ENDLOOP ||
    opcode = SWITCH || opcode = ENDSWITCH

def isLabel : Bool := opcode = CASE || opcode = DEFAULT

def isBreak : Bool := opcode = BREAK || opcode = BREAKC

def isContinue : Bool := opcode = CONTINUE || opcode = CONTINUEC

structure Enclosing where
  /-- The list is the body of a switch, so labels may stand in it. -/
  inSwitch : Bool
  /-- Some loop or switch surrounds the list. -/
  inBreakable : Bool
  /-- Some loop surrounds the list. -/
  inLoop : Bool

def Enclosing.top : Enclosing := ⟨false, false, false⟩

variable (c : Enclosing)

/-- Whether an instruction may be a statement in these surroundings. -/
def Enclosing.allows (opcode : USILOpcode) : Bool :=
  if isLabel opcode then c.inSwitch
  else if isBreak opcode then c.inBreakable
  else if isContinue opcode then c.inLoop
  else !isDelimiter opcode

def Enclosing.arm : Enclosing := { c with inSwitch := false }

def Enclosing.loopBody : Enclosing := ⟨false, true, true⟩

def Enclosing.switchBody : Enclosing := ⟨true, true, c.inLoop⟩

/-- Where the jumps of a statement list go: `BREAK` and `CONTINUE`. -/
structure JumpTargets where
  onBreak : ℕ
  onContinue : ℕ

namespace FlowTree

def tokens : FlowTree → List USILOpcode
  | nil => []
  | op opcode rest => opcode :: rest.tokens
  | ifThen body rest => IF :: (body.tokens ++ ENDIF :: rest.tokens)
  | ifElse body alternate rest =>
    IF :: (body.tokens ++ ELSE :: (alternate.tokens ++ ENDIF :: rest.tokens))
  | loop body rest => LOOP :: (body.tokens ++ ENDLOOP :: rest.tokens)
  | switch body rest => SWITCH :: (body.tokens ++ ENDSWITCH :: rest.tokens)

def size : FlowTree → ℕ
  | nil => 0
  | op _ rest => rest.size + 1
  | ifThen body rest => body.size + rest.size + 2
  | ifElse body alternate rest => body.size + alternate.size + rest.size + 3
  | loop body rest => body.size + rest.size + 2
  | switch body rest => body.size + rest.size + 2

/-- How deep the constructs are nested. -/
def depth : FlowTree → ℕ
  | nil => 0
  | op _ rest => rest.depth
  | ifThen body rest => max (body.depth + 1) rest.depth
  | ifElse body alternate rest => max (max body.depth alternate.depth + 1) rest.depth
  | loop body rest => max (body.depth + 1) rest.depth
  | switch body rest => max (body.depth + 1) rest.depth

def defaults : FlowTree → ℕ
  | nil => 0
  | op opcode rest => rest.defaults + if opcode = DEFAULT then 1 else 0
  | ifThen _ rest | ifElse _ _ rest | loop _ rest | switch _ rest => rest.defaults

/-- The positions of the labels in the list itself, for a list that starts at `i`. -/
def labels : FlowTree → ℕ → List ℕ
  | nil, _ => []
  | op opcode rest, i =>
    if isLabel opcode then i :: rest.labels (i + 1) else rest.labels (i + 1)
  | ifThen body rest, i => rest.labels (i + body.size + 1 + 1)
  | ifElse body alternate rest, i => rest.labels (i + body.size + 1 + alternate.size + 1 + 1)
  | loop body rest, i => rest.labels (i + body.size + 1 + 1)
  | switch body rest, i => rest.labels (i + body.size + 1 + 1)

/-- Labels stand in a switch body, jumps have something to leave, a switch has at most
one `DEFAULT`, and no delimiter stands alone. -/
def wellNested : Enclosing → FlowTree → Bool
  | _, nil => true
  | c, op opcode rest => c.allows opcode && wellNested c rest
  | c, ifThen body rest => wellNested c.arm body && wellNested c rest
  | c, ifElse body alternate rest =>
    wellNested c.arm body && wellNested c.arm alternate && wellNested c rest
  | c, loop body rest => wellNested .loopBody body && wellNested c rest
  | c, switch body rest =>
    wellNested c.switchBody body && decide (body.defaults ≤ 1) && wellNested c rest

/-- Where an instruction that is a statement can go. `none` leaves the program. -/
def opTargets (opcode : USILOpcode) (i : ℕ) (j : JumpTargets) : List (Option ℕ) :=
  if opcode = RET then [none]
  else if opcode = DISCARD then [none, some (i + 1)]
  else if opcode = BREAK then [some j.onBreak]
  else if opcode = BREAKC then [some (i + 1), some j.onBreak]
  else if opcode = CONTINUE then [some j.onContinue]
  else if opcode = CONTINUEC then [some (i + 1), some j.onContinue]
  else [some (i + 1)]

/-- **The operational meaning of a tree.** All steps of a list that starts at `i`, as
pairs of an instruction and where it can go.

An `IF` enters its first arm or the point after its `ELSE` or, without one, after its
`ENDIF`. The `ELSE` ends the first arm. A `LOOP` enters its body, `ENDLOOP` repeats it
and `CONTINUE` goes to `ENDLOOP`. A `SWITCH` goes to one of its labels or, when none is
`DEFAULT`, after its `ENDSWITCH`. A `BREAK` goes after the end of the construct it
leaves. Everything else falls through to the next instruction. -/
def steps : FlowTree → ℕ → JumpTargets → List (ℕ × Option ℕ)
  | nil, _, _ => []
  | op opcode rest, i, j => (opTargets opcode i j).map (i, ·) ++ rest.steps (i + 1) j
  | ifThen body rest, i, j =>
    let e := i + body.size + 1
    [(i, some (i + 1)), (i, some (e + 1))] ++ (body.steps (i + 1) j ++
      ([(e, some (e + 1))] ++ rest.steps (e + 1) j))
  | ifElse body alternate rest, i, j =>
    let a := i + body.size + 1
    let e := a + alternate.size + 1
    [(i, some (i + 1)), (i, some (a + 1))] ++ (body.steps (i + 1) j ++
      ([(a, some (e + 1))] ++ (alternate.steps (a + 1) j ++
        ([(e, some (e + 1))] ++ rest.steps (e + 1) j))))
  | loop body rest, i, j =>
    let e := i + body.size + 1
    [(i, some (i + 1))] ++ (body.steps (i + 1) ⟨e + 1, e⟩ ++
      ([(e, some (i + 1))] ++ rest.steps (e + 1) j))
  | switch body rest, i, j =>
    let e := i + body.size + 1
    let past := if body.defaults = 0 then [e + 1] else []
    (body.labels (i + 1) ++ past).map (fun target => (i, some target)) ++
      (body.steps (i + 1) { j with onBreak := e + 1 } ++
        ([(e, some (e + 1))] ++ rest.steps (e + 1) j))

variable (t : FlowTree)

/-- One step of a whole program that starts at `first`. Going to the point after the
last instruction leaves the program. No jump is outside a construct, so the jump targets
of the outermost list are never used. -/
def Step (first k : ℕ) (target : Option ℕ) : Prop :=
  ∃ target', (k, target') ∈ t.steps first ⟨0, 0⟩ ∧
    target = if target' = some (first + t.size) then none else target'

/-! ## Sizes -/

@[simp] lemma length_tokens : t.tokens.length = t.size := by
  induction t with
  | nil => rfl
  | op opcode rest ih => simp [tokens, size, ih]
  | ifThen body rest ihb ihr => simp [tokens, size, ihb, ihr]; omega
  | ifElse body alternate rest ihb iha ihr => simp [tokens, size, ihb, iha, ihr]; omega
  | loop body rest ihb ihr => simp [tokens, size, ihb, ihr]; omega
  | switch body rest ihb ihr => simp [tokens, size, ihb, ihr]; omega

lemma labels_eq_nil {c : Enclosing} {t : FlowTree} (h : wellNested c t)
    (hc : c.inSwitch = false) (i : ℕ) : t.labels i = [] ∧ t.defaults = 0 := by
  induction t generalizing i with
  | nil => exact ⟨rfl, rfl⟩
  | op opcode rest ih =>
    simp only [wellNested, Bool.and_eq_true] at h
    have hl : isLabel opcode = false := by
      by_contra hl
      have hop := h.1
      simp only [Bool.not_eq_false] at hl
      rw [Enclosing.allows, if_pos hl, hc] at hop
      exact absurd hop (by decide)
    have hd : opcode ≠ DEFAULT := by
      intro hd
      rw [hd] at hl
      exact absurd hl (by decide)
    simpa [labels, defaults, hl, hd] using ih h.2 (i + 1)
  | ifThen body rest ihb ihr =>
    simp only [wellNested, Bool.and_eq_true] at h
    exact ihr h.2 _
  | ifElse body alternate rest ihb iha ihr =>
    simp only [wellNested, Bool.and_eq_true] at h
    exact ihr h.2 _
  | loop body rest ihb ihr =>
    simp only [wellNested, Bool.and_eq_true] at h
    exact ihr h.2 _
  | switch body rest ihb ihr =>
    simp only [wellNested, Bool.and_eq_true] at h
    exact ihr h.2 _

/-- An instruction of a construct has one or two steps, and the labels of a switch pay
for its dispatch. -/
theorem length_steps_le (i : ℕ) (j : JumpTargets) :
    (t.steps i j).length + (t.labels i).length ≤ 3 * t.size := by
  induction t generalizing i j with
  | nil => simp [steps, labels]
  | op opcode rest ih =>
    have hrest := ih (i + 1) j
    have hop : (opTargets opcode i j).length ≤ 2 := by
      simp only [opTargets]
      split_ifs <;> simp
    simp only [steps, labels, size, length_append, length_map]
    split_ifs
    · rw [length_cons]
      omega
    · omega
  | ifThen body rest ihb ihr =>
    have hb := ihb (i + 1) j
    have hr := ihr (i + body.size + 1 + 1) j
    simp only [steps, labels, size, length_append, length_cons, length_nil]
    omega
  | ifElse body alternate rest ihb iha ihr =>
    have hb := ihb (i + 1) j
    have ha := iha (i + body.size + 1 + 1) j
    have hr := ihr (i + body.size + 1 + alternate.size + 1 + 1) j
    simp only [steps, labels, size, length_append, length_cons, length_nil]
    omega
  | loop body rest ihb ihr =>
    have hb := ihb (i + 1) ⟨i + body.size + 1 + 1, i + body.size + 1⟩
    have hr := ihr (i + body.size + 1 + 1) j
    simp only [steps, labels, size, length_append, length_cons, length_nil]
    omega
  | switch body rest ihb ihr =>
    have hb := ihb (i + 1) { j with onBreak := i + body.size + 1 + 1 }
    have hr := ihr (i + body.size + 1 + 1) j
    have hpast : (if body.defaults = 0 then [i + body.size + 1 + 1] else []).length ≤ 1 := by
      split_ifs <;> simp
    simp only [steps, labels, size, length_append, length_map, length_cons, length_nil]
    omega

end FlowTree

end DXBCSandbox
