/-
The union of global declarations does not depend on the order of the witnesses
(`src/translation/hlsl_global_declarations.c`).

What a parameter block declares is fixed before any field is added, so the loops over blocks,
buffers and variables add a list of declarations that can be written down. The witnesses in another
order add the same declarations in another order.
-/
import DXBCSandbox.Hlsl.DeclarationMerge

namespace DXBCSandbox

open List Option GlobalDeclarations

namespace GlobalDeclarations

/-! ## What is added -/

/-- A program goes through exactly when its entries are there and can be added, and adds them. -/
def Adds (p : List HLSLGlobalDeclarationField →
    Except HLSLGlobalDeclarationStatus (List HLSLGlobalDeclarationField))
    (entries : Option (List Entry)) : Prop :=
  ∀ fields fields', p fields = .ok fields' ↔
    ∃ l, entries = some l ∧ l.foldlM addEntry fields = .ok fields'

lemma adds_fail (status : HLSLGlobalDeclarationStatus) : Adds (fun _ => .error status) none :=
  fun _ _ => iff_of_false (nofun) fun ⟨_, h, _⟩ => nomatch h

lemma adds_skip : Adds (fun fields => .ok fields) (some []) := by
  intro fields fields'
  refine ⟨fun h => ⟨[], rfl, h⟩, ?_⟩
  rintro ⟨l, hl, hrun⟩
  rw [← some.inj hl] at hrun
  exact hrun

lemma adds_entry (e : Entry) : Adds (fun fields => addEntry fields e) (some [e]) := by
  intro fields fields'
  have hone : [e].foldlM addEntry fields = addEntry fields e := by
    rw [foldlM_cons]
    exact bind_pure _
  constructor
  · intro h
    exact ⟨[e], rfl, hone.trans h⟩
  · rintro ⟨l, hl, hrun⟩
    rw [← some.inj hl, hone] at hrun
    exact hrun

variable
    {p q : List HLSLGlobalDeclarationField → Except HLSLGlobalDeclarationStatus (List
      HLSLGlobalDeclarationField)} {entries entries' : Option (List Entry)}

lemma Adds.ite {c : Prop} [Decidable c] (hp : c → Adds p entries) (hq : ¬ c → Adds q entries') :
    Adds (fun fields => if c then p fields else q fields) (if c then entries else entries') := by
  by_cases h : c
  · simp only [h, if_true]
    exact hp h
  · simp only [h, if_false]
    exact hq h

/-- The entries of two lists, when both are there. -/
def both (a b : Option (List Entry)) : Option (List Entry) :=
  a.bind fun l => b.map fun l' => l ++ l'

lemma Adds.seq (hp : Adds p entries) (hq : Adds q entries') :
    Adds (fun fields => p fields >>= q) (both entries entries') := by
  intro fields fields'
  rw [Checks.bind_eq_ok]
  constructor
  · rintro ⟨middle, hmid, hend⟩
    obtain ⟨l, rfl, hl⟩ := (hp _ _).mp hmid
    obtain ⟨l', rfl, hl'⟩ := (hq _ _).mp hend
    refine ⟨l ++ l', rfl, ?_⟩
    rw [foldlM_append, hl]
    exact hl'
  · rintro ⟨l, hl, hrun⟩
    obtain ⟨a, rfl, hb⟩ := bind_eq_some_iff.mp hl
    obtain ⟨b, rfl, rfl⟩ := map_eq_some_iff.mp hb
    rw [foldlM_append, Checks.bind_eq_ok] at hrun
    obtain ⟨middle, hmid, hend⟩ := hrun
    exact ⟨middle, (hp _ _).mpr ⟨a, rfl, hmid⟩, (hq _ _).mpr ⟨b, rfl, hend⟩⟩

/-- The entries of all members of a list, when all of them have any. -/
def collect {α : Type} (g : α → Option (List Entry)) (xs : List α) : Option (List Entry) :=
  if xs.all fun x => (g x).isSome then some (xs.flatMap fun x => (g x).getD []) else none

variable {α : Type}

lemma collect_cons (g : α → Option (List Entry)) (x : α) (xs : List α) :
    collect g (x :: xs) = both (g x) (collect g xs) := by
  unfold collect both
  cases hx : g x with
  | none => simp [hx]
  | some l =>
    by_cases h : (xs.all fun x => (g x).isSome) = true
    · simp [h, hx]
    · simp [h, hx]

variable {g : α → Option (List Entry)}

lemma Adds.foldlM
    {f : List HLSLGlobalDeclarationField → α →
      Except HLSLGlobalDeclarationStatus (List HLSLGlobalDeclarationField)}
    (h : ∀ x, Adds (fun fields => f fields x) (g x)) (xs : List α) :
    Adds (fun fields => xs.foldlM f fields) (collect g xs) := by
  induction xs with
  | nil => exact adds_skip
  | cons x xs ih =>
    rw [collect_cons]
    exact (h x).seq ih

variable {xs : List α} {l : List Entry}

lemma collect_eq_some (h : collect g xs = some l) :
    (∀ x ∈ xs, (g x).isSome) ∧ l = xs.flatMap fun x => (g x).getD [] := by
  unfold collect at h
  split at h
  · rename_i hall
    exact ⟨all_eq_true.mp hall, (some.inj h).symm⟩
  · nomatch h

lemma collect_perm {ys : List α} (h : xs.Perm ys) (hl : collect g xs = some l) :
    ∃ l', collect g ys = some l' ∧ l.Perm l' := by
  obtain ⟨hall, rfl⟩ := collect_eq_some hl
  refine ⟨ys.flatMap fun x => (g x).getD [], ?_, h.flatMap_right _⟩
  rw [collect, if_pos]
  exact all_eq_true.mpr fun x hx => hall x (h.mem_iff.mpr hx)

lemma mem_of_collect (h : collect g xs = some l) (e : Entry) :
    e ∈ l ↔ ∃ x ∈ xs, ∃ l', g x = some l' ∧ e ∈ l' := by
  obtain ⟨hall, rfl⟩ := collect_eq_some h
  rw [mem_flatMap]
  refine exists_congr fun x => and_congr_right fun hx => ?_
  obtain ⟨l', hl'⟩ := isSome_iff_exists.mp (hall x hx)
  simp only [hl', getD_some, some.injEq, exists_eq_left']

/-! ## The entries of a parameter block -/

section Parameters

variable (shell_size : UInt32) (parameters : SerializedProgramParameters) (witness : ℕ)
  (current : Bool)

def variableEntries (project : Bool) (source : SerializedVariable) : Option (List Entry) :=
  match source.name, parameter_layout_decode parameters source with
  | some name, some layout =>
    if ¬ identifier (some name) then none
    else if project ∧ shell_size ≤ layout.byte_offset then some []
    else if ¬ scalar_vector_layout
        ⟨name, layout, parameter_layout_byte_size layout, false, []⟩ shell_size then none
    else some [⟨⟨name, layout, parameter_layout_byte_size layout⟩, witness, current⟩]
  | _, _ => none

lemma adds_variable (project : Bool) (source : SerializedVariable) :
    Adds (fun fields => append_variable shell_size parameters project witness current fields source)
      (variableEntries shell_size parameters witness current project source) := by
  unfold append_variable variableEntries
  cases hname : source.name with
  | none => exact adds_fail _
  | some name =>
    cases hlay : parameter_layout_decode parameters source with
    | none => exact adds_fail _
    | some layout =>
      simp only
      refine .ite (fun _ => adds_fail _) fun _ => ?_
      refine .ite (fun _ => adds_skip) fun _ => ?_
      exact .ite (fun _ => adds_fail _) fun _ =>
        adds_entry ⟨⟨name, layout, parameter_layout_byte_size layout⟩, witness, current⟩

def bufferEntries (buffer : SerializedConstantBuffer) : Option (List Entry) :=
  match buffer.name with
  | none => none
  | some name =>
    if ¬ arrayShape buffer.vars ∨ buffer.struct_params.count < 0 then none
    else if ¬ isGlobals name then some []
    else if buffer.role ≠ .named ∧ buffer.role ≠ .looseParameters then none
    else if buffer.struct_params.count ≠ 0 then none
    else collect (variableEntries shell_size parameters witness current
      (buffer.role = .looseParameters ∨ (buffer.has_is_partial ∧ buffer.is_partial)))
      buffer.vars.toList

lemma adds_buffer (buffer : SerializedConstantBuffer) :
    Adds (fun fields => append_buffer shell_size parameters witness current fields buffer)
      (bufferEntries shell_size parameters witness current buffer) := by
  unfold append_buffer bufferEntries
  cases hname : buffer.name with
  | none => exact adds_fail _
  | some name =>
    simp only
    refine .ite (fun _ => adds_fail _) fun _ => ?_
    refine .ite (fun _ => adds_skip) fun _ => ?_
    refine .ite (fun _ => adds_fail _) fun _ => ?_
    refine .ite (fun _ => adds_fail _) fun _ => ?_
    exact Adds.foldlM (adds_variable shell_size parameters witness current _) _

variable (block : Option SerializedProgramParameters)

def parametersEntries : Option (List Entry) :=
  match block with
  | none => some []
  | some parameters =>
    collect (bufferEntries shell_size parameters witness current) parameters.constant_buffers.toList

lemma adds_parameters :
    Adds (fun fields => append_parameters shell_size fields block witness current)
      (parametersEntries shell_size witness current block) := by
  unfold append_parameters parametersEntries
  cases block with
  | none => exact adds_skip
  | some parameters =>
    exact Adds.foldlM (adds_buffer shell_size parameters witness current) _

end Parameters

/-- The declaration takes bytes, and they are inside the shell. -/
def Inside (shell_size : UInt32) (d : Declared) : Prop :=
  0 < d.byte_size ∧ d.stop ≤ shell_size.toNat

structure EntriesOf (shell_size : UInt32) (witness : ℕ) (current : Bool)
    (declares : Declared → Prop) (l : List Entry) : Prop where
  witness_eq : ∀ e ∈ l, e.witness = witness
  current_eq : ∀ e ∈ l, e.current = current
  inside : ∀ e ∈ l, Inside shell_size e.declared
  declares_iff : ∀ d, (∃ e ∈ l, e.declared = d) ↔ declares d

variable {declares : Declared → Prop}

lemma entriesOf_nil (shell_size : UInt32) (witness : ℕ) (current : Bool) (h : ∀ d, ¬ declares d) :
    EntriesOf shell_size witness current declares [] where
  witness_eq _ h := nomatch h
  current_eq _ h := nomatch h
  inside _ h := nomatch h
  declares_iff d := iff_of_false (fun ⟨_, h, _⟩ => (nomatch h)) (h d)

variable {shell_size : UInt32} {declares' : Declared → Prop}

lemma EntriesOf.append {witness : ℕ} {current : Bool} {l' : List Entry}
    (h : EntriesOf shell_size witness current declares l)
    (h' : EntriesOf shell_size witness current declares' l') :
    EntriesOf shell_size witness current (fun d => declares d ∨ declares' d) (l ++ l') where
  witness_eq := forall_mem_append.mpr ⟨h.witness_eq, h'.witness_eq⟩
  current_eq := forall_mem_append.mpr ⟨h.current_eq, h'.current_eq⟩
  inside := forall_mem_append.mpr ⟨h.inside, h'.inside⟩
  declares_iff d := by
    rw [← h.declares_iff, ← h'.declares_iff]
    simp only [mem_append, or_and_right, exists_or]

lemma EntriesOf.congr {witness : ℕ} {current : Bool}
    (h : EntriesOf shell_size witness current declares l) (hdecl : ∀ d, declares d ↔ declares' d) :
    EntriesOf shell_size witness current declares' l :=
  { h with declares_iff := fun d => (h.declares_iff d).trans (hdecl d) }

lemma entriesOf_collect {α : Type} {g : α → Option (List Entry)} {witness : ℕ} {current : Bool}
    {declares : α → Declared → Prop} (xs : List α) (hl : collect g xs = some l)
    (h : ∀ x ∈ xs, ∀ l', g x = some l' → EntriesOf shell_size witness current (declares x) l') :
    EntriesOf shell_size witness current (fun d => ∃ x ∈ xs, declares x d) l where
  witness_eq e he := by
    obtain ⟨x, hx, l', hl', he⟩ := (mem_of_collect hl e).mp he
    exact (h x hx l' hl').witness_eq e he
  current_eq e he := by
    obtain ⟨x, hx, l', hl', he⟩ := (mem_of_collect hl e).mp he
    exact (h x hx l' hl').current_eq e he
  inside e he := by
    obtain ⟨x, hx, l', hl', he⟩ := (mem_of_collect hl e).mp he
    exact (h x hx l' hl').inside e he
  declares_iff d := by
    constructor
    · rintro ⟨e, he, rfl⟩
      obtain ⟨x, hx, l', hl', he⟩ := (mem_of_collect hl e).mp he
      exact ⟨x, hx, ((h x hx l' hl').declares_iff _).mp ⟨e, he, rfl⟩⟩
    · rintro ⟨x, hx, hd⟩
      obtain ⟨l', hl'⟩ := isSome_iff_exists.mp ((collect_eq_some hl).1 x hx)
      obtain ⟨e, he, hd⟩ := ((h x hx l' hl').declares_iff d).mpr hd
      exact ⟨e, (mem_of_collect hl e).mpr ⟨x, hx, l', hl', he⟩, hd⟩

section Parameters

variable {shell_size : UInt32} {parameters : SerializedProgramParameters} {witness : ℕ}
  {current : Bool} {l : List Entry}

def VariableDeclares (shell_size : UInt32) (parameters : SerializedProgramParameters)
    (project : Prop) (source : SerializedVariable) (d : Declared) : Prop :=
  source.name = some d.name ∧ parameter_layout_decode parameters source = some d.layout ∧
    d.byte_size = parameter_layout_byte_size d.layout ∧
    (project → d.layout.byte_offset < shell_size)

lemma entriesOf_variable {project : Bool} {source : SerializedVariable}
    (h : variableEntries shell_size parameters witness current project source = some l) :
    EntriesOf shell_size witness current
      (VariableDeclares shell_size parameters (project = true) source) l := by
  unfold variableEntries at h
  split at h
  · rename_i name layout hname hlay
    split at h
    · nomatch h
    split at h
    · rename_i hskip
      rw [← some.inj h]
      refine entriesOf_nil _ _ _ fun d hd => ?_
      rw [VariableDeclares, hlay, some.injEq] at hd
      have hbelow := hd.2.2.2 hskip.1
      rw [← hd.2.1] at hbelow
      exact absurd hskip.2 (UInt32.not_le.mpr hbelow)
    rename_i hkept
    split at h
    · nomatch h
    rename_i hlay'
    have hscalar := not_not.mp hlay'
    simp only [scalar_vector_layout, decide_eq_true_eq, UInt32.le_iff_toNat_le,
      UInt32.reduceToNat] at hscalar
    rw [← some.inj h]
    refine ⟨fun e he => ?_, fun e he => ?_, fun e he => ?_, fun d => ?_⟩
    · rw [mem_singleton.mp he]
    · rw [mem_singleton.mp he]
    · rw [mem_singleton.mp he]
      simp only [Inside, Declared.stop]
      omega
    · simp only [mem_singleton, exists_eq_left, VariableDeclares, hname, hlay, some.injEq]
      constructor
      · rintro rfl
        refine ⟨rfl, rfl, rfl, fun hproject => ?_⟩
        exact UInt32.not_le.mp fun hle => hkept ⟨hproject, hle⟩
      · rintro ⟨hname', hlay'', hsize, -⟩
        obtain ⟨dname, dlayout, dsize⟩ := d
        simp only at hname' hlay'' hsize
        rw [hname', hlay'', hsize]
  · nomatch h

def BufferDeclares (shell_size : UInt32) (parameters : SerializedProgramParameters)
    (buffer : SerializedConstantBuffer) (d : Declared) : Prop :=
  buffer.name.any isGlobals = true ∧ ∃ source ∈ buffer.vars.toList,
    VariableDeclares shell_size parameters
      (buffer.role = .looseParameters ∨ (buffer.has_is_partial = true ∧ buffer.is_partial = true))
      source d

lemma entriesOf_buffer {buffer : SerializedConstantBuffer}
    (h : bufferEntries shell_size parameters witness current buffer = some l) :
    EntriesOf shell_size witness current (BufferDeclares shell_size parameters buffer) l := by
  unfold bufferEntries at h
  split at h
  · nomatch h
  rename_i name hname
  split at h
  · nomatch h
  split at h
  · rename_i hglobals
    rw [← some.inj h]
    refine entriesOf_nil _ _ _ fun d hd => hglobals ?_
    have hany := hd.1
    rwa [hname, any_some] at hany
  rename_i hglobals
  split at h
  · nomatch h
  split at h
  · nomatch h
  refine (entriesOf_collect _ h fun source _ l' hl' => entriesOf_variable hl').congr fun d => ?_
  have hany : buffer.name.any isGlobals = true := by
    rw [hname, any_some]
    exact not_not.mp hglobals
  simp only [BufferDeclares, hany, true_and, decide_eq_true_eq]

/-- A variable of `$Globals` in the block declares the field. A projected block declares only what
begins inside the shell. -/
def Declares (shell_size : UInt32) (block : Option SerializedProgramParameters) (d : Declared) :
    Prop :=
  ∃ parameters, block = some parameters ∧
    ∃ buffer ∈ parameters.constant_buffers.toList, BufferDeclares shell_size parameters buffer d

lemma entriesOf_parameters {block : Option SerializedProgramParameters}
    (h : parametersEntries shell_size witness current block = some l) :
    EntriesOf shell_size witness current (Declares shell_size block) l := by
  unfold parametersEntries at h
  cases block with
  | none =>
    rw [← some.inj h]
    exact entriesOf_nil _ _ _ fun d ⟨_, hd, _⟩ => nomatch hd
  | some parameters =>
    refine (entriesOf_collect _ h fun buffer _ l' hl' => entriesOf_buffer hl').congr fun d => ?_
    simp only [Declares, some.injEq, exists_eq_left']

end Parameters

/-! ## The entries of the witnesses -/

section Witnesses

variable (pass : DeclaringPass) (slot : Fin SERIALIZED_STAGE_COUNT) (current : ℤ)
  (shell_size : UInt32) (target : Sibling)

/-- The parameters of its own, and those that the pass has for all. -/
def witnessEntries (witness : HLSLGlobalDeclarationWitness) : Option (List Entry) :=
  both (parametersEntries shell_size witness.subprogram_index.toNat
      (witness.subprogram_index = current) witness.residual)
    (parametersEntries shell_size witness.subprogram_index.toNat
      (witness.subprogram_index = current) (some (pass.common_parameters slot)))

/-- What the loop tests about a witness on its own. -/
structure GoodWitness (witness : HLSLGlobalDeclarationWitness) : Prop where
  nonneg : 0 ≤ witness.subprogram_index
  lt : witness.subprogram_index < (pass.stages slot).subprograms.count
  scope : witnessScope pass slot target witness = true
  shell : witnessShell pass slot shell_size witness = true

variable {fields : List HLSLGlobalDeclarationField}
  {prior : List HLSLGlobalDeclarationWitness} {fields' : List HLSLGlobalDeclarationField}
    {witness : HLSLGlobalDeclarationWitness}

lemma addDeclared_eq_ok :
    addDeclared pass slot current shell_size target prior fields witness = .ok fields' ↔
      GoodWitness pass slot shell_size target witness ∧
        (∀ before ∈ prior, before.subprogram_index ≠ witness.subprogram_index) ∧
        ∃ l, witnessEntries pass slot current shell_size witness = some l ∧
          l.foldlM addEntry fields = .ok fields' := by
  have hadds := (adds_parameters shell_size witness.subprogram_index.toNat
    (decide (witness.subprogram_index = current)) witness.residual).seq
    (adds_parameters shell_size witness.subprogram_index.toNat
      (decide (witness.subprogram_index = current)) (some (pass.common_parameters slot)))
  unfold addDeclared witnessEntries
  simp only [Checks.failWhen_bind_eq_ok, List.any_eq_true, decide_eq_true_eq, not_exists, not_and,
    not_or, not_lt, not_le, not_not]
  rw [← hadds fields fields']
  constructor
  · rintro ⟨⟨hnn, hlt⟩, hnew, hscope, hshell, hrun⟩
    exact ⟨⟨hnn, hlt, hscope, hshell⟩, hnew, hrun⟩
  · rintro ⟨hgood, hnew, hrun⟩
    exact ⟨⟨hgood.nonneg, hgood.lt⟩, hnew, hgood.scope, hgood.shell, hrun⟩

/-- **The loop over the witnesses.** It goes through exactly when each witness is good on its own,
no two are of one subprogram, and what they declare can be added in their order. -/
theorem addWitnesses_eq_ok (rest : List HLSLGlobalDeclarationWitness) :
    addWitnesses pass slot current shell_size target prior rest fields = .ok fields' ↔
      (∀ witness ∈ rest, GoodWitness pass slot shell_size target witness) ∧
        (∀ before ∈ prior, ∀ witness ∈ rest, before.subprogram_index ≠ witness.subprogram_index) ∧
        (rest.map fun witness => witness.subprogram_index).Nodup ∧
        ∃ l, collect (witnessEntries pass slot current shell_size) rest = some l ∧
          l.foldlM addEntry fields = .ok fields' := by
  induction rest generalizing prior fields with
  | nil => simp [addWitnesses, collect, pure, Except.pure]
  | cons witness rest ih =>
    have hround : addWitnesses pass slot current shell_size target prior (witness :: rest) fields =
          .ok fields' ↔
        ∃ middle, addDeclared pass slot current shell_size target prior fields witness =
            .ok middle ∧
          addWitnesses pass slot current shell_size target (prior ++ [witness]) rest middle =
            .ok fields' := by
      rw [addWitnesses]
      cases addDeclared pass slot current shell_size target prior fields witness <;> simp
    rw [hround, collect_cons]
    simp only [addDeclared_eq_ok, ih, List.forall_mem_cons, List.forall_mem_append, List.map_cons,
      List.nodup_cons, List.mem_map, List.not_mem_nil, IsEmpty.forall_iff, implies_true, and_true]
    constructor
    · rintro ⟨middle, ⟨hgood, hnew, l, hl, hmid⟩, hall, ⟨hprior, hself⟩, hnodup, l', hl', hend⟩
      refine ⟨⟨hgood, hall⟩, fun before hbefore => ⟨hnew before hbefore, hprior before hbefore⟩,
        ⟨?_, hnodup⟩, l ++ l', ?_, ?_⟩
      · rintro ⟨other, hother, heq⟩
        exact hself other hother heq.symm
      · rw [hl, hl']
        rfl
      · rw [foldlM_append, hmid]
        exact hend
    · rintro ⟨⟨hgood, hall⟩, hprior, ⟨hself, hnodup⟩, both, hboth, hrun⟩
      obtain ⟨l, hl, hrest⟩ := bind_eq_some_iff.mp hboth
      obtain ⟨l', hl', rfl⟩ := map_eq_some_iff.mp hrest
      rw [foldlM_append, Checks.bind_eq_ok] at hrun
      obtain ⟨middle, hmid, hend⟩ := hrun
      refine ⟨middle, ⟨hgood, fun before hbefore => (hprior before hbefore).1, l, hl, hmid⟩,
        hall, ⟨fun before hbefore => (hprior before hbefore).2, fun other hother heq => ?_⟩,
        hnodup, l', hl', hend⟩
      exact hself ⟨other, hother, heq.symm⟩

/-- The parameters of the witness or those of the pass declare the field. -/
def WitnessDeclares (witness : HLSLGlobalDeclarationWitness) (d : Declared) : Prop :=
  Declares shell_size witness.residual d ∨
    Declares shell_size (some (pass.common_parameters slot)) d

lemma entriesOf_witness (h : witnessEntries pass slot current shell_size witness = some l) :
    EntriesOf shell_size witness.subprogram_index.toNat (witness.subprogram_index = current)
      (WitnessDeclares pass slot shell_size witness) l := by
  obtain ⟨a, ha, hrest⟩ := bind_eq_some_iff.mp h
  obtain ⟨b, hb, rfl⟩ := map_eq_some_iff.mp hrest
  exact (entriesOf_parameters ha).append (entriesOf_parameters hb)

/-- **The union of the witnesses.** -/
structure UnionOf (witnesses : List HLSLGlobalDeclarationWitness)
    (fields : List HLSLGlobalDeclarationField) : Prop where
  /-- Other names and other bytes. -/
  apart : AllApart fields
  inside : ∀ field ∈ fields, Inside shell_size field.declared
  declared_iff : ∀ d, (∃ field ∈ fields, field.declared = d) ↔
    ∃ witness ∈ witnesses, WitnessDeclares pass slot shell_size witness d
  sorted : ∀ field ∈ fields, field.witness_subprogram_indices.Pairwise (· < ·)
  witness_iff : ∀ field ∈ fields, ∀ i : ℕ, i ∈ field.witness_subprogram_indices ↔
    ∃ witness ∈ witnesses, witness.subprogram_index = i ∧
      WitnessDeclares pass slot shell_size witness field.declared
  current_iff : ∀ field ∈ fields, field.current_authority = true ↔
    ∃ witness ∈ witnesses, witness.subprogram_index = current ∧
      WitnessDeclares pass slot shell_size witness field.declared

variable {witnesses : List HLSLGlobalDeclarationWitness}

lemma unionOf_addWitnesses
    (h : addWitnesses pass slot current shell_size target [] witnesses [] = .ok fields) :
    UnionOf pass slot current shell_size witnesses fields := by
  obtain ⟨hgood, -, -, l, hl, hrun⟩ := (addWitnesses_eq_ok pass slot current shell_size target
    witnesses).mp h
  have hmrg := merged_of_addEntries hrun
  -- an entry that declares something comes from a witness that declares it
  have hent (p : Entry → Prop) (q : HLSLGlobalDeclarationWitness → Prop) (d : Declared)
      (hpq : ∀ witness ∈ witnesses, ∀ l', witnessEntries pass slot current shell_size witness =
        some l' → ∀ e ∈ l', p e ↔ q witness) :
      (∃ e ∈ l, e.declared = d ∧ p e) ↔ ∃ witness ∈ witnesses, q witness ∧
        WitnessDeclares pass slot shell_size witness d := by
    constructor
    · rintro ⟨e, he, rfl, hp⟩
      obtain ⟨witness, hwit, l', hl', he⟩ := (mem_of_collect hl e).mp he
      exact ⟨witness, hwit, (hpq witness hwit l' hl' e he).mp hp,
        ((entriesOf_witness pass slot current shell_size hl').declares_iff _).mp ⟨e, he, rfl⟩⟩
    · rintro ⟨witness, hwit, hq, hd⟩
      obtain ⟨l', hl'⟩ := isSome_iff_exists.mp ((collect_eq_some hl).1 witness hwit)
      obtain ⟨e, he, rfl⟩ :=
        ((entriesOf_witness pass slot current shell_size hl').declares_iff d).mpr hd
      exact ⟨e, (mem_of_collect hl e).mpr ⟨witness, hwit, l', hl', he⟩, rfl,
        (hpq witness hwit l' hl' e he).mpr hq⟩
  refine ⟨hmrg.apart, fun field hfld => ?_, fun d => ?_, fun field hfld =>
    (hmrg.field field hfld).sorted, fun field hfld i => ?_, fun field hfld => ?_⟩
  · obtain ⟨e, he, heq⟩ := (hmrg.declared_iff _).mp ⟨field, hfld, rfl⟩
    obtain ⟨witness, hwit, l', hl', he⟩ := (mem_of_collect hl e).mp he
    rw [← heq]
    exact (entriesOf_witness pass slot current shell_size hl').inside e he
  · rw [hmrg.declared_iff]
    have hall := hent (fun _ => True) (fun _ => True) d fun _ _ _ _ _ _ => Iff.rfl
    simpa only [and_true, true_and] using hall
  · rw [(hmrg.field field hfld).witness_iff]
    refine hent _ _ _ fun witness hwit l' hl' e he => ?_
    rw [(entriesOf_witness pass slot current shell_size hl').witness_eq e he]
    have hnn := (hgood witness hwit).nonneg
    omega
  · rw [(hmrg.field field hfld).current_iff]
    refine hent _ _ _ fun witness hwit l' hl' e he => ?_
    rw [(entriesOf_witness pass slot current shell_size hl').current_eq e he, decide_eq_true_eq]

lemma addWitnesses_perm {witnesses' : List HLSLGlobalDeclarationWitness}
    (h : witnesses.Perm witnesses')
    (hrun : addWitnesses pass slot current shell_size target [] witnesses [] = .ok fields) :
    ∃ fields', addWitnesses pass slot current shell_size target [] witnesses' [] = .ok fields' ∧
      fields.Perm fields' := by
  obtain ⟨hgood, -, hnodup, l, hl, hadd⟩ := (addWitnesses_eq_ok pass slot current shell_size target
    witnesses).mp hrun
  obtain ⟨l', hl', hperm⟩ := collect_perm h hl
  have hok := (addEntries_ok_iff l).mp ⟨fields, hadd⟩
  obtain ⟨fields', hadd'⟩ := (addEntries_ok_iff l').mpr
    ⟨hok.1.perm hperm, declaredSet_perm hperm ▸ hok.2⟩
  refine ⟨fields', ?_, (merged_of_addEntries hadd).perm hperm (merged_of_addEntries hadd')⟩
  refine (addWitnesses_eq_ok pass slot current shell_size target witnesses').mpr
    ⟨fun witness hwit => hgood witness (h.mem_iff.mpr hwit), fun _ hmem => (nomatch hmem),
      (h.map _).nodup_iff.mp hnodup, l', hl', hadd'⟩

end Witnesses

/-! ## The build -/

/-- What the build works out before it looks at the witnesses one by one. -/
structure Setting where
  stage : UnitySerializedProgramStage
  slot : Fin SERIALIZED_STAGE_COUNT
  dxbc_stage : DXBCProgramType
  selected : HLSLGlobalDeclarationWitness
  shell_size : UInt32
  target : Sibling
  value : HLSLGlobalDeclarationUnion

structure Setting.For (pass : DeclaringPass) (stage current : ℤ)
    (witnesses : List HLSLGlobalDeclarationWitness) (s : Setting) : Prop where
  stage_eq : declaredStage stage = some (s.stage, s.slot, s.dxbc_stage)
  counts : ¬ (current < 0 ∨ (pass.stages s.slot).subprograms.count ≤ current ∨
    (pass.stages s.slot).subprograms.values.isNone ∨ witnesses.length = 0 ∨
    4096 < witnesses.length ∨ (pass.stages s.slot).subprograms.count < witnesses.length ∨
    4096 < (pass.stages s.slot).subprograms.count ∨ ¬ arrayShape pass.platforms)
  selected_eq : selectedWitness current witnesses = some s.selected
  shell_eq : shell s.selected.residual (some (pass.common_parameters s.slot)) = .ok s.shell_size
  platforms : pass.has_serialized_platforms = true
  target_eq : sibling pass s.slot current = some s.target
  value_eq : initialUnion pass s.slot s.stage s.dxbc_stage current s.shell_size s.target
    s.selected = .ok s.value
  eligible : eligibleCount pass s.slot current = witnesses.length

variable {stage : ℤ} {witnesses : List HLSLGlobalDeclarationWitness}
  {union : HLSLGlobalDeclarationUnion} {pass : DeclaringPass} {current : ℤ}

lemma build_eq_ok : hlsl_global_declarations_build pass stage current witnesses = .ok union ↔
      ∃ s : Setting, s.For pass stage current witnesses ∧
        ∃ fields, addWitnesses pass s.slot current s.shell_size s.target [] witnesses [] =
          .ok fields ∧ union = { s.value with fields } := by
  constructor
  · intro h
    unfold hlsl_global_declarations_build at h
    split at h
    · nomatch h
    rename_i serialized_stage slot dxbc_stage hstage
    simp only at h
    split at h
    · nomatch h
    rename_i hcnts
    split at h
    · nomatch h
    rename_i selected hsel
    split at h
    · nomatch h
    rename_i shell_size hshell
    split at h
    · nomatch h
    rename_i hplatforms
    split at h
    · nomatch h
    rename_i target htgt
    split at h
    · nomatch h
    rename_i value hval
    split at h
    · nomatch h
    rename_i fields hflds
    split at h
    · nomatch h
    rename_i heligible
    rw [← length_eq_zero_iff] at hcnts
    exact ⟨⟨serialized_stage, slot, dxbc_stage, selected, shell_size, target, value⟩,
      ⟨hstage, hcnts, hsel, hshell, not_not.mp hplatforms, htgt, hval,
        not_not.mp heligible⟩, fields, hflds, (Except.ok.inj h).symm⟩
  · rintro ⟨s, hs, fields, hflds, rfl⟩
    have hcnts := hs.counts
    rw [length_eq_zero_iff] at hcnts
    simp only [hlsl_global_declarations_build, hs.stage_eq, hcnts, hs.selected_eq, hs.shell_eq,
      hs.platforms, hs.target_eq, hs.value_eq, hflds, hs.eligible, not_true_eq_false, ne_eq,
      if_false]

variable {witnesses' : List HLSLGlobalDeclarationWitness}

lemma selectedWitness_perm (h : witnesses.Perm witnesses')
    (hnodup : (witnesses.map fun witness => witness.subprogram_index).Nodup) :
    selectedWitness current witnesses = selectedWitness current witnesses' := by
  unfold selectedWitness
  have hperm := h.filter fun witness => decide (witness.subprogram_index = current)
  have hsub : (witnesses.filter fun witness => decide (witness.subprogram_index = current)).length
      ≤ 1 := by
    have hreplicate : (witnesses.filter fun witness =>
        decide (witness.subprogram_index = current)).map (fun witness => witness.subprogram_index) =
        replicate (witnesses.filter fun witness =>
          decide (witness.subprogram_index = current)).length current := by
      refine eq_replicate_iff.mpr ⟨length_map _, fun i hi => ?_⟩
      obtain ⟨witness, hwit, rfl⟩ := mem_map.mp hi
      exact of_decide_eq_true (mem_filter.mp hwit).2
    rw [← @nodup_replicate _ _ current, ← hreplicate]
    exact hnodup.sublist (filter_sublist.map _)
  rcases Nat.le_one_iff_eq_zero_or_eq_one.mp hsub with hzero | hone
  · rw [length_eq_zero_iff.mp hzero] at hperm ⊢
    rw [nil_perm.mp hperm]
  · obtain ⟨witness, hone⟩ := length_eq_one_iff.mp hone
    rw [hone] at hperm ⊢
    rw [singleton_perm.mp hperm]

lemma Setting.For.perm {s : Setting} (hs : s.For pass stage current witnesses)
    (h : witnesses.Perm witnesses')
    (hnodup : (witnesses.map fun witness => witness.subprogram_index).Nodup) :
    s.For pass stage current witnesses' :=
  { hs with
    counts := h.length_eq ▸ hs.counts
    selected_eq := (selectedWitness_perm h hnodup).symm.trans hs.selected_eq
    eligible := hs.eligible.trans h.length_eq }

lemma build_perm (h : witnesses.Perm witnesses')
    (hrun : hlsl_global_declarations_build pass stage current witnesses = .ok union) :
    ∃ fields, hlsl_global_declarations_build pass stage current witnesses' =
        .ok { union with fields } ∧ union.fields.Perm fields := by
  obtain ⟨s, hs, fields, hflds, rfl⟩ := build_eq_ok.mp hrun
  have hnodup := ((addWitnesses_eq_ok pass s.slot current s.shell_size s.target
    witnesses).mp hflds).2.2.1
  obtain ⟨fields', hflds', hperm⟩ := addWitnesses_perm pass s.slot current s.shell_size s.target
    h hflds
  exact ⟨fields', build_eq_ok.mpr ⟨s, hs.perm h hnodup, fields', hflds', rfl⟩, hperm⟩

lemma initialUnion_spec {slot : Fin SERIALIZED_STAGE_COUNT} {stage : UnitySerializedProgramStage}
    {dxbc_stage : DXBCProgramType} {target : Sibling} {selected : HLSLGlobalDeclarationWitness}
    {value : HLSLGlobalDeclarationUnion}
    (h : initialUnion pass slot stage dxbc_stage current shell_size target selected = .ok value) :
    value.stage = stage ∧ value.current = current ∧ value.dxbc_stage = dxbc_stage ∧
      value.shell_size = shell_size := by
  unfold initialUnion at h
  simp only at h
  split at h
  · rw [← Except.ok.inj h]
    exact ⟨rfl, rfl, rfl, rfl⟩
  · split at h
    · nomatch h
    split at h
    · rw [← Except.ok.inj h]
      exact ⟨rfl, rfl, rfl, rfl⟩
    · nomatch h

lemma unionOf_build
    (h : hlsl_global_declarations_build pass stage current witnesses = .ok union) :
    ∃ slot, declaredStage stage = some (union.stage, slot, union.dxbc_stage) ∧
      UnionOf pass slot current union.shell_size witnesses union.fields := by
  obtain ⟨s, hs, fields, hflds, rfl⟩ := build_eq_ok.mp h
  obtain ⟨hstage, -, hdxbc, hsize⟩ := initialUnion_spec hs.value_eq
  refine ⟨s.slot, ?_, ?_⟩
  · rw [hs.stage_eq, ← hstage, ← hdxbc]
  · have hunion := unionOf_addWitnesses pass s.slot current s.shell_size s.target hflds
    rwa [← hsize] at hunion

/-- Two builds fail, or their unions differ at most in the order of the fields. -/
def SameUnion : (a b : Except HLSLGlobalDeclarationDiagnostic HLSLGlobalDeclarationUnion) → Prop
  | .error _, .error _ => True
  | .ok a, .ok b => a.fields.Perm b.fields ∧ b = { a with fields := b.fields }
  | _, _ => False

end GlobalDeclarations

/-- **The order of the witnesses.** It does not decide whether the union is built, nor which fields
it has. They are what the witnesses declare, with other names and other bytes of the shell, and each
knows which witnesses declare it and whether the current subprogram does. -/
theorem global_declarations_union {pass : DeclaringPass} {stage current : ℤ}
    {witnesses witnesses' : List HLSLGlobalDeclarationWitness} (h : witnesses.Perm witnesses') :
    SameUnion (hlsl_global_declarations_build pass stage current witnesses)
        (hlsl_global_declarations_build pass stage current witnesses') ∧
      ∀ union, hlsl_global_declarations_build pass stage current witnesses = .ok union →
        ∃ slot, declaredStage stage = some (union.stage, slot, union.dxbc_stage) ∧
          UnionOf pass slot current union.shell_size witnesses union.fields := by
  refine ⟨?_, fun union hunion => unionOf_build hunion⟩
  cases hrun : hlsl_global_declarations_build pass stage current witnesses with
  | ok union =>
    obtain ⟨fields, hrun', hperm⟩ := build_perm h hrun
    rw [hrun']
    exact ⟨hperm, rfl⟩
  | error diagnostic =>
    cases hrun' : hlsl_global_declarations_build pass stage current witnesses' with
    | error _ => trivial
    | ok union =>
      obtain ⟨fields, hback, -⟩ := build_perm h.symm hrun'
      rw [hrun] at hback
      nomatch hback

/-! ## A sample

Two vertex programs. Both have the vector `a` of the pass, and the second, which has the keyword
`K`, has one more of its own. -/

namespace GlobalDeclarations

lemma zero_notMem_97 : (0 : UInt8) ∉ [97] := by decide

lemma zero_notMem_98 : (0 : UInt8) ∉ [98] := by decide

def sampleVector (name : UInt8) (hname : (0 : UInt8) ∉ [name]) (byte_offset : UInt32) :
    IntArray SerializedVariable :=
  .ofList [⟨some ⟨[name], hname⟩, #v[0, 1, 4, 0, 0, byte_offset]⟩]

def sampleBlock (role : SerializedConstantBufferRole) (size : UInt32)
    (vars : IntArray SerializedVariable) (resources : List SerializedResourceParam) :
    SerializedProgramParameters where
  version := UNITY_2021_3_PLAYER_BLOB_VERSION
  dialect := .unity_2021_3_35f1
  is_binary := true
  constant_buffers := .ofList
    [⟨some (.ofBytes (asciiBytes "$Globals")), role, size, false, false, vars, .ofList []⟩]
  resources := .ofList resources

def sampleCommonBlock : SerializedProgramParameters :=
  sampleBlock .named 32 (sampleVector 97 zero_notMem_97 0)
    [⟨some (.ofBytes (asciiBytes "$Globals")), .constantBuffer, 0, 0, 0, 0, false, 0, 0, #v[0, 0]⟩]

def sampleKeywords : IntArray (Option CString) := .ofList [some (.ofBytes [75])]

def sampleDeclaringPass : DeclaringPass where
  has_serialized_platforms := true
  platforms := .ofList [4]
  stages := fun _ =>
    { subprograms := .ofList [⟨15, .ofList [], .ofList []⟩, ⟨15, sampleKeywords, .ofList []⟩]
      identities := some (.replicate 2 ⟨3, true, .ofList [], .ofList []⟩)
      identities_eq := by rintro - l ⟨⟩; rfl }
  serialized_keyword_state_mask := .ofList []
  program_mask := 6
  common_parameters := fun _ => sampleCommonBlock
  requirements := fun _ _ => ⟨0, false, 0⟩

def sampleWitness : HLSLGlobalDeclarationWitness := ⟨0, some ⟨15, true, .ofList []⟩, none⟩

def sampleKeywordWitness : HLSLGlobalDeclarationWitness :=
  ⟨1, some ⟨15, true, sampleKeywords⟩,
    some (sampleBlock .looseParameters 0 (sampleVector 98 zero_notMem_98 16) [])⟩

def sampleField (name : UInt8) (hname : (0 : UInt8) ∉ [name]) (byte_offset : UInt32)
    (current : Bool) (ids : List ℕ) : HLSLGlobalDeclarationField :=
  ⟨⟨[name], hname⟩, ⟨byte_offset, 0, 0, 1, 4, false⟩, 16, current, ids⟩

def sampleUnion (fields : List HLSLGlobalDeclarationField) : HLSLGlobalDeclarationUnion :=
  ⟨.vertex, 0, .vertex, 32, 6, 15, false, false, fields⟩

lemma build_sample :
    hlsl_global_declarations_build sampleDeclaringPass 0 0 [sampleWitness, sampleKeywordWitness] =
      .ok (sampleUnion [sampleField 97 (by decide) 0 true [0, 1],
        sampleField 98 (by decide) 16 false [1]]) := by
  rfl

end GlobalDeclarations

theorem global_declarations_union_sample :
    ∃ union union', hlsl_global_declarations_build sampleDeclaringPass 0 0
        [sampleWitness, sampleKeywordWitness] = .ok union ∧
      hlsl_global_declarations_build sampleDeclaringPass 0 0
        [sampleKeywordWitness, sampleWitness] = .ok union' ∧
      union.fields.Perm union'.fields ∧ union.fields ≠ union'.fields := by
  have hrun : hlsl_global_declarations_build sampleDeclaringPass 0 0
      [sampleKeywordWitness, sampleWitness] =
        .ok (sampleUnion [sampleField 98 (by decide) 16 false [1],
          sampleField 97 (by decide) 0 true [0, 1]]) := by
    rfl
  have hsame := (@global_declarations_union sampleDeclaringPass 0 0 _ _
    (List.Perm.swap sampleKeywordWitness sampleWitness [])).1
  rw [hrun, build_sample] at hsame
  exact ⟨_, _, build_sample, hrun, hsame.1, by decide⟩

end DXBCSandbox
