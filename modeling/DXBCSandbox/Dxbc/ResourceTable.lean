/-
The resource declaration tables (`dxbc_get_or_add_resource_declaration` and
`dxbc_find_resource_declaration` of `src/dxbc/dxbc_parser.c`).

A table is an array of slots of which the first `count` are declarations, and no slots are the null
pointer. What a call writes into the declaration that it is given belongs to the call. A refused
reallocation is one, and so is one whose size overflows.
-/
import DXBCSandbox.Dxbc.Instruction
import Mathlib.Data.List.Induction

namespace DXBCSandbox.ResourceTable

open List

structure Table where
  slots : List DXBCResourceDecl := []
  count : ℕ := 0

def Table.declarations (table : Table) : List DXBCResourceDecl := table.slots.take table.count

/-- The doubling loop of `reserve_array`. It does not start at 0. -/
def double (required n : ℕ) : ℕ :=
  if required ≤ n then n
  else if n = 0 ∨ INT_MAX / 2 < n then required
  else double required (2 * n)
termination_by required - n

/-- `mem_realloc` says what the new slots hold, or there are none. -/
def reserve_array (mem_realloc : ℕ → Option (ℕ → DXBCResourceDecl))
    (slots : List DXBCResourceDecl) (required : ℕ) : Option (List DXBCResourceDecl) :=
  if required ≤ slots.length then some slots
  else
    let new_allocation := double required (if slots.length = 0 then 16 else slots.length)
    (mem_realloc new_allocation).map fun fresh =>
      slots ++ (List.range (new_allocation - slots.length)).map fresh

/-- The first declaration whose register is not smaller. -/
def position (register_index : ℤ) : List DXBCResourceDecl → ℕ
  | [] => 0
  | d :: ds => if d.register_index < register_index then position register_index ds + 1 else 0

def dxbc_get_or_add_resource_declaration (mem_realloc : ℕ → Option (ℕ → DXBCResourceDecl))
    (register_index : ℤ) (table : Table) : Option (Table × ℕ) :=
  if register_index < 0 ∨ table.slots.length < table.count then none
  else
    let position := position register_index table.declarations
    if table.declarations[position]?.any (·.register_index = register_index) then
      some (table, position)
    else if table.count = INT_MAX then none
    else (reserve_array mem_realloc table.slots (table.count + 1)).map fun slots =>
      -- `memmove` of the slots from the position to the count, and `memset` of the one at it
      (⟨slots.take position ++ [.zeroed register_index] ++
        (slots.drop position).take (table.count - position) ++ slots.drop (table.count + 1),
        table.count + 1⟩, position)

def find_loop (register_index : ℤ) : List DXBCResourceDecl → Option DXBCResourceDecl
  | [] => none
  | d :: ds =>
    if d.register_index = register_index then some d
    else if register_index < d.register_index then none
    else find_loop register_index ds

def dxbc_find_resource_declaration (register_index : ℤ) (table : Table) : Option DXBCResourceDecl :=
  if register_index < 0 then none else find_loop register_index table.declarations

/-- One call, with what its caller writes. No caller writes the register. -/
structure Call where
  register_index : ℤ
  uav : Bool
  mem_realloc : ℕ → Option (ℕ → DXBCResourceDecl)
  write : DXBCResourceDecl → DXBCResourceDecl
  write_register_index : ∀ d, (write d).register_index = d.register_index

abbrev Tables := Bool → Table

/-- A call that gets no declaration changes nothing. -/
def step (tables : Tables) (call : Call) : Option Tables :=
  (dxbc_get_or_add_resource_declaration call.mem_realloc call.register_index
      (tables call.uav)).map fun (table, i) =>
    Function.update tables call.uav { table with slots := table.slots.modify i call.write }

/-- The tables after some calls, and the calls that got a declaration. -/
def run (calls : List Call) : Tables × List Call :=
  calls.foldl (fun (tables, requests) call =>
    match step tables call with
    | none => (tables, requests)
    | some tables => (tables, requests ++ [call])) (fun _ => {}, [])

/-- What the requests of a register have written, from a zeroed declaration on. -/
def contents (requests : List Call) (uav : Bool) (register_index : ℤ) : Option DXBCResourceDecl :=
  requests.foldl (fun d call =>
    if call.uav = uav ∧ call.register_index = register_index then
      some (call.write (d.getD (.zeroed register_index)))
    else d) none

/-! ## One call -/

variable {key : ℤ} {table table' : Table} {i required : ℕ} {calls requests : List Call} {uav : Bool}
  {ds : List DXBCResourceDecl} {write : DXBCResourceDecl → DXBCResourceDecl}
  {mem_realloc : ℕ → Option (ℕ → DXBCResourceDecl)}

lemma le_double (n : ℕ) : required ≤ double required n := by
  induction n using double.induct required with
  | case1 n h => rwa [double, if_pos h]
  | case2 n h hstop => exact Nat.le_of_eq (by rw [double, if_neg h, if_pos hstop])
  | case3 n h hstop ih => rwa [double, if_neg h, if_neg hstop]

lemma reserve_array_spec {slots slots' : List DXBCResourceDecl}
    (h : reserve_array mem_realloc slots required = some slots') :
    slots <+: slots' ∧ required ≤ slots'.length := by
  unfold reserve_array at h
  by_cases hroom : required ≤ slots.length
  · rw [if_pos hroom, Option.some.injEq] at h
    exact h ▸ ⟨prefix_rfl, hroom⟩
  · rw [if_neg hroom] at h
    obtain ⟨fresh, -, rfl⟩ := Option.map_eq_some_iff.mp h
    have := @le_double required (if slots.length = 0 then 16 else slots.length)
    refine ⟨prefix_append _ _, ?_⟩
    rw [length_append, length_map, length_range]
    omega

lemma reserve_array_eq_none (hroom : table.count ≤ table.slots.length)
    (h : reserve_array mem_realloc table.slots (table.count + 1) = none) :
    table.slots.length = table.count ∧
      ∃ capacity, table.count < capacity ∧ mem_realloc capacity = none := by
  unfold reserve_array at h
  split at h
  · cases h
  · exact ⟨by omega, _, le_double _, Option.map_eq_none_iff.mp h⟩

lemma position_le : position key ds ≤ ds.length := by
  induction ds with
  | nil => exact Nat.le_refl 0
  | cons d ds ih => unfold position; split_ifs <;> simp [ih]

/-- The declaration that is there is written, and a new one stands at the position. -/
theorem update_eq : update_resource_declaration key write ds =
      if ds[position key ds]?.any (·.register_index = key) then ds.modify (position key ds) write
      else (ds.take (position key ds) ++ .zeroed key :: ds.drop (position key ds)).modify
        (position key ds) write := by
  induction ds with
  | nil => rfl
  | cons d ds ih =>
    unfold update_resource_declaration position
    by_cases hlt : d.register_index < key
    · simp only [if_pos hlt, ih, getElem?_cons_succ, take_succ_cons, drop_succ_cons, cons_append]
      split_ifs <;> rfl
    · by_cases heq : d.register_index = key <;> simp [hlt, heq]

/-- **A call.** Its write and the insertion are the update of the instruction readers. -/
theorem get_or_add_spec (write : DXBCResourceDecl → DXBCResourceDecl)
    (hroom : table.count ≤ table.slots.length)
    (h : dxbc_get_or_add_resource_declaration mem_realloc key table = some (table', i)) :
    0 ≤ key ∧ table'.count ≤ table'.slots.length ∧
    (table'.slots.modify i write).take table'.count =
      update_resource_declaration key write table.declarations := by
  have hlen : table.declarations.length = table.count := by
    rw [Table.declarations, length_take, Nat.min_eq_left hroom]
  have hpos := hlen ▸ @position_le key table.declarations
  rw [update_eq]
  simp only [dxbc_get_or_add_resource_declaration] at h
  by_cases hbad : key < 0 ∨ table.slots.length < table.count
  · simp [hbad] at h
  rw [if_neg hbad] at h
  by_cases hold : (table.declarations[position key table.declarations]?).any
      (·.register_index = key) = true
  · rw [if_pos hold, Option.some.injEq, Prod.mk.injEq] at h
    obtain ⟨rfl, rfl⟩ := h
    rw [if_pos hold, take_modify]
    exact ⟨by omega, hroom, rfl⟩
  rw [if_neg hold] at h ⊢
  by_cases hfull : table.count = INT_MAX
  · simp [hfull] at h
  rw [if_neg hfull] at h
  obtain ⟨slots, hreserve, heq⟩ := Option.map_eq_some_iff.mp h
  obtain ⟨⟨more, hmore⟩, hlarge⟩ := reserve_array_spec hreserve
  rw [Prod.mk.injEq] at heq
  obtain ⟨rfl, rfl⟩ := heq
  -- The declarations are the first slots, also of the new array.
  have hfirst : slots.take table.count = table.declarations := by
    rw [← hmore, take_append_of_le_length hroom, Table.declarations]
  generalize position key table.declarations = n at *
  rw [← hfirst, take_take, Nat.min_eq_left hpos, drop_take, take_modify]
  refine ⟨by omega, ?_, ?_⟩
  · simp only [length_append, length_take, length_drop, length_singleton]
    omega
  · rw [take_left' (by simp only [length_append, length_take, length_drop,
      length_singleton]; omega), append_assoc, singleton_append]

/-- The search stops at a larger register, and what a call writes is found at its register only. -/
theorem find_loop_update (h : ∀ d, (write d).register_index = d.register_index) (k : ℤ) :
    find_loop k (update_resource_declaration key write ds) =
      if key = k then some (write ((find_loop k ds).getD (.zeroed k))) else find_loop k ds := by
  have hzero : (write (.zeroed key)).register_index = key := h _
  induction ds with
  | nil => by_cases hk : key = k <;> simp_all [update_resource_declaration, find_loop]
  | cons d ds ih =>
    have hd := h d
    unfold update_resource_declaration
    by_cases hlt : d.register_index < key
    · rw [if_pos hlt, find_loop, ih]
      grind [find_loop]
    by_cases heq : d.register_index = key
    · rw [if_neg hlt, if_pos heq]
      grind [find_loop]
    · rw [if_neg hlt, if_neg heq]
      grind [find_loop]

lemma any_position :
    (ds[position key ds]?).any (·.register_index = key) = (find_loop key ds).isSome := by
  induction ds with
  | nil => rfl
  | cons d ds ih => grind [position, find_loop]

lemma find_loop_eq_some (h : ds.Pairwise (·.register_index < ·.register_index))
    {d : DXBCResourceDecl} : find_loop key ds = some d ↔ d ∈ ds ∧ d.register_index = key := by
  induction ds with
  | nil => simp [find_loop]
  | cons e ds ih =>
    obtain ⟨hlt, htail⟩ := pairwise_cons.mp h
    have := fun hd : d ∈ ds => hlt d hd
    rw [find_loop, mem_cons]
    grind

/-- Every insertion keeps the order. -/
theorem pairwise_update (h : ∀ d, (write d).register_index = d.register_index)
    (hds : ds.Pairwise (·.register_index < ·.register_index)) :
    (update_resource_declaration key write ds).Pairwise (·.register_index < ·.register_index) ∧
      ∀ e ∈ update_resource_declaration key write ds,
        e.register_index = key ∨ ∃ d ∈ ds, e.register_index = d.register_index := by
  have hzero : (write (.zeroed key)).register_index = key := h _
  induction ds with
  | nil => simp [update_resource_declaration, hzero]
  | cons d ds ih =>
    obtain ⟨hlt, htail⟩ := pairwise_cons.mp hds
    obtain ⟨hsorted, hkeys⟩ := ih htail
    have hd := h d
    unfold update_resource_declaration
    split_ifs with hless heq
    · refine ⟨pairwise_cons.mpr ⟨fun e he => ?_, hsorted⟩, ?_⟩ <;> grind
    · refine ⟨pairwise_cons.mpr ⟨fun e he => ?_, htail⟩, ?_⟩ <;> grind
    · refine ⟨pairwise_cons.mpr ⟨fun e he => ?_, hds⟩, ?_⟩ <;> grind

/-! ## Every sequence of calls -/

structure Holds (requests : List Call) (uav : Bool) (table : Table) : Prop where
  room : table.count ≤ table.slots.length
  sorted : table.declarations.Pairwise (·.register_index < ·.register_index)
  find : ∀ key, find_loop key table.declarations = contents requests uav key
  nonneg : ∀ call ∈ requests, 0 ≤ call.register_index

lemma Holds.step {tables tables' : Tables} {call : Call}
    (h : ∀ uav, Holds requests uav (tables uav)) (hstep : step tables call = some tables')
    (uav : Bool) : Holds (requests ++ [call]) uav (tables' uav) := by
  obtain ⟨⟨table, i⟩, hget, rfl⟩ := Option.map_eq_some_iff.mp hstep
  obtain ⟨hnonneg, hroom, hdecls⟩ := get_or_add_spec call.write (h call.uav).room hget
  have hcontents : ∀ key, contents (requests ++ [call]) uav key =
      if call.uav = uav ∧ call.register_index = key then
        some (call.write ((contents requests uav key).getD (.zeroed key)))
      else contents requests uav key := fun key => by simp [contents]
  have hall : ∀ c ∈ requests ++ [call], 0 ≤ c.register_index := by
    simpa [or_imp, forall_and, hnonneg] using (h uav).nonneg
  by_cases huav : uav = call.uav
  · subst huav
    dsimp only
    rw [Function.update_self]
    refine ⟨by simpa using hroom, ?_, fun key => ?_, hall⟩ <;> rw [Table.declarations, hdecls]
    · exact (pairwise_update call.write_register_index (h _).sorted).1
    · rw [find_loop_update call.write_register_index, hcontents, (h _).find]
      simp
  · dsimp only
    rw [Function.update_of_ne huav]
    refine ⟨(h uav).room, (h uav).sorted, fun key => ?_, hall⟩
    rw [hcontents, if_neg fun heq => huav heq.1.symm, (h uav).find]

lemma Holds.run (calls : List Call) (uav : Bool) :
    Holds (run calls).2 uav ((run calls).1 uav) := by
  induction calls using reverseRecOn generalizing uav with
  | nil => exact ⟨Nat.le_refl 0, List.Pairwise.nil, fun _ => rfl, by simp [ResourceTable.run]⟩
  | append_singleton calls call ih =>
    simp only [ResourceTable.run, foldl_append, foldl_cons, foldl_nil] at ih ⊢
    split
    · exact ih uav
    · next hstep => exact Holds.step ih hstep uav

lemma isSome_contents : (contents requests uav key).isSome ↔
      ∃ call ∈ requests, call.uav = uav ∧ call.register_index = key := by
  induction requests using reverseRecOn with
  | nil => simp [contents]
  | append_singleton requests call ih =>
    simp only [contents, foldl_append, foldl_cons, foldl_nil] at ih ⊢
    by_cases hcall : call.uav = uav ∧ call.register_index = key
    · rw [if_pos hcall]
      exact iff_of_true rfl ⟨call, by simp, hcall⟩
    · rw [if_neg hcall, ih]
      simp [or_and_right, exists_or, hcall]

/-- **The tables.** They are sorted, have the registers that were requested with what the requests
have written, and the search finds these. A request gets no declaration when its register is
negative, or when there is no declaration and no room for one. -/
theorem resource_declaration_table (calls : List Call) (uav : Bool) : let table := (run calls).1 uav
    let requests := (run calls).2
    table.declarations.Pairwise (·.register_index < ·.register_index) ∧
    (∀ key, key ∈ table.declarations.map (·.register_index) ↔
      ∃ call ∈ requests, call.uav = uav ∧ call.register_index = key) ∧
    (∀ d ∈ table.declarations, contents requests uav d.register_index = some d) ∧
    (∀ key, dxbc_find_resource_declaration key table = contents requests uav key) ∧
    ∀ call : Call, call.uav = uav → step (run calls).1 call = none →
      call.register_index < 0 ∨ contents requests uav call.register_index = none ∧
        (table.count = INT_MAX ∨ table.slots.length = table.count ∧
          ∃ capacity, table.count < capacity ∧ call.mem_realloc capacity = none) := by
  intro table requests
  have h : Holds requests uav table := Holds.run calls uav
  have hmem : ∀ d ∈ table.declarations, contents requests uav d.register_index = some d :=
    fun d hd => h.find _ ▸ (find_loop_eq_some h.sorted).mpr ⟨hd, rfl⟩
  refine ⟨h.sorted, fun key => ?_, hmem, fun key => ?_, fun call huav hnone => ?_⟩
  · rw [← isSome_contents, mem_map, Option.isSome_iff_exists, ← h.find]
    simp only [find_loop_eq_some h.sorted]
  · rw [dxbc_find_resource_declaration, h.find]
    refine ite_eq_right_iff.mpr fun hneg => ?_
    by_contra hsome
    obtain ⟨call, hcall, -, rfl⟩ :=
      isSome_contents.mp (Option.isSome_iff_ne_none.mpr (Ne.symm hsome))
    have := h.nonneg call hcall
    omega
  · subst huav
    have hroom : ¬table.slots.length < table.count := Nat.not_lt.mpr h.room
    change Option.map _ (dxbc_get_or_add_resource_declaration _ _ table) = none at hnone
    rw [← h.find, ← Option.isNone_iff_eq_none, ← Option.not_isSome, ← any_position]
    simp only [dxbc_get_or_add_resource_declaration, Option.map_eq_none_iff, hroom, or_false]
      at hnone
    have hreserve := @reserve_array_eq_none table call.mem_realloc h.room
    split_ifs at hnone <;> simp_all

def sampleCall (register_index : ℤ) (write : DXBCResourceDecl → DXBCResourceDecl)
    (h : ∀ d, (write d).register_index = d.register_index) : Call :=
  ⟨register_index, true, fun _ => some fun _ => .zeroed 0, write, h⟩

def sampleCalls : List Call :=
  [sampleCall 5 (fun d => { d with stride := 16 }) fun _ => rfl,
    sampleCall 3 (fun d => { d with declared := true }) fun _ => rfl,
    sampleCall 5 (fun d => { d with declared := true }) fun _ => rfl]

/-- The second request of `u5` writes into the declaration of the first, which stands behind the
one of `u3`. -/
theorem resource_declaration_table_sample :
    ((run sampleCalls).1 true).declarations =
        [{ DXBCResourceDecl.zeroed 3 with declared := true },
          { DXBCResourceDecl.zeroed 5 with stride := 16, declared := true }] ∧
      dxbc_find_resource_declaration 5 ((run sampleCalls).1 true) =
        contents (run sampleCalls).2 true 5 ∧
      contents (run sampleCalls).2 true 5 =
        some { DXBCResourceDecl.zeroed 5 with stride := 16, declared := true } := by
  obtain ⟨-, -, -, hfind, -⟩ := resource_declaration_table sampleCalls true
  exact ⟨by decide +kernel, hfind 5, by decide +kernel⟩

end DXBCSandbox.ResourceTable
