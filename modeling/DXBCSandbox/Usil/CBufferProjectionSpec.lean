/-
What a constant-buffer projection says of a program.

A read is a byte and the physical lane it is read into. The projection of an operand, of the
operands nested in it, of an instruction and of a program each add a set of reads to the state,
and sets of reads add up: what is marked at the end is what is in their union. Where no index is
dynamic that set is exactly what the program reads; where one is, the set holds every row of the
buffer.
-/
import DXBCSandbox.Usil.CBufferProjection

namespace DXBCSandbox

open List Usil CBuffer

def DXBCCBufferVariableRange.Contains (range : DXBCCBufferVariableRange) (byte : ℕ) : Prop :=
  range.byte_offset.toNat ≤ byte ∧ byte < range.byte_offset.toNat + range.byte_size.toNat

instance (range : DXBCCBufferVariableRange) (byte : ℕ) : Decidable (range.Contains byte) :=
  inferInstanceAs (Decidable (_ ∧ _))

namespace CBuffer

/-! ## Sets of reads -/

/-- `s'` is `s` with the reads marked. A read is a byte and a lane. -/
structure Adds (ranges : List DXBCCBufferVariableRange) (reads : Set (ℕ × ℕ)) (s s' : State) :
    Prop where
  length : s'.uses.length = s.uses.length
  referenced : ∀ (v : ℕ) range use use', ranges[v]? = some range → s.uses[v]? = some use →
    s'.uses[v]? = some use' → (use'.referenced = true ↔ use.referenced = true ∨
      ∃ byte lane, (byte, lane) ∈ reads ∧ range.Contains byte)
  mask : ∀ (v : ℕ) range use use', ranges[v]? = some range → s.uses[v]? = some use →
    s'.uses[v]? = some use' → ∀ lane, (use'.component_mask.testBit lane = true ↔
      use.component_mask.testBit lane = true ∨
        ∃ byte, (byte, lane) ∈ reads ∧ range.Contains byte)
  padding : s'.projection.saw_padding_access = true ↔ s.projection.saw_padding_access = true ∨
    ∃ byte lane, (byte, lane) ∈ reads ∧ ∀ range ∈ ranges, ¬ range.Contains byte

section Adds

variable {ranges : List DXBCCBufferVariableRange} {reads reads' : Set (ℕ × ℕ)} {s s' s'' : State}

lemma adds_empty (huses : s'.uses = s.uses)
    (hpad : s'.projection.saw_padding_access = s.projection.saw_padding_access) :
    Adds ranges ∅ s s' where
  length := by rw [huses]
  referenced := by
    intro v range use use' _ huse huse'
    rw [huses, huse] at huse'
    rw [Option.some.inj huse']
    simp
  mask := by
    intro v range use use' _ huse huse' lane
    rw [huses, huse] at huse'
    rw [Option.some.inj huse']
    simp
  padding := by
    rw [hpad]
    simp

lemma Adds.trans (h : Adds ranges reads s s') (h' : Adds ranges reads' s' s'') :
    Adds ranges (reads ∪ reads') s s'' := by
  have hmid : ∀ (v : ℕ) use, s.uses[v]? = some use → ∃ use', s'.uses[v]? = some use' := by
    intro v use huse
    have hlt := (List.getElem?_eq_some_iff.mp huse).1
    exact ⟨_, getElem?_eq_getElem (by rw [h.length]; exact hlt)⟩
  constructor
  case length => rw [h'.length, h.length]
  case referenced =>
    intro v range use use'' hrange huse huse''
    obtain ⟨use', huse'⟩ := hmid v use huse
    rw [h'.referenced v range use' use'' hrange huse' huse'',
      h.referenced v range use use' hrange huse huse', or_assoc]
    simp only [Set.mem_union, or_and_right, exists_or]
  case mask =>
    intro v range use use'' hrange huse huse'' lane
    obtain ⟨use', huse'⟩ := hmid v use huse
    rw [h'.mask v range use' use'' hrange huse' huse'' lane,
      h.mask v range use use' hrange huse huse' lane, or_assoc]
    simp only [Set.mem_union, or_and_right, exists_or]
  case padding =>
    rw [h'.padding, h.padding, or_assoc]
    simp only [Set.mem_union, or_and_right, exists_or]

lemma Adds.of_eq (h : Adds ranges reads s s') (heq : reads = reads') :
    Adds ranges reads' s s' := heq ▸ h

end Adds

/-! ## Ranges -/

lemma validate_ranges_from_eq_true {previous rest : List DXBCCBufferVariableRange}
    (h : validate_ranges_from previous rest = true) :
    (∀ range ∈ rest, ∀ other ∈ previous, ranges_overlap range other = false) ∧
      rest.Pairwise fun other range => ranges_overlap range other = false := by
  induction rest generalizing previous with
  | nil => exact ⟨nofun, List.Pairwise.nil⟩
  | cons range rest ih =>
    rw [validate_ranges_from] at h
    split_ifs at h with _ hany
    obtain ⟨hprev, hpairwise⟩ := ih h
    rw [any_eq_true, not_exists] at hany
    constructor
    · intro r hr other hother
      rcases mem_cons.mp hr with rfl | hr
      · exact Bool.eq_false_iff.mpr fun hover => hany other ⟨hother, hover⟩
      · exact hprev r hr other (mem_append_left _ hother)
    · apply pairwise_cons.mpr ⟨_, hpairwise⟩
      intro r hr
      exact hprev r hr range (mem_append_right _ (mem_singleton_self _))

def Disjoint (ranges : List DXBCCBufferVariableRange) : Prop :=
  ranges.Pairwise fun range other => ∀ byte, range.Contains byte → ¬ other.Contains byte

variable {ranges : List DXBCCBufferVariableRange} {size : UInt32}

lemma disjoint_of_validate (h : validate_ranges size ranges = true) : Disjoint ranges := by
  unfold validate_ranges at h
  split_ifs at h
  refine (validate_ranges_from_eq_true h).2.imp ?_
  intro other range hover byte hother hrange
  have hover := of_decide_eq_false hover
  unfold DXBCCBufferVariableRange.Contains at hother hrange
  omega

lemma size_of_validate (h : validate_ranges size ranges = true) : size.toNat % 16 = 0 := by
  unfold validate_ranges at h
  split_ifs at h with hsize
  push Not at hsize
  exact hsize.2

/-! ## One byte -/

lemma match_variable_cons (byte i : ℕ) (range : DXBCCBufferVariableRange)
    (rest : List DXBCCBufferVariableRange) (found : Option ℕ) :
    match_variable byte i (range :: rest) found =
      if range.Contains byte then
        if found.isSome then .error () else match_variable byte (i + 1) rest (some i)
      else match_variable byte (i + 1) rest found := rfl

lemma match_variable_found {byte v i : ℕ} (h : ∀ range ∈ ranges, ¬ range.Contains byte) :
    match_variable byte i ranges (some v) = .ok (some v) := by
  induction ranges generalizing i with
  | nil => rfl
  | cons range rest ih =>
    rw [match_variable_cons, if_neg (h range mem_cons_self)]
    exact ih (forall_mem_cons.mp h).2

lemma match_variable_eq (h : Disjoint ranges) (byte i : ℕ) :
    (match_variable byte i ranges none = .ok none ∧ ∀ range ∈ ranges, ¬ range.Contains byte) ∨
      ∃ v range, match_variable byte i ranges none = .ok (some (i + v)) ∧
        ranges[v]? = some range ∧ range.Contains byte := by
  induction ranges generalizing i with
  | nil => exact .inl ⟨rfl, nofun⟩
  | cons range rest ih =>
    obtain ⟨hfst, hrest⟩ := pairwise_cons.mp h
    by_cases hcont : range.Contains byte
    · refine .inr ⟨0, range, ?_, rfl, hcont⟩
      rw [match_variable_cons, if_pos hcont]
      exact match_variable_found fun r hr => hfst r hr byte hcont
    · rw [match_variable_cons, if_neg hcont]
      rcases ih hrest (i + 1) with ⟨heq, hnone⟩ | ⟨v, r, heq, hr, hbyte⟩
      · refine .inl ⟨heq, ?_⟩
        intro r hr
        rcases mem_cons.mp hr with rfl | hr
        · exact hcont
        · exact hnone r hr
      · refine .inr ⟨v + 1, r, ?_, hr, hbyte⟩
        rw [heq, Nat.add_assoc, Nat.add_comm 1 v]

variable {range : DXBCCBufferVariableRange}

lemma Disjoint.eq_of_contains (h : Disjoint ranges) {byte v w : ℕ}
    {range' : DXBCCBufferVariableRange} (hv : ranges[v]? = some range)
    (hw : ranges[w]? = some range') (hrange : range.Contains byte)
    (hrange' : range'.Contains byte) : v = w := by
  obtain ⟨hvlt, rfl⟩ := List.getElem?_eq_some_iff.mp hv
  obtain ⟨hwlt, rfl⟩ := List.getElem?_eq_some_iff.mp hw
  rcases Nat.lt_trichotomy v w with hlt | heq | hgt
  · exact absurd hrange' (pairwise_iff_getElem.mp h v w hvlt hwlt hlt byte hrange)
  · exact heq
  · exact absurd hrange (pairwise_iff_getElem.mp h w v hwlt hvlt hgt byte hrange')

section Project

variable {ranges : List DXBCCBufferVariableRange} {size : UInt32}

lemma project_byte_spec (h : Disjoint ranges) (byte lane : ℕ) (dynamic : Bool) (s : State) :
    (project_byte ranges byte lane dynamic s).1 = .exact ∧
      Adds ranges {(byte, lane)} s (project_byte ranges byte lane dynamic s).2 := by
  unfold project_byte
  rcases match_variable_eq h byte 0 with ⟨heq, hnone⟩ | ⟨v, range, heq, hrange, hcont⟩
  · rw [heq]
    refine ⟨rfl, rfl, ?_, ?_, ?_⟩
    · intro w r use use' hr huse huse'
      obtain rfl := Option.some.inj (huse.symm.trans huse')
      have := hnone r (mem_of_getElem? hr)
      simp [this]
    · intro w r use use' hr huse huse' l
      obtain rfl := Option.some.inj (huse.symm.trans huse')
      have := hnone r (mem_of_getElem? hr)
      simp only [Set.mem_singleton_iff, Prod.mk.injEq, and_assoc]
      simp [this]
    · simp only [Set.mem_singleton_iff, Prod.mk.injEq, true_iff]
      exact .inr ⟨byte, lane, ⟨rfl, rfl⟩, hnone⟩
  · rw [heq, Nat.zero_add]
    -- Only the use of this variable changes.
    have hother : ∀ w r, ranges[w]? = some r → (r.Contains byte ↔ w = v) := by
      intro w r hr
      constructor
      · exact fun hbyte => h.eq_of_contains hr hrange hbyte hcont
      · rintro rfl
        rwa [Option.some.inj (hr.symm.trans hrange)]
    have hmark : ∀ (w : ℕ) use use', s.uses[w]? = some use →
        (s.uses.modify v (mark_use lane dynamic))[w]? = some use' →
          use' = if v = w then mark_use lane dynamic use else use := by
      intro w use use' huse huse'
      rw [getElem?_modify, huse] at huse'
      exact (Option.some.inj huse').symm
    refine ⟨rfl, ?_, ?_, ?_, ?_⟩
    · simp
    · intro w r use use' hr huse huse'
      have hread : (∃ b l, (b, l) ∈ ({(byte, lane)} : Set (ℕ × ℕ)) ∧ r.Contains b) ↔ v = w := by
        simp [← hother w r hr, eq_comm (a := v)]
      rw [hread, hmark w use use' huse huse']
      by_cases hw : v = w
      · simp [hw, mark_use]
      · simp [hw]
    · intro w r use use' hr huse huse' l
      have hread : (∃ b, (b, l) ∈ ({(byte, lane)} : Set (ℕ × ℕ)) ∧ r.Contains b) ↔
          v = w ∧ lane = l := by
        simp [← hother w r hr, eq_comm (a := v), eq_comm (a := lane), and_comm]
      rw [hread, hmark w use use' huse huse']
      by_cases hw : v = w
      · simp [hw, mark_use, Nat.testBit_or, Nat.testBit_two_pow]
      · simp [hw]
    · simp only [Set.mem_singleton_iff, Prod.mk.injEq]
      constructor
      · exact .inl
      · rintro (hs | ⟨b, l, ⟨rfl, rfl⟩, hall⟩)
        · exact hs
        · exact absurd hcont (hall range (mem_of_getElem? hrange))

/-! ## Rows -/

lemma combine_status_exact (status : DXBCCBufferProjectionStatus) :
    combine_status status .exact = status := by
  cases status <;> rfl

def rowReads (row lanes : ℕ) : Set (ℕ × ℕ) :=
  {read | read.2 < 4 ∧ lanes.testBit read.2 = true ∧ read.1 = row * 16 + read.2 * 4}

lemma project_lanes_spec (h : Disjoint ranges) (offset lanes : ℕ) (dynamic : Bool)
    (todo : List ℕ) (status : DXBCCBufferProjectionStatus) (s : State) :
    (project_lanes ranges offset lanes dynamic todo status s).1 = status ∧
      Adds ranges {read | read.2 ∈ todo ∧ lanes.testBit read.2 = true ∧
          read.1 = offset + read.2 * 4} s
        (project_lanes ranges offset lanes dynamic todo status s).2 := by
  induction todo generalizing s with
  | nil =>
    refine ⟨rfl, (adds_empty rfl rfl).of_eq ?_⟩
    simp
  | cons lane todo ih =>
    rw [project_lanes]
    by_cases hlane : lanes.testBit lane = true
    · obtain ⟨hex, hbyte⟩ := project_byte_spec h (offset + lane * 4) lane dynamic s
      obtain ⟨hstat, hrest⟩ :=
        ih (project_byte ranges (offset + lane * 4) lane dynamic s).2
      rw [if_neg (not_not.mpr hlane)]
      unfold after
      rw [hex, combine_status_exact]
      refine ⟨hstat, (hbyte.trans hrest).of_eq ?_⟩
      ext ⟨b, l⟩
      simp only [Set.mem_union, Set.mem_singleton_iff, Prod.mk.injEq, Set.mem_ofPred_eq, mem_cons]
      constructor
      · rintro (⟨rfl, rfl⟩ | ⟨hl, hbit, hb⟩)
        · exact ⟨.inl rfl, hlane, rfl⟩
        · exact ⟨.inr hl, hbit, hb⟩
      · rintro ⟨rfl | hl, hbit, hb⟩
        · exact .inl ⟨hb, rfl⟩
        · exact .inr ⟨hl, hbit, hb⟩
    · obtain ⟨hstat, hrest⟩ := ih s
      rw [if_pos hlane]
      refine ⟨hstat, hrest.of_eq ?_⟩
      ext ⟨b, l⟩
      simp only [Set.mem_ofPred_eq, mem_cons]
      constructor
      · rintro ⟨hl, hbit, hb⟩
        exact ⟨.inr hl, hbit, hb⟩
      · rintro ⟨rfl | hl, hbit, hb⟩
        · exact absurd hbit hlane
        · exact ⟨hl, hbit, hb⟩

lemma project_row_spec (h : Disjoint ranges) {row : ℕ} (hrow : row * 16 < size.toNat)
    (lanes : ℕ) (dynamic : Bool) (s : State) :
    (project_row size ranges row lanes dynamic s).1 = .exact ∧
      Adds ranges (rowReads row lanes) s (project_row size ranges row lanes dynamic s).2 := by
  unfold project_row
  dsimp only
  rw [if_neg (Nat.not_le.mpr hrow)]
  obtain ⟨hstat, hadds⟩ :=
    project_lanes_spec h (row * 16) lanes dynamic [0, 1, 2, 3] .exact s
  refine ⟨hstat, hadds.of_eq ?_⟩
  ext ⟨b, l⟩
  unfold rowReads
  simp only [Set.mem_ofPred_eq, mem_cons, not_mem_nil, or_false]
  apply and_congr_left'
  omega

lemma project_rows_spec (h : Disjoint ranges) (lanes : ℕ) {count row : ℕ}
    (hrows : (row + count) * 16 ≤ size.toNat) (status : DXBCCBufferProjectionStatus) (s : State) :
    (project_rows size ranges lanes count row status s).1 = status ∧
      Adds ranges {read | ∃ r, row ≤ r ∧ r < row + count ∧ read ∈ rowReads r lanes} s
        (project_rows size ranges lanes count row status s).2 := by
  induction count generalizing row s with
  | zero =>
    refine ⟨rfl, (adds_empty rfl rfl).of_eq ?_⟩
    ext read
    simp only [Set.mem_empty_iff_false, Set.mem_ofPred_eq, false_iff]
    rintro ⟨r, hlow, hhigh, -⟩
    omega
  | succ count ih =>
    have hfst : row * 16 < size.toNat := by omega
    have hothers : (row + 1 + count) * 16 ≤ size.toNat := by omega
    obtain ⟨hex, hrow⟩ := project_row_spec h hfst lanes true s
    obtain ⟨hstat, hrest⟩ := ih hothers (project_row size ranges row lanes true s).2
    rw [project_rows]
    unfold after
    rw [hex, combine_status_exact]
    refine ⟨hstat, (hrow.trans hrest).of_eq ?_⟩
    ext read
    simp only [Set.mem_union, Set.mem_ofPred_eq]
    constructor
    · rintro (hread | ⟨r, hlow, hhigh, hread⟩)
      · exact ⟨row, le_rfl, by omega, hread⟩
      · exact ⟨r, by omega, by omega, hread⟩
    · rintro ⟨r, hlow, hhigh, hread⟩
      rcases Nat.eq_or_lt_of_le hlow with rfl | hlt
      · exact .inl hread
      · exact .inr ⟨r, by omega, by omega, hread⟩

end Project

/-! ## One operand -/

/-- The operand reads into the physical lane, for one of the logical lanes of the mask. -/
def ReadsLane (op : DXBCOperand) (mask lane : ℕ) : Prop :=
  ∃ logical, mask.testBit logical = true ∧ usil_operand_source_component op logical = some lane

def Names (register : UInt32) (op : DXBCOperand) : Prop :=
  op.type = .constantBuffer ∧ (op.index_values.get 0).toNat = register.toNat

/-- The rows that the index of the operand may name: a dynamic one may name any. -/
def MayName (size : UInt32) (op : DXBCOperand) (row : ℕ) : Prop :=
  if op.rel_op1 = .null then (op.index_values.get 1).toNat = row else row * 16 < size.toNat

def operandReads (register size : UInt32) (op : DXBCOperand) (mask : ℕ) : Set (ℕ × ℕ) :=
  {read | Names register op ∧ ReadsLane op mask read.2 ∧
    ∃ row, MayName size op row ∧ read.1 = row * 16 + read.2 * 4}

/-- The operand reads the buffer through a dynamic index. -/
def Dynamic (register : UInt32) (op : DXBCOperand) : Prop :=
  Names register op ∧ op.rel_op1 ≠ .null

variable {op : DXBCOperand} {mask : ℕ} {lanes : ℕ}

lemma testBit_swizzle_lanes {todo : List ℕ} (h : swizzle_lanes op mask todo = some lanes)
    (lane : ℕ) :
    lanes.testBit lane = true ↔
      ∃ logical ∈ todo, mask.testBit logical = true ∧ op.swizzle.get logical = lane ∧ lane < 4 := by
  induction todo generalizing lanes with
  | nil =>
    rw [← Option.some.inj h]
    simp
  | cons first todo ih =>
    rw [swizzle_lanes] at h
    by_cases hfst : mask.testBit first = true
    · rw [if_neg (not_not.mpr hfst)] at h
      split_ifs at h with hwide
      obtain ⟨rest, hrest, h⟩ := Option.bind_eq_some_iff.mp h
      rw [← Option.some.inj h, Nat.testBit_or, Nat.testBit_two_pow, Bool.or_eq_true,
        decide_eq_true_eq, ih hrest]
      simp only [mem_cons, exists_eq_or_imp, hfst, true_and]
      apply or_congr_left
      constructor
      · intro heq
        exact ⟨heq, by omega⟩
      · exact fun hlane => hlane.1
    · rw [if_pos hfst] at h
      rw [ih h]
      simp [hfst]

lemma lt_of_testBit {lane : ℕ} (hmask : mask < 16) (h : mask.testBit lane = true) : lane < 4 := by
  by_contra hge
  have hpow : 2 ^ 4 ≤ 2 ^ lane := Nat.pow_le_pow_right (by decide) (Nat.not_lt.mp hge)
  rw [Nat.testBit_lt_two_pow (by omega)] at h
  exact Bool.false_ne_true h

variable {logical : ℕ}

lemma source_component_swizzle (hmode : op.swizzle_mode = 1) (hlogical : logical < 4) (lane : ℕ) :
    usil_operand_source_component op logical = some lane ↔
      op.swizzle.get logical = lane ∧ lane < 4 := by
  unfold usil_operand_source_component
  rw [hmode, if_neg (by omega)]
  dsimp only
  rw [if_neg (show ¬ (1 = 2) by decide), if_pos rfl]
  split_ifs with hlt
  · constructor
    · intro h
      exact ⟨Option.some.inj h, by rwa [← Option.some.inj h]⟩
    · rintro ⟨rfl, -⟩
      rfl
  · constructor
    · exact fun h => absurd h (by simp)
    · rintro ⟨rfl, h⟩
      exact absurd h hlt

lemma source_component_scalar (hmode : op.swizzle_mode = 2) (hlogical : logical < 4) (lane : ℕ) :
    usil_operand_source_component op logical = some lane ↔ op.swizzle.get 0 = lane ∧ lane < 4 := by
  unfold usil_operand_source_component
  rw [hmode, if_neg (by omega)]
  dsimp only
  rw [if_pos rfl]
  split_ifs with hlt
  · constructor
    · intro h
      exact ⟨Option.some.inj h, by rwa [← Option.some.inj h]⟩
    · rintro ⟨rfl, -⟩
      rfl
  · constructor
    · exact fun h => absurd h (by simp)
    · rintro ⟨rfl, h⟩
      exact absurd h hlt

lemma testBit_physical_lane_mask (h : operand_physical_lane_mask op mask = some lanes)
    (lane : ℕ) : (lane < 4 ∧ lanes.testBit lane = true) ↔ ReadsLane op mask lane := by
  unfold operand_physical_lane_mask at h
  by_cases hmask : mask = 0 ∨ 16 ≤ mask
  · rw [if_pos hmask] at h
    cases h
  rw [if_neg hmask] at h
  push Not at hmask
  unfold ReadsLane
  split at h
  next hmode =>
    rw [testBit_swizzle_lanes h]
    constructor
    · rintro ⟨-, logical, -, hbit, hlane⟩
      exact ⟨logical, hbit,
        (source_component_swizzle hmode (lt_of_testBit hmask.2 hbit) lane).mpr hlane⟩
    · rintro ⟨logical, hbit, hlane⟩
      have hfour := lt_of_testBit hmask.2 hbit
      have hlane := (source_component_swizzle hmode hfour lane).mp hlane
      refine ⟨hlane.2, logical, ?_, hbit, hlane⟩
      simp only [mem_cons, not_mem_nil, or_false]
      omega
  next hmode =>
    split_ifs at h with hwide
    rw [← Option.some.inj h, Nat.testBit_two_pow, decide_eq_true_eq]
    constructor
    · rintro ⟨hlt, hlane⟩
      -- The mask is not empty, so some logical lane is read.
      obtain ⟨logical, hbit⟩ := Nat.exists_testBit_of_ne_zero hmask.1
      exact ⟨logical, hbit,
        (source_component_scalar hmode (lt_of_testBit hmask.2 hbit) lane).mpr ⟨hlane, hlt⟩⟩
    · rintro ⟨logical, hbit, hlane⟩
      have hlane := (source_component_scalar hmode (lt_of_testBit hmask.2 hbit) lane).mp hlane
      exact ⟨hlane.2, hlane.1⟩
  next => cases h

/-- What a projection that is not refused says: the reads are marked, and an exact one has met no
dynamic index. -/
structure Projected (ranges : List DXBCCBufferVariableRange) (reads : Set (ℕ × ℕ)) (dynamic : Prop)
    (s : State) (result : DXBCCBufferProjectionStatus × State) : Prop where
  adds : result.1 ≠ .invalid → Adds ranges reads s result.2
  static : result.1 = .exact → ¬ dynamic

lemma projected_invalid (ranges : List DXBCCBufferVariableRange) (reads : Set (ℕ × ℕ))
    (dynamic : Prop) (s s' : State) : Projected ranges reads dynamic s (.invalid, s') where
  adds := fun h => absurd rfl h
  static := fun h => absurd h (by simp)

variable {op : DXBCOperand}

section Operand

variable {ranges : List DXBCCBufferVariableRange} {register size : UInt32}

lemma operandReads_of_not_names (h : ¬ Names register op) (mask : ℕ) :
    operandReads register size op mask = ∅ := by
  ext read
  simp [operandReads, h]

lemma project_operand_spec (hvalid : validate_ranges size ranges = true) (op : DXBCOperand)
    (mask : ℕ) (s : State) :
    Projected ranges (operandReads register size op mask) (Dynamic register op) s
      (dxbc_cbuffer_project_operand op mask register size ranges s) := by
  have hdisj := disjoint_of_validate hvalid
  unfold dxbc_cbuffer_project_operand
  by_cases hshape : ¬ validate_ranges size ranges ∨ op.type ≠ .constantBuffer ∨
      op.register_index_dim ≠ 2 ∨ op.rel_op2 ≠ .null
  · rw [if_pos hshape]
    exact projected_invalid ..
  by_cases hslot : slot_valid op = true
  swap
  · rw [if_neg hshape, if_pos hslot]
    exact projected_invalid ..
  rw [if_neg hshape, if_neg (not_not.mpr hslot)]
  push Not at hshape
  by_cases hreg : (op.index_values.get 0).toNat = register.toNat
  swap
  · -- Another buffer.
    have hnames : ¬ Names register op := fun h => hreg h.2
    rw [if_pos hreg, operandReads_of_not_names hnames]
    exact ⟨fun _ => adds_empty rfl rfl, fun _ hdyn => hnames hdyn.1⟩
  have hnames : Names register op := ⟨hshape.2.1, hreg⟩
  rw [if_neg (not_not.mpr hreg)]
  split
  next => exact projected_invalid ..
  next lanes hlanes =>
    have hreads : ∀ lane, (lane < 4 ∧ lanes.testBit lane = true) ↔ ReadsLane op mask lane :=
      testBit_physical_lane_mask hlanes
    by_cases hnull : op.rel_op1 = .null
    · -- A static index names one row.
      dsimp only
      rw [if_pos hnull]
      split_ifs with hstatic
      · by_cases hrow : (op.index_values.get 1).toNat * 16 < size.toNat
        · have hflag : Adds ranges ∅ s
              { s with projection := { s.projection with saw_access := true } } :=
            adds_empty rfl rfl
          obtain ⟨hex, hadds⟩ := project_row_spec hdisj hrow lanes false
            { s with projection := { s.projection with saw_access := true } }
          refine ⟨fun _ => (hflag.trans hadds).of_eq ?_, fun _ hdyn => hdyn.2 hnull⟩
          ext ⟨byte, lane⟩
          simp only [Set.empty_union, operandReads, rowReads, Set.mem_ofPred_eq, MayName, hnull,
            if_true, exists_eq_left', ← and_assoc, hreads]
          simp [hnames]
        · unfold project_row
          rw [if_pos (Nat.not_lt.mp hrow)]
          exact projected_invalid ..
      · exact projected_invalid ..
    · dsimp only
      rw [if_neg hnull]
      split_ifs with hidx
      · have hsize := size_of_validate hvalid
        have hrows : (0 + size.toNat / 16) * 16 ≤ size.toNat := by omega
        have hflag : Adds ranges ∅ s { s with projection :=
            { s.projection with saw_access := true, saw_dynamic_access := true } } :=
          adds_empty rfl rfl
        obtain ⟨hstat, hadds⟩ := project_rows_spec hdisj lanes hrows
          .requiresIndexAuthority { s with projection :=
            { s.projection with saw_access := true, saw_dynamic_access := true } }
        refine ⟨fun _ => (hflag.trans hadds).of_eq ?_, ?_⟩
        · ext ⟨byte, lane⟩
          simp only [Set.empty_union, operandReads, rowReads, Set.mem_ofPred_eq, MayName, hnull,
            if_false]
          constructor
          · rintro ⟨row, -, hrow, hlt, hbit, hbyte⟩
            exact ⟨hnames, (hreads lane).mp ⟨hlt, hbit⟩, row, by omega, hbyte⟩
          · rintro ⟨-, hlane, row, hrow, hbyte⟩
            obtain ⟨hlt, hbit⟩ := (hreads lane).mpr hlane
            exact ⟨row, Nat.zero_le _, by omega, hlt, hbit, hbyte⟩
        · intro hex
          rw [hstat] at hex
          simp at hex
      · exact projected_invalid ..

end Operand

/-! ## Nested operands -/

def operandsOf : OperandRef → List DXBCOperand
  | .null => []
  | .node fields rel_op0 rel_op1 rel_op2 =>
    ⟨fields, rel_op0, rel_op1, rel_op2⟩ ::
      (operandsOf rel_op0 ++ operandsOf rel_op1 ++ operandsOf rel_op2)

/-- The operands nested in an operand as relative indices. -/
def relatives (op : DXBCOperand) : List DXBCOperand :=
  operandsOf op.rel_op0 ++ operandsOf op.rel_op1 ++ operandsOf op.rel_op2

variable {left right : DXBCCBufferProjectionStatus}

lemma combine_status_eq_exact :
    combine_status left right = .exact ↔ left = .exact ∧ right = .exact := by
  cases left <;> cases right <;> decide

lemma combine_status_eq_invalid :
    combine_status left right = .invalid ↔ left = .invalid ∨ right = .invalid := by
  cases left <;> cases right <;> decide

section Tree

variable {ranges : List DXBCCBufferVariableRange} {register size : UInt32}
  {reads reads' : Set (ℕ × ℕ)} {dynamic dynamic' : Prop} {s : State}
  {result result' : DXBCCBufferProjectionStatus × State}
  (h : Projected ranges reads dynamic s result)

include h

lemma Projected.after (h' : Projected ranges reads' dynamic' result.2 result') :
    Projected ranges (reads ∪ reads') (dynamic ∨ dynamic') s (after result.1 result') where
  adds := by
    intro hstat
    have hboth := mt combine_status_eq_invalid.mpr hstat
    push Not at hboth
    exact (h.adds hboth.1).trans (h'.adds hboth.2)
  static := by
    intro hstat hdyn
    obtain ⟨hleft, hright⟩ := combine_status_eq_exact.mp hstat
    exact hdyn.elim (h.static hleft) (h'.static hright)

lemma Projected.congr (hreads : reads = reads') (hdyn : dynamic' → dynamic) :
    Projected ranges reads' dynamic' s result where
  adds := fun hstat => (h.adds hstat).of_eq hreads
  static := fun hstat hd => h.static hstat (hdyn hd)

omit h

variable (register size) in
/-- The reads of the operands, each in its first lane. -/
def nestedReads (ops : List DXBCOperand) : Set (ℕ × ℕ) :=
  {read | ∃ op ∈ ops, read ∈ operandReads register size op 1}

variable (register) in
def NestedDynamic (ops : List DXBCOperand) : Prop := ∃ op ∈ ops, Dynamic register op

lemma nestedReads_append (ops ops' : List DXBCOperand) : nestedReads register size (ops ++ ops') =
      nestedReads register size ops ∪ nestedReads register size ops' := by
  ext read
  simp only [nestedReads, Set.mem_ofPred_eq, Set.mem_union, mem_append, or_and_right, exists_or]

lemma nestedDynamic_append (ops ops' : List DXBCOperand) : NestedDynamic register (ops ++ ops') ↔
      NestedDynamic register ops ∨ NestedDynamic register ops' := by
  simp only [NestedDynamic, mem_append, or_and_right, exists_or]

lemma nestedReads_cons (op : DXBCOperand) (ops : List DXBCOperand) :
    nestedReads register size (op :: ops) =
      operandReads register size op 1 ∪ nestedReads register size ops := by
  ext read
  simp only [nestedReads, Set.mem_ofPred_eq, Set.mem_union, mem_cons, exists_eq_or_imp]

include h in
lemma Projected.relative {ref : OperandRef}
    (href : ref ≠ .null → Projected ranges (nestedReads register size (operandsOf ref))
      (NestedDynamic register (operandsOf ref)) result.2 result') :
    Projected ranges (reads ∪ nestedReads register size (operandsOf ref))
      (dynamic ∨ NestedDynamic register (operandsOf ref)) s
      (if ref = .null then result else CBuffer.after result.1 result') := by
  split_ifs with hnull
  · subst hnull
    refine h.congr ?_ ?_
    · ext read
      simp [nestedReads, operandsOf]
    · simp [NestedDynamic, operandsOf]
  · exact h.after (href hnull)

variable (ranges register size) in
/-- The projection of a tree records just what the tree reads. -/
def TreeSpec (ref : OperandRef) : Prop :=
  ∀ depth s, ref ≠ .null → Projected ranges (nestedReads register size (operandsOf ref))
    (NestedDynamic register (operandsOf ref)) s
    (project_operand_tree register size ranges ref true 1 depth s)

/-- The root is projected when it is a source; what is nested in it always is. -/
theorem project_operand_tree_node (hvalid : validate_ranges size ranges = true)
    (op : DXBCOperand) (h0 : TreeSpec ranges register size op.rel_op0)
    (h1 : TreeSpec ranges register size op.rel_op1)
    (h2 : TreeSpec ranges register size op.rel_op2) (project_root : Bool) (mask depth : ℕ)
    (s : State) :
    Projected ranges ({read | project_root = true ∧ read ∈ operandReads register size op mask} ∪
        nestedReads register size (relatives op))
      ((project_root = true ∧ Dynamic register op) ∨ NestedDynamic register (relatives op)) s
      (project_operand_tree register size ranges op.ref project_root mask depth s) := by
  unfold DXBCOperand.ref
  rw [project_operand_tree]
  by_cases hdepth : DXBC_MAX_NESTED_OPERAND_TOKENS ≤ depth
  · rw [if_pos hdepth]
    exact projected_invalid ..
  rw [if_neg hdepth]
  have hroot : Projected ranges
      {read | project_root = true ∧ read ∈ operandReads register size op mask}
      (project_root = true ∧ Dynamic register op) s
      (if project_root = true ∧ op.type = .constantBuffer then
        dxbc_cbuffer_project_operand op mask register size ranges s else (.exact, s)) := by
    split_ifs with hproject
    · refine (project_operand_spec hvalid op mask s).congr ?_ fun hdyn => hdyn.2
      ext read
      simp [hproject.1]
    · -- An operand of another type reads nothing from a constant buffer.
      have hnames : project_root = true → ¬ Names register op :=
        fun hp hnames => hproject ⟨hp, hnames.1⟩
      refine ⟨fun _ => (adds_empty rfl rfl).of_eq ?_, fun _ hd => hnames hd.1 hd.2.1⟩
      ext read
      simp only [Set.mem_empty_iff_false, Set.mem_ofPred_eq, false_iff]
      exact fun hread => hnames hread.1 hread.2.1
  refine (((hroot.relative (h0 _ _)).relative (h1 _ _)).relative (h2 _ _)).congr ?_ ?_
  · unfold relatives
    rw [nestedReads_append, nestedReads_append]
    simp only [Set.union_assoc]
  · unfold relatives
    rw [nestedDynamic_append, nestedDynamic_append]
    tauto

lemma treeSpec (hvalid : validate_ranges size ranges = true) (ref : OperandRef) :
    TreeSpec ranges register size ref := by
  induction ref with
  | null => exact fun _ _ hnull => absurd rfl hnull
  | node fields rel_op0 rel_op1 rel_op2 h0 h1 h2 =>
    intro depth s _
    refine (project_operand_tree_node hvalid ⟨fields, rel_op0, rel_op1, rel_op2⟩ h0 h1 h2 true 1
      depth s).congr ?_ ?_
    · rw [operandsOf, nestedReads_cons]
      simp [relatives]
    · rintro ⟨op, hop, hdyn⟩
      rcases mem_cons.mp hop with rfl | hop
      · exact .inl ⟨rfl, hdyn⟩
      · exact .inr ⟨op, hop, hdyn⟩

end Tree

/-! ## Instructions -/

/-- An operand that the program reads, and the lanes it consumes: a source of an instruction, or
an operand nested in one as a relative index. -/
inductive SourceOperand (program : USILDeclaredProgram) : DXBCOperand → ℕ → Prop
  | top {instruction : USILInstruction} {index mask : ℕ} {op : DXBCOperand}
      (hinstruction : instruction ∈ program.instructions)
      (hop : instruction.operands[index]? = some op)
      (huse : usil_instruction_operand_use program instruction index = some ⟨.source, mask⟩) :
      SourceOperand program op mask
  | relative {instruction : USILInstruction} {op inner : DXBCOperand}
      (hinstruction : instruction ∈ program.instructions) (hop : op ∈ instruction.operands)
      (hinner : inner ∈ relatives op) : SourceOperand program inner 1

section Program

variable (register size : UInt32) (program : USILDeclaredProgram)

def useReads (instruction : USILInstruction) (index : ℕ) (op : DXBCOperand) : Set (ℕ × ℕ) :=
  {read | (∃ mask, usil_instruction_operand_use program instruction index = some ⟨.source, mask⟩ ∧
    read ∈ operandReads register size op mask) ∨
      read ∈ nestedReads register size (relatives op)}

def UseDynamic (instruction : USILInstruction) (index : ℕ) (op : DXBCOperand) : Prop :=
  (∃ mask, usil_instruction_operand_use program instruction index = some ⟨.source, mask⟩ ∧
    Dynamic register op) ∨ NestedDynamic register (relatives op)

def instructionReads (instructions : List USILInstruction) : Set (ℕ × ℕ) :=
  {read | ∃ instruction ∈ instructions, ∃ (index : ℕ) (op : DXBCOperand),
    instruction.operands[index]? = some op ∧
      read ∈ useReads register size program instruction index op}

def InstructionDynamic (instructions : List USILInstruction) : Prop :=
  ∃ instruction ∈ instructions, ∃ (index : ℕ) (op : DXBCOperand),
    instruction.operands[index]? = some op ∧ UseDynamic register program instruction index op

variable {register size program} {ranges : List DXBCCBufferVariableRange}
  {reads : Set (ℕ × ℕ)} {dynamic : Prop} {s state : State}
  {status : DXBCCBufferProjectionStatus}

lemma exists_getElem?_cons {α : Type} {p : ℕ → α → Prop} {a : α} {l : List α} {i : ℕ} :
    (∃ (j : ℕ) (b : α), (a :: l)[j]? = some b ∧ p (i + j) b) ↔
      p i a ∨ ∃ (j : ℕ) (b : α), l[j]? = some b ∧ p (i + 1 + j) b := by
  constructor
  · rintro ⟨j, b, hb, hp⟩
    cases j with
    | zero =>
      rw [← Option.some.inj hb] at hp
      exact .inl hp
    | succ j =>
      refine .inr ⟨j, b, hb, ?_⟩
      rwa [Nat.add_assoc, Nat.add_comm 1 j]
  · rintro (hp | ⟨j, b, hb, hp⟩)
    · exact ⟨0, a, rfl, hp⟩
    · refine ⟨j + 1, b, hb, ?_⟩
      rwa [Nat.add_comm j 1, ← Nat.add_assoc]

variable {instruction : USILInstruction} {use : USILOperandUseInfo} {index : ℕ}

lemma useReads_eq (huse : usil_instruction_operand_use program instruction index = some use)
    (op : DXBCOperand) :
    useReads register size program instruction index op =
      {read | decide (use.use = .source) = true ∧
        read ∈ operandReads register size op use.source_lane_mask} ∪
          nestedReads register size (relatives op) := by
  obtain ⟨role, mask⟩ := use
  ext read
  simp only [useReads, huse, Option.some.injEq, USILOperandUseInfo.mk.injEq, Set.mem_ofPred_eq,
    Set.mem_union, decide_eq_true_eq, and_assoc, exists_and_left, exists_eq_left']

lemma useDynamic_iff (huse : usil_instruction_operand_use program instruction index = some use)
    (op : DXBCOperand) :
    UseDynamic register program instruction index op ↔
      (decide (use.use = .source) = true ∧ Dynamic register op) ∨
        NestedDynamic register (relatives op) := by
  obtain ⟨role, mask⟩ := use
  simp only [UseDynamic, huse, Option.some.injEq, USILOperandUseInfo.mk.injEq,
    decide_eq_true_eq, and_assoc, exists_and_left, exists_eq_left']

variable (register program) in
lemma project_operands_spec (hvalid : validate_ranges size ranges = true)
    (instruction : USILInstruction) (ops : List DXBCOperand) (index : ℕ)
    (h : Projected ranges reads dynamic s (status, state)) :
    Projected ranges (reads ∪ {read | ∃ (j : ℕ) (op : DXBCOperand), ops[j]? = some op ∧
        read ∈ useReads register size program instruction (index + j) op})
      (dynamic ∨ ∃ (j : ℕ) (op : DXBCOperand), ops[j]? = some op ∧
        UseDynamic register program instruction (index + j) op) s
      (project_operands register size ranges program instruction index ops status state) := by
  induction ops generalizing index status state reads dynamic with
  | nil =>
    refine h.congr ?_ ?_
    · ext read
      simp
    · simp
  | cons op ops ih =>
    rw [project_operands]
    split
    next => exact projected_invalid ..
    next use huse =>
      by_cases hrole : ¬ decide (use.use = .source) = true ∧ op.type = .constantBuffer
      · dsimp only
        rw [if_pos hrole]
        exact projected_invalid ..
      dsimp only
      rw [if_neg hrole]
      have hrelative : ∀ ref, TreeSpec ranges register size ref := treeSpec hvalid
      have htree := project_operand_tree_node hvalid op (hrelative op.rel_op0)
        (hrelative op.rel_op1) (hrelative op.rel_op2) (decide (use.use = .source))
        use.source_lane_mask 0 state
      have hafter := h.after htree
      split_ifs with hinvalid
      · refine ⟨fun hne => absurd hinvalid hne, fun hexact => ?_⟩
        rw [hinvalid] at hexact
        simp at hexact
      · refine (ih (index + 1) hafter).congr ?_ ?_
        · rw [← useReads_eq huse]
          ext read
          simp only [Set.mem_union, Set.mem_ofPred_eq, or_assoc]
          rw [exists_getElem?_cons
            (p := fun j b => read ∈ useReads register size program instruction j b)]
        · rw [← useDynamic_iff huse, exists_getElem?_cons
            (p := fun j b => UseDynamic register program instruction j b), or_assoc]
          exact id

lemma project_instructions_spec (hvalid : validate_ranges size ranges = true)
    {instructions : List USILInstruction}
    (h : Projected ranges reads dynamic s (status, state)) :
    Projected ranges (reads ∪ instructionReads register size program instructions)
      (dynamic ∨ InstructionDynamic register program instructions) s
      (project_instructions register size ranges program instructions status state) := by
  induction instructions generalizing status state reads dynamic with
  | nil =>
    refine h.congr ?_ ?_
    · ext read
      simp [instructionReads]
    · simp [InstructionDynamic]
  | cons instruction rest ih =>
    rw [project_instructions]
    by_cases hshape : usil_instruction_shape_valid program instruction = true
    swap
    · rw [if_pos hshape]
      exact projected_invalid ..
    rw [if_neg (not_not.mpr hshape)]
    have hfst := project_operands_spec register program hvalid instruction instruction.operands 0 h
    dsimp only
    split_ifs with hinv
    · refine ⟨fun hne => absurd hinv hne, fun hex => ?_⟩
      rw [hinv] at hex
      simp at hex
    · refine (ih hfst).congr ?_ ?_
      · ext read
        simp only [instructionReads, Set.mem_union, Set.mem_ofPred_eq, mem_cons,
          exists_eq_or_imp, Nat.zero_add, or_assoc]
      · simp only [InstructionDynamic, mem_cons, exists_eq_or_imp, Nat.zero_add, or_assoc]
        exact id

lemma mem_instructionReads_iff {read : ℕ × ℕ} :
    read ∈ instructionReads register size program program.instructions ↔
      ∃ op mask, SourceOperand program op mask ∧ read ∈ operandReads register size op mask := by
  constructor
  · rintro ⟨instruction, hinstr, index, op, hop, ⟨mask, huse, hread⟩ | ⟨inner, hinner, hread⟩⟩
    · exact ⟨op, mask, .top hinstr hop huse, hread⟩
    · exact ⟨inner, 1, .relative hinstr (mem_of_getElem? hop) hinner, hread⟩
  · rintro ⟨op, mask, hsrc, hread⟩
    cases hsrc with
    | top hinstr hop huse =>
      exact ⟨_, hinstr, _, op, hop, .inl ⟨mask, huse, hread⟩⟩
    | relative hinstr hop hinner =>
      obtain ⟨index, hidx⟩ := mem_iff_getElem?.mp hop
      exact ⟨_, hinstr, index, _, hidx, .inr ⟨op, hinner, hread⟩⟩

lemma instructionDynamic_of_source {mask : ℕ} (hsrc : SourceOperand program op mask)
    (hdyn : Dynamic register op) :
    InstructionDynamic register program program.instructions := by
  cases hsrc with
  | top hinstr hop huse => exact ⟨_, hinstr, _, op, hop, .inl ⟨mask, huse, hdyn⟩⟩
  | relative hinstr hop hinner =>
    obtain ⟨index, hidx⟩ := mem_iff_getElem?.mp hop
    exact ⟨_, hinstr, index, _, hidx, .inr ⟨op, hinner, hdyn⟩⟩

end Program

/-- Some source operand of the program statically reads the lane of the row. -/
def StaticallyReads (program : USILDeclaredProgram) (register : UInt32) (row lane : ℕ) : Prop :=
  ∃ op mask, SourceOperand program op mask ∧ Names register op ∧ op.rel_op1 = .null ∧
    (op.index_values.get 1).toNat = row ∧ ReadsLane op mask lane

lemma mem_instructionReads_of_static {program : USILDeclaredProgram} {register : UInt32}
    (h : ∀ op mask, SourceOperand program op mask → ¬ Dynamic register op) (byte lane : ℕ) :
    (byte, lane) ∈ instructionReads register size program program.instructions ↔
      ∃ row, StaticallyReads program register row lane ∧ byte = row * 16 + lane * 4 := by
  rw [mem_instructionReads_iff]
  constructor
  · rintro ⟨op, mask, hsrc, hnames, hlane, row, hrow, hbyte⟩
    have hnull : op.rel_op1 = .null := by
      by_contra hne
      exact h op mask hsrc ⟨hnames, hne⟩
    unfold MayName at hrow
    rw [if_pos hnull] at hrow
    exact ⟨row, ⟨op, mask, hsrc, hnames, hnull, hrow, hlane⟩, hbyte⟩
  · rintro ⟨row, ⟨op, mask, hsrc, hnames, hnull, hrow, hlane⟩, hbyte⟩
    refine ⟨op, mask, hsrc, hnames, hlane, row, ?_, hbyte⟩
    unfold MayName
    rwa [if_pos hnull]

lemma project_program_spec (program : USILDeclaredProgram) (register size : UInt32)
    (ranges : List DXBCCBufferVariableRange) (s : State) :
    Projected ranges (instructionReads register size program program.instructions)
      (InstructionDynamic register program program.instructions) s
      (dxbc_cbuffer_project_program program register size ranges s) := by
  unfold dxbc_cbuffer_project_program
  by_cases hvalid : validate_ranges size ranges = true
  swap
  · rw [if_pos hvalid]
    exact projected_invalid ..
  rw [if_neg (not_not.mpr hvalid)]
  have hstart : Projected ranges ∅ False s (.exact, s) := ⟨fun _ => adds_empty rfl rfl, fun _ => id⟩
  refine (project_instructions_spec hvalid hstart).congr ?_ .inr
  rw [Set.empty_union]

lemma getElem?_reset {v : ℕ} (h : ranges[v]? = some range) :
    (dxbc_cbuffer_projection_reset ranges.length).uses[v]? = some ⟨false, false, 0⟩ := by
  unfold dxbc_cbuffer_projection_reset
  rw [getElem?_replicate, if_pos (List.getElem?_eq_some_iff.mp h).1]

lemma Adds.of_reset {reads : Set (ℕ × ℕ)} {s : State}
    (h : Adds ranges reads (dxbc_cbuffer_projection_reset ranges.length) s) :
    (∀ (v : ℕ) range, ranges[v]? = some range → ∃ use, s.uses[v]? = some use ∧
      (use.referenced = true ↔ ∃ byte lane, (byte, lane) ∈ reads ∧ range.Contains byte) ∧
      ∀ lane, (use.component_mask.testBit lane = true ↔
        ∃ byte, (byte, lane) ∈ reads ∧ range.Contains byte)) ∧
    (s.projection.saw_padding_access = true ↔
      ∃ byte lane, (byte, lane) ∈ reads ∧ ∀ range ∈ ranges, ¬ range.Contains byte) := by
  constructor
  · intro v range hrange
    have hreset := getElem?_reset hrange
    have hlt : v < s.uses.length := by
      rw [h.length]
      exact (List.getElem?_eq_some_iff.mp hreset).1
    refine ⟨s.uses[v], getElem?_eq_getElem hlt, ?_, ?_⟩
    · rw [h.referenced v range _ _ hrange hreset (getElem?_eq_getElem hlt)]
      simp
    · intro lane
      rw [h.mask v range _ _ hrange hreset (getElem?_eq_getElem hlt) lane]
      simp
  · rw [h.padding]
    simp [dxbc_cbuffer_projection_reset]

end CBuffer

/-- **A projection marks what the program reads.** An exact one has met no dynamic index, marks
exactly the variables and lanes that the program statically reads, and reports padding exactly
where a lane is read that is in no variable. One that asks for index authority marks at least
what is read for every row that a dynamic index may name. -/
theorem dxbc_cbuffer_project_program_spec (program : USILDeclaredProgram)
    (register size : UInt32) (ranges : List DXBCCBufferVariableRange) :
    let result := dxbc_cbuffer_project_program program register size ranges
      (dxbc_cbuffer_projection_reset ranges.length)
    (result.1 = .exact → (∀ op mask, SourceOperand program op mask → ¬ Dynamic register op) ∧
      (∀ (v : ℕ) range, ranges[v]? = some range → ∃ use, result.2.uses[v]? = some use ∧
        (use.referenced = true ↔ ∃ row lane, StaticallyReads program register row lane ∧
          range.Contains (row * 16 + lane * 4)) ∧
        ∀ lane, (use.component_mask.testBit lane = true ↔
          ∃ row, StaticallyReads program register row lane ∧
            range.Contains (row * 16 + lane * 4))) ∧
      (result.2.projection.saw_padding_access = true ↔
        ∃ row lane, StaticallyReads program register row lane ∧
          ∀ range ∈ ranges, ¬ range.Contains (row * 16 + lane * 4))) ∧
    (result.1 = .requiresIndexAuthority →
      ∀ op mask row lane, SourceOperand program op mask → Names register op →
        MayName size op row → ReadsLane op mask lane →
          ∀ (v : ℕ) range, ranges[v]? = some range → range.Contains (row * 16 + lane * 4) →
            ∃ use, result.2.uses[v]? = some use ∧ use.referenced = true ∧
              use.component_mask.testBit lane = true) := by
  dsimp only
  have hspec := project_program_spec program register size ranges
    (dxbc_cbuffer_projection_reset ranges.length)
  constructor
  · intro hexact
    have hstatic : ∀ op mask, SourceOperand program op mask → ¬ Dynamic register op :=
      fun op mask hsource hdynamic =>
        hspec.static hexact (instructionDynamic_of_source hsource hdynamic)
    obtain ⟨huses, hpadding⟩ := (hspec.adds (by rw [hexact]; simp)).of_reset
    refine ⟨hstatic, ?_, ?_⟩
    · intro v range hrange
      obtain ⟨use, huse, hreferenced, hmask⟩ := huses v range hrange
      refine ⟨use, huse, ?_, ?_⟩
      · rw [hreferenced]
        constructor
        · rintro ⟨byte, lane, hread, hcontains⟩
          obtain ⟨row, hrow, rfl⟩ := (mem_instructionReads_of_static hstatic byte lane).mp hread
          exact ⟨row, lane, hrow, hcontains⟩
        · rintro ⟨row, lane, hrow, hcontains⟩
          exact ⟨_, lane, (mem_instructionReads_of_static hstatic _ lane).mpr ⟨row, hrow, rfl⟩,
            hcontains⟩
      · intro lane
        rw [hmask]
        constructor
        · rintro ⟨byte, hread, hcontains⟩
          obtain ⟨row, hrow, rfl⟩ := (mem_instructionReads_of_static hstatic byte lane).mp hread
          exact ⟨row, hrow, hcontains⟩
        · rintro ⟨row, hrow, hcontains⟩
          exact ⟨_, (mem_instructionReads_of_static hstatic _ lane).mpr ⟨row, hrow, rfl⟩, hcontains⟩
    · rw [hpadding]
      constructor
      · rintro ⟨byte, lane, hread, hnone⟩
        obtain ⟨row, hrow, rfl⟩ := (mem_instructionReads_of_static hstatic byte lane).mp hread
        exact ⟨row, lane, hrow, hnone⟩
      · rintro ⟨row, lane, hrow, hnone⟩
        exact ⟨_, lane, (mem_instructionReads_of_static hstatic _ lane).mpr ⟨row, hrow, rfl⟩, hnone⟩
  · intro hstatus op mask row lane hsource hnames hrow hlane v range hrange hcontains
    obtain ⟨huses, -⟩ := (hspec.adds (by rw [hstatus]; simp)).of_reset
    obtain ⟨use, huse, hreferenced, hmask⟩ := huses v range hrange
    have hread : (row * 16 + lane * 4, lane) ∈
        instructionReads register size program program.instructions :=
      mem_instructionReads_iff.mpr ⟨op, mask, hsource, hnames, hlane, row, hrow, rfl⟩
    exact ⟨use, huse, hreferenced.mpr ⟨_, lane, hread, hcontains⟩,
      (hmask lane).mpr ⟨_, hread, hcontains⟩⟩

/-- `mov r0.xy, cb0[1].xzzz`, the row relative to an operand if there is one. -/
def sampleMove (rel_op1 : OperandRef) : USILInstruction :=
  { USILInstruction.zeroed with
    opcode := .MOV
    operands :=
      [{ DXBCOperand.zeroed with destination_mask := 48 },
        { DXBCOperand.zeroed with
          type := .constantBuffer
          register_index_dim := 2
          swizzle_mode := 1
          swizzle := ⟨0, 2, 2, 2⟩
          index_values := ⟨0, 1, 0⟩
          index_representations := ⟨0, if rel_op1 = .null then 0 else 3, 0⟩
          index_has_immediate := ⟨true, true, false⟩
          rel_offset0 := 1
          rel_op1 := rel_op1 }] }

def sampleMoveProgram (rel_op1 : OperandRef) : USILDeclaredProgram where
  instructions := [sampleMove rel_op1]
  temp_count := 1
  count_le := Nat.le_of_ble_eq_true rfl
  has_stage_contract := false
  program_type := .pixel
  shader_model_major := 5
  shader_model_minor := 0
  cbuffers := []
  textures := []
  uavs := []
  signature_declarations := []
  compute_valid := false
  shared_memory := []

theorem dxbc_cbuffer_project_program_move :
    (∃ use, (dxbc_cbuffer_project_program (sampleMoveProgram .null) 0 32 [⟨16, 8⟩]
        (dxbc_cbuffer_projection_reset 1)).2.uses[0]? = some use ∧
      (use.component_mask.testBit 2 = true ↔
        ∃ row, StaticallyReads (sampleMoveProgram .null) 0 row 2 ∧
          (⟨16, 8⟩ : DXBCCBufferVariableRange).Contains (row * 16 + 2 * 4))) ∧
    ∃ use, (dxbc_cbuffer_project_program (sampleMoveProgram DXBCOperand.zeroed.ref) 0 32
        [⟨0, 32⟩] (dxbc_cbuffer_projection_reset 1)).2.uses[0]? = some use ∧
      use.referenced = true ∧ use.component_mask.testBit 2 = true := by
  constructor
  · obtain ⟨-, huses, -⟩ := (dxbc_cbuffer_project_program_spec (sampleMoveProgram .null) 0 32
      [⟨16, 8⟩]).1 (by decide)
    obtain ⟨use, huse, -, hmask⟩ := huses 0 _ rfl
    exact ⟨use, huse, hmask 2⟩
  · have huse : usil_instruction_operand_use (sampleMoveProgram DXBCOperand.zeroed.ref)
        (sampleMove DXBCOperand.zeroed.ref) 1 = some ⟨.source, 3⟩ := by decide
    have hsource := SourceOperand.top mem_cons_self rfl huse
    exact (dxbc_cbuffer_project_program_spec (sampleMoveProgram DXBCOperand.zeroed.ref) 0 32
      [⟨0, 32⟩]).2 (by decide) _ 3 0 2 hsource ⟨rfl, rfl⟩ (by unfold MayName; decide)
      ⟨1, by decide, by decide⟩ 0 _ rfl (by decide)

end DXBCSandbox
