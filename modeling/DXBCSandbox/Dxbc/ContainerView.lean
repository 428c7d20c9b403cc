/-
Where a container view points (`src/dxbc/dxbc_container.c`).

A view is what the source writes, a pointer into the buffer and a size, and every helper writes
the caller's view itself. The buffer and the output view are not null.

The helper for Unity programs writes the view before it compares sizes, and nothing clears the
view afterwards. So a program whose container ends before the buffer does is refused with the
view still pointing at the container; `dxbc_container_view_first_contract_iff` says that this is
the only way in which a refused buffer leaves a view.
-/
import DXBCSandbox.Dxbc.Parser
import DXBCSandbox.Words

namespace DXBCSandbox

open Option

namespace ContainerView

/-! ## What a view has to be -/

/-- A complete container: its magic, and its own size as the declared size. -/
structure IsContainer (bytes : Bytes) : Prop where
  magic : bytes.take 4 = asciiBytes "DXBC"
  header : 32 ≤ bytes.length
  declared : (wordAt bytes 24).toNat = bytes.length

/-- The three placements: the start of the buffer, behind the fixed prefix of a Unity program,
or behind the name and the two sizes of the first record of a table. -/
def Placed (data : Bytes) (offset : ℕ) : Prop :=
  offset = 0 ∨ (offset = 38 ∧ data.headD 0 = 2) ∨
    (data.take 4 = asciiBytes "USBD" ∧ offset = 8 + 4 + (wordAt data 8).toNat + 4)

def ShowsContainer (data : Bytes) (view : DXBCContainerView) : Prop :=
  ∃ offset, view.data = some offset ∧ offset + view.size ≤ data.length ∧ Placed data offset ∧
    IsContainer (slice data offset view.size)

/-- What the caller is promised: a container on success, `(NULL, 0)` on failure. -/
def ViewContract (rt : UnityCommon) (data : Bytes) (out_view : DXBCContainerView) : Prop :=
  match dxbc_container_view_first rt data out_view with
  | (true, view) => ShowsContainer data view
  | (false, view) => view = null_view

/-- A Unity program whose container ends before the buffer does. -/
structure ShortProgram (data : Bytes) : Prop where
  version : data.headD 0 = 2
  header : 70 ≤ data.length
  magic : slice data 38 4 = asciiBytes "DXBC"
  declared_ge : 32 ≤ (wordAt data (38 + 24)).toNat
  declared_lt : (wordAt data (38 + 24)).toNat < data.length - 38

/-! ## Reading a raw container -/

def StartsContainer (data : Bytes) (offset size : ℕ) : Prop :=
  32 ≤ size ∧ slice data offset 4 = asciiBytes "DXBC" ∧
    32 ≤ (wordAt data (offset + 24)).toNat ∧ (wordAt data (offset + 24)).toNat ≤ size

instance (data : Bytes) (offset size : ℕ) : Decidable (StartsContainer data offset size) :=
  inferInstanceAs (Decidable (_ ∧ _))

section

variable {rt : UnityCommon} {data : Bytes} {offset size : ℕ} {out_view view : DXBCContainerView}

/-- **A raw view is all or nothing**: it is written exactly when a container starts there. -/
theorem raw_dxbc_view_eq (hin : offset + size ≤ data.length) :
    raw_dxbc_view rt data offset size out_view =
      if StartsContainer data offset size then
        (true, ⟨some offset, (wordAt data (offset + 24)).toNat⟩)
      else (false, out_view) := by
  unfold raw_dxbc_view
  by_cases hsize : size < 32
  · rw [if_pos (.inl hsize), if_neg (fun h => by have := h.1; omega)]
  rw [take_slice data offset (show 4 ≤ size by omega)]
  by_cases hmagic : slice data offset 4 = asciiBytes "DXBC"
  · have hread : read_le_u32_at rt (slice data offset size) 24 =
        some (wordAt data (offset + 24)).toNat := by
      rw [read_le_u32_at, length_slice hin, if_neg (by omega), read_u32_le_eq,
        wordAt_slice data offset (by omega)]
    rw [if_neg (by simp [hsize, hmagic]), hread]
    dsimp only
    by_cases htotal : (wordAt data (offset + 24)).toNat < 32 ∨
        size < (wordAt data (offset + 24)).toNat
    · rw [if_pos htotal, if_neg]
      rintro ⟨-, -, hge, hle⟩
      omega
    · rw [if_neg htotal, if_pos]
      exact ⟨by omega, hmagic, by omega, by omega⟩
  · rw [if_pos (.inr hmagic), if_neg (fun h => hmagic h.2.1)]

lemma StartsContainer.isContainer (h : StartsContainer data offset size)
    (hin : offset + size ≤ data.length) :
    IsContainer (slice data offset (wordAt data (offset + 24)).toNat) := by
  obtain ⟨-, hmagic, hge, hle⟩ := h
  have hlen : (slice data offset (wordAt data (offset + 24)).toNat).length =
      (wordAt data (offset + 24)).toNat := length_slice (by omega)
  refine ⟨?_, by omega, ?_⟩
  · rw [take_slice data offset (by omega), hmagic]
  · rw [wordAt_slice data offset (by omega), hlen]

lemma StartsContainer.shows (h : StartsContainer data offset size)
    (hin : offset + size ≤ data.length) (hpl : Placed data offset) :
    ShowsContainer data ⟨some offset, (wordAt data (offset + 24)).toNat⟩ := by
  refine ⟨offset, rfl, ?_, hpl, h.isContainer hin⟩
  have hle := h.2.2.2
  dsimp only
  omega

/-! ## The first record of a table -/

lemma read_le_u32_at_eq_some {n : ℕ} (h : read_le_u32_at rt data offset = some n) :
    offset + 4 ≤ data.length ∧ n = (wordAt data offset).toNat := by
  unfold read_le_u32_at at h
  split at h
  · nomatch h
  · rw [read_u32_le_eq] at h
    exact ⟨by omega, (some.inj h).symm⟩

/-- The container of a record stands behind its name and the two sizes. -/
theorem usbd_record_shows {offset' : ℕ} (h : usbd_record rt data offset = some (view, offset'))
    (hpl : Placed data (offset + 4 + (wordAt data offset).toNat + 4)) :
    ShowsContainer data view := by
  unfold usbd_record at h
  obtain ⟨name_length, hname, h⟩ := bind_eq_some_iff.mp h
  obtain ⟨_, -, h⟩ := bind_eq_some_iff.mp h
  obtain ⟨payload_length, hpay, h⟩ := bind_eq_some_iff.mp h
  obtain ⟨_, hfits, h⟩ := bind_eq_some_iff.mp h
  obtain ⟨_, hfound, h⟩ := bind_eq_some_iff.mp h
  have hname' := (read_le_u32_at_eq_some hname).2
  have hroom := (read_le_u32_at_eq_some hpay).1
  have hle : payload_length ≤ data.length - (offset + 4 + name_length + 4) :=
    (guard_eq_some' _).mp hfits
  have hin : offset + 4 + name_length + 4 + payload_length ≤ data.length := by omega
  have hview : view = (raw_dxbc_view rt data (offset + 4 + name_length + 4) payload_length
      null_view).2 := (congrArg Prod.fst (some.inj h)).symm
  have htrue : (raw_dxbc_view rt data (offset + 4 + name_length + 4) payload_length
      null_view).1 = true := ((guard_eq_some' _).mp hfound).1
  rw [← hname'] at hpl
  rw [raw_dxbc_view_eq hin] at hview htrue
  by_cases hstarts : StartsContainer data (offset + 4 + name_length + 4) payload_length
  · rw [if_pos hstarts] at hview
    rw [hview]
    exact hstarts.shows hin hpl
  · rw [if_neg hstarts] at htrue
    nomatch htrue

lemma usbd_records_first {turns i offset' : ℕ} {first : DXBCContainerView} (hi : i ≠ 0)
    (h : usbd_records rt data turns i offset first = some (view, offset')) : view = first := by
  induction turns generalizing i offset with
  | zero => exact (congrArg Prod.fst (some.inj h)).symm
  | succ turns ih =>
    rw [usbd_records] at h
    obtain ⟨⟨record, next⟩, -, h⟩ := bind_eq_some_iff.mp h
    dsimp only at h
    rw [if_neg hi] at h
    exact ih (Nat.succ_ne_zero i) h

lemma usbd_first_shows (h : usbd_first rt data = some view) :
    data.take 4 = asciiBytes "USBD" ∧ ShowsContainer data view := by
  unfold usbd_first at h
  obtain ⟨_, hmagic, h⟩ := bind_eq_some_iff.mp h
  obtain ⟨record_count, _, h⟩ := bind_eq_some_iff.mp h
  obtain ⟨_, hcnt, h⟩ := bind_eq_some_iff.mp h
  obtain ⟨⟨first, offset⟩, hrecs, h⟩ := bind_eq_some_iff.mp h
  obtain ⟨_, -, h⟩ := bind_eq_some_iff.mp h
  have hview : view = first := (some.inj h).symm
  have husbd : data.take 4 = asciiBytes "USBD" := ((guard_eq_some' _).mp hmagic).2
  have hpos : record_count ≠ 0 := ((guard_eq_some' _).mp hcnt).1
  obtain ⟨turns, rfl⟩ := Nat.exists_eq_succ_of_ne_zero hpos
  rw [Nat.succ_eq_add_one, usbd_records] at hrecs
  obtain ⟨⟨record, next⟩, hrec, hrecs⟩ := bind_eq_some_iff.mp hrecs
  have hfst : first = record := usbd_records_first (Nat.succ_ne_zero 0) hrecs
  rw [hview, hfst]
  exact ⟨husbd, usbd_record_shows hrec (.inr (.inr ⟨husbd, rfl⟩))⟩

/-! ## The three placements -/

/-- A buffer that starts with the bytes of a name starts with the first of them. -/
theorem headD_of_take {name : Bytes} {c : UInt8} (h : data.take 4 = c :: name) :
    data.headD 0 = c := by
  cases data with
  | nil => nomatch h
  | cons d data => exact (List.cons.inj h).1

lemma not_startsContainer_of_version (h : data.headD 0 = 2) (size : ℕ) :
    ¬ StartsContainer data 0 size := by
  intro hstarts
  have hhead : data.headD 0 = _ := headD_of_take hstarts.2.1
  rw [h] at hhead
  exact absurd hhead (by decide)

lemma usbd_first_of_version (h : data.headD 0 = 2) : usbd_first rt data = none := by
  cases hfst : usbd_first rt data with
  | none => rfl
  | some view =>
    have hhead := headD_of_take (usbd_first_shows hfst).1
    rw [h] at hhead
    exact absurd hhead (by decide)

/-- A table, or nothing: the view the table reader is given stays when it fails. -/
theorem usbd_view_first_cases (rt : UnityCommon) (data : Bytes) (out_view : DXBCContainerView) :
    (∃ view, usbd_view_first rt data out_view = (true, view) ∧ ShowsContainer data view) ∨
      usbd_view_first rt data out_view = (false, out_view) := by
  unfold usbd_view_first
  cases hfst : usbd_first rt data with
  | none => exact .inr rfl
  | some view => exact .inl ⟨view, rfl, (usbd_first_shows hfst).2⟩

/-- A program is refused without a trace, or accepted, or refused after the view was written. -/
theorem unity_program_view_cases (rt : UnityCommon) (data : Bytes) :
    (∃ view, unity_program_view rt data null_view = (true, view) ∧ ShowsContainer data view ∧
        ¬ ShortProgram data) ∨
      (unity_program_view rt data null_view = (false, null_view) ∧ ¬ ShortProgram data) ∨
      (unity_program_view rt data null_view = (false, ⟨some 38, (wordAt data (38 + 24)).toNat⟩) ∧
        ShortProgram data) := by
  unfold unity_program_view
  by_cases hpre : data.length ≤ 38 ∨ data.headD 0 ≠ 2
  · rw [if_pos hpre]
    refine .inr (.inl ⟨rfl, fun hshort => ?_⟩)
    have hlen := hshort.header
    rcases hpre with h | h
    · omega
    · exact h hshort.version
  rw [if_neg hpre, raw_dxbc_view_eq (by omega)]
  obtain ⟨hlen, hver⟩ := not_or.mp hpre
  rw [not_not] at hver
  by_cases hstarts : StartsContainer data 38 (data.length - 38)
  · rw [if_pos hstarts]
    by_cases hfills : (wordAt data (38 + 24)).toNat = data.length - 38
    · refine .inl ⟨_, Prod.ext (decide_eq_true hfills) rfl, ?_, fun hshort => ?_⟩
      · exact hstarts.shows (by omega) (.inr (.inl ⟨rfl, hver⟩))
      · exact absurd hfills (Nat.ne_of_lt hshort.declared_lt)
    · obtain ⟨hhdr, hmagic, hge, hle⟩ := hstarts
      refine .inr (.inr ⟨Prod.ext (decide_eq_false hfills) rfl, ?_⟩)
      exact ⟨hver, by omega, hmagic, hge, by omega⟩
  · rw [if_neg hstarts]
    refine .inr (.inl ⟨rfl, fun hshort => hstarts ?_⟩)
    have hhdr := hshort.header
    have hlt := hshort.declared_lt
    exact ⟨by omega, hshort.magic, hshort.declared_ge, Nat.le_of_lt hlt⟩

/-- **When the view keeps its contract.** A buffer that is accepted is shown as a complete
container at one of the three placements, inside the buffer; a buffer that is refused leaves
`(NULL, 0)`, unless it is a Unity program whose container ends early. -/
theorem dxbc_container_view_first_contract_iff (rt : UnityCommon) (data : Bytes)
    (out_view : DXBCContainerView) :
    ViewContract rt data out_view ↔ ¬ ShortProgram data := by
  unfold ViewContract dxbc_container_view_first
  rw [raw_dxbc_view_eq (Nat.le_of_eq (Nat.zero_add _))]
  by_cases hraw : StartsContainer data 0 data.length
  · rw [if_pos hraw]
    refine iff_of_true ?_ fun hshort =>
      not_startsContainer_of_version hshort.version _ hraw
    exact hraw.shows (Nat.le_of_eq (Nat.zero_add _)) (.inl rfl)
  rw [if_neg hraw]
  dsimp only
  rcases unity_program_view_cases rt data with
    ⟨view, hunity, hshows, hshort⟩ | ⟨hunity, hshort⟩ | ⟨hunity, hshort⟩
  · rw [hunity]
    exact iff_of_true hshows hshort
  · rw [hunity]
    refine iff_of_true ?_ hshort
    dsimp only
    rcases usbd_view_first_cases rt data null_view with ⟨view, husbd, hshows⟩ | husbd
    · rw [husbd]
      exact hshows
    · rw [husbd]
  · rw [hunity]
    refine iff_of_false (fun h => ?_) (not_not_intro hshort)
    dsimp only at h
    rw [usbd_view_first, usbd_first_of_version hshort.version] at h
    nomatch h

/-- A program with a container of 32 bytes and one byte behind it. -/
def shortProgram : Bytes :=
  2 :: List.replicate 37 0 ++ (asciiBytes "DXBC" ++ List.replicate 20 0 ++ [32, 0, 0, 0] ++
    List.replicate 4 0) ++ [0]

/-- The program is refused, and the view points at its container. -/
theorem short_program_leaves_view :
    ¬ ViewContract UnityCommon.reference shortProgram null_view := by
  intro h
  have hrun : dxbc_container_view_first UnityCommon.reference shortProgram null_view =
      (false, ⟨some 38, 32⟩) := by decide +kernel
  unfold ViewContract at h
  rw [hrun] at h
  exact absurd h (by decide)

end

end ContainerView

end DXBCSandbox
