/-
`USBD` tables are read back as they were written, and written back as they were read.

The bytes of a record are fixed by the record. Each of the walkers consumes exactly these
bytes: the validator, the record accessor and the container finder. The encoder produces
them.
-/
import DXBCSandbox.Dxbc.DocumentSpec
import DXBCSandbox.Dxbc.UsbdName

namespace DXBCSandbox

open List Checks

open ContainerView hiding dxbc_container_view_first

/-! ## Records -/

lemma write_u32_le_eq {n : ℕ} (h : n ≤ UINT32_MAX) :
    write_u32_le (UInt32.ofNat n) = leBytes 4 n := by
  unfold UINT32_MAX at h
  have hbytes := le32Bytes_eq (UInt32.ofNat n)
  rw [ofNat_toNat (by omega)] at hbytes
  exact hbytes

def recordBytes (record : DXBCUSBDRecordView) : Bytes :=
  leBytes 4 record.name.length ++ (record.name ++ (leBytes 4 record.dxbc.length ++ record.dxbc))

def tableBytes (records : List DXBCUSBDRecordView) : Bytes :=
  asciiBytes "USBD" ++ (leBytes 4 records.length ++ records.flatMap recordBytes)

@[simp] lemma length_recordBytes (record : DXBCUSBDRecordView) :
    (recordBytes record).length = 8 + record.name.length + record.dxbc.length := by
  simp only [recordBytes, length_append, length_leBytes]
  omega

structure ValidRecord (rt : UnityCommon) (record : DXBCUSBDRecordView) : Prop where
  name_le : record.name.length ≤ UINT32_MAX
  name : valid_utf8_name record.name = true
  dxbc_le : record.dxbc.length ≤ UINT32_MAX
  dxbc : valid_raw_dxbc rt record.dxbc = true

section Codec

variable {rt : UnityCommon} {sizes : SizeChecks} {record : DXBCUSBDRecordView}
  {records : List DXBCUSBDRecordView} {bytes : Bytes}

lemma valid_utf8_name_pos (h : valid_utf8_name bytes = true) : 0 < bytes.length := by
  unfold valid_utf8_name at h
  split_ifs at h with hempty
  omega

/-- **Payloads are the containers that parse as a document.** -/
theorem valid_raw_dxbc_iff :
    valid_raw_dxbc rt bytes = true ↔ ∃ document, parse_document rt bytes = .ok document := by
  unfold valid_raw_dxbc dxbc_document_parse
  constructor
  · intro h
    split at h
    · cases h
    · split_ifs at h
      cases hparse : parse_document rt bytes with
      | ok document => exact ⟨document, rfl⟩
      | error d => exact absurd h (by simp [hparse])
  · rintro ⟨document, hparse⟩
    obtain ⟨hmagic, hlen, hdeclared⟩ := (parse_document_wf hparse).header
    simp [dxbc_container_view_first_self hmagic hlen hdeclared, hparse]

lemma ValidRecord.view (h : ValidRecord rt record) {offset : ℕ} {out_view : DXBCContainerView}
    (hslice : slice bytes offset record.dxbc.length = record.dxbc) :
    raw_dxbc_view rt bytes offset record.dxbc.length out_view =
      (true, ⟨some offset, record.dxbc.length⟩) := by
  obtain ⟨document, hparse⟩ := valid_raw_dxbc_iff.mp h.dxbc
  obtain ⟨hmagic, hlen, hdeclared⟩ := (parse_document_wf hparse).header
  exact raw_dxbc_view_slice hslice rfl hmagic hlen hdeclared

/-! ## Reading one record -/

variable (pre post : Bytes)

/-- The words and the parts of a buffer that has the bytes of a record behind `pre`. -/
theorem record_parts (h : ValidRecord rt record)
    (hbytes : bytes = pre ++ (recordBytes record ++ post)) :
    (wordAt bytes pre.length).toNat = record.name.length ∧
      slice bytes (pre.length + 4) record.name.length = record.name ∧
      (wordAt bytes (pre.length + 4 + record.name.length)).toNat = record.dxbc.length ∧
      slice bytes (pre.length + 4 + record.name.length + 4) record.dxbc.length = record.dxbc ∧
      bytes.length = pre.length + (8 + record.name.length + record.dxbc.length) + post.length := by
  have hname := h.name_le
  have hdxbc := h.dxbc_le
  unfold UINT32_MAX at hname hdxbc
  subst hbytes
  refine ⟨?_, ?_, ?_, ?_, ?_⟩
  · simp only [recordBytes, append_assoc]
    exact wordAt_append pre _ (by omega) rfl
  · rw [show pre ++ (recordBytes record ++ post) = (pre ++ leBytes 4 record.name.length) ++
        (record.name ++ (leBytes 4 record.dxbc.length ++ record.dxbc ++ post)) by
      simp only [recordBytes, append_assoc]]
    exact slice_middle _ _ _ (by simp) rfl
  · rw [show pre ++ (recordBytes record ++ post) =
        (pre ++ leBytes 4 record.name.length ++ record.name) ++
          (leBytes 4 record.dxbc.length ++ (record.dxbc ++ post)) by
      simp only [recordBytes, append_assoc]]
    exact wordAt_append _ _ (by omega) (by simp; omega)
  · rw [show pre ++ (recordBytes record ++ post) =
        (pre ++ leBytes 4 record.name.length ++ record.name ++ leBytes 4 record.dxbc.length) ++
          (record.dxbc ++ post) by
      simp only [recordBytes, append_assoc]]
    exact slice_middle _ _ _ (by simp; omega) rfl
  · simp only [length_append, length_recordBytes]
    omega

lemma parse_record_append (h : ValidRecord rt record) (index : ℕ) :
    parse_record rt (pre ++ (recordBytes record ++ post)) pre.length index =
      .ok (record, pre.length + (recordBytes record).length) := by
  obtain ⟨hword, hname, hword', hdxbc, hlen⟩ := record_parts pre post h rfl
  have hpos := valid_utf8_name_pos h.name
  unfold parse_record
  simp only [hword, hname, hword', hdxbc]
  rw [failWhen_bind_eq_ok]
  refine ⟨by omega, ?_⟩
  rw [failWhen_bind_eq_ok]
  refine ⟨by simp only [h.name, Bool.true_eq_false, or_false]; omega, ?_⟩
  rw [failWhen_bind_eq_ok]
  refine ⟨by omega, ?_⟩
  rw [failWhen_bind_eq_ok]
  refine ⟨by omega, ?_⟩
  rw [failWhen_bind_eq_ok]
  refine ⟨by simp only [h.dxbc]; decide, ?_⟩
  rw [pure_eq_ok, length_recordBytes]
  congr 1
  omega

variable {index : ℕ}

lemma parse_record_ok {start next : ℕ}
    (h : parse_record rt bytes start index = .ok (record, next)) :
    ValidRecord rt record ∧ next = start + (recordBytes record).length ∧ start ≤ bytes.length ∧
      bytes.drop start = recordBytes record ++ bytes.drop next := by
  unfold parse_record at h
  simp only [failWhen_bind_eq_ok] at h
  obtain ⟨hstart, hname, hword, hsize, hdxbc, h⟩ := h
  have h := pure_eq_ok.mp h
  simp only [Prod.mk.injEq] at h
  obtain ⟨rfl, rfl⟩ := h
  have hw := (wordAt bytes start).toNat_lt
  have hw' := (wordAt bytes (start + 4 + (wordAt bytes start).toNat)).toNat_lt
  have hb := leBytes_wordAt bytes start (by omega)
  have hb' := leBytes_wordAt bytes (start + 4 + (wordAt bytes start).toNat) (by omega)
  generalize hn : (wordAt bytes start).toNat = n at *
  generalize hm : (wordAt bytes (start + 4 + n)).toNat = m at *
  simp only [not_or, Bool.not_eq_false] at hname hdxbc
  have hlen : (slice bytes (start + 4) n).length = n := length_slice (by omega)
  have hlen' : (slice bytes (start + 4 + n + 4) m).length = m := length_slice (by omega)
  refine ⟨⟨?_, hname.2.2, ?_, hdxbc⟩, ?_, by omega, ?_⟩
  · simp only [hlen, UINT32_MAX]
    omega
  · simp only [hlen', UINT32_MAX]
    omega
  · simp only [length_recordBytes, hlen, hlen']
    omega
  · simp only [recordBytes, hlen, hlen', hb, hb', append_assoc]
    rw [drop_eq_slice_append bytes start 4, drop_eq_slice_append bytes (start + 4) n,
      drop_eq_slice_append bytes (start + 4 + n) 4,
      drop_eq_slice_append bytes (start + 4 + n + 4) m]

/-! ## Reading a table -/

variable (h : ∀ r ∈ records, ValidRecord rt r)

include h

lemma parse_records_append (index : ℕ) :
    parse_records rt (pre ++ (records.flatMap recordBytes ++ post)) records.length index
      pre.length = .ok (pre.length + (records.flatMap recordBytes).length) := by
  induction records generalizing pre index with
  | nil => rfl
  | cons r rs ih =>
    have hr := h r mem_cons_self
    have hrs := fun r' hr' => h r' (mem_cons_of_mem _ hr')
    rw [flatMap_cons, append_assoc, length_cons, parse_records, parse_record_append pre _ hr index]
    have hrest := ih (pre ++ recordBytes r) hrs (index + 1)
    rw [append_assoc, length_append] at hrest
    rw [length_append, ← Nat.add_assoc]
    exact hrest

omit h in
lemma parse_records_ok {n start stop : ℕ} (h : parse_records rt bytes n index start = .ok stop) :
    ∃ records : List DXBCUSBDRecordView, records.length = n ∧ (∀ r ∈ records, ValidRecord rt r) ∧
      stop = start + (records.flatMap recordBytes).length ∧
      bytes.drop start = records.flatMap recordBytes ++ bytes.drop stop := by
  induction n generalizing index start with
  | zero =>
    have h := pure_eq_ok.mp h
    exact ⟨[], rfl, nofun, h.symm, by rw [h]; rfl⟩
  | succ n ih =>
    obtain ⟨⟨r, next⟩, hr, h⟩ := bind_eq_ok.mp h
    obtain ⟨hvalid, hnext, -, hdrop⟩ := parse_record_ok hr
    obtain ⟨rs, hlen, hrs, hstop, hdrop'⟩ := ih h
    refine ⟨r :: rs, by rw [length_cons, hlen], ?_, ?_, ?_⟩
    · intro r' hr'
      rcases mem_cons.mp hr' with rfl | hr'
      · exact hvalid
      · exact hrs r' hr'
    · rw [hstop, hnext, flatMap_cons, length_append]
      omega
    · rw [hdrop, hdrop', flatMap_cons, append_assoc]

lemma table_record_loop_append (n index : ℕ) (hn : records[n]? = some record) :
    table_record_loop rt (pre ++ (records.flatMap recordBytes ++ post)) n index pre.length =
      some record := by
  induction records generalizing pre n index with
  | nil => simp at hn
  | cons r rs ih =>
    have hr := h r mem_cons_self
    have hrs := fun r' hr' => h r' (mem_cons_of_mem _ hr')
    rw [flatMap_cons, append_assoc]
    cases n with
    | zero =>
      rw [getElem?_cons_zero] at hn
      rw [table_record_loop, parse_record_append pre _ hr index]
      exact hn
    | succ n =>
      rw [getElem?_cons_succ] at hn
      rw [table_record_loop, parse_record_append pre _ hr index]
      have hrest := ih (pre ++ recordBytes r) hrs n (index + 1) hn
      rw [append_assoc, length_append] at hrest
      exact hrest

/-! ## The first container -/

/-- The view of the payload of a record that begins at `start`. -/
def payloadView (start : ℕ) (record : DXBCUSBDRecordView) : DXBCContainerView :=
  ⟨some (start + 4 + record.name.length + 4), record.dxbc.length⟩

omit h in
lemma usbd_record_append (h : ValidRecord rt record) :
    usbd_record rt (pre ++ (recordBytes record ++ post)) pre.length =
      some (payloadView pre.length record, pre.length + (recordBytes record).length) := by
  obtain ⟨hword, -, hword', hdxbc, hlen⟩ := record_parts pre post h rfl
  have hpos := valid_utf8_name_pos h.name
  have hread : read_le_u32_at rt (pre ++ (recordBytes record ++ post)) pre.length =
      some record.name.length := by
    rw [read_le_u32_at, if_neg (by omega), read_u32_le_eq, hword]
  have hread' : read_le_u32_at rt (pre ++ (recordBytes record ++ post))
      (pre.length + 4 + record.name.length) = some record.dxbc.length := by
    rw [read_le_u32_at, if_neg (by omega), read_u32_le_eq, hword']
  unfold usbd_record
  simp only [hread, hread', h.view hdxbc, Option.bind_eq_bind, Option.bind_some, guard,
    length_recordBytes]
  rw [if_pos (by omega), if_pos (by omega), if_pos ⟨trivial, trivial⟩]
  simp only [Option.bind_some, Option.pure_def, Option.some.injEq, Prod.mk.injEq]
  exact ⟨rfl, by omega⟩

lemma usbd_records_append {i : ℕ} (hi : i ≠ 0) (first : DXBCContainerView) :
    usbd_records rt (pre ++ (records.flatMap recordBytes ++ post)) records.length i pre.length
      first = some (first, pre.length + (records.flatMap recordBytes).length) := by
  induction records generalizing pre i with
  | nil => rfl
  | cons r rs ih =>
    have hr := h r mem_cons_self
    have hrs := fun r' hr' => h r' (mem_cons_of_mem _ hr')
    rw [flatMap_cons, append_assoc, length_cons, usbd_records, usbd_record_append pre _ hr]
    have hrest := ih (pre ++ recordBytes r) hrs (Nat.succ_ne_zero i)
    rw [append_assoc, length_append] at hrest
    simp only [Option.bind_eq_bind, Option.bind_some, if_neg hi, hrest, length_append,
      Nat.add_assoc]

/-! ## Tables -/

omit h in
lemma length_asciiBytes_usbd : (asciiBytes "USBD").length = 4 := by decide

lemma nine_le_length : 9 * records.length ≤ (records.flatMap recordBytes).length := by
  induction records with
  | nil => exact Nat.zero_le _
  | cons r rs ih =>
    have hpos := valid_utf8_name_pos (h r mem_cons_self).name
    have hrest := ih fun r' hr' => h r' (mem_cons_of_mem _ hr')
    rw [flatMap_cons, length_append, length_cons, length_recordBytes]
    omega

omit h

lemma length_tableBytes (records : List DXBCUSBDRecordView) : (tableBytes records).length =
    8 + (records.flatMap recordBytes).length := by
  simp only [tableBytes, length_append, length_leBytes, length_asciiBytes_usbd]
  omega

lemma tableBytes_header (hle : records.length ≤ UINT32_MAX) :
    (tableBytes records).take 4 = asciiBytes "USBD" ∧
      (wordAt (tableBytes records) 4).toNat = records.length := by
  unfold UINT32_MAX at hle
  refine ⟨take_left' length_asciiBytes_usbd, ?_⟩
  exact wordAt_append _ _ (by omega) length_asciiBytes_usbd.symm

lemma tableBytes_eq : tableBytes records =
    (asciiBytes "USBD" ++ leBytes 4 records.length) ++ (records.flatMap recordBytes ++ []) := by
  simp only [tableBytes, append_assoc, append_nil]

lemma length_header (n : ℕ) : (asciiBytes "USBD" ++ leBytes 4 n).length = 8 := by
  rw [length_append, length_leBytes, length_asciiBytes_usbd]

/-- **The reader opens what is laid out as a table.** -/
theorem dxbc_usbd_table_open_tableBytes (hne : records ≠ []) (hle : records.length ≤ UINT32_MAX)
    (h : ∀ r ∈ records, ValidRecord rt r) :
    dxbc_usbd_table_open rt (tableBytes records) = .ok ⟨tableBytes records, records.length⟩ := by
  obtain ⟨hmagic, hcnt⟩ := tableBytes_header hle
  have hpos := length_pos_iff.mpr hne
  have hnine := nine_le_length h
  have hlen := length_tableBytes records
  have hrecs := parse_records_append (asciiBytes "USBD" ++ leBytes 4 records.length) [] h 0
  rw [← tableBytes_eq, length_header] at hrecs
  unfold dxbc_usbd_table_open DXBC_USBD_HEADER_SIZE
  simp only [hmagic, hcnt]
  rw [failWhen_bind_eq_ok]
  refine ⟨by simp only [ne_eq, not_true_eq_false, or_false]; omega, ?_⟩
  rw [failWhen_bind_eq_ok]
  refine ⟨by omega, ?_⟩
  rw [bind_eq_ok]
  refine ⟨_, hrecs, ?_⟩
  rw [failWhen_bind_eq_ok]
  exact ⟨by omega, rfl⟩

/-- **What the reader opens is laid out as a table.** -/
theorem dxbc_usbd_table_open_ok {table : DXBCUSBDTableView}
    (h : dxbc_usbd_table_open rt bytes = .ok table) :
    ∃ records : List DXBCUSBDRecordView, records ≠ [] ∧ records.length ≤ UINT32_MAX ∧
      (∀ r ∈ records, ValidRecord rt r) ∧ bytes = tableBytes records ∧
      table = ⟨bytes, records.length⟩ := by
  unfold dxbc_usbd_table_open DXBC_USBD_HEADER_SIZE at h
  obtain ⟨hmagic, h⟩ := failWhen_bind_eq_ok.mp h
  obtain ⟨hcnt, h⟩ := failWhen_bind_eq_ok.mp h
  obtain ⟨stop, hstop, h⟩ := bind_eq_ok.mp h
  obtain ⟨htrailing, h⟩ := failWhen_bind_eq_ok.mp h
  have htable := pure_eq_ok.mp h
  obtain ⟨records, hlen, hvalid, -, hdrop⟩ := parse_records_ok hstop
  simp only [not_or, not_not] at hmagic htrailing
  have hlt := (wordAt bytes 4).toNat_lt
  have hword := leBytes_wordAt bytes 4 (by omega)
  refine ⟨records, ?_, by unfold UINT32_MAX; omega, hvalid, ?_, by rw [← htable, hlen]⟩
  · rintro rfl
    rw [length_nil] at hlen
    omega
  · rw [htrailing, drop_length, append_nil] at hdrop
    rw [tableBytes, hlen, hword, ← hdrop, ← hmagic.2, slice,
      ← show (bytes.drop 4).drop 4 = bytes.drop 8 by rw [drop_drop], take_append_drop,
      take_append_drop]

include h in
/-- **The accessor returns the records of a table.** -/
theorem dxbc_usbd_table_record_tableBytes (i : ℕ) :
    dxbc_usbd_table_record rt ⟨tableBytes records, records.length⟩ i = records[i]? := by
  unfold dxbc_usbd_table_record DXBC_USBD_HEADER_SIZE
  by_cases hi : records.length ≤ i
  · rw [if_pos hi, getElem?_eq_none hi]
  · rw [if_neg hi]
    have hget := getElem?_eq_getElem (l := records) (i := i) (by omega)
    have hloop := table_record_loop_append (asciiBytes "USBD" ++ leBytes 4 records.length) [] h i 0
      hget
    rw [← tableBytes_eq, length_header] at hloop
    rw [hget]
    exact hloop

/-- **The finder returns the first record of a table.** -/
theorem dxbc_container_view_first_tableBytes {rs : List DXBCUSBDRecordView}
    (hle : (record :: rs).length ≤ UINT32_MAX)
    (h : ∀ r ∈ record :: rs, ValidRecord rt r) :
    dxbc_container_view_first rt (tableBytes (record :: rs)) = some record.dxbc := by
  obtain ⟨hmagic, hcnt⟩ := tableBytes_header hle
  have hnine := nine_le_length h
  have hlen := length_tableBytes (record :: rs)
  have hpos : 0 < (record :: rs).length := by simp
  -- The magic rules out the other two layouts.
  have hraw : raw_dxbc_view rt (tableBytes (record :: rs)) 0 (tableBytes (record :: rs)).length
      null_view = (false, null_view) := by
    unfold raw_dxbc_view
    rw [slice_zero_length, if_pos (.inr (by rw [hmagic]; decide))]
  have hunity : unity_program_view rt (tableBytes (record :: rs)) null_view =
      (false, null_view) := by
    unfold unity_program_view
    have hfst : (tableBytes (record :: rs)).headD 0 = 85 := by
      rw [tableBytes, show asciiBytes "USBD" = [85, 83, 66, 68] by decide]
      rfl
    rw [if_pos (.inr (by rw [hfst]; decide))]
  have hread : read_le_u32_at rt (tableBytes (record :: rs)) 4 = some (record :: rs).length := by
    rw [read_le_u32_at, if_neg (by omega), read_u32_le_eq, hcnt]
  have hfst := usbd_record_append (asciiBytes "USBD" ++ leBytes 4 (record :: rs).length)
    (rs.flatMap recordBytes) (h record mem_cons_self)
  have hrest := usbd_records_append
    ((asciiBytes "USBD" ++ leBytes 4 (record :: rs).length) ++ recordBytes record) []
    (forall_mem_cons.mp h).2 (Nat.succ_ne_zero 0) (payloadView 8 record)
  have hbytes : tableBytes (record :: rs) =
      (asciiBytes "USBD" ++ leBytes 4 (record :: rs).length) ++
        (recordBytes record ++ rs.flatMap recordBytes) := by
    rw [tableBytes, flatMap_cons, append_assoc]
  obtain ⟨-, -, -, hdxbc, -⟩ := record_parts _ (rs.flatMap recordBytes)
    (h record mem_cons_self) hbytes
  rw [← hbytes, length_header] at hfst
  rw [append_nil, append_assoc, ← hbytes, length_append, length_header] at hrest
  have husbd : usbd_first rt (tableBytes (record :: rs)) = some (payloadView 8 record) := by
    unfold usbd_first
    rw [flatMap_cons, length_append] at hlen
    simp only [hread, hmagic, Option.bind_eq_bind, Option.bind_some, guard, length_cons,
      usbd_records, hfst, if_true, hrest]
    rw [length_cons] at hpos hnine
    rw [if_pos (by simp only [and_true]; omega), Option.pure_def, Option.bind_some]
    rw [flatMap_cons, length_append] at hnine
    rw [if_pos (by omega), Option.bind_some, if_pos (by omega)]
    rfl
  unfold dxbc_container_view_first ContainerView.dxbc_container_view_first
  simp only [hraw, hunity, usbd_view_first, husbd]
  rw [length_header] at hdxbc
  exact congrArg some hdxbc

/-! ## Writing -/

include h in
lemma write_records_eq : write_records records = records.flatMap recordBytes := by
  induction records with
  | nil => rfl
  | cons r rs ih =>
    have hr := h r mem_cons_self
    rw [write_records, ih fun r' hr' => h r' (mem_cons_of_mem _ hr'),
      write_u32_le_eq hr.name_le, write_u32_le_eq hr.dxbc_le, flatMap_cons, recordBytes]
    simp only [append_assoc]

lemma encoded_size_ok_iff {size stop : ℕ} : encoded_size rt sizes index size records = .ok stop ↔
      (∀ r ∈ records, ValidRecord rt r) ∧ stop = size + (records.flatMap recordBytes).length ∧
        (records ≠ [] → size + (records.flatMap recordBytes).length ≤ SIZE_MAX) := by
  induction records generalizing index size with
  | nil =>
    rw [encoded_size, pure_eq_ok]
    simp [eq_comm]
  | cons r rs ih =>
    rw [encoded_size, failWhen_bind_eq_ok, failWhen_bind_eq_ok, failWhen_bind_eq_ok, ih]
    simp only [sizes.dxbc_size_add_overflows_eq, decide_eq_true_eq, flatMap_cons,
      length_append, length_recordBytes]
    constructor
    · rintro ⟨hname, hdxbc, hover, hrs, hstop, hmax⟩
      simp only [not_or, Bool.not_eq_false] at hname hdxbc hover
      have hr : ValidRecord rt r := ⟨by omega, hname.2.2, by omega, hdxbc.2⟩
      refine ⟨?_, by omega, fun _ => ?_⟩
      · intro r' hr'
        rcases mem_cons.mp hr' with rfl | hr'
        · exact hr
        · exact hrs r' hr'
      · cases rs with
        | nil =>
          simp only [flatMap_nil, length_nil]
          omega
        | cons r' rs' =>
          have := hmax (by simp)
          omega
    · rintro ⟨h, hstop, hmax⟩
      have hr := h r mem_cons_self
      have hle := hmax (by simp)
      have hpos := valid_utf8_name_pos hr.name
      have hname := hr.name_le
      have hdxbc := hr.dxbc_le
      refine ⟨?_, ?_, by omega, fun r' hr' => h r' (mem_cons_of_mem _ hr'), by omega,
        fun _ => by omega⟩
      · simp only [hr.name, Bool.true_eq_false, or_false]
        omega
      · simp only [hr.dxbc, Bool.true_eq_false, or_false]
        omega

/-- **The encoder lays out a table**, and when it succeeds. -/
theorem dxbc_usbd_table_encode_ok_iff : dxbc_usbd_table_encode rt sizes records = .ok bytes ↔
      records ≠ [] ∧ records.length ≤ UINT32_MAX ∧ (∀ r ∈ records, ValidRecord rt r) ∧
        (tableBytes records).length ≤ SIZE_MAX ∧ bytes = tableBytes records := by
  unfold dxbc_usbd_table_encode DXBC_USBD_HEADER_SIZE
  rw [failWhen_bind_eq_ok, bind_eq_ok, length_tableBytes]
  constructor
  · rintro ⟨hcnt, stop, hstop, hbytes⟩
    obtain ⟨hvalid, -, hmax⟩ := encoded_size_ok_iff.mp hstop
    have hne : records ≠ [] := by
      rintro rfl
      simp at hcnt
    have hle : records.length ≤ UINT32_MAX := by omega
    refine ⟨hne, hle, hvalid, hmax hne, ?_⟩
    rw [← pure_eq_ok.mp hbytes, write_u32_le_eq hle, write_records_eq hvalid, tableBytes]
    simp only [append_assoc]
  · rintro ⟨hne, hle, hvalid, hmax, rfl⟩
    have hpos := length_pos_iff.mpr hne
    refine ⟨by omega, _, encoded_size_ok_iff.mpr ⟨hvalid, rfl, fun _ => hmax⟩, ?_⟩
    rw [pure_eq_ok, write_u32_le_eq hle, write_records_eq hvalid, tableBytes]
    simp only [append_assoc]

end Codec

/-! ## Round trips -/

/-- A name, a container and sizes that a record of a table can have. -/
structure Encodable (rt : UnityCommon) (record : DXBCUSBDRecordView) : Prop where
  name : ∃ text : List Char, text ≠ [] ∧ '\x00' ∉ text ∧ record.name = utf8Bytes text
  dxbc : ∃ document, parse_document rt record.dxbc = .ok document
  name_le : record.name.length ≤ UINT32_MAX
  dxbc_le : record.dxbc.length ≤ UINT32_MAX

lemma validRecord_iff {rt : UnityCommon} {record : DXBCUSBDRecordView} :
    ValidRecord rt record ↔ Encodable rt record := by
  constructor
  · intro h
    exact ⟨(valid_utf8_name_iff _).mp h.name, valid_raw_dxbc_iff.mp h.dxbc, h.name_le, h.dxbc_le⟩
  · intro h
    exact ⟨h.name_le, (valid_utf8_name_iff _).mpr h.name, h.dxbc_le, valid_raw_dxbc_iff.mpr h.dxbc⟩

/-- Whether the encoder can write a list of records, the list being non-empty and the
whole table of a size that `size_t` holds. -/
def EncodableTable (rt : UnityCommon) (records : List DXBCUSBDRecordView) : Prop :=
  records ≠ [] ∧ records.length ≤ UINT32_MAX ∧ (∀ r ∈ records, Encodable rt r) ∧
    8 + (records.map fun r => 8 + r.name.length + r.dxbc.length).sum ≤ SIZE_MAX

lemma length_tableBytes_eq_sum (records : List DXBCUSBDRecordView) : (tableBytes records).length =
      8 + (records.map fun r => 8 + r.name.length + r.dxbc.length).sum := by
  rw [length_tableBytes, length_flatMap]
  simp only [length_recordBytes]

/-- **`USBD` tables round trip.** The encoder succeeds exactly on the non-empty lists of
encodable records whose sizes fit. What it writes is opened with the same records. What the
reader accepts is what the encoder writes for its records, and the first container of it is
that of its first record. -/
theorem usbd_round_trip (rt : UnityCommon) (sizes : SizeChecks) :
    (∀ records, (∃ bytes, dxbc_usbd_table_encode rt sizes records = .ok bytes) ↔
      EncodableTable rt records) ∧
    (∀ records bytes, dxbc_usbd_table_encode rt sizes records = .ok bytes →
      dxbc_usbd_table_open rt bytes = .ok ⟨bytes, records.length⟩ ∧
      ∀ i, dxbc_usbd_table_record rt ⟨bytes, records.length⟩ i = records[i]?) ∧
    (∀ bytes table, bytes.length ≤ SIZE_MAX → dxbc_usbd_table_open rt bytes = .ok table →
      ∃ records : List DXBCUSBDRecordView, records.length = table.record_count ∧
        (∀ i, dxbc_usbd_table_record rt table i = records[i]?) ∧
        dxbc_usbd_table_encode rt sizes records = .ok bytes ∧
        ∃ record, records[0]? = some record ∧
          dxbc_container_view_first rt bytes = some record.dxbc) := by
  refine ⟨fun records => ?_, fun records bytes h => ?_, fun bytes table hsize h => ?_⟩
  · unfold EncodableTable
    rw [← length_tableBytes_eq_sum]
    simp only [dxbc_usbd_table_encode_ok_iff, validRecord_iff]
    constructor
    · rintro ⟨_, hne, hle, hvalid, hmax, -⟩
      exact ⟨hne, hle, hvalid, hmax⟩
    · rintro ⟨hne, hle, hvalid, hmax⟩
      exact ⟨_, hne, hle, hvalid, hmax, rfl⟩
  · obtain ⟨hne, hle, hvalid, -, rfl⟩ := dxbc_usbd_table_encode_ok_iff.mp h
    exact ⟨dxbc_usbd_table_open_tableBytes hne hle hvalid, dxbc_usbd_table_record_tableBytes hvalid⟩
  · obtain ⟨records, hne, hle, hvalid, rfl, rfl⟩ := dxbc_usbd_table_open_ok h
    refine ⟨records, rfl, dxbc_usbd_table_record_tableBytes hvalid,
      dxbc_usbd_table_encode_ok_iff.mpr ⟨hne, hle, hvalid, hsize, rfl⟩, ?_⟩
    cases records with
    | nil => exact absurd rfl hne
    | cons record rs =>
      exact ⟨record, rfl, dxbc_container_view_first_tableBytes hle hvalid⟩

/-- A table with one record. -/
theorem usbd_round_trip_nop_ret :
    ∃ bytes, dxbc_usbd_table_encode .reference .reference [⟨asciiBytes "vs", nopRetContainer⟩] =
        .ok bytes ∧
      dxbc_usbd_table_open .reference bytes = .ok ⟨bytes, 1⟩ ∧
      dxbc_usbd_table_record .reference ⟨bytes, 1⟩ 0 = some ⟨asciiBytes "vs", nopRetContainer⟩ := by
  have hparse : (parse_document .reference nopRetContainer).isOk := by decide +kernel
  obtain ⟨document, hdocument⟩ : ∃ document,
      parse_document .reference nopRetContainer = .ok document := by
    cases h : parse_document .reference nopRetContainer with
    | ok document => exact ⟨document, rfl⟩
    | error d => exact absurd hparse (by rw [h]; exact Bool.false_ne_true)
  have hencodable : EncodableTable .reference [⟨asciiBytes "vs", nopRetContainer⟩] := by
    refine ⟨by simp, by decide, ?_, by decide⟩
    intro r hr
    rw [mem_singleton.mp hr]
    exact ⟨⟨['v', 's'], by decide, by decide, by decide⟩, ⟨document, hdocument⟩, by decide,
      by decide⟩
  obtain ⟨hencode, hopen, -⟩ := usbd_round_trip .reference .reference
  obtain ⟨bytes, hbytes⟩ := (hencode _).mpr hencodable
  obtain ⟨htable, hrecord⟩ := hopen _ bytes hbytes
  exact ⟨bytes, hbytes, htable, hrecord 0⟩

/-- Every record of the empty list is encodable, but the encoder refuses the list. -/
theorem usbd_empty_list_refused : (∀ r ∈ ([] : List DXBCUSBDRecordView), Encodable .reference r) ∧
      ([] : List DXBCUSBDRecordView).length ≤ UINT32_MAX ∧
      ¬ ∃ bytes, dxbc_usbd_table_encode .reference .reference [] = .ok bytes := by
  refine ⟨nofun, by decide, ?_⟩
  rintro ⟨bytes, h⟩
  exact absurd h (by simp [dxbc_usbd_table_encode, failWhen, bind, Except.bind])

end DXBCSandbox
