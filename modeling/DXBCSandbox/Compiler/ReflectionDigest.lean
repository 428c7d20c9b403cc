/-
The digests of reflection records.

A record is hashed field by field, a constant with the digest of its constant buffer behind it, and
the sorted digests of the records are hashed again. What is hashed for a record spells its row, so
two sides without a collision among the texts that they hash have the same digest only if they have
the same rows.
-/
import DXBCSandbox.Compiler.ReflectionRows
import DXBCSandbox.Lib.PrefixCode

namespace DXBCSandbox

open List Option

section

variable (common_sha256 : Bytes → Digest)

/-! ## What is hashed -/

def bindingBytes (b : Binding) (owner : Digest) : Bytes :=
  binding_record_domain ++ binding_hash_word b.kind.number ++
    binding_hash_word (if b.name.isSome then 1 else 0) ++
    binding_hash_word (match b.name with
      | some text => if text.length > SIZE_MAX then SIZE_MAX else text.length
      | none => 0) ++
    (match b.name with
      | some text => common_sha256 text
      | none => .replicate _ 0).toList ++
    binding_hash_word b.values.length ++
    (b.values.flatMap fun value => binding_hash_word value.toUInt32.toNat) ++
    if b.kind = .constant then owner.toList else []

def bindingDigest (b : Binding) : Digest :=
  common_sha256 (bindingBytes common_sha256 b (.replicate _ 0))

def rowBytes (row : BindingRow) : Bytes :=
  bindingBytes common_sha256 row.1 ((row.2.map (bindingDigest common_sha256)).getD (.replicate _ 0))

def rowDigest (row : BindingRow) : Digest := common_sha256 (rowBytes common_sha256 row)

def hashedTexts (rows : List BindingRow) : List Bytes :=
  rows.filterMap (fun row => row.1.name) ++ rows.map (rowBytes common_sha256) ++
    [binding_set_bytes (rows.map (rowDigest common_sha256))]

/-- No two of the texts that the two sides hash collide. -/
def CollisionFree (rows rows' : List BindingRow) : Prop :=
  Set.InjOn common_sha256
    {text | text ∈ hashedTexts common_sha256 rows ++ hashedTexts common_sha256 rows'}

structure BindingRow.Valid (row : BindingRow) : Prop where
  values_le : row.1.values.length ≤ UNITY_COMPILER_REFLECTION_MAX_VALUES
  buffer_values : row.1.kind = .constantBuffer → row.1.values.length = 2
  owned : row.1.kind = .constant → row.2 ≠ none

variable {common_sha256}

lemma length_hashed_values (kind : UnityCompilerReflectionKind) (values : List Int32) :
    (hashed_values kind values).length = values.length := by
  unfold hashed_values
  split
  next => exact length_set
  next => rfl

lemma binding_record_bytes_expected (record : ExpectedReflectionRecord) (owner : Digest) :
    binding_record_bytes (summarize_expected common_sha256 record) owner =
      bindingBytes common_sha256 record.binding owner := by
  unfold binding_record_bytes bindingBytes summarize_expected summarize_name_parts empty_summary
    ExpectedReflectionRecord.binding
  cases record.name with
  | none => simp only [map_none, isSome_none, length_hashed_values]
  | some name => simp only [map_some, isSome_some, length_hashed_values]

lemma binding_record_bytes_observed (record : UnityCompilerReflectionRecord) (owner : Digest) :
    binding_record_bytes (summarize_observed common_sha256 record) owner =
      bindingBytes common_sha256 record.binding owner := by
  unfold binding_record_bytes bindingBytes summarize_observed summarize_name_parts empty_summary
    UnityCompilerReflectionRecord.binding
  cases record.name with
  | none => simp only [map_none, isSome_none, length_hashed_values]
  | some name =>
    simp only [map_some, isSome_some, length_hashed_values, name_text]
    rfl

structure Summarizes (common_sha256 : Bytes → Digest)
    (summary : UnityReflectionCertificateRecordSummary) (b : Binding) : Prop where
  kind : summary.kind = b.kind
  values : summary.values.length = b.values.length
  bytes : ∀ owner, binding_record_bytes summary owner = bindingBytes common_sha256 b owner

lemma summarizes_expected (record : ExpectedReflectionRecord) :
    Summarizes common_sha256 (summarize_expected common_sha256 record) record.binding where
  kind := by
    unfold summarize_expected summarize_name_parts
    cases record.name <;> rfl
  values := by
    unfold summarize_expected summarize_name_parts ExpectedReflectionRecord.binding
    rw [length_hashed_values]
    cases record.name <;> rfl
  bytes := binding_record_bytes_expected record

lemma summarizes_observed (record : UnityCompilerReflectionRecord) :
    Summarizes common_sha256 (summarize_observed common_sha256 record) record.binding where
  kind := by
    unfold summarize_observed summarize_name_parts
    cases record.name <;> rfl
  values := by
    unfold summarize_observed summarize_name_parts UnityCompilerReflectionRecord.binding
    rw [length_hashed_values]
    cases record.name <;> rfl
  bytes := binding_record_bytes_observed record

variable {b : Binding}

lemma bindingBytes_owner (h : b.kind ≠ .constant) (owner owner' : Digest) :
    bindingBytes common_sha256 b owner = bindingBytes common_sha256 b owner' := by
  unfold bindingBytes
  rw [if_neg h, if_neg h]

lemma rowDigest_rowOf (owner : Option Binding) (b : Binding) :
    rowDigest common_sha256 (rowOf owner b) = common_sha256 (bindingBytes common_sha256 b
      ((owner.map (bindingDigest common_sha256)).getD (.replicate _ 0))) := by
  unfold rowDigest rowBytes rowOf
  by_cases hconst : b.kind = .constant
  · rw [if_pos hconst]
  · rw [if_neg hconst]
    exact congrArg common_sha256 (bindingBytes_owner hconst _ _)

lemma valid_rowOf_iff {owner : Option Binding} : BindingRow.Valid (rowOf owner b) ↔
      ¬ (b.values.length > UNITY_COMPILER_REFLECTION_MAX_VALUES ∨
        (b.kind = .constantBuffer ∧ b.values.length ≠ 2) ∨
        (b.kind = .constant ∧ owner.map (bindingDigest common_sha256) = none)) := by
  have howner : b.kind = .constant → (rowOf owner b).2 = owner := by
    intro hkind
    rw [rowOf, if_pos hkind]
  rw [map_eq_none_iff]
  constructor
  · rintro ⟨hle, hbuf, howned⟩ (hvals | ⟨hkind, hvals⟩ | ⟨hkind, hnone⟩)
    · exact Nat.not_lt.mpr hle hvals
    · exact hvals (hbuf hkind)
    · exact howned hkind ((howner hkind).trans hnone)
  · intro h
    simp only [not_or, not_and, Nat.not_lt, gt_iff_lt, ne_eq, not_not] at h
    refine ⟨h.1, h.2.1, ?_⟩
    intro hkind hnone
    exact h.2.2 hkind ((howner hkind).symm.trans hnone)

variable {bs : List Binding}

/-- **The loop hashes the rows** when all of them can be hashed, and fails otherwise. -/
theorem binding_rows_eq_some_iff {summaries : List UnityReflectionCertificateRecordSummary}
    (h : List.Forall₂ (Summarizes common_sha256) summaries bs) (owner : Option Binding)
    (digests : List Digest) :
    binding_rows common_sha256 (owner.map (bindingDigest common_sha256)) summaries = some digests ↔
      (∀ row ∈ bindingRows owner bs, BindingRow.Valid row) ∧
        digests = (bindingRows owner bs).map (rowDigest common_sha256) := by
  induction h generalizing owner digests with
  | nil =>
    rw [binding_rows, bindingRows, some.injEq, map_nil]
    exact ⟨fun h => ⟨fun row hrow => absurd hrow List.not_mem_nil, h.symm⟩, fun h => h.2.symm⟩
  | @cons summary b summaries bs hsummary _ ih =>
    rw [binding_rows, bindingRows, hsummary.kind, hsummary.values]
    by_cases hstats : b.kind = .stats
    · rw [if_pos hstats, if_pos hstats]
      exact ih owner digests
    rw [if_neg hstats, if_neg hstats, forall_mem_cons, hsummary.bytes,
      ← @rowDigest_rowOf common_sha256 owner b]
    by_cases hvalid : BindingRow.Valid (rowOf owner b)
    · rw [if_neg (valid_rowOf_iff.mp hvalid), and_iff_right hvalid, map_eq_some_iff]
      -- The owner of the next constant, as a digest and as a binding.
      have hnext : (if b.kind = .constantBuffer then
            some (rowDigest common_sha256 (rowOf owner b))
          else if b.kind = .constant then owner.map (bindingDigest common_sha256) else none) =
          (ownerBehind owner b).map (bindingDigest common_sha256) := by
        unfold ownerBehind
        by_cases hbuf : b.kind = .constantBuffer
        · have hconst : b.kind ≠ .constant := by
            rw [hbuf]
            decide
          rw [if_pos hbuf, if_pos hbuf, rowDigest_rowOf, bindingBytes_owner hconst]
          rfl
        · rw [if_neg hbuf, if_neg hbuf]
          by_cases hconst : b.kind = .constant
          · rw [if_pos hconst, if_pos (.inl hconst)]
          · rw [if_neg hconst, if_neg (not_or.mpr ⟨hconst, hstats⟩)]
            rfl
      rw [hnext]
      constructor
      · rintro ⟨rest, hrest, rfl⟩
        obtain ⟨hrows, rfl⟩ := (ih _ rest).mp hrest
        exact ⟨hrows, rfl⟩
      · rintro ⟨hrows, rfl⟩
        exact ⟨_, (ih _ _).mpr ⟨hrows, rfl⟩, rfl⟩
    · rw [if_pos (not_not.mp fun hnot => hvalid (valid_rowOf_iff.mpr hnot))]
      exact iff_of_false (by simp) fun hall => hvalid hall.1.1

lemma fingerprint_bindings_eq_some_iff {summaries : List UnityReflectionCertificateRecordSummary}
    (h : List.Forall₂ (Summarizes common_sha256) summaries bs) (digest : Digest) :
    fingerprint_bindings common_sha256 summaries = some digest ↔
      (∀ row ∈ bindingRows none bs, BindingRow.Valid row) ∧
        digest = common_sha256 (binding_set_bytes
          ((bindingRows none bs).map (rowDigest common_sha256))) := by
  unfold fingerprint_bindings
  rw [map_eq_some_iff]
  constructor
  · rintro ⟨digests, hrows, rfl⟩
    obtain ⟨hvalid, rfl⟩ := (binding_rows_eq_some_iff h none digests).mp hrows
    exact ⟨hvalid, rfl⟩
  · rintro ⟨hvalid, rfl⟩
    exact ⟨_, (binding_rows_eq_some_iff h none _).mpr ⟨hvalid, rfl⟩, rfl⟩

/-! ## Texts spell rows -/

lemma number_injective {k k' : UnityCompilerReflectionKind} (h : k.number = k'.number) :
    k = k' := by
  cases k <;> cases k' <;> first | rfl | exact absurd h (by decide)

lemma prefixCode_digest : PrefixCode (fun _ : Digest => True) Vector.toList := by
  intro x y r s _ _ h
  obtain ⟨hdig, hrest⟩ := append_inj h (by rw [Vector.length_toList, Vector.length_toList])
  exact ⟨Vector.toList_inj.mp hdig, hrest⟩

lemma prefixCode_value :
    PrefixCode (fun _ : Int32 => True) fun value => binding_hash_word value.toUInt32.toNat := by
  intro x y r s _ _ h
  have hlt : ∀ value : Int32, value.toUInt32.toNat < 256 ^ 8 := by
    intro value
    exact Nat.lt_trans value.toUInt32.toNat_lt (by decide)
  obtain ⟨hword, hrest⟩ := PrefixCode.number 8 _ _ _ _ (hlt x) (hlt y) h
  refine ⟨?_, hrest⟩
  obtain ⟨x⟩ := x
  obtain ⟨y⟩ := y
  exact congrArg Int32.ofUInt32 (UInt32.toNat_inj.mp hword)

lemma bindingBytes_inj {b' : Binding} {owner owner' : Digest}
    (hname : ∀ text text', b.name = some text → b'.name = some text' →
      common_sha256 text = common_sha256 text' → text = text') (hb : b.values.length < 256 ^ 8)
    (hb' : b'.values.length < 256 ^ 8)
    (h : bindingBytes common_sha256 b owner = bindingBytes common_sha256 b' owner') :
    b = b' ∧ (b.kind = .constant → owner = owner') := by
  unfold bindingBytes at h
  simp only [append_assoc] at h
  obtain ⟨-, h⟩ := append_inj h rfl
  have hkindLt : ∀ kind : UnityCompilerReflectionKind, kind.number < 256 ^ 8 := by
    intro kind
    cases kind <;> decide
  obtain ⟨hkind, h⟩ := PrefixCode.number 8 _ _ _ _ (hkindLt _) (hkindLt _) h
  obtain ⟨hthere, h⟩ := PrefixCode.number 8 _ _ _ _ (by split <;> decide) (by split <;> decide) h
  obtain ⟨-, h⟩ := append_inj h (by rw [binding_hash_word, binding_hash_word, length_leBytes,
    length_leBytes])
  obtain ⟨hdig, h⟩ := prefixCode_digest _ _ _ _ trivial trivial h
  obtain ⟨hcnt, h⟩ := PrefixCode.number 8 _ _ _ _ hb hb' h
  obtain ⟨hvals, h⟩ := prefixCode_value.flatMap _ _ _ _ hcnt (fun _ _ => trivial)
    (fun _ _ => trivial) h
  have hkind := number_injective hkind
  have hnames : b.name = b'.name := by
    cases hleft : b.name with
    | none =>
      cases hright : b'.name with
      | none => rfl
      | some text' =>
        rw [hleft, hright] at hthere
        simp at hthere
    | some text =>
      cases hright : b'.name with
      | none =>
        rw [hleft, hright] at hthere
        simp at hthere
      | some text' =>
        rw [hleft, hright] at hdig
        rw [hname text text' hleft hright hdig]
  refine ⟨?_, ?_⟩
  · obtain ⟨kind, name, values⟩ := b
    obtain ⟨kind', name', values'⟩ := b'
    obtain rfl : kind = kind' := hkind
    obtain rfl : name = name' := hnames
    obtain rfl : values = values' := hvals
    rfl
  · intro hconst
    rw [← hkind, if_pos hconst, if_pos hconst] at h
    exact Vector.toList_inj.mp h

/-- Constants have an owner from the list or the one they came with, all other rows have none. -/
theorem mem_bindingRows_owner {start : Option Binding} {row : BindingRow}
    (hrow : row ∈ bindingRows start bs) :
    row.2 = none ∨ row.1.kind = .constant ∧ (row.2 = start ∨ ∃ owner, row.2 = some owner ∧
      (owner, none) ∈ bindingRows start bs ∧ owner.kind = .constantBuffer) := by
  induction bs generalizing start with
  | nil => nomatch hrow
  | cons b bs ih =>
    unfold bindingRows at hrow ⊢
    by_cases hstats : b.kind = .stats
    · rw [if_pos hstats] at hrow ⊢
      exact ih hrow
    rw [if_neg hstats] at hrow ⊢
    rcases mem_cons.mp hrow with rfl | hrow
    · unfold rowOf
      by_cases hconst : b.kind = .constant
      · rw [if_pos hconst]
        exact .inr ⟨hconst, .inl rfl⟩
      · rw [if_neg hconst]
        exact .inl rfl
    · rcases ih hrow with hnone | ⟨hrowKind, hstart | ⟨owner, howner, hmem, hkind⟩⟩
      · exact .inl hnone
      · -- The owner behind `b` is `b` itself, the old one, or none.
        unfold ownerBehind at hstart
        by_cases hbuf : b.kind = .constantBuffer
        · rw [if_pos hbuf] at hstart
          have hplain : b.kind ≠ .constant := by
            rw [hbuf]
            decide
          refine .inr ⟨hrowKind, .inr ⟨b, hstart, ?_, hbuf⟩⟩
          rw [rowOf, if_neg hplain]
          exact mem_cons_self
        · rw [if_neg hbuf] at hstart
          by_cases hconst : b.kind = .constant ∨ b.kind = .stats
          · rw [if_pos hconst] at hstart
            exact .inr ⟨hrowKind, .inl hstart⟩
          · rw [if_neg hconst] at hstart
            exact .inl hstart
      · exact .inr ⟨hrowKind, .inr ⟨owner, howner, mem_cons_of_mem _ hmem, hkind⟩⟩

structure RowList (rows : List BindingRow) : Prop where
  valid : ∀ row ∈ rows, BindingRow.Valid row
  plain : ∀ row ∈ rows, row.1.kind ≠ .constant → row.2 = none
  owner_mem : ∀ row ∈ rows, ∀ owner, row.2 = some owner →
    (owner, none) ∈ rows ∧ owner.kind = .constantBuffer

lemma rowList_bindingRows (h : ∀ row ∈ bindingRows none bs, BindingRow.Valid row) :
    RowList (bindingRows none bs) where
  valid := h
  plain := by
    intro row hrow hkind
    rcases mem_bindingRows_owner hrow with hnone | ⟨hconst, -⟩
    · exact hnone
    · exact absurd hconst hkind
  owner_mem := by
    intro row hrow owner howner
    rcases mem_bindingRows_owner hrow with hnone | ⟨-, hnone | ⟨owner', howner', hmem, hkind⟩⟩
    · rw [hnone] at howner
      nomatch howner
    · rw [hnone] at howner
      nomatch howner
    · obtain rfl : owner' = owner := some.inj (howner'.symm.trans howner)
      exact ⟨hmem, hkind⟩

variable {rows : List BindingRow}

lemma RowList.append {rows' : List BindingRow} (h : RowList rows) (h' : RowList rows') :
    RowList (rows ++ rows') where
  valid := forall_mem_append.mpr ⟨h.valid, h'.valid⟩
  plain := forall_mem_append.mpr ⟨h.plain, h'.plain⟩
  owner_mem := by
    refine forall_mem_append.mpr ⟨?_, ?_⟩
    · intro row hrow owner howner
      obtain ⟨hmem, hkind⟩ := h.owner_mem row hrow owner howner
      exact ⟨mem_append_left _ hmem, hkind⟩
    · intro row hrow owner howner
      obtain ⟨hmem, hkind⟩ := h'.owner_mem row hrow owner howner
      exact ⟨mem_append_right _ hmem, hkind⟩

/-- **Rows with one digest are one row** where no texts collide. -/
theorem rowDigest_inj (h : RowList rows) {texts : Set Bytes} (hfree : Set.InjOn common_sha256 texts)
    (hname : ∀ row ∈ rows, ∀ text, row.1.name = some text → text ∈ texts)
    (hbytes : ∀ row ∈ rows, rowBytes common_sha256 row ∈ texts) :
    Set.InjOn (rowDigest common_sha256) {row | row ∈ rows} := by
  -- The binding of a row, and for a constant the digest of its owner.
  have hinj : ∀ row ∈ rows, ∀ row' ∈ rows, rowDigest common_sha256 row =
      rowDigest common_sha256 row' → row.1 = row'.1 ∧ (row.1.kind = .constant →
        (row.2.map (bindingDigest common_sha256)).getD (.replicate _ 0) =
          (row'.2.map (bindingDigest common_sha256)).getD (.replicate _ 0)) := by
    intro row hrow row' hrow' heq
    have hvals : ∀ row ∈ rows, row.1.values.length < 256 ^ 8 := fun row hrow =>
      Nat.lt_of_le_of_lt (h.valid row hrow).values_le (by decide)
    apply bindingBytes_inj _ (hvals row hrow) (hvals row' hrow')
      (hfree (hbytes row hrow) (hbytes row' hrow') heq)
    intro text text' htext htext' hsame
    exact hfree (hname row hrow text htext) (hname row' hrow' text' htext') hsame
  intro row hrow row' hrow' heq
  obtain ⟨hbind, howner⟩ := hinj row hrow row' hrow' heq
  refine Prod.ext hbind ?_
  by_cases hconst : row.1.kind = .constant
  · obtain ⟨owner, howned⟩ :=
      ne_none_iff_exists'.mp ((h.valid row hrow).owned hconst)
    obtain ⟨owner', howned'⟩ :=
      ne_none_iff_exists'.mp ((h.valid row' hrow').owned (hbind ▸ hconst))
    have hdig := howner hconst
    rw [howned, howned', map_some, map_some, getD_some, getD_some] at hdig
    have hmem := (h.owner_mem row hrow owner howned).1
    have hmem' := (h.owner_mem row' hrow' owner' howned').1
    have hsame : owner = owner' := (hinj _ hmem _ hmem' hdig).1
    rw [howned, howned', hsame]
  · rw [h.plain row hrow hconst, h.plain row' hrow' (hbind ▸ hconst)]

/-! ## The digest of a set of rows -/

lemma toList_injective : Function.Injective (Vector.toList : Digest → Bytes) :=
  fun _ _ h => Vector.toList_inj.mp h

/-- The text that is hashed last says which digests there are, however often each. -/
theorem binding_set_bytes_eq_iff {digests digests' : List Digest} :
    binding_set_bytes digests = binding_set_bytes digests' ↔ digests.Perm digests' := by
  unfold binding_set_bytes sort_rows
  constructor
  · intro h
    have hword : ∀ digests : List Digest, (binding_set_domain ++
        binding_hash_word digests.length).length = binding_set_domain.length + 8 := by
      intro digests
      rw [length_append, binding_hash_word, length_leBytes]
    obtain ⟨-, h⟩ := append_inj h ((hword digests).trans (hword digests').symm)
    -- Digests have one length, so as many bytes are as many digests.
    have hbytes : ∀ xs : List Digest, (xs.flatMap Vector.toList).length =
        ORACLE_PACK_DIGEST_SIZE * xs.length := by
      intro xs
      induction xs with
      | nil => rfl
      | cons x xs ih =>
        rw [flatMap_cons, length_append, ih, Vector.length_toList, length_cons,
          Nat.mul_succ, Nat.add_comm]
    have hcnt := congrArg List.length h
    rw [hbytes, hbytes] at hcnt
    have hcnt := Nat.eq_of_mul_eq_mul_left (by decide) hcnt
    obtain ⟨hsorted, -⟩ := prefixCode_digest.flatMap _ _ [] [] hcnt (fun _ _ => trivial)
      (fun _ _ => trivial) (congrArg (· ++ []) h)
    exact (sortBy_eq_iff_perm toList_injective).mp hsorted
  · intro hperm
    rw [hperm.length_eq, (sortBy_eq_iff_perm toList_injective).mpr hperm]

/-- Lists with the same images under a function that tells their elements apart. -/
theorem perm_of_map_perm {α β : Type} {f : α → β} {xs ys : List α}
    (hf : Set.InjOn f {x | x ∈ xs ++ ys}) (h : (xs.map f).Perm (ys.map f)) : xs.Perm ys := by
  induction xs generalizing ys with
  | nil =>
    rw [map_nil, nil_perm, map_eq_nil_iff] at h
    rw [h]
  | cons x xs ih =>
    have hmem : f x ∈ ys.map f := h.subset mem_cons_self
    obtain ⟨y, hy, hsame⟩ := mem_map.mp hmem
    obtain rfl : y = x := hf (mem_append_right _ hy) mem_cons_self hsame
    obtain ⟨before, after, rfl⟩ := append_of_mem hy
    have hspl : (before ++ y :: after).Perm (y :: (before ++ after)) := perm_middle
    refine (List.Perm.cons y (ih ?_ ?_)).trans hspl.symm
    · apply hf.mono
      intro z hz
      rcases mem_append.mp hz with hz | hz
      · exact mem_append_left _ (mem_cons_of_mem _ hz)
      · exact mem_append_right _ (hspl.symm.subset (mem_cons_of_mem _ hz))
    · exact (h.trans (hspl.map f)).cons_inv

/-- **One digest is one set of rows** where no texts collide. -/
theorem digest_eq_iff_perm {rows' : List BindingRow} (h : RowList rows) (h' : RowList rows')
    (hfree : CollisionFree common_sha256 rows rows') :
    common_sha256 (binding_set_bytes (rows.map (rowDigest common_sha256))) =
        common_sha256 (binding_set_bytes (rows'.map (rowDigest common_sha256))) ↔
      rows.Perm rows' := by
  constructor
  · intro heq
    have hset : ∀ rows, binding_set_bytes (rows.map (rowDigest common_sha256)) ∈
        hashedTexts common_sha256 rows := fun rows =>
      mem_append_right _ (mem_singleton.mpr rfl)
    have htexts := hfree (mem_append_left _ (hset rows)) (mem_append_right _ (hset rows')) heq
    apply perm_of_map_perm _ (binding_set_bytes_eq_iff.mp htexts)
    apply rowDigest_inj (h.append h') hfree
    · refine forall_mem_append.mpr ⟨?_, ?_⟩
      · intro row hrow text htext
        exact mem_append_left _ (mem_append_left _ (mem_append_left _
          (mem_filterMap.mpr ⟨row, hrow, htext⟩)))
      · intro row hrow text htext
        exact mem_append_right _ (mem_append_left _ (mem_append_left _
          (mem_filterMap.mpr ⟨row, hrow, htext⟩)))
    · refine forall_mem_append.mpr ⟨?_, ?_⟩
      · intro row hrow
        exact mem_append_left _ (mem_append_left _ (mem_append_right _ (mem_map_of_mem hrow)))
      · intro row hrow
        exact mem_append_right _ (mem_append_left _ (mem_append_right _ (mem_map_of_mem hrow)))
  · intro hperm
    rw [binding_set_bytes_eq_iff.mpr (hperm.map _)]

end

end DXBCSandbox
