/-
The name of the macro that a symbolic selector keeps its best index in
(`src/translation/shaderlab_stage.c`).

The macro must not shadow a keyword. The unsuffixed name is tried first, and then the names with
a suffix from 1 to the number of keywords. One pass over the keywords marks the suffixes in use in
a bitmap of fixed size, so a suffix that the parser lets through must have its bit there. An access
outside the bitmap is a failure of its own in the model.
-/
import DXBCSandbox.Common.VariantKey
import DXBCSandbox.Lib.Decimal
import Mathlib.Data.Nat.Bitwise
import Mathlib.Order.Interval.Finset.Nat

namespace DXBCSandbox

open List

def SHADERLAB_STAGE_SYMBOLIC_MACRO_NAME_CAPACITY : ℕ := 96

def SHADERLAB_STAGE_SYMBOLIC_SUFFIX_BITMAP_BYTES : ℕ := (65535 + 2 + 7) / 8

/-- A call fails by returning `false`, or it leaves the bitmap. -/
inductive MacroNameFailure where
  | refused | outOfRange
  deriving DecidableEq

def suffix_digit (maximum value : ℕ) (c : UInt8) : Option ℕ :=
  if c < 48 ∨ 57 < c then none
  else
    let digit := (c - 48).toNat
    if maximum < digit ∨ (maximum - digit) / 10 < value then none
    else some (value * 10 + digit)

def parse_symbolic_macro_suffix (keyword prefix_bytes : Bytes) (maximum : ℕ) : Option ℕ :=
  if ¬ prefix_bytes.isPrefixOf keyword then none
  else
    match keyword.drop prefix_bytes.length with
    | [] => none
    | first :: digits =>
      if first < 49 ∨ 57 < first then none
      else do
        let value ← (first :: digits).foldlM (suffix_digit maximum) 0
        if value = 0 ∨ maximum < value then none else some value

variable (suffix_used : Bytes)

/-- `suffix_used[suffix / 8u] |= (uint8_t)(1u << (suffix % 8u))`. -/
def use_suffix (suffix : ℕ) : Except MacroNameFailure Bytes :=
  if suffix / 8 < suffix_used.length then
    .ok (suffix_used.modify (suffix / 8) (· ||| 1 <<< UInt8.ofNat (suffix % 8)))
  else .error .outOfRange

/-- `(suffix_used[suffix / 8u] & (uint8_t)(1u << (suffix % 8u))) != 0`. -/
def suffix_is_used (suffix : ℕ) : Except MacroNameFailure Bool :=
  match suffix_used[suffix / 8]? with
  | none => .error .outOfRange
  | some byte => .ok (byte &&& 1 <<< UInt8.ofNat (suffix % 8) ≠ 0)

/-- The loop over the keywords: whether the base is used, and the suffixes that are. -/
def scan_keywords (base prefix_bytes : Bytes) (keyword_count : ℕ) :
    List (Option CString) → Bool × Bytes → Except MacroNameFailure (Bool × Bytes)
  | [], used => .ok used
  | none :: _, _ => .error .refused
  | some keyword :: keywords, (base_used, suffix_used) =>
    if keyword.bytes = base then
      scan_keywords base prefix_bytes keyword_count keywords (true, suffix_used)
    else
      match parse_symbolic_macro_suffix keyword.bytes prefix_bytes keyword_count with
      | none => scan_keywords base prefix_bytes keyword_count keywords (base_used, suffix_used)
      | some suffix => do
        let suffix_used ← use_suffix suffix_used suffix
        scan_keywords base prefix_bytes keyword_count keywords (base_used, suffix_used)

def free_suffix (suffix_used : Bytes) : (n suffix : ℕ) → Except MacroNameFailure (Option ℕ)
  | 0, _ => .ok none
  | n + 1, suffix => do
    if ← suffix_is_used suffix_used suffix then free_suffix suffix_used n (suffix + 1)
    else .ok (some suffix)

def symbolic_base (stage_index : ℕ) : Bytes :=
  asciiBytes "DXBCSANDBOX_SYMBOLIC_S" ++ decimalBytes stage_index ++ asciiBytes "_BEST_INDEX"

def symbolic_prefix_bytes (stage_index : ℕ) : Bytes :=
  asciiBytes "DXBCSANDBOX_SYMBOLIC_S" ++ decimalBytes stage_index ++ asciiBytes "_BEST_INDEX_"

/-- `snprintf` into the output, which fails when the name and its NUL do not fit. -/
def print_name (name : Bytes) (output_capacity : ℕ) : Except MacroNameFailure Bytes :=
  if name.length < output_capacity then .ok name else .error .refused

def choose_free_name (stage_index keyword_count output_capacity : ℕ)
    (used : Bool × Bytes) : Except MacroNameFailure Bytes :=
  if ¬ used.1 then print_name (symbolic_base stage_index) output_capacity
  else do
    match ← free_suffix used.2 keyword_count 1 with
    | none => .error .refused
    | some suffix =>
      print_name (symbolic_prefix_bytes stage_index ++ decimalBytes suffix) output_capacity

def choose_symbolic_best_index_macro_name (keyword_names : CArray (Option CString))
    (stage_index : ℤ) (output_capacity : ℕ) : Except MacroNameFailure Bytes :=
  if output_capacity = 0 ∨ stage_index < 0 ∨ 5 ≤ stage_index then .error .refused
  else
    let base := symbolic_base stage_index.toNat
    let prefix_bytes := symbolic_prefix_bytes stage_index.toNat
    if SHADERLAB_STAGE_SYMBOLIC_MACRO_NAME_CAPACITY ≤ base.length ∨
        SHADERLAB_STAGE_SYMBOLIC_MACRO_NAME_CAPACITY ≤ prefix_bytes.length ∨
        (keyword_names.count ≠ 0 ∧ keyword_names.values = none) then .error .refused
    else do
      let suffix_used := List.replicate SHADERLAB_STAGE_SYMBOLIC_SUFFIX_BITMAP_BYTES 0
      let used ← scan_keywords base prefix_bytes keyword_names.count
        (keyword_names.values.getD []) (false, suffix_used)
      choose_free_name stage_index.toNat keyword_names.count output_capacity used

/-! ## Decimal numbers -/

variable {maximum : ℕ}

/-- The body of the loop accepts a digit as long as the value stays below the maximum. -/
theorem suffix_digit_eq {value d : ℕ} (hd : d < 10) (h : value * 10 + d ≤ maximum) :
    suffix_digit maximum value (UInt8.ofNat (48 + d)) = some (value * 10 + d) := by
  have hchar : ¬ (UInt8.ofNat (48 + d) < 48 ∨ 57 < UInt8.ofNat (48 + d)) := by
    interval_cases d <;> decide
  have hdigit : (UInt8.ofNat (48 + d) - 48).toNat = d := by
    interval_cases d <;> rfl
  have hval : ¬ (maximum < d ∨ (maximum - d) / 10 < value) := by omega
  rw [suffix_digit, if_neg hchar]
  dsimp only
  rw [hdigit, if_neg hval]

lemma foldlM_suffix_digit {n : ℕ} (h : n ≤ maximum) :
    (decimalBytes n).foldlM (suffix_digit maximum) 0 = some n := by
  induction n using Nat.strong_induction_on with
  | h n ih =>
    by_cases hlt : n < 10
    · rw [decimalBytes_of_lt hlt, foldlM_cons, suffix_digit_eq hlt (by omega)]
      simp
    · have hle : 10 ≤ n := by omega
      rw [decimalBytes_of_le hle, foldlM_append, ih (n / 10) (by omega) (by omega)]
      show [UInt8.ofNat (48 + n % 10)].foldlM (suffix_digit maximum) (n / 10) = some n
      rw [foldlM_cons, suffix_digit_eq (Nat.mod_lt n (by omega)) (by omega)]
      show some (n / 10 * 10 + n % 10) = some n
      rw [Nat.div_add_mod']

variable {suffix : ℕ}

/-- **The parser reads every suffix that is tried.** -/
theorem parse_symbolic_macro_suffix_eq {prefix_bytes : Bytes} (hpos : 0 < suffix)
    (hle : suffix ≤ maximum) :
    parse_symbolic_macro_suffix (prefix_bytes ++ decimalBytes suffix) prefix_bytes maximum =
      some suffix := by
  obtain ⟨first, digits, hdigits, hfst⟩ := decimalBytes_head hpos
  have hval := foldlM_suffix_digit hle
  have hpre : prefix_bytes.isPrefixOf (prefix_bytes ++ decimalBytes suffix) = true :=
    isPrefixOf_iff_prefix.mpr (prefix_append _ _)
  unfold parse_symbolic_macro_suffix
  rw [if_neg (not_not.mpr hpre), drop_left, hdigits]
  dsimp only
  rw [if_neg hfst, ← hdigits, hval]
  show (if suffix = 0 ∨ maximum < suffix then none else some suffix) = some suffix
  rw [if_neg (by omega)]

/-- **A suffix that the parser lets through is at most the maximum.** -/
theorem parse_symbolic_macro_suffix_le {keyword prefix_bytes : Bytes}
    (h : parse_symbolic_macro_suffix keyword prefix_bytes maximum = some suffix) :
    suffix ≤ maximum := by
  unfold parse_symbolic_macro_suffix at h
  by_cases hpre : prefix_bytes.isPrefixOf keyword = true
  · rw [if_neg (not_not.mpr hpre)] at h
    cases hdrop : keyword.drop prefix_bytes.length with
    | nil =>
      rw [hdrop] at h
      nomatch h
    | cons first digits =>
      rw [hdrop] at h
      dsimp only at h
      by_cases hfst : first < 49 ∨ 57 < first
      · rw [if_pos hfst] at h
        nomatch h
      · rw [if_neg hfst] at h
        obtain ⟨value, -, h⟩ := Option.bind_eq_some_iff.mp h
        by_cases hval : value = 0 ∨ maximum < value
        · rw [if_pos hval] at h
          nomatch h
        · rw [if_neg hval] at h
          obtain rfl := Option.some.inj h
          omega
  · rw [if_pos hpre] at h
    nomatch h

/-! ## The bitmap -/

def SuffixUsed (suffix : ℕ) : Prop :=
  ∃ byte, suffix_used[suffix / 8]? = some byte ∧ byte.toNat.testBit (suffix % 8) = true

variable {i : ℕ}

lemma toNat_bit (h : i < 8) : ((1 : UInt8) <<< UInt8.ofNat i).toNat = 2 ^ i := by
  interval_cases i <;> rfl

lemma land_bit_ne_zero {byte : UInt8} (h : i < 8) :
    byte &&& 1 <<< UInt8.ofNat i ≠ 0 ↔ byte.toNat.testBit i = true := by
  have hland : (byte &&& 1 <<< UInt8.ofNat i).toNat = (byte.toNat.testBit i).toNat * 2 ^ i := by
    rw [UInt8.toNat_and, toNat_bit h, Nat.and_two_pow]
  rw [← UInt8.toNat_inj.ne, hland]
  cases byte.toNat.testBit i with
  | false => simp
  | true => simp

lemma testBit_lor_bit {byte : UInt8} {j : ℕ} (h : i < 8) :
    (byte ||| 1 <<< UInt8.ofNat i).toNat.testBit j = true ↔
      byte.toNat.testBit j = true ∨ i = j := by
  rw [UInt8.toNat_or, toNat_bit h, Nat.testBit_or, Bool.or_eq_true, Nat.testBit_two_pow,
    decide_eq_true_iff]

lemma suffix_is_used_eq {suffix_used : Bytes} (h : suffix / 8 < suffix_used.length) :
    ∃ used, suffix_is_used suffix_used suffix = .ok used ∧
      (used = true ↔ SuffixUsed suffix_used suffix) := by
  have hbyte : suffix_used[suffix / 8]? = some suffix_used[suffix / 8] :=
    getElem?_eq_getElem h
  refine ⟨suffix_used[suffix / 8] &&& 1 <<< UInt8.ofNat (suffix % 8) ≠ 0, ?_, ?_⟩
  · rw [suffix_is_used, hbyte]
  · rw [decide_eq_true_iff, land_bit_ne_zero (Nat.mod_lt _ (by omega)), SuffixUsed, hbyte]
    constructor
    · exact fun hbit => ⟨_, rfl, hbit⟩
    · rintro ⟨byte, hsame, hbit⟩
      rw [Option.some.inj hsame]
      exact hbit

/-- Marking a suffix that the bitmap has room for sets its bit and no other. -/
theorem use_suffix_eq {suffix_used : Bytes} (h : suffix / 8 < suffix_used.length) :
    ∃ marked, use_suffix suffix_used suffix = .ok marked ∧ marked.length = suffix_used.length ∧
      ∀ t, SuffixUsed marked t ↔ SuffixUsed suffix_used t ∨ suffix = t := by
  refine ⟨_, if_pos h, length_modify _ _ _, ?_⟩
  intro t
  unfold SuffixUsed
  rw [getElem?_modify]
  by_cases hbyte : suffix / 8 = t / 8
  · have hget : suffix_used[t / 8]? = some suffix_used[t / 8] :=
      getElem?_eq_getElem (hbyte ▸ h)
    simp only [if_pos hbyte, hget]
    constructor
    · rintro ⟨byte, hsame, hbit⟩
      obtain rfl := Option.some.inj hsame
      rcases (testBit_lor_bit (Nat.mod_lt suffix (by omega))).mp hbit with hbit | hbit
      · exact .inl ⟨_, rfl, hbit⟩
      · exact .inr (by omega)
    · rintro (⟨byte, hsame, hbit⟩ | rfl)
      · rw [← Option.some.inj hsame] at hbit
        exact ⟨_, rfl, (testBit_lor_bit (Nat.mod_lt suffix (by omega))).mpr (.inl hbit)⟩
      · exact ⟨_, rfl, (testBit_lor_bit (Nat.mod_lt suffix (by omega))).mpr (.inr rfl)⟩
  · simp only [if_neg hbyte, id_map']
    constructor
    · exact .inl
    · rintro (hused | rfl)
      · exact hused
      · exact absurd rfl hbyte

/-! ## The loops -/

section Scan

variable {base prefix_bytes : Bytes} {keyword_count : ℕ}

def suffixOf (base prefix_bytes : Bytes) (keyword_count : ℕ) (keyword : CString) : Option ℕ :=
  if keyword.bytes = base then none
  else parse_symbolic_macro_suffix keyword.bytes prefix_bytes keyword_count

/-- **The pass over the keywords.** It never leaves the bitmap, and it marks the suffixes that
keywords take. -/
theorem scan_keywords_eq (keywords : List CString) (base_used : Bool) (suffix_used : Bytes)
    (hroom : keyword_count / 8 < suffix_used.length) :
    ∃ used, scan_keywords base prefix_bytes keyword_count (keywords.map some)
        (base_used, suffix_used) = .ok used ∧
      used.2.length = suffix_used.length ∧
      (used.1 = true ↔ base_used = true ∨ ∃ k ∈ keywords, k.bytes = base) ∧
      ∀ t, SuffixUsed used.2 t ↔ SuffixUsed suffix_used t ∨
        t ∈ keywords.filterMap (suffixOf base prefix_bytes keyword_count) := by
  induction keywords generalizing base_used suffix_used with
  | nil =>
    refine ⟨_, rfl, rfl, ?_, ?_⟩
    · simp
    · simp
  | cons keyword keywords ih =>
    rw [map_cons]
    by_cases hbase : keyword.bytes = base
    · have hnone : suffixOf base prefix_bytes keyword_count keyword = none := if_pos hbase
      obtain ⟨used, hscan, hlen, hused, hsuff⟩ := ih true suffix_used hroom
      refine ⟨used, ?_, hlen, ?_, ?_⟩
      · rw [scan_keywords, if_pos hbase]
        exact hscan
      · rw [hused]
        exact iff_of_true (.inl rfl) (.inr ⟨keyword, mem_cons_self, hbase⟩)
      · intro t
        rw [hsuff, filterMap_cons_none hnone]
    · have hmem : (∃ k ∈ keyword :: keywords, k.bytes = base) ↔ ∃ k ∈ keywords, k.bytes = base := by
        simp [hbase]
      cases hparse : parse_symbolic_macro_suffix keyword.bytes prefix_bytes keyword_count with
      | none =>
        have hnone : suffixOf base prefix_bytes keyword_count keyword = none :=
          (if_neg hbase).trans hparse
        obtain ⟨used, hscan, hlen, hused, hsuff⟩ := ih base_used suffix_used hroom
        refine ⟨used, ?_, hlen, ?_, ?_⟩
        · rw [scan_keywords, if_neg hbase, hparse]
          exact hscan
        · rw [hused, hmem]
        · intro t
          rw [hsuff, filterMap_cons_none hnone]
      | some suffix =>
        have hsome : suffixOf base prefix_bytes keyword_count keyword = some suffix :=
          (if_neg hbase).trans hparse
        have hle := parse_symbolic_macro_suffix_le hparse
        have hbyte : suffix / 8 < suffix_used.length :=
          (Nat.div_le_div_right hle).trans_lt hroom
        obtain ⟨marked, hmark, hmarked, hbits⟩ := use_suffix_eq hbyte
        obtain ⟨used, hscan, hlen, hused, hsuff⟩ := ih base_used marked (hmarked ▸ hroom)
        refine ⟨used, ?_, hlen.trans hmarked, ?_, ?_⟩
        · rw [scan_keywords, if_neg hbase, hparse]
          dsimp only
          rw [hmark]
          exact hscan
        · rw [hused, hmem]
        · intro t
          rw [hsuff, hbits, filterMap_cons_some hsome, mem_cons, or_assoc, eq_comm (a := suffix)]

end Scan

lemma free_suffix_eq {suffix_used : Bytes} {n suffix : ℕ}
    (hroom : ∀ t, t < suffix + n → t / 8 < suffix_used.length)
    (hfree : ∃ t, suffix ≤ t ∧ t < suffix + n ∧ ¬ SuffixUsed suffix_used t) :
    ∃ t, free_suffix suffix_used n suffix = .ok (some t) ∧ suffix ≤ t ∧ t < suffix + n ∧
      ¬ SuffixUsed suffix_used t := by
  induction n generalizing suffix with
  | zero =>
    obtain ⟨t, hle, hlt, -⟩ := hfree
    omega
  | succ n ih =>
    obtain ⟨used, hused, hbit⟩ := suffix_is_used_eq (hroom suffix (by omega))
    cases used with
    | false =>
      refine ⟨suffix, ?_, le_refl _, by omega, ?_⟩
      · rw [free_suffix, hused]
        rfl
      · rw [← hbit]
        exact Bool.false_ne_true
    | true =>
      obtain ⟨t, hle, hlt, hfree⟩ := hfree
      have hne : suffix ≠ t := by
        rintro rfl
        exact hfree (hbit.mp rfl)
      obtain ⟨t', ht', hle', hlt', hfree'⟩ := @ih (suffix + 1)
        (fun t ht => hroom t (by omega)) ⟨t, by omega, by omega, hfree⟩
      refine ⟨t', ?_, by omega, by omega, hfree'⟩
      rw [free_suffix, hused]
      exact ht'

/-! ## A free name -/

/-- **Pigeonhole.** When one keyword is the base, the other keywords do not take all suffixes. -/
theorem exists_free_suffix {base prefix_bytes : Bytes} {keywords : List CString}
    (hbase : ∃ k ∈ keywords, k.bytes = base) :
    ∃ t, 1 ≤ t ∧ t < 1 + keywords.length ∧
      t ∉ keywords.filterMap (suffixOf base prefix_bytes keywords.length) := by
  by_contra hall
  push Not at hall
  obtain ⟨k, hk, hbytes⟩ := hbase
  have hlen : (keywords.filterMap (suffixOf base prefix_bytes keywords.length)).length <
      keywords.length :=
    length_filterMap_lt_length_iff_exists.mpr ⟨k, hk, if_pos hbytes⟩
  have hsubset : Finset.Ico 1 (1 + keywords.length) ⊆
      (keywords.filterMap (suffixOf base prefix_bytes keywords.length)).toFinset := by
    intro t ht
    rw [Finset.mem_Ico] at ht
    rw [mem_toFinset]
    exact hall t ht.1 ht.2
  have hcard := Finset.card_le_card hsubset
  rw [Nat.card_Ico] at hcard
  have hle := toFinset_card_le (keywords.filterMap (suffixOf base prefix_bytes keywords.length))
  omega

lemma length_symbolic_prefix_bytes {stage_index : ℕ} (h : stage_index < 5) :
    (symbolic_prefix_bytes stage_index).length = 35 := by
  interval_cases stage_index <;> rfl

lemma length_symbolic_base {stage_index : ℕ} (h : stage_index < 5) :
    (symbolic_base stage_index).length = 34 := by
  interval_cases stage_index <;> rfl

/-- **The macro is fresh.** For a table of at most 65536 keywords and each of the five stages, a
name is found that fits the buffer and is none of the keywords, and the bitmap is never left. -/
theorem choose_symbolic_best_index_macro_name_fresh (keyword_names : CArray (Option CString))
    (keywords : List CString) (stage_index : ℤ)
    (hnames : keyword_names.values = some (keywords.map some) ∨
      keyword_names.values = none ∧ keyword_names.count = 0 ∧ keywords = [])
    (hcount : keyword_names.count ≤ 65536) (hstage : 0 ≤ stage_index ∧ stage_index ≤ 4) :
    ∃ name, choose_symbolic_best_index_macro_name keyword_names stage_index
        SHADERLAB_STAGE_SYMBOLIC_MACRO_NAME_CAPACITY = .ok name ∧
      ∀ k ∈ keywords, k.bytes ≠ name := by
  have hvalues : keyword_names.values.getD [] = keywords.map some := by
    rcases hnames with hsome | ⟨hnone, -, hnil⟩
    · rw [hsome, Option.getD_some]
    · rw [hnone, hnil]
      rfl
  have hlength : keyword_names.count = keywords.length := by
    rcases hnames with hsome | ⟨-, hzero, hnil⟩
    · rw [← keyword_names.count_eq _ hsome, length_map]
    · rw [hzero, hnil, length_nil]
  have hpointer : ¬ (keyword_names.count ≠ 0 ∧ keyword_names.values = none) := by
    rintro ⟨hne, hnone⟩
    rcases hnames with hsome | ⟨-, hzero, -⟩
    · exact absurd (hnone.symm.trans hsome) (by simp)
    · exact hne hzero
  have hindex : stage_index.toNat < 5 := by omega
  have hbase := length_symbolic_base hindex
  have hpre := length_symbolic_prefix_bytes hindex
  unfold choose_symbolic_best_index_macro_name SHADERLAB_STAGE_SYMBOLIC_MACRO_NAME_CAPACITY
  rw [if_neg (by omega)]
  dsimp only
  rw [hbase, hpre, if_neg (not_or.mpr ⟨by omega, not_or.mpr ⟨by omega, hpointer⟩⟩), hvalues,
    hlength]
  rw [hlength] at hcount
  have hroom : keywords.length / 8 <
      (replicate SHADERLAB_STAGE_SYMBOLIC_SUFFIX_BITMAP_BYTES (0 : UInt8)).length := by
    rw [length_replicate, SHADERLAB_STAGE_SYMBOLIC_SUFFIX_BITMAP_BYTES]
    omega
  obtain ⟨used, hscan, hused_length, hused, hsuffixes⟩ :=
    @scan_keywords_eq (symbolic_base stage_index.toNat)
      (symbolic_prefix_bytes stage_index.toNat) _ keywords false _ hroom
  rw [hscan]
  show ∃ name, choose_free_name stage_index.toNat keywords.length 96 used = .ok name ∧ _
  unfold choose_free_name
  by_cases hbase_used : used.1 = true
  · rw [if_neg (not_not.mpr hbase_used)]
    have hmem : ∃ k ∈ keywords, k.bytes = symbolic_base stage_index.toNat :=
      (hused.mp hbase_used).resolve_left Bool.false_ne_true
    obtain ⟨s, hs1, hsn, hsfree⟩ := @exists_free_suffix _
      (symbolic_prefix_bytes stage_index.toNat) _ hmem
    have hzero : ∀ t, ¬ SuffixUsed
        (replicate SHADERLAB_STAGE_SYMBOLIC_SUFFIX_BITMAP_BYTES (0 : UInt8)) t := by
      rintro t ⟨byte, hbyte, hbit⟩
      obtain rfl := eq_of_mem_replicate (mem_of_getElem? hbyte)
      simp at hbit
    have hfree : ¬ SuffixUsed used.2 s := by
      rw [hsuffixes]
      exact not_or.mpr ⟨hzero s, hsfree⟩
    obtain ⟨t, ht, ht1, htn, htfree⟩ := @free_suffix_eq used.2 keywords.length 1 (by
        intro t ht
        rw [hused_length]
        exact (Nat.div_le_div_right (by omega)).trans_lt hroom) ⟨s, hs1, hsn, hfree⟩
    rw [hsuffixes] at htfree
    have hname : (symbolic_prefix_bytes stage_index.toNat ++ decimalBytes t).length < 96 := by
      have hdigits := length_decimalBytes_le (n := t) (k := 5) (by omega) (by omega)
      rw [length_append, hpre]
      omega
    refine ⟨symbolic_prefix_bytes stage_index.toNat ++ decimalBytes t, ?_, ?_⟩
    · rw [ht]
      exact if_pos hname
    -- A keyword of this name would have marked the suffix.
    · intro k hk hsame
      have hne : k.bytes ≠ symbolic_base stage_index.toNat := by
        intro hbytes
        have hlengths := congrArg length (hsame.symm.trans hbytes)
        rw [length_append, hpre, hbase] at hlengths
        omega
      have hsuffix : suffixOf (symbolic_base stage_index.toNat)
          (symbolic_prefix_bytes stage_index.toNat) keywords.length k = some t := by
        rw [suffixOf, if_neg hne, hsame]
        exact parse_symbolic_macro_suffix_eq ht1 (by omega)
      exact htfree (.inr (mem_filterMap.mpr ⟨k, hk, hsuffix⟩))
  · rw [if_pos hbase_used]
    refine ⟨symbolic_base stage_index.toNat, ?_, ?_⟩
    · exact if_pos (by rw [hbase]; omega)
    · intro k hk hsame
      exact hbase_used (hused.mpr (.inr ⟨k, hk, hsame⟩))

/-- The base, its first suffix twice, and a suffix that is no suffix for its leading zero. -/
def takenNames : List CString :=
  [⟨asciiBytes "DXBCSANDBOX_SYMBOLIC_S4_BEST_INDEX_1", by decide⟩,
    ⟨asciiBytes "DXBCSANDBOX_SYMBOLIC_S4_BEST_INDEX", by decide⟩,
    ⟨asciiBytes "DXBCSANDBOX_SYMBOLIC_S4_BEST_INDEX_1", by decide⟩,
    ⟨asciiBytes "DXBCSANDBOX_SYMBOLIC_S4_BEST_INDEX_02", by decide⟩]

def takenTable : CArray (Option CString) where
  values := some (takenNames.map some)
  count := 4
  count_eq := fun _ h => by
    rw [← Option.some.inj h]
    rfl

/-- The second suffix is the free one. -/
theorem choose_symbolic_best_index_macro_name_taken :
    choose_symbolic_best_index_macro_name takenTable 4 96 =
        .ok (asciiBytes "DXBCSANDBOX_SYMBOLIC_S4_BEST_INDEX_2") ∧
      ∀ k ∈ takenNames, k.bytes ≠ asciiBytes "DXBCSANDBOX_SYMBOLIC_S4_BEST_INDEX_2" := by
  have hname : choose_symbolic_best_index_macro_name takenTable 4
      SHADERLAB_STAGE_SYMBOLIC_MACRO_NAME_CAPACITY =
      .ok (asciiBytes "DXBCSANDBOX_SYMBOLIC_S4_BEST_INDEX_2") := by decide +kernel
  obtain ⟨name, hok, hfresh⟩ := choose_symbolic_best_index_macro_name_fresh takenTable takenNames 4
    (.inl rfl) (by decide) (by decide)
  obtain rfl := Except.ok.inj (hname.symm.trans hok)
  exact ⟨hname, hfresh⟩

end DXBCSandbox
