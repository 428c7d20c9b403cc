/-
What reflection records say (`src/compiler/unity_reflection_certificate.c`).

A binding is what a record says: its kind, its name with the prefix, and its values without the
count of variables of a constant buffer. A row is a binding with the constant buffer it belongs to.
The matching loop takes one row after the other from the expected rows, so it ends well exactly when
both sides have the same rows, however often each.
-/
import DXBCSandbox.Compiler.ReflectionCertificate
import Mathlib.Algebra.Order.Group.Multiset

namespace DXBCSandbox

open List Option Function

/-! ## Bindings and rows -/

structure Binding where
  kind : UnityCompilerReflectionKind
  name : Option Bytes
  values : List Int32
  deriving DecidableEq

def ExpectedReflectionRecord.binding (record : ExpectedReflectionRecord) : Binding :=
  ⟨record.kind, record.name.map (name_text record.prefix_name),
    hashed_values record.kind record.values⟩

def UnityCompilerReflectionRecord.binding (record : UnityCompilerReflectionRecord) : Binding :=
  ⟨record.kind, record.name.map CString.bytes, hashed_values record.kind record.values⟩

/-- A binding and, for a constant, the constant buffer that it follows. -/
abbrev BindingRow := Binding × Option Binding

/-- The constant buffer that a constant behind `b` belongs to. -/
def ownerBehind (owner : Option Binding) (b : Binding) : Option Binding :=
  if b.kind = .constantBuffer then some b
  else if b.kind = .constant ∨ b.kind = .stats then owner else none

def rowOf (owner : Option Binding) (b : Binding) : BindingRow :=
  (b, if b.kind = .constant then owner else none)

def bindingRows : Option Binding → List Binding → List BindingRow
  | _, [] => []
  | owner, b :: bs =>
    if b.kind = .stats then bindingRows owner bs
    else rowOf owner b :: bindingRows (ownerBehind owner b) bs

def expectedRows (expected : List ExpectedReflectionRecord) : Multiset BindingRow :=
  bindingRows none (expected.map ExpectedReflectionRecord.binding)

def observedRows (observed : List UnityCompilerReflectionRecord) : Multiset BindingRow :=
  bindingRows none (observed.map UnityCompilerReflectionRecord.binding)

def ownerAfter (owner : Option Binding) (bs : List Binding) : Option Binding :=
  bs.foldl ownerBehind owner

variable {owner : Option Binding}

lemma ownerBehind_stats {b : Binding} (h : b.kind = .stats) : ownerBehind owner b = owner := by
  rw [ownerBehind, h, if_neg (by decide), if_pos (.inr rfl)]

lemma bindingRows_append (owner : Option Binding) (xs ys : List Binding) :
    bindingRows owner (xs ++ ys) =
      bindingRows owner xs ++ bindingRows (ownerAfter owner xs) ys := by
  induction xs generalizing owner with
  | nil => rfl
  | cons x xs ih =>
    rw [cons_append, bindingRows, bindingRows, ownerAfter, foldl_cons]
    by_cases hstats : x.kind = .stats
    · rw [if_pos hstats, if_pos hstats, ih, ownerBehind_stats hstats]
      rfl
    · rw [if_neg hstats, if_neg hstats, ih, cons_append]
      rfl

/-! ## Matching is equality of bindings -/

lemma dotted_name_matches_iff {prefix_name name observed : CString} :
    dotted_name_matches prefix_name name observed = true ↔
      prefix_name.bytes ++ 46 :: name.bytes = observed.bytes := by
  unfold dotted_name_matches
  rw [decide_eq_true_iff]
  constructor
  · rintro ⟨hlen, htake, hdot, hdrop⟩
    have hrest : observed.bytes.drop prefix_name.bytes.length =
        46 :: observed.bytes.drop (prefix_name.bytes.length + 1) := by
      rw [getElem?_eq_some_iff] at hdot
      obtain ⟨hlt, hget⟩ := hdot
      rw [← hget]
      exact drop_eq_getElem_cons hlt
    rw [take_of_length_le (by rw [length_drop]; omega)] at hdrop
    rw [← take_append_drop prefix_name.bytes.length observed.bytes, htake, hrest, hdrop]
  · intro h
    rw [← h]
    refine ⟨?_, ?_, ?_, ?_⟩
    · rw [length_append, length_cons]
      omega
    · rw [take_left]
    · rw [getElem?_append_right (Nat.le_refl _), Nat.sub_self]
      rfl
    · rw [drop_append, drop_eq_nil_of_le (Nat.le_succ _), nil_append,
        Nat.add_sub_cancel_left, drop_one, tail_cons, take_length]

variable {observed : UnityCompilerReflectionRecord} {expected : ExpectedReflectionRecord}

lemma expected_name_matches_observed_iff :
    expected_name_matches_observed expected observed = true ↔ expected.kind = observed.kind ∧
        expected.name.map (name_text expected.prefix_name) = observed.name.map CString.bytes := by
  unfold expected_name_matches_observed
  by_cases hkind : expected.kind = observed.kind
  · rw [if_neg (not_not.mpr hkind), and_iff_right hkind]
    match expected.name, observed.name with
    | none, none => exact iff_of_true rfl rfl
    | none, some _ => exact iff_of_false Bool.false_ne_true (by simp)
    | some _, none => exact iff_of_false Bool.false_ne_true (by simp)
    | some name, some text =>
      rw [map_some, map_some, some.injEq]
      match expected.prefix_name with
      | some prefix_name => exact dotted_name_matches_iff
      | none => exact decide_eq_true_iff
  · rw [if_pos hkind]
    exact iff_of_false Bool.false_ne_true fun h => hkind h.1

lemma set_one_eq_iff {xs ys : List Int32} {v : Int32} (hxs : xs.length = 2) :
    xs.set 1 v = ys.set 1 v ↔ ys.length = 2 ∧ xs.head? = ys.head? := by
  match xs, hxs with
  | [a, b], _ =>
    match ys with
    | [] => simp
    | [c] => simp
    | [c, d] => simp
    | c :: d :: e :: ys => simp

/-- **A record matches when it says the same.** -/
theorem expected_matches_observed_iff
    (hvals : expected.kind = .constantBuffer → expected.values.length = 2) :
    expected_matches_observed expected observed = true ↔ expected.binding = observed.binding := by
  unfold expected_matches_observed ExpectedReflectionRecord.binding
    UnityCompilerReflectionRecord.binding
  rw [Binding.mk.injEq]
  by_cases hname : expected_name_matches_observed expected observed = true
  · obtain ⟨hkind, htext⟩ := expected_name_matches_observed_iff.mp hname
    rw [hname, if_neg (by decide), and_iff_right hkind, and_iff_right htext, ← hkind]
    unfold hashed_values
    by_cases hbuf : expected.kind = .constantBuffer
    · rw [if_pos hbuf, if_pos hbuf, if_pos hbuf, decide_eq_true_iff,
        and_iff_right (hvals hbuf), set_one_eq_iff (hvals hbuf)]
    · rw [if_neg hbuf, if_neg hbuf, if_neg hbuf, decide_eq_true_iff]
  · rw [Bool.not_eq_true] at hname
    rw [hname, if_pos (by decide)]
    refine iff_of_false Bool.false_ne_true ?_
    rintro ⟨hkind, htext, -⟩
    rw [expected_name_matches_observed_iff.mpr ⟨hkind, htext⟩] at hname
    cases hname.symm

/-! ## Rows by index -/

/-- What the expected records have in common that the matching relies on. -/
structure ExpectedShape (expected : List ExpectedReflectionRecord) : Prop where
  no_stats : ∀ e ∈ expected, e.kind ≠ .stats
  values_le : ∀ e ∈ expected, e.values.length ≤ UNITY_COMPILER_REFLECTION_MAX_VALUES
  buffer_values : ∀ e ∈ expected, e.kind = .constantBuffer → e.values.length = 2
  /-- No two constant buffers say the same. -/
  distinct : expected.Pairwise fun a b =>
    a.kind = .constantBuffer → b.kind = .constantBuffer → a.binding ≠ b.binding
  /-- Every constant follows a constant buffer. -/
  owned : ∀ row ∈ bindingRows none (expected.map ExpectedReflectionRecord.binding),
    row.1.kind = .constant → row.2 ≠ none

variable {bs : List Binding} (hstats : ∀ b ∈ bs, b.kind ≠ .stats)

include hstats

lemma getElem?_bindingRows (owner : Option Binding) (i : ℕ) :
    (bindingRows owner bs)[i]? = bs[i]?.map (rowOf (ownerAfter owner (bs.take i))) := by
  induction bs generalizing owner i with
  | nil => rfl
  | cons b bs ih =>
    have hb : b.kind ≠ .stats := hstats b mem_cons_self
    have hbs : ∀ b ∈ bs, b.kind ≠ .stats := (forall_mem_cons.mp hstats).2
    rw [bindingRows, if_neg hb]
    cases i with
    | zero => rfl
    | succ i =>
      rw [getElem?_cons_succ, getElem?_cons_succ, ih hbs, take_succ_cons]
      rfl

lemma length_bindingRows (owner : Option Binding) :
    (bindingRows owner bs).length = bs.length := by
  induction bs generalizing owner with
  | nil => rfl
  | cons b bs ih =>
    have hb : b.kind ≠ .stats := hstats b mem_cons_self
    rw [bindingRows, if_neg hb, length_cons, length_cons,
      ih (forall_mem_cons.mp hstats).2]

variable {i : ℕ}

/-- The owner of a place is the constant buffer before it with constants only between. -/
theorem ownerAfter_take_eq_some {owner : Binding} (hi : i ≤ bs.length) :
    ownerAfter none (bs.take i) = some owner ↔
      ∃ c, c < i ∧ bs[c]? = some owner ∧ owner.kind = .constantBuffer ∧
        ∀ j b, c < j → j < i → bs[j]? = some b → b.kind = .constant := by
  induction i with
  | zero =>
    constructor
    · intro h
      nomatch h
    · rintro ⟨c, hc, -⟩
      omega
  | succ i ih =>
    have hlast : bs[i]? = some (bs.get ⟨i, hi⟩) := getElem?_eq_getElem _
    generalize bs.get ⟨i, hi⟩ = last at hlast
    have hkind : last.kind ≠ .stats := hstats last (mem_of_getElem? hlast)
    rw [take_add_one, hlast, toList_some, ownerAfter, foldl_append,
      foldl_cons, foldl_nil, ← ownerAfter, ownerBehind]
    by_cases hbuf : last.kind = .constantBuffer
    · rw [if_pos hbuf, some.injEq]
      constructor
      · rintro rfl
        exact ⟨i, by omega, hlast, hbuf, fun j b h1 h2 => by omega⟩
      · rintro ⟨c, hc, hget, -, hall⟩
        by_cases hci : c = i
        · rw [hci, hlast, some.injEq] at hget
          exact hget
        · have hconst := hall i last (by omega) (by omega) hlast
          rw [hbuf] at hconst
          nomatch hconst
    · rw [if_neg hbuf]
      by_cases hconst : last.kind = .constant
      · rw [if_pos (.inl hconst), ih (by omega)]
        constructor
        · rintro ⟨c, hc, hget, howner, hall⟩
          refine ⟨c, by omega, hget, howner, ?_⟩
          intro j b h1 h2 hj
          by_cases hji : j = i
          · rw [hji, hlast, some.injEq] at hj
            rw [← hj]
            exact hconst
          · exact hall j b h1 (by omega) hj
        · rintro ⟨c, hc, hget, howner, hall⟩
          have hci : c ≠ i := by
            rintro rfl
            rw [hlast, some.injEq] at hget
            exact hbuf (hget ▸ howner)
          exact ⟨c, by omega, hget, howner, fun j b h1 h2 => hall j b h1 (by omega)⟩
      · rw [if_neg (not_or.mpr ⟨hconst, hkind⟩)]
        constructor
        · intro h
          nomatch h
        · rintro ⟨c, hc, hget, howner, hall⟩
          by_cases hci : c = i
          · rw [hci, hlast, some.injEq] at hget
            exact absurd (hget ▸ howner) hbuf
          · exact absurd (hall i last (by omega) (by omega) hlast) hconst

omit hstats

lemma lt_length_takeWhile_iff {α : Type} {p : α → Bool} {xs : List α} {k : ℕ} :
    k < (xs.takeWhile p).length ↔ k < xs.length ∧ ∀ j x, j ≤ k → xs[j]? = some x → p x = true := by
  induction xs generalizing k with
  | nil => simp
  | cons a xs ih =>
    by_cases ha : p a = true
    · rw [takeWhile_cons_of_pos ha, length_cons, length_cons]
      cases k with
      | zero =>
        refine iff_of_true (Nat.succ_pos _) ⟨Nat.succ_pos _, ?_⟩
        intro j x hj hx
        obtain rfl : j = 0 := by omega
        rw [← some.inj hx]
        exact ha
      | succ k =>
        rw [Nat.succ_lt_succ_iff, Nat.succ_lt_succ_iff, ih]
        refine and_congr_right fun _ => ?_
        constructor
        · intro hall j x hj hx
          cases j with
          | zero =>
            rw [← some.inj hx]
            exact ha
          | succ j => exact hall j x (by omega) hx
        · intro hall j x hj hx
          exact hall (j + 1) x (by omega) hx
    · rw [takeWhile_cons_of_neg ha]
      refine iff_of_false (Nat.not_lt_zero _) ?_
      rintro ⟨-, hall⟩
      exact ha (hall 0 a (Nat.zero_le _) rfl)

variable {c : ℕ}

lemma lt_constant_block_end_iff {expected : List ExpectedReflectionRecord} (hc : c < i) :
    i < constant_block_end expected c ↔ i < expected.length ∧
      ∀ j e, c < j → j ≤ i → expected[j]? = some e → e.kind = .constant := by
  have hlt : i < constant_block_end expected c ↔
      i - (c + 1) < ((expected.drop (c + 1)).takeWhile fun record =>
        record.kind = .constant).length := by
    rw [constant_block_end]
    omega
  rw [hlt, lt_length_takeWhile_iff, length_drop]
  constructor
  · rintro ⟨hlen, hall⟩
    refine ⟨by omega, ?_⟩
    intro j e h1 h2 hj
    apply of_decide_eq_true
    apply hall (j - (c + 1)) e (by omega)
    rw [getElem?_drop, show c + 1 + (j - (c + 1)) = j by omega]
    exact hj
  · rintro ⟨hlen, hall⟩
    refine ⟨by omega, ?_⟩
    intro j e hj hget
    rw [getElem?_drop] at hget
    exact decide_eq_true (hall (c + 1 + j) e (by omega) (by omega) hget)

/-! ## One record -/

def unmatchedRows (rows : List BindingRow) (matched : ℕ → Bool) : Multiset (Option BindingRow) :=
  ↑(((List.range rows.length).filter fun i => !matched i).map fun i => rows[i]?)

lemma unmatchedRows_start (rows : List BindingRow) :
    unmatchedRows rows (fun _ => false) = Multiset.map some ↑rows := by
  have hall : (range rows.length).filter (fun i => !(fun _ : ℕ => false) i) =
      range rows.length := filter_eq_self.mpr fun _ _ => rfl
  unfold unmatchedRows
  rw [hall, Multiset.map_coe]
  congr 1
  apply ext_getElem?
  intro i
  rw [getElem?_map, getElem?_map]
  by_cases hi : i < rows.length
  · rw [getElem?_range hi, map_some, getElem?_eq_getElem hi, map_some]
  · rw [getElem?_eq_none (by rw [length_range]; omega),
      getElem?_eq_none (by omega), map_none, map_none]

variable {rows : List BindingRow} {matched : ℕ → Bool}

lemma mem_unmatchedRows {row : BindingRow} :
    some row ∈ unmatchedRows rows matched ↔ ∃ i, matched i = false ∧ rows[i]? = some row := by
  unfold unmatchedRows
  rw [Multiset.mem_coe, List.mem_map]
  constructor
  · rintro ⟨i, hi, hrow⟩
    obtain ⟨-, hfree⟩ := mem_filter.mp hi
    rw [Bool.not_eq_true'] at hfree
    exact ⟨i, hfree, hrow⟩
  · rintro ⟨i, hfree, hrow⟩
    have hi := (List.getElem?_eq_some_iff.mp hrow).1
    refine ⟨i, mem_filter.mpr ⟨mem_range.mpr hi, ?_⟩, hrow⟩
    rw [hfree, Bool.not_false]

lemma unmatchedRows_update (hi : i < rows.length) (hfree : matched i = false) :
    unmatchedRows rows matched =
      rows[i]? ::ₘ unmatchedRows rows (Function.update matched i true) := by
  have hmem : i ∈ (List.range rows.length).filter fun i => !matched i := by
    refine mem_filter.mpr ⟨mem_range.mpr hi, ?_⟩
    rw [hfree, Bool.not_false]
  have hrest : ((List.range rows.length).filter fun j => !update matched i true j) =
      ((List.range rows.length).filter fun j => !matched j).erase i := by
    rw [List.Nodup.erase_eq_filter (List.nodup_range.filter _), List.filter_filter]
    apply List.filter_congr
    intro j _
    by_cases hj : j = i
    · rw [hj, update_self, bne_self_eq_false]
      rfl
    · rw [update_of_ne hj, bne_iff_ne.mpr hj, Bool.true_and]
  unfold unmatchedRows
  rw [hrest, Multiset.cons_coe, Multiset.coe_eq_coe]
  exact (perm_cons_erase hmem).map _

lemma unmatchedRows_eq_zero_iff :
    unmatchedRows rows matched = 0 ↔ ∀ i, i < rows.length → matched i = true := by
  unfold unmatchedRows
  rw [Multiset.coe_eq_zero, map_eq_nil_iff, filter_eq_nil_iff]
  constructor
  · intro h i hi
    have hi' := h i (mem_range.mpr hi)
    rwa [Bool.not_eq_true', Bool.not_eq_false] at hi'
  · intro h i hi
    rw [h i (mem_range.mp hi)]
    exact Bool.false_ne_true

section

variable {expected : List ExpectedReflectionRecord} {matched : ℕ → Bool} {lo hi : ℕ}
  {wanted : ExpectedReflectionRecord → Bool}

lemma first_unmatched_eq_some {i : ℕ}
    (h : first_unmatched expected matched lo hi wanted = some i) :
    lo ≤ i ∧ i < hi ∧ matched i = false ∧ ∃ e, expected[i]? = some e ∧ wanted e = true := by
  have hmem := mem_range'_1.mp (mem_of_find?_eq_some h)
  have hwanted := find?_some h
  rw [Bool.and_eq_true, Bool.not_eq_true', Option.any_eq_true] at hwanted
  obtain ⟨hfree, e, he, hw⟩ := hwanted
  exact ⟨hmem.1, by omega, hfree, e, he, hw⟩

lemma first_unmatched_eq_none (h : first_unmatched expected matched lo hi wanted = none)
    {i : ℕ} {e : ExpectedReflectionRecord} (h1 : lo ≤ i) (h2 : i < hi) (hfree : matched i = false)
    (he : expected[i]? = some e) : wanted e = false := by
  have hall := find?_eq_none.mp h i (mem_range'_1.mpr ⟨h1, by omega⟩)
  rw [hfree, he] at hall
  rwa [Bool.not_false, Bool.true_and, any_some, Bool.not_eq_true] at hall

end

/-- The constant buffer of the loop is the owner of the next constant. -/
def InScope (expected : List ExpectedReflectionRecord) (current : Option ℕ)
    (owner : Option Binding) : Prop :=
  match current with
  | none => owner = none
  | some c => ∃ e, expected[c]? = some e ∧ e.kind = .constantBuffer ∧ owner = some e.binding

section

variable {expected : List ExpectedReflectionRecord} {s : CertifyState} {owner : Option Binding}
  {observed : UnityCompilerReflectionRecord} {i : ℕ} {e : ExpectedReflectionRecord}

abbrev recordRows (expected : List ExpectedReflectionRecord) : List BindingRow :=
  bindingRows none (expected.map ExpectedReflectionRecord.binding)

/-- The constant buffer of a constant at place `i`. -/
abbrev ownerAt (expected : List ExpectedReflectionRecord) (i : ℕ) : Option Binding :=
  ownerAfter none ((expected.map ExpectedReflectionRecord.binding).take i)

variable (h : ExpectedShape expected)

include h

lemma ExpectedShape.no_stats_binding :
    ∀ b ∈ expected.map ExpectedReflectionRecord.binding, b.kind ≠ .stats :=
  forall_mem_map.mpr h.no_stats

lemma ExpectedShape.row (he : expected[i]? = some e) :
    (recordRows expected)[i]? = some (rowOf (ownerAt expected i) e.binding) := by
  rw [getElem?_bindingRows h.no_stats_binding, getElem?_map, he, map_some, map_some]

lemma ExpectedShape.of_row {row : BindingRow} (hrow : (recordRows expected)[i]? = some row) :
    ∃ e, expected[i]? = some e ∧ row = rowOf (ownerAt expected i) e.binding := by
  cases he : expected[i]? with
  | none =>
    rw [getElem?_bindingRows h.no_stats_binding, getElem?_map, he] at hrow
    nomatch hrow
  | some e =>
    rw [h.row he, some.injEq] at hrow
    exact ⟨e, rfl, hrow.symm⟩

lemma ExpectedShape.distinct_at {c' : ℕ} {a b : ExpectedReflectionRecord} (hlt : c < c')
    (hc : expected[c]? = some a) (hc' : expected[c']? = some b) (ha : a.kind = .constantBuffer)
    (hb : b.kind = .constantBuffer) :
    a.binding ≠ b.binding := by
  obtain ⟨h1, rfl⟩ := List.getElem?_eq_some_iff.mp hc
  obtain ⟨h2, rfl⟩ := List.getElem?_eq_some_iff.mp hc'
  exact pairwise_iff_getElem.mp h.distinct c c' h1 h2 hlt ha hb

/-- The constants of a block belong to its constant buffer, and no others do. -/
theorem ExpectedShape.owner_iff {buffer : ExpectedReflectionRecord}
    (hc : expected[c]? = some buffer) (hbuf : buffer.kind = .constantBuffer)
    (he : expected[i]? = some e) (hconst : e.kind = .constant) :
    ownerAt expected i = some buffer.binding ↔ c + 1 ≤ i ∧ i < constant_block_end expected c := by
  have hlt := (List.getElem?_eq_some_iff.mp he).1
  rw [ownerAfter_take_eq_some h.no_stats_binding (by rw [length_map]; omega)]
  constructor
  · rintro ⟨c', hc', hget, -, hall⟩
    rw [List.getElem?_map, map_eq_some_iff] at hget
    obtain ⟨buffer', hget, hsame⟩ := hget
    have hkind : buffer'.kind = .constantBuffer :=
      (congrArg Binding.kind hsame : buffer'.kind = buffer.kind).trans hbuf
    -- The constant buffers say different things, so this is the one at `c`.
    have heq : c' = c := by
      by_contra hne
      rcases Nat.lt_or_gt_of_ne hne with hlt | hgt
      · exact h.distinct_at hlt hget hc hkind hbuf hsame
      · exact h.distinct_at hgt hc hget hbuf hkind hsame.symm
    rw [heq] at hc' hall
    refine ⟨hc', (lt_constant_block_end_iff hc').mpr ⟨hlt, ?_⟩⟩
    intro j e' h1 h2 hj
    by_cases hji : j = i
    · rw [hji, he, some.injEq] at hj
      rw [← hj]
      exact hconst
    · apply hall j e'.binding h1 (by omega)
      rw [List.getElem?_map, hj, map_some]
  · rintro ⟨hci, hend⟩
    obtain ⟨-, hall⟩ := (lt_constant_block_end_iff hci).mp hend
    refine ⟨c, hci, ?_, hbuf, ?_⟩
    · rw [List.getElem?_map, hc, map_some]
    · intro j b h1 h2 hj
      rw [List.getElem?_map, map_eq_some_iff] at hj
      obtain ⟨e', hj, rfl⟩ := hj
      exact hall j e' h1 (by omega) hj

omit h in
def searchRange (expected : List ExpectedReflectionRecord) (s : CertifyState)
    (observed : UnityCompilerReflectionRecord) : Option (ℕ × ℕ) :=
  if observed.kind = .constant then
    s.current_expected_cb.map fun cb => (cb + 1, constant_block_end expected cb)
  else some (0, expected.length)

variable (hscope : InScope expected s.current_expected_cb owner)

include hscope

/-- A record that says the same is in the range exactly when it has the same row. -/
theorem ExpectedShape.row_eq_iff {lo hi : ℕ}
    (hrange : searchRange expected s observed = some (lo, hi)) (he : expected[i]? = some e)
    (hsame : e.binding = observed.binding) :
    rowOf (ownerAt expected i) e.binding = rowOf owner observed.binding ↔ lo ≤ i ∧ i < hi := by
  have hkind : e.kind = observed.kind := congrArg Binding.kind hsame
  unfold rowOf
  rw [hsame, Prod.mk.injEq, eq_self_iff_true, true_and]
  unfold searchRange at hrange
  by_cases hconst : observed.kind = .constant
  · rw [if_pos hconst] at hrange
    have hbind : observed.binding.kind = .constant := hconst
    rw [if_pos hbind, if_pos hbind]
    cases hcur : s.current_expected_cb with
    | none =>
      rw [hcur] at hrange
      nomatch hrange
    | some c =>
      rw [hcur] at hrange hscope
      obtain ⟨buffer, hc, hbuf, rfl⟩ := hscope
      obtain ⟨rfl, rfl⟩ := Prod.mk.inj (some.inj hrange)
      exact h.owner_iff hc hbuf he (hkind.trans hconst)
  · rw [if_neg hconst] at hrange
    have hbind : observed.binding.kind ≠ .constant := hconst
    rw [if_neg hbind, if_neg hbind]
    obtain ⟨rfl, rfl⟩ := Prod.mk.inj (some.inj hrange)
    exact iff_of_true rfl ⟨Nat.zero_le _, (List.getElem?_eq_some_iff.mp he).1⟩

omit hscope in
omit h in
lemma find_expected_eq (expected : List ExpectedReflectionRecord) (s : CertifyState)
    (observed : UnityCompilerReflectionRecord) :
    (∃ i lo hi, find_expected expected s observed = .ok i ∧
      searchRange expected s observed = some (lo, hi) ∧
      first_unmatched expected s.matched lo hi
        (fun record => expected_matches_observed record observed) = some i) ∨
    ∃ nearest, find_expected expected s observed = .error nearest ∧
      ∀ lo hi, searchRange expected s observed = some (lo, hi) →
        first_unmatched expected s.matched lo hi
          (fun record => expected_matches_observed record observed) = none := by
  unfold find_expected
  dsimp only
  rw [← searchRange]
  cases hrange : searchRange expected s observed with
  | none => exact .inr ⟨none, rfl, nofun⟩
  | some range =>
    obtain ⟨lo, hi⟩ := range
    dsimp only
    cases hfound : first_unmatched expected s.matched lo hi
        (fun record => expected_matches_observed record observed) with
    | some i => exact .inl ⟨i, lo, hi, rfl, rfl, hfound⟩
    | none =>
      right
      have hnone : ∀ lo' hi', some (lo, hi) = some (lo', hi') →
          first_unmatched expected s.matched lo' hi'
            (fun record => expected_matches_observed record observed) = none := by
        intro lo' hi' heq
        obtain ⟨rfl, rfl⟩ := Prod.mk.inj (some.inj heq)
        exact hfound
      dsimp only
      cases first_unmatched expected s.matched lo hi
          (fun record => expected_name_matches_observed record observed) with
      | some nearest => exact ⟨_, rfl, hnone⟩
      | none => exact ⟨_, rfl, hnone⟩

/-- **A record is found exactly when its row is left.** -/
theorem find_expected_ok (hfind : find_expected expected s observed = .ok i) :
    s.matched i = false ∧ (recordRows expected)[i]? = some (rowOf owner observed.binding) := by
  rcases find_expected_eq expected s observed with ⟨i', lo, hi, hok, hrange, hfst⟩ | ⟨_, herr, _⟩
  · obtain rfl : i' = i := by
      rw [hok] at hfind
      exact Except.ok.inj hfind
    obtain ⟨h1, h2, hfree, e, he, hmatch⟩ := first_unmatched_eq_some hfst
    have hsame := (expected_matches_observed_iff (h.buffer_values e (mem_of_getElem? he))).mp hmatch
    refine ⟨hfree, ?_⟩
    rw [h.row he, (h.row_eq_iff hscope hrange he hsame).mpr ⟨h1, h2⟩]
  · rw [herr] at hfind
    nomatch hfind

lemma find_expected_error {nearest : Option ℕ}
    (hfind : find_expected expected s observed = .error nearest) :
    some (rowOf owner observed.binding) ∉ unmatchedRows (recordRows expected) s.matched := by
  intro hmem
  obtain ⟨i, hfree, hrow⟩ := mem_unmatchedRows.mp hmem
  obtain ⟨e, he, hrow'⟩ := h.of_row hrow
  have hsame : e.binding = observed.binding := (congrArg Prod.fst hrow').symm
  rcases find_expected_eq expected s observed with ⟨i', lo, hi, hok, -, -⟩ | ⟨_, -, hnone⟩
  · rw [hok] at hfind
    nomatch hfind
  · cases hrange : searchRange expected s observed with
    | none =>
      -- A constant outside every constant buffer: the expected constants all have one.
      have hconst : observed.kind = .constant := by
        by_contra hkind
        rw [searchRange, if_neg hkind] at hrange
        nomatch hrange
      rw [searchRange, if_pos hconst, map_eq_none_iff] at hrange
      rw [hrange] at hscope
      obtain rfl : owner = none := hscope
      refine h.owned _ (mem_of_getElem? hrow) hconst ?_
      rw [rowOf]
      exact ite_self _
    | some range =>
      obtain ⟨lo, hi⟩ := range
      obtain ⟨h1, h2⟩ := (h.row_eq_iff hscope hrange he hsame).mp hrow'.symm
      have hmatch := first_unmatched_eq_none (hnone lo hi hrange) h1 h2 hfree he
      rw [(expected_matches_observed_iff
        (h.buffer_values e (mem_of_getElem? he))).mpr hsame] at hmatch
      cases hmatch.symm

lemma InScope.step {found : ℕ} (hstats : observed.kind ≠ .stats)
    (hrow : (recordRows expected)[found]? = some (rowOf owner observed.binding)) :
    InScope expected
      (if observed.kind = .constantBuffer then some found
        else if observed.kind = .constant then s.current_expected_cb else none)
      (ownerBehind owner observed.binding) := by
  have hkind : observed.binding.kind = observed.kind := rfl
  unfold ownerBehind
  rw [hkind]
  by_cases hbuf : observed.kind = .constantBuffer
  · rw [if_pos hbuf, if_pos hbuf]
    obtain ⟨e, he, hsame⟩ := h.of_row hrow
    have hbind : observed.binding = e.binding := congrArg Prod.fst hsame
    refine ⟨e, he, ?_, by rw [hbind]⟩
    exact (congrArg Binding.kind hbind).symm.trans hbuf
  · rw [if_neg hbuf, if_neg hbuf]
    by_cases hconst : observed.kind = .constant
    · rw [if_pos hconst, if_pos (.inl hconst)]
      exact hscope
    · rw [if_neg hconst, if_neg (not_or.mpr ⟨hconst, hstats⟩)]
      rfl

omit hscope

omit h

/-- The rows of the observed records from here on, as they are looked for. -/
def wantedRows (owner : Option Binding) (observed : List UnityCompilerReflectionRecord) :
    Multiset (Option BindingRow) :=
  Multiset.map some ↑(bindingRows owner (observed.map UnityCompilerReflectionRecord.binding))

lemma wantedRows_stats (owner : Option Binding) (hstats : observed.kind = .stats)
    (rest : List UnityCompilerReflectionRecord) :
    wantedRows owner (observed :: rest) = wantedRows owner rest := by
  have hbind : observed.binding.kind = .stats := hstats
  unfold wantedRows
  rw [map_cons, bindingRows, if_pos hbind]

lemma wantedRows_cons (owner : Option Binding) (hstats : observed.kind ≠ .stats)
    (rest : List UnityCompilerReflectionRecord) :
    wantedRows owner (observed :: rest) = some (rowOf owner observed.binding) ::ₘ
        wantedRows (ownerBehind owner observed.binding) rest := by
  have hbind : observed.binding.kind ≠ .stats := hstats
  unfold wantedRows
  rw [map_cons, bindingRows, if_neg hbind, ← Multiset.cons_coe, Multiset.map_cons]

include h

include hscope

/-- **The matching loop** takes the rows of the observed records away, one after the other. -/
theorem certify_loop_spec (records : List UnityCompilerReflectionRecord) (index : ℕ) :
    (∃ s', certify_loop expected index s records = .ok s' ∧
      unmatchedRows (recordRows expected) s.matched =
        wantedRows owner records + unmatchedRows (recordRows expected) s'.matched ∧
      s'.discarded_cb_count = (s.discarded_cb_count ||
        records.any fun record => record.kind = .constantBuffer)) ∨
    ∃ failure, certify_loop expected index s records = .error failure ∧
      ¬ wantedRows owner records ≤ unmatchedRows (recordRows expected) s.matched := by
  induction records generalizing s owner index with
  | nil =>
    left
    refine ⟨s, rfl, ?_, ?_⟩
    · exact (Multiset.zero_add _).symm
    · rw [any_nil, Bool.or_false]
  | cons observed records ih =>
    unfold certify_loop
    by_cases hstats : observed.kind = .stats
    · rw [if_pos hstats, wantedRows_stats owner hstats, any_cons, hstats,
        decide_eq_false (by decide), Bool.false_or]
      exact ih hscope (index + 1)
    rw [if_neg hstats, wantedRows_cons owner hstats]
    unfold certify_step
    cases hfind : find_expected expected s observed with
    | error nearest =>
      right
      refine ⟨_, rfl, ?_⟩
      intro hle
      apply find_expected_error h hscope hfind
      exact Multiset.mem_of_le hle (Multiset.mem_cons_self _ _)
    | ok found =>
      obtain ⟨hfree, hrow⟩ := find_expected_ok h hscope hfind
      have hlt := (List.getElem?_eq_some_iff.mp hrow).1
      have htake := unmatchedRows_update hlt hfree
      rw [hrow] at htake
      have hnext := hscope.step h hstats hrow
      rcases ih (s := ⟨update s.matched found true, _,
          s.discarded_cb_count || observed.kind = .constantBuffer,
          s.matched_record_count + 1⟩) hnext (index + 1) with
        ⟨s', hrun, hrows, hcnt⟩ | ⟨failure, hrun, hrows⟩
      · left
        refine ⟨s', hrun, ?_, ?_⟩
        · rw [htake, hrows, Multiset.cons_add]
        · rw [hcnt, any_cons, Bool.or_assoc]
      · right
        refine ⟨failure, hrun, ?_⟩
        rw [htake, Multiset.cons_le_cons_iff]
        exact hrows

end

/-! ## The verdict -/

section

variable {expected : List ExpectedReflectionRecord} {common_sha256 : Bytes → Digest}

/-- The verdict depends on the rows only. -/
noncomputable def certificateStatus (expected observed : Multiset BindingRow) :
    UnityReflectionCertificateStatus :=
  open Classical in
  if ¬ observed ≤ expected then .extraRecord
  else if observed ≠ expected then .missingRecord
  else if ∃ row ∈ observed, row.1.kind = .constantBuffer then .compatible
  else .ok

lemma first_unmatched_any_eq_none :
    first_unmatched expected matched 0 expected.length (fun _ => true) = none ↔
      ∀ i, i < expected.length → matched i = true := by
  unfold first_unmatched
  rw [find?_eq_none]
  constructor
  · intro h i hi
    have hi' := h i (mem_range'_1.mpr ⟨Nat.zero_le i, by omega⟩)
    rwa [getElem?_eq_getElem hi, any_some, Bool.and_true, Bool.not_eq_true',
      Bool.not_eq_false] at hi'
  · intro h i hi
    have hi' := mem_range'_1.mp hi
    rw [h i (by omega)]
    exact Bool.false_ne_true

lemma exists_buffer_row_iff {bs : List Binding} :
    (∃ row ∈ bindingRows owner bs, row.1.kind = .constantBuffer) ↔
      ∃ b ∈ bs, b.kind = .constantBuffer := by
  induction bs generalizing owner with
  | nil =>
    refine iff_of_false ?_ ?_
    · rintro ⟨row, hrow, -⟩
      nomatch hrow
    · rintro ⟨b, hb, -⟩
      nomatch hb
  | cons b bs ih =>
    rw [exists_mem_cons_iff, bindingRows]
    by_cases hstats : b.kind = .stats
    · have hb : b.kind ≠ .constantBuffer := by
        rw [hstats]
        decide
      rw [if_pos hstats, ih, or_iff_right hb]
    · rw [if_neg hstats, exists_mem_cons_iff, ih]
      exact Iff.rfl

lemma any_constantBuffer_iff (records : List UnityCompilerReflectionRecord) :
    (records.any fun record => record.kind = .constantBuffer) = true ↔
      ∃ row ∈ observedRows records, row.1.kind = .constantBuffer := by
  unfold observedRows
  simp only [Multiset.mem_coe]
  rw [exists_buffer_row_iff, List.any_eq_true]
  simp only [decide_eq_true_eq, List.mem_map]
  constructor
  · rintro ⟨record, hrec, hkind⟩
    exact ⟨record.binding, ⟨record, hrec, rfl⟩, hkind⟩
  · rintro ⟨_, ⟨record, hrec, rfl⟩, hkind⟩
    exact ⟨record, hrec, hkind⟩

/-- **The verdict of the matching.** -/
theorem certify_common_parameters_status (h : ExpectedShape expected)
    (records : List UnityCompilerReflectionRecord) (report : UnityReflectionCertificateReport) :
    (certify_common_parameters common_sha256 expected records report).status =
      certificateStatus (expectedRows expected) (observedRows records) := by
  have hsome : Injective (some : BindingRow → Option BindingRow) :=
    some_injective _
  have hlen : (recordRows expected).length = expected.length := by
    rw [length_bindingRows h.no_stats_binding, length_map]
  unfold certify_common_parameters certificateStatus
  rcases @certify_loop_spec expected ⟨fun _ => false, none, false, 0⟩ none h rfl records 0
    with ⟨s', hrun, hrows, hcnt⟩ | ⟨failure, hrun, hrows⟩
  · rw [hrun]
    rw [unmatchedRows_start] at hrows
    have hrows : Multiset.map some (expectedRows expected) =
        Multiset.map some (observedRows records) + unmatchedRows (recordRows expected) s'.matched := hrows
    have hle : observedRows records ≤ expectedRows expected := by
      rw [← Multiset.map_le_map_iff hsome]
      exact hrows ▸ Multiset.le_add_right _ _
    have hzero : observedRows records = expectedRows expected ↔
        ∀ i, i < expected.length → s'.matched i = true := by
      rw [← hlen, ← unmatchedRows_eq_zero_iff]
      constructor
      · intro heq
        rw [heq] at hrows
        exact left_eq_add.mp hrows
      · intro hnone
        rw [hnone, Multiset.add_zero] at hrows
        exact (Multiset.map_injective hsome hrows).symm
    rw [if_neg (not_not.mpr hle)]
    dsimp only
    cases hfst : first_unmatched expected s'.matched 0 expected.length fun _ => true with
    | some index =>
      have hne : observedRows records ≠ expectedRows expected := by
        intro heq
        rw [first_unmatched_any_eq_none.mpr (hzero.mp heq)] at hfst
        nomatch hfst
      rw [if_pos hne]
      rfl
    | none =>
      rw [if_neg (not_not.mpr (hzero.mpr (first_unmatched_any_eq_none.mp hfst)))]
      dsimp only
      rw [hcnt, Bool.false_or]
      by_cases hbuf : (records.any fun record => record.kind = .constantBuffer) = true
      · rw [if_pos hbuf, if_pos ((any_constantBuffer_iff records).mp hbuf)]
      · rw [if_neg hbuf, if_neg fun h => hbuf ((any_constantBuffer_iff records).mpr h)]
  · rw [hrun, if_pos]
    · rfl
    · intro hle
      apply hrows
      rw [unmatchedRows_start]
      exact Multiset.map_le_map hle

end

end DXBCSandbox
