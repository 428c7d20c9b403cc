/-
What the variant domain of a compute shader enumerates.

No keyword is a choice twice, in one family or in two, so a state can be told from the keywords
it reports. The strides are the places of a mixed radix, so every kernel with one choice for each
family has exactly one index.
-/
import DXBCSandbox.Compiler.ComputeDomain
import DXBCSandbox.Lib.MixedRadix
import Mathlib.Data.List.Nodup
import Mathlib.Data.List.ReduceOption
import Mathlib.Data.List.TakeWhile

namespace DXBCSandbox

open List Checks MixedRadix

namespace ComputeDomain

/-! ## Lines -/

def joinTokens : List Bytes → Bytes
  | [] => []
  | [token] => token
  | token :: tokens => token ++ 32 :: joinTokens tokens

def tokenChoice (token : Bytes) : Option Bytes :=
  if all_underscores token then none else some token

def LineChoices (line : Bytes) (choices : List (Option Bytes)) : Prop :=
  ∃ tokens, joinTokens tokens = line ∧ (∀ token ∈ tokens, 32 ∉ token ∧ token ≠ []) ∧
    choices = tokens.map tokenChoice

variable {line : Bytes}

lemma count_choices_eq_some {previous : Option UInt8} {n : ℕ}
    (h : count_choices previous line = some n) : n = line.count 32 + 1 := by
  induction line generalizing previous n with
  | nil => exact (Option.some.inj h).symm
  | cons value rest ih =>
    rw [count_choices] at h
    by_cases hspace : value ≠ 32
    · rw [if_pos hspace] at h
      rw [ih h, count_cons_of_ne hspace]
    · rw [if_neg hspace] at h
      split_ifs at h
      obtain ⟨m, hm, rfl⟩ := Option.map_eq_some_iff.mp h
      rw [not_not.mp hspace, count_cons_self, ih hm]

lemma joinTokens_cons_cons (token token' : Bytes) (tokens : List Bytes) :
    joinTokens (token :: token' :: tokens) = token ++ 32 :: joinTokens (token' :: tokens) := by
  rw [joinTokens]
  simp

lemma not_mem_takeWhile (line : Bytes) : 32 ∉ line.takeWhile (· ≠ 32) := by
  intro hmem
  have hne := mem_takeWhile_imp hmem
  exact absurd rfl (of_decide_eq_true hne)

/-- A line is its first token, and the rest behind a space if there is one. -/
theorem takeWhile_space_cases (line : Bytes) :
    (line.count 32 = 0 ∧ line.takeWhile (· ≠ 32) = line) ∨
      ∃ next, line = line.takeWhile (· ≠ 32) ++ 32 :: next ∧ line.count 32 = next.count 32 + 1 := by
  induction line with
  | nil => exact .inl ⟨rfl, rfl⟩
  | cons value rest ih =>
    by_cases hspace : value = 32
    · refine .inr ⟨rest, ?_, ?_⟩
      · rw [takeWhile_cons_of_neg (by simp [hspace]), nil_append, hspace]
      · rw [hspace, count_cons_self]
    · rw [takeWhile_cons_of_pos (by simp [hspace]), count_cons_of_ne hspace]
      rcases ih with ⟨hcnt, heq⟩ | ⟨next, heq, hcnt⟩
      · exact .inl ⟨hcnt, by rw [heq]⟩
      · exact .inr ⟨next, by rw [cons_append, ← heq], hcnt⟩

lemma drop_takeWhile_space {next : Bytes} (h : line = line.takeWhile (· ≠ 32) ++ 32 :: next) :
    (line.drop (line.takeWhile (· ≠ 32)).length).drop 1 = next := by
  generalize line.takeWhile (· ≠ 32) = token at h
  rw [h, drop_left]
  rfl

/-! ## Names -/

def namesOf (families : List DomainFamily) : List Bytes :=
  families.flatMap fun family => family.choices.reduceOption

variable {families : List DomainFamily} {choices : List (Option Bytes)} {name : Bytes}

lemma families_contain_iff : families_contain families choices name = true ↔
      name ∈ namesOf families ++ choices.reduceOption := by
  unfold families_contain namesOf
  rw [Bool.or_eq_true, any_eq_true, contains_iff_mem, mem_append, mem_flatMap, reduceOption_mem_iff]
  simp only [contains_iff_mem, reduceOption_mem_iff]

variable {families' : List DomainFamily} {lines : List (Option CString)} {text_size : ℕ} {α : Type}

section Parse

variable {request : UnityCompilerComputePreprocessRequest} {families : List DomainFamily}
  {diagnostic : UnityComputeDomainDiagnostic}

/-- What is kept of the choices of a line: at most one default, and no keyword twice. -/
structure FreshChoices (families : List DomainFamily) (has_default : Bool)
    (choices : List (Option Bytes)) : Prop where
  default_iff : has_default = true ↔ none ∈ choices
  nodup : choices.Nodup
  names_nodup : (namesOf families ++ choices.reduceOption).Nodup

lemma nodup_concat {l : List α} {a : α} (h : l.Nodup) (ha : a ∉ l) : (l ++ [a]).Nodup := by
  rw [nodup_append]
  refine ⟨h, nodup_singleton a, ?_⟩
  intro b hb c hc hbc
  rw [mem_singleton.mp hc] at hbc
  exact ha (hbc ▸ hb)

variable {choices : List (Option Bytes)}

lemma FreshChoices.add_default (h : FreshChoices families false choices) :
    FreshChoices families true (choices ++ [none]) where
  default_iff := by simp
  nodup := nodup_concat h.nodup fun hmem => absurd (h.default_iff.mpr hmem) Bool.false_ne_true
  names_nodup := by
    rw [reduceOption_append]
    simpa using h.names_nodup

variable {has_default : Bool}

lemma FreshChoices.add_name (h : FreshChoices families has_default choices)
    (hname : ¬ families_contain families choices name = true) :
    FreshChoices families has_default (choices ++ [some name]) where
  default_iff := by
    rw [h.default_iff]
    simp
  nodup := by
    apply nodup_concat h.nodup
    intro hmem
    apply hname
    rw [families_contain_iff, mem_append, reduceOption_mem_iff]
    exact .inr hmem
  names_nodup := by
    rw [reduceOption_append, reduceOption_singleton, Option.toList_some, ← append_assoc]
    apply nodup_concat h.names_nodup
    rwa [families_contain_iff] at hname

variable {parsed : List (Option Bytes)} {start : Bytes} {remaining : ℕ}

lemma parse_choices_step (hfresh : FreshChoices families has_default choices)
    (h : parse_choices request families diagnostic (remaining + 1) has_default choices start =
      .ok parsed) :
    ∃ has_default' diagnostic', FreshChoices families has_default'
          (choices ++ [tokenChoice (start.takeWhile (· ≠ 32))]) ∧
        start.takeWhile (· ≠ 32) ≠ [] ∧
        parse_choices request families diagnostic' remaining has_default'
          (choices ++ [tokenChoice (start.takeWhile (· ≠ 32))])
          ((start.drop (start.takeWhile (· ≠ 32)).length).drop 1) = .ok parsed := by
  rw [parse_choices] at h
  obtain ⟨hspan, h⟩ := ite_error_eq_ok.mp h
  rw [not_not] at hspan
  have hne : start.takeWhile (· ≠ 32) ≠ [] := by
    intro hnil
    rw [hnil] at hspan
    cases hspan
  unfold tokenChoice
  by_cases hund : all_underscores (start.takeWhile (· ≠ 32)) = true
  · rw [if_pos hund] at h
    obtain ⟨hdflt, h⟩ := ite_error_eq_ok.mp h
    rw [if_pos hund]
    rw [Bool.not_eq_true] at hdflt
    subst hdflt
    exact ⟨true, _, hfresh.add_default, hne, h⟩
  · rw [if_neg hund] at h
    obtain ⟨hnew, h⟩ := ite_error_eq_ok.mp h
    push Not at hnew
    rw [if_neg hund]
    exact ⟨has_default, _, hfresh.add_name hnew.1, hne, h⟩

/-- The choices of a line are those of its tokens, and all of them are new. -/
theorem parse_choices_eq_ok (hcnt : remaining = start.count 32 + 1)
    (hfresh : FreshChoices families has_default choices)
    (h : parse_choices request families diagnostic remaining has_default choices start = .ok
      parsed) :
    (∃ has_default', FreshChoices families has_default' parsed) ∧
      ∃ tokens, tokens ≠ [] ∧ joinTokens tokens = start ∧
        (∀ token ∈ tokens, 32 ∉ token ∧ token ≠ []) ∧
          parsed = choices ++ tokens.map tokenChoice := by
  induction remaining generalizing has_default choices start diagnostic with
  | zero => omega
  | succ remaining ih =>
    obtain ⟨has_default', diagnostic', hfresh', hne, h⟩ := parse_choices_step hfresh h
    have htoken := not_mem_takeWhile start
    rcases takeWhile_space_cases start with ⟨hzero, heq⟩ | ⟨next, heq, hnext⟩
    · -- The last token is the rest of the line.
      obtain rfl : remaining = 0 := by omega
      rw [parse_choices, pure_eq_ok] at h
      rw [h] at hfresh'
      refine ⟨⟨has_default', hfresh'⟩, [start], cons_ne_nil _ _, rfl, ?_, ?_⟩
      · intro token hmem
        rw [mem_singleton.mp hmem]
        exact ⟨heq ▸ htoken, heq ▸ hne⟩
      · rw [← h, heq, map_singleton]
    · rw [drop_takeWhile_space heq] at h
      obtain ⟨hprs, tokens, htokens, hjoin, hall, hchs⟩ := ih (by omega) hfresh' h
      refine ⟨hprs, start.takeWhile (· ≠ 32) :: tokens, cons_ne_nil _ _, ?_, ?_, ?_⟩
      · obtain ⟨token', tokens', rfl⟩ := exists_cons_of_ne_nil htokens
        rw [joinTokens_cons_cons, hjoin, ← heq]
      · intro token hmem
        rcases mem_cons.mp hmem with rfl | hmem
        · exact ⟨htoken, hne⟩
        · exact hall token hmem
      · rw [hchs, map_cons, append_assoc, singleton_append]

/-! ## Families -/

structure ParsedFamily (family : DomainFamily) : Prop where
  line : LineChoices family.raw_line.bytes family.choices
  nodup : family.choices.Nodup
  nonempty : 0 < family.choice_count

variable {scope : UnityComputeDomainScope} {scope_index : ℕ} {sizes : ℕ × ℕ}

lemma parse_family_eq_ok {raw_line : Option CString} {total_choices : ℕ} {family : DomainFamily}
    (hnames : (namesOf families).Nodup)
    (h : parse_family request families scope scope_index raw_line text_size total_choices = .ok
      (family, sizes)) :
    raw_line = some family.raw_line ∧ ParsedFamily family ∧
      (namesOf (families ++ [family])).Nodup := by
  unfold parse_family at h
  dsimp only at h
  split at h
  next line text_size' =>
    obtain ⟨hempty, h⟩ := ite_error_eq_ok.mp h
    split at h
    next => cases h
    next choices hchs =>
      obtain ⟨-, h⟩ := ite_error_eq_ok.mp h
      obtain ⟨parsed, hprs, h⟩ := bind_eq_ok.mp h
      have hstart : FreshChoices families false [] := by
        refine ⟨by simp, nodup_nil, ?_⟩
        rw [reduceOption_nil, append_nil]
        exact hnames
      obtain ⟨⟨_, hfresh⟩, tokens, htokens, hjoin, hall, rfl⟩ :=
        parse_choices_eq_ok (count_choices_eq_some hchs) hstart hprs
      have hfamily := congrArg Prod.fst (pure_eq_ok.mp h)
      dsimp only at hfamily
      rw [← hfamily]
      refine ⟨rfl, ⟨⟨tokens, hjoin, hall, nil_append _⟩, hfresh.nodup, ?_⟩, ?_⟩
      · unfold DomainFamily.choice_count
        rw [nil_append, length_map]
        exact length_pos_iff.mpr htokens
      · unfold namesOf
        rw [flatMap_append, flatMap_singleton]
        exact hfresh.names_nodup
  next => cases h

structure ParsedFamilies (lines : List (Option CString)) (families : List DomainFamily) :
    Prop where
  lines_eq : lines = families.map fun family => some family.raw_line
  parsed : ∀ family ∈ families, ParsedFamily family
  names_nodup : (namesOf families).Nodup

lemma parse_families_eq_ok {before : List (Option CString)} {sizes' : ℕ × ℕ}
    (hbefore : ParsedFamilies before families)
    (h : parse_families request scope scope_index lines (families, sizes) = .ok (families',
      sizes')) :
    ParsedFamilies (before ++ lines) families' := by
  induction lines generalizing scope_index before families sizes with
  | nil =>
    have heq := congrArg Prod.fst (pure_eq_ok.mp h)
    dsimp only at heq
    rw [← heq, append_nil]
    exact hbefore
  | cons line lines ih =>
    rw [parse_families] at h
    obtain ⟨⟨family, sizes''⟩, hfamily, h⟩ := bind_eq_ok.mp h
    obtain ⟨hline, hprs, hnames⟩ := parse_family_eq_ok hbefore.names_nodup hfamily
    have hnext : ParsedFamilies (before ++ [line]) (families ++ [family]) := by
      refine ⟨?_, ?_, hnames⟩
      · rw [hbefore.lines_eq, hline, map_append, map_singleton]
      · intro f hf
        rcases mem_append.mp hf with hf | hf
        · exact hbefore.parsed f hf
        · rw [mem_singleton.mp hf]
          exact hprs
    have hall := ih hnext h
    rwa [append_assoc, singleton_append] at hall

end Parse

/-! ## Strides -/

def countsOf (families : List DomainFamily) : List ℕ := families.map (·.choice_count)

/-- Every stride is the number of variants of the families behind. -/
def Strided : List DomainFamily → Prop
  | [] => True
  | family :: rest => family.stride = (countsOf rest).prod ∧ Strided rest

def SameFamilies (families families' : List DomainFamily) : Prop :=
  families'.map (fun f => (f.raw_line, f.choices)) = families.map fun f => (f.raw_line, f.choices)

lemma SameFamilies.counts_eq (h : SameFamilies families families') :
    countsOf families' = countsOf families := by
  have hcnts := congrArg (map fun x : CString × List (Option Bytes) => x.2.length) h
  rw [map_map, map_map] at hcnts
  exact hcnts

lemma assign_strides_eq_ok {max_variant_count variant_count : ℕ} (hmax : 0 < max_variant_count)
    (hbnd : max_variant_count ≤ UNITY_COMPUTE_DOMAIN_MAX_STATES)
    (hpos : ∀ family ∈ families, 0 < family.choice_count)
    (h : assign_strides max_variant_count families = .ok (families', variant_count)) :
    SameFamilies families families' ∧ Strided families' ∧
      variant_count = (countsOf families).prod ∧ variant_count ≤ max_variant_count := by
  induction families generalizing families' variant_count with
  | nil =>
    obtain ⟨rfl, rfl⟩ := Prod.mk.inj (pure_eq_ok.mp h)
    exact ⟨rfl, trivial, rfl, hmax⟩
  | cons family rest ih =>
    rw [assign_strides] at h
    obtain ⟨⟨rest', count⟩, hrest, h⟩ := bind_eq_ok.mp h
    obtain ⟨hsame, hstrided, hcnt, hle⟩ :=
      ih (forall_mem_cons.mp hpos).2 hrest
    obtain ⟨hfits, h⟩ := ite_error_eq_ok.mp h
    obtain ⟨rfl, rfl⟩ := Prod.mk.inj (pure_eq_ok.mp h)
    have hprod : count * family.choice_count ≤ max_variant_count := by
      rw [Nat.not_lt] at hfits
      exact (Nat.mul_le_mul_left count hfits).trans (Nat.mul_div_le max_variant_count count)
    have hmul : size_mul count family.choice_count = count * family.choice_count := by
      unfold size_mul
      apply Nat.mod_eq_of_lt
      unfold UNITY_COMPUTE_DOMAIN_MAX_STATES at hbnd
      omega
    refine ⟨?_, ⟨?_, hstrided⟩, ?_, ?_⟩
    · unfold SameFamilies at hsame ⊢
      rw [map_cons, map_cons, hsame]
    · rw [hsame.counts_eq]
      exact hcnt
    · rw [hmul, hcnt, Nat.mul_comm]
      rfl
    · rw [hmul]
      exact hprod

/-! ## Choices -/

/-- The keywords of one choice for each family. -/
def pickedNames : List DomainFamily → List ℕ → List Bytes
  | family :: families, pick :: picks =>
    (family.choices.getD pick none).toList ++ pickedNames families picks
  | _, _ => []

def Selects (variant_index : ℕ) (family : DomainFamily) (pick : ℕ) : Prop :=
  selected_choice family variant_index = family.choices.getD pick none

/-- The loop reads the choice of every family off the index of the variant. -/
theorem selects_digits (h : Strided families) (variant_index : ℕ) :
    List.Forall₂ (Selects variant_index) families (digits (countsOf families) variant_index) := by
  induction families with
  | nil => exact .nil
  | cons family rest ih =>
    refine .cons ?_ (ih h.2)
    unfold Selects selected_choice
    rw [h.1]
    rfl

variable {picks : List ℕ}

lemma selected_names_eq {variant_index : ℕ}
    (h : List.Forall₂ (Selects variant_index) families picks) :
    selected_names families variant_index = pickedNames families picks := by
  unfold selected_names
  induction h with
  | nil => rfl
  | @cons family pick families picks hselect hrest ih =>
    rw [pickedNames, ← ih, ← hselect]
    rcases hsel : selected_choice family variant_index with _ | name
    · simp [hsel]
    · simp [hsel]

lemma selected_names_append (families families' : List DomainFamily) (variant_index : ℕ) :
    selected_names (families ++ families') variant_index =
      selected_names families variant_index ++ selected_names families' variant_index := by
  unfold selected_names
  rw [filterMap_append]

lemma getD_mem_reduceOption {pick : ℕ} (h : choices.getD pick none = some name) :
    name ∈ choices.reduceOption := by
  rw [reduceOption_mem_iff]
  by_cases hlt : pick < choices.length
  · rw [getD_eq_getElem _ _ hlt] at h
    rw [← h]
    exact getElem_mem hlt
  · rw [getD_eq_default _ _ (Nat.not_lt.mp hlt)] at h
    cases h

lemma pickedNames_sublist (families : List DomainFamily) (picks : List ℕ) :
    pickedNames families picks ⊆ namesOf families := by
  induction families generalizing picks with
  | nil =>
    intro name hname
    cases picks <;> cases hname
  | cons family families ih =>
    rcases picks with _ | ⟨pick, picks⟩
    · exact nil_subset _
    · intro name hname
      unfold namesOf
      rw [flatMap_cons, mem_append]
      rw [pickedNames, mem_append, Option.mem_toList] at hname
      rcases hname with hname | hname
      · exact .inl (getD_mem_reduceOption hname)
      · exact .inr (ih picks hname)

lemma nodup_pickedNames (h : (namesOf families).Nodup) (picks : List ℕ) :
    (pickedNames families picks).Nodup := by
  induction families generalizing picks with
  | nil => cases picks <;> exact nodup_nil
  | cons family families ih =>
    rcases picks with _ | ⟨pick, picks⟩
    · exact nodup_nil
    · unfold namesOf at h
      rw [flatMap_cons] at h
      obtain ⟨-, hrest, hdisj⟩ := nodup_append.mp h
      rw [pickedNames, nodup_append]
      refine ⟨?_, ih hrest picks, ?_⟩
      · cases family.choices.getD pick none <;> simp
      · intro name hname name' hname'
        exact hdisj name (getD_mem_reduceOption (Option.mem_toList.mp hname)) name'
          (pickedNames_sublist families picks hname')

lemma exists_name_of_ne (hnames : (namesOf families).Nodup)
    (hchs : ∀ family ∈ families, family.choices.Nodup) {picks' : List ℕ}
    (h : Within (countsOf families) picks) (h' : Within (countsOf families) picks')
    (hne : picks ≠ picks') :
    ∃ name ∈ namesOf families,
      ¬ (name ∈ pickedNames families picks ↔ name ∈ pickedNames families picks') := by
  induction families generalizing picks picks' with
  | nil =>
    cases h
    cases h'
    exact absurd rfl hne
  | cons family families ih =>
    obtain ⟨pick, rest, hpick, hrest, rfl⟩ := forall₂_cons_left_iff.mp h
    obtain ⟨pick', rest', hpick', hrest', rfl⟩ := forall₂_cons_left_iff.mp h'
    unfold namesOf at hnames
    rw [flatMap_cons] at hnames
    obtain ⟨-, hothers, hdisj⟩ := nodup_append.mp hnames
    have hmem : ∀ name p ps, name ∈ pickedNames (family :: families) (p :: ps) ↔
        family.choices.getD p none = some name ∨ name ∈ pickedNames families ps := by
      intro name p ps
      rw [pickedNames, mem_append, Option.mem_toList]
    -- A keyword of this family is not one of the others.
    have hnot : ∀ name ps, name ∈ family.choices.reduceOption →
        name ∉ pickedNames families ps := fun name ps hname hmem' =>
      hdisj name hname name (pickedNames_sublist families ps hmem') rfl
    unfold namesOf
    simp only [flatMap_cons, mem_append, hmem]
    by_cases hfst : pick = pick'
    · obtain ⟨name, hname, hdiff⟩ := ih hothers
        (forall_mem_cons.mp hchs).2 hrest hrest'
        fun heq => hne (by rw [hfst, heq])
      refine ⟨name, .inr hname, ?_⟩
      have hother : family.choices.getD pick none ≠ some name := fun hpicked =>
        hdisj name (getD_mem_reduceOption hpicked) name hname rfl
      rw [← hfst, or_iff_right hother, or_iff_right hother]
      exact hdiff
    · have hdiffer : family.choices.getD pick none ≠ family.choices.getD pick' none := by
        rw [getD_eq_getElem _ _ hpick, getD_eq_getElem _ _ hpick']
        intro heq
        exact hfst ((hchs family mem_cons_self).getElem_inj_iff.mp heq)
      rcases hpicked : family.choices.getD pick none with _ | name
      · -- The default here, so a keyword there.
        rcases hpicked' : family.choices.getD pick' none with _ | name
        · exact absurd (hpicked.trans hpicked'.symm) hdiffer
        · have hname := getD_mem_reduceOption hpicked'
          refine ⟨name, .inl hname, ?_⟩
          have := hnot name rest hname
          simp [this]
      · have hname := getD_mem_reduceOption hpicked
        refine ⟨name, .inl hname, ?_⟩
        rw [hpicked] at hdiffer
        intro hiff
        rcases hiff.mp (.inl rfl) with hsame | hother
        · exact hdiffer hsame.symm
        · exact hnot name rest' hname hother

/-! ## Requirements -/

lemma testBit_join_requirements (domain : UnityComputeDomain) (variant_index : ℕ)
    (conditionals : List UnityCompilerComputeConditionalRequirement) (base : UInt64) (bit : ℕ) :
    (join_requirements domain variant_index conditionals base).toNat.testBit bit = true ↔
      base.toNat.testBit bit = true ∨ ∃ requirement ∈ conditionals,
        requirement_selected domain variant_index requirement = true ∧
          requirement.requirements.toNat.testBit bit = true := by
  induction conditionals generalizing base with
  | nil => simp [join_requirements]
  | cons requirement conditionals ih =>
    rw [join_requirements, ih]
    simp only [mem_cons, exists_eq_or_imp]
    by_cases hsel : requirement_selected domain variant_index requirement = true
    · rw [if_pos hsel, UInt64.toNat_or, Nat.testBit_or, Bool.or_eq_true, or_assoc]
      simp [hsel]
    · rw [if_neg hsel]
      simp [hsel]

lemma requirement_selected_iff (domain : UnityComputeDomain) (variant_index : ℕ)
    (requirement : UnityCompilerComputeConditionalRequirement) :
    requirement_selected domain variant_index requirement = true ↔
      names_contain domain.request.platform_keywords.toList (spelling requirement.keyword) = true ∨
        spelling requirement.keyword ∈ selected_names domain.families variant_index := by
  unfold requirement_selected selected_names
  rw [Bool.or_eq_true, any_eq_true, mem_filterMap]
  simp only [decide_eq_true_eq]

/-! ## The created domain -/

lemma length_toList {a : CArray α} (h : ¬ a.missing = true) : a.toList.length = a.count := by
  unfold CArray.missing at h
  rw [decide_eq_true_eq] at h
  unfold CArray.toList
  rcases hvals : a.values with _ | l
  · have hzero : a.count = 0 := by
      by_contra hne
      exact h ⟨hne, hvals⟩
    rw [hzero]
    rfl
  · exact a.count_eq l hvals

lemma SameFamilies.parsed (h : SameFamilies families families')
    (hprs : ParsedFamilies lines families) : ParsedFamilies lines families' := by
  unfold SameFamilies at h
  constructor
  case lines_eq =>
    have hlines := congrArg (map fun x : CString × List (Option Bytes) => some x.1) h
    rw [map_map, map_map] at hlines
    exact hprs.lines_eq.trans hlines.symm
  case parsed =>
    intro family hfamily
    have hmem : (family.raw_line, family.choices) ∈
        families.map fun f => (f.raw_line, f.choices) := by
      rw [← h]
      exact mem_map.mpr ⟨family, hfamily, rfl⟩
    obtain ⟨family', hfamily', heq⟩ := mem_map.mp hmem
    obtain ⟨hline, hchs⟩ := Prod.mk.inj heq
    obtain ⟨hl, hn, hp⟩ := hprs.parsed family' hfamily'
    unfold DomainFamily.choice_count at hp
    rw [hline, hchs] at hl
    rw [hchs] at hn hp
    exact ⟨hl, hn, hp⟩
  case names_nodup =>
    have hnames := congrArg (flatMap fun x : CString × List (Option Bytes) => x.2.reduceOption) h
    rw [flatMap_map, flatMap_map] at hnames
    have hsame : namesOf families' = namesOf families := hnames
    rw [hsame]
    exact hprs.names_nodup

structure Created (result : UnityCompilerComputePreprocessResult)
    (request : UnityCompilerComputePreprocessRequest) (domain : UnityComputeDomain) : Prop where
  result_eq : domain.result = result
  request_eq : domain.request = request
  kernels : result.kernels.toList.length = result.kernels.count
  global_family_count : domain.global_family_count = result.user_global.toList.length
  families : ParsedFamilies (result.user_global.toList ++ result.user_local.toList) domain.families
  strided : Strided domain.families
  variant_count : domain.variant_count = (countsOf domain.families).prod
  state_count : domain.state_count = result.kernels.count * domain.variant_count
  state_count_le : domain.state_count ≤ UNITY_COMPUTE_DOMAIN_MAX_STATES

variable {result : UnityCompilerComputePreprocessResult}

lemma validate_kernels_eq_ok {s : ℕ × UnityComputeDomainDiagnostic}
    (h : validate_kernels result text_size = .ok s) :
    result.kernels.toList.length = result.kernels.count := by
  unfold validate_kernels at h
  obtain ⟨-, h⟩ := ite_error_eq_ok.mp h
  obtain ⟨-, h⟩ := ite_error_eq_ok.mp h
  obtain ⟨hvals, -⟩ := ite_error_eq_ok.mp h
  apply length_toList
  unfold CArray.missing
  simp [hvals]

variable {domain : UnityComputeDomain}

lemma created_of_create {context : UnityComputeDomainContext}
    (h : unity_compute_domain_create result context = .ok domain) :
    Created result context.preprocess_request domain := by
  unfold unity_compute_domain_create at h
  simp only [failWhen_bind_eq_ok] at h
  obtain ⟨hlimits, -, -, -, -, hmiss, h⟩ := h
  push Not at hlimits hmiss
  split at h
  next => cases h
  next text_size _ =>
    obtain ⟨_, -, h⟩ := bind_eq_ok.mp h
    obtain ⟨_, -, h⟩ := bind_eq_ok.mp h
    obtain ⟨-, h⟩ := failWhen_bind_eq_ok.mp h
    obtain ⟨_, hkernels, h⟩ := bind_eq_ok.mp h
    obtain ⟨-, h⟩ := failWhen_bind_eq_ok.mp h
    obtain ⟨-, h⟩ := failWhen_bind_eq_ok.mp h
    obtain ⟨_, -, h⟩ := bind_eq_ok.mp h
    obtain ⟨⟨globals, globalSizes⟩, hglobal, h⟩ := bind_eq_ok.mp h
    obtain ⟨⟨families, sizes⟩, hlocal, h⟩ := bind_eq_ok.mp h
    obtain ⟨_, -, h⟩ := bind_eq_ok.mp h
    obtain ⟨⟨strided, variant_count⟩, hstrides, h⟩ := bind_eq_ok.mp h
    obtain ⟨hfits, h⟩ := failWhen_bind_eq_ok.mp h
    have hstart : ParsedFamilies [] [] :=
      ⟨rfl, nofun, nodup_nil⟩
    have hprs := parse_families_eq_ok (parse_families_eq_ok hstart hglobal) hlocal
    rw [nil_append] at hprs
    obtain ⟨hsame, hstrided, hcnt, hle⟩ := assign_strides_eq_ok
      (Nat.pos_of_ne_zero hlimits.1) hlimits.2.2.1
      (fun family hfamily => (hprs.parsed family hfamily).nonempty) hstrides
    rw [← hsame.counts_eq] at hcnt
    rw [Nat.not_lt] at hfits
    have hstates : result.kernels.count * variant_count ≤ context.max_kernel_state_count :=
      (Nat.mul_le_mul_right variant_count hfits).trans
        (Nat.div_mul_le_self context.max_kernel_state_count variant_count)
    have hmul : size_mul result.kernels.count variant_count =
        result.kernels.count * variant_count := by
      unfold size_mul
      apply Nat.mod_eq_of_lt
      have := hlimits.2.2.2
      unfold UNITY_COMPUTE_DOMAIN_MAX_STATES at this
      omega
    rw [← pure_eq_ok.mp h]
    constructor
    case result_eq => rfl
    case request_eq => rfl
    case kernels => exact validate_kernels_eq_ok hkernels
    case global_family_count => exact (length_toList hmiss.1).symm
    case families => exact hsame.parsed hprs
    case strided => exact hstrided
    case variant_count => exact hcnt
    case state_count => exact hmul
    case state_count_le =>
      dsimp only
      rw [hmul]
      exact hstates.trans hlimits.2.2.2

/-! ## States -/

/-- The call with a buffer that is large enough reports the state. -/
def Reports (domain : UnityComputeDomain) (state_index : ℕ) (state : UnityComputeDomainState) :
    Prop :=
  ∀ keyword_capacity, state.user_keywords.length ≤ keyword_capacity →
    unity_compute_domain_state_at domain state_index true keyword_capacity true =
      (some state.user_keywords.length, .ok (some state))

def stateAt (domain : UnityComputeDomain) (state_index : ℕ) : UnityComputeDomainState :=
  let variant_index := state_index % domain.variant_count
  { kernel_index := state_index / domain.variant_count
    variant_index := variant_index
    kernel := domain.result.kernels.toList[state_index / domain.variant_count]?
    global_keywords :=
      selected_names (domain.families.take domain.global_family_count) variant_index
    local_keywords :=
      selected_names (domain.families.drop domain.global_family_count) variant_index
    user_keywords := selected_names domain.families variant_index
    requirements := join_requirements domain variant_index
      domain.result.conditional_requirements.toList domain.result.requirements }

lemma selected_names_split (families : List DomainFamily) (n variant_index : ℕ) :
    selected_names families variant_index = selected_names (families.take n) variant_index ++
        selected_names (families.drop n) variant_index := by
  rw [← selected_names_append, take_append_drop]

variable {state_index : ℕ}

lemma reports_stateAt (h : state_index < domain.state_count) :
    Reports domain state_index (stateAt domain state_index) := by
  intro keyword_capacity hcap
  have hspl := selected_names_split domain.families domain.global_family_count
    (state_index % domain.variant_count)
  have hlen := congrArg length hspl
  rw [length_append] at hlen
  unfold stateAt at hcap ⊢
  dsimp only at hcap ⊢
  unfold unity_compute_domain_state_at
  rw [if_neg (by simp), if_neg (Nat.not_le.mpr h)]
  dsimp only
  rw [if_neg (by simp), ← hlen, if_neg (by simp; omega)]
  -- The globals are the front of the buffer.
  rw [hspl, take_left, drop_left]
  rfl

def indexOf (domain : UnityComputeDomain) (kernel : ℕ) (picks : List ℕ) : ℕ :=
  value (domain.result.kernels.count :: countsOf domain.families) (kernel :: picks)

section States

variable {result : UnityCompilerComputePreprocessResult}
  {request : UnityCompilerComputePreprocessRequest} {domain : UnityComputeDomain}
  (h : Created result request domain)

include h

lemma Created.counts_pos : ∀ count ∈ countsOf domain.families, 0 < count := by
  intro count hcnt
  obtain ⟨family, hfamily, rfl⟩ := mem_map.mp hcnt
  exact (h.families.parsed family hfamily).nonempty

lemma Created.state_count_eq :
    domain.state_count = (domain.result.kernels.count :: countsOf domain.families).prod := by
  rw [h.state_count, h.variant_count, prod_cons, h.result_eq]

variable {kernel : ℕ} {picks : List ℕ}

/-- The index of a choice is the index of its variant, behind the kernels before. -/
theorem Created.indexOf_eq : indexOf domain kernel picks =
      kernel * domain.variant_count + value (countsOf domain.families) picks := by
  rw [h.variant_count]
  rfl

lemma Created.variant_of_index (kernel : ℕ) (hpicks : Within (countsOf domain.families) picks) :
    indexOf domain kernel picks / domain.variant_count = kernel ∧
      indexOf domain kernel picks % domain.variant_count =
        value (countsOf domain.families) picks := by
  have hlt := value_lt hpicks
  rw [← h.variant_count] at hlt
  rw [h.indexOf_eq, Nat.add_comm]
  constructor
  · rw [Nat.add_mul_div_right _ _ (by omega), Nat.div_eq_of_lt hlt, Nat.zero_add]
  · rw [Nat.add_mul_mod_self_right, Nat.mod_eq_of_lt hlt]

lemma Created.selects_value (hpicks : Within (countsOf domain.families) picks) :
    List.Forall₂ (Selects (value (countsOf domain.families) picks)) domain.families picks := by
  have hselects := selects_digits h.strided (value (countsOf domain.families) picks)
  rwa [digits_value hpicks h.counts_pos] at hselects

end States

/-- The domain enumerates the pairs of a kernel and one choice for each keyword family. -/
structure Enumerates (result : UnityCompilerComputePreprocessResult)
    (request : UnityCompilerComputePreprocessRequest) (domain : UnityComputeDomain) : Prop where
  result_eq : domain.result = result
  request_eq : domain.request = request
  /-- The families are the lines of the result, globals first, and their choices the tokens. -/
  lines : result.user_global.toList ++ result.user_local.toList =
    domain.families.map fun family => some family.raw_line
  globals : domain.global_family_count = result.user_global.toList.length
  choices : ∀ family ∈ domain.families, LineChoices family.raw_line.bytes family.choices
  state_count : domain.state_count =
    result.kernels.count * (countsOf domain.families).prod
  state_count_le : domain.state_count ≤ UNITY_COMPUTE_DOMAIN_MAX_STATES
  /-- Every pair has an index, and every index is that of one pair. -/
  index_lt : ∀ kernel picks, kernel < result.kernels.count →
    Within (countsOf domain.families) picks → indexOf domain kernel picks < domain.state_count
  index_unique : ∀ state_index < domain.state_count, ∃! pair : ℕ × List ℕ,
    pair.1 < result.kernels.count ∧ Within (countsOf domain.families) pair.2 ∧
      indexOf domain pair.1 pair.2 = state_index
  /-- The kernel varies slowest and the last family fastest. -/
  order : ∀ kernel kernel' picks picks', kernel < result.kernels.count →
    kernel' < result.kernels.count → Within (countsOf domain.families) picks →
      Within (countsOf domain.families) picks' →
        List.Lex (· < ·) (kernel :: picks) (kernel' :: picks') →
          indexOf domain kernel picks < indexOf domain kernel' picks'
  /-- The state at the index of a pair is that pair. -/
  states : ∀ kernel picks, kernel < result.kernels.count →
    Within (countsOf domain.families) picks → ∃ state,
      Reports domain (indexOf domain kernel picks) state ∧ state.kernel_index = kernel ∧
      (∃ entry, result.kernels.toList[kernel]? = some entry ∧ state.kernel = some entry) ∧
      state.variant_index = value (countsOf domain.families) picks ∧
      state.user_keywords = pickedNames domain.families picks ∧
      state.global_keywords = pickedNames (domain.families.take domain.global_family_count)
        (picks.take domain.global_family_count) ∧
      state.local_keywords = pickedNames (domain.families.drop domain.global_family_count)
        (picks.drop domain.global_family_count) ∧
      state.user_keywords = state.global_keywords ++ state.local_keywords ∧
      state.user_keywords.Nodup ∧
      ∀ bit, (state.requirements.toNat.testBit bit = true ↔
        result.requirements.toNat.testBit bit = true ∨
          ∃ requirement ∈ result.conditional_requirements.toList,
            (names_contain request.platform_keywords.toList
                (spelling requirement.keyword) = true ∨
              spelling requirement.keyword ∈ state.user_keywords) ∧
            requirement.requirements.toNat.testBit bit = true)
  /-- Other variants have other sets of keywords. -/
  keywords_differ : ∀ picks picks', Within (countsOf domain.families) picks →
    Within (countsOf domain.families) picks' → value (countsOf domain.families) picks ≠
      value (countsOf domain.families) picks' →
        ∃ name, ¬ (name ∈ pickedNames domain.families picks ↔
          name ∈ pickedNames domain.families picks')

section States

variable {result : UnityCompilerComputePreprocessResult}
  {request : UnityCompilerComputePreprocessRequest} {domain : UnityComputeDomain}

lemma Created.index_unique (h : Created result request domain)
    (hidx : state_index < domain.state_count) :
    ∃! pair : ℕ × List ℕ, pair.1 < result.kernels.count ∧
      Within (countsOf domain.families) pair.2 ∧ indexOf domain pair.1 pair.2 = state_index := by
  have hprod := MixedRadix.prod_pos h.counts_pos
  have hlt : state_index / domain.variant_count < result.kernels.count := by
    rw [h.variant_count, Nat.div_lt_iff_lt_mul hprod, ← h.variant_count, ← h.state_count]
    exact hidx
  have hval : value (countsOf domain.families) (digits (countsOf domain.families)
      (state_index % domain.variant_count)) = state_index % domain.variant_count := by
    apply value_digits h.counts_pos
    rw [h.variant_count]
    exact Nat.mod_lt _ hprod
  refine ⟨(state_index / domain.variant_count,
    digits (countsOf domain.families) (state_index % domain.variant_count)), ⟨hlt,
      within_digits h.counts_pos _, ?_⟩, ?_⟩
  · dsimp only
    rw [h.indexOf_eq, hval, Nat.mul_comm]
    exact Nat.div_add_mod state_index domain.variant_count
  · rintro ⟨kernel, picks⟩ ⟨-, hpicks, rfl⟩
    obtain ⟨hkernel, hvar⟩ := h.variant_of_index kernel hpicks
    rw [hkernel, hvar, digits_value hpicks h.counts_pos]

end States

end ComputeDomain

open ComputeDomain

/-- **A created domain enumerates its product.** -/
theorem unity_compute_domain_create_enumerates {result : UnityCompilerComputePreprocessResult}
    {context : UnityComputeDomainContext} {domain : UnityComputeDomain}
    (h : unity_compute_domain_create result context = .ok domain) :
    Enumerates result context.preprocess_request domain := by
  have hcreated := created_of_create h
  have hradices : ∀ kernel picks, kernel < result.kernels.count →
      Within (countsOf domain.families) picks →
        Within (domain.result.kernels.count :: countsOf domain.families) (kernel :: picks) := by
    intro kernel picks hkernel hpicks
    rw [hcreated.result_eq]
    exact .cons hkernel hpicks
  constructor
  case result_eq => exact hcreated.result_eq
  case request_eq => exact hcreated.request_eq
  case lines => exact hcreated.families.lines_eq
  case globals => exact hcreated.global_family_count
  case choices => exact fun family hfamily => (hcreated.families.parsed family hfamily).line
  case state_count => rw [hcreated.state_count, hcreated.variant_count]
  case state_count_le => exact hcreated.state_count_le
  case index_lt =>
    intro kernel picks hkernel hpicks
    rw [hcreated.state_count_eq]
    exact value_lt (hradices kernel picks hkernel hpicks)
  case index_unique => exact fun state_index hindex => hcreated.index_unique hindex
  case order =>
    intro kernel kernel' picks picks' hkernel hkernel' hpicks hpicks' hlex
    exact value_lt_value (hradices kernel picks hkernel hpicks)
      (hradices kernel' picks' hkernel' hpicks') hlex
  case states =>
    intro kernel picks hkernel hpicks
    have hindex : indexOf domain kernel picks < domain.state_count := by
      rw [hcreated.state_count_eq]
      exact value_lt (hradices kernel picks hkernel hpicks)
    obtain ⟨hkernelIndex, hvariant⟩ := hcreated.variant_of_index kernel hpicks
    have hselects := hcreated.selects_value hpicks
    have huser := selected_names_eq hselects
    have hsplit := selected_names_split domain.families domain.global_family_count
      (value (countsOf domain.families) picks)
    have hentry : kernel < result.kernels.toList.length := by
      rw [hcreated.kernels]
      exact hkernel
    refine ⟨stateAt domain (indexOf domain kernel picks), reports_stateAt hindex, hkernelIndex,
      ⟨_, getElem?_eq_getElem hentry, ?_⟩, ?_⟩
    · unfold stateAt
      dsimp only
      rw [hkernelIndex, hcreated.result_eq]
      exact getElem?_eq_getElem hentry
    · unfold stateAt
      dsimp only
      rw [hvariant]
      refine ⟨rfl, huser, selected_names_eq (forall₂_take _ hselects),
        selected_names_eq (forall₂_drop _ hselects), hsplit, ?_, ?_⟩
      · rw [huser]
        exact nodup_pickedNames hcreated.families.names_nodup picks
      · intro bit
        rw [testBit_join_requirements, hcreated.result_eq]
        simp only [requirement_selected_iff, hcreated.request_eq]
  case keywords_differ =>
    intro picks picks' hpicks hpicks' hne
    obtain ⟨name, -, hname⟩ := exists_name_of_ne hcreated.families.names_nodup
      (fun family hfamily => (hcreated.families.parsed family hfamily).nodup) hpicks hpicks'
      fun heq => hne (by rw [heq])
    exact ⟨name, hname⟩

/-- One kernel, a global family `A _` and a local family `B C`, where `B` asks for more. -/
def sampleResult : UnityCompilerComputePreprocessResult where
  source := some (.ofBytes [120])
  source_size := 1
  user_global := ⟨some [some (.ofBytes [65, 32, 95])], 1, by simp⟩
  user_local := ⟨some [some (.ofBytes [66, 32, 67])], 1, by simp⟩
  kernels := ⟨some [⟨some (.ofBytes [75]), .null⟩], 1, by simp⟩
  dependencies := .null
  conditional_requirements := ⟨some [⟨some (.ofBytes [66]), 4⟩], 1, by simp⟩
  requirements := 1

def sampleContext : UnityComputeDomainContext where
  preprocess_request :=
    ⟨some (.ofBytes [120]), some (.ofBytes [102]), .null, .null⟩
  max_variant_count := 16
  max_kernel_state_count := 16

theorem unity_compute_domain_create_enumerates_sample :
    ∃ domain, unity_compute_domain_create sampleResult sampleContext = .ok domain ∧
      domain.state_count = 4 ∧
      Enumerates sampleResult sampleContext.preprocess_request domain := by
  have hcreate : unity_compute_domain_create sampleResult sampleContext = .ok
      { result := sampleResult
        request := sampleContext.preprocess_request
        families :=
          [⟨.global, 0, ⟨[65, 32, 95], by decide⟩, [some [65], none], 2⟩,
            ⟨.local, 0, ⟨[66, 32, 67], by decide⟩, [some [66], some [67]], 1⟩]
        global_family_count := 1
        variant_count := 4
        state_count := 4 } := by
    rfl
  exact ⟨_, hcreate, rfl, unity_compute_domain_create_enumerates hcreate⟩

end DXBCSandbox
