/-
What a compile authority lists (`src/compiler/unity_compile_authority.c`).

Every list of the build is made by a loop that files names in a string set, and the invariant of
each loop says what the list is after the part that is done. A name that is not filed twice keeps
the place where it first occurs.
-/
import DXBCSandbox.Compiler.CompileAuthority

namespace DXBCSandbox

open List Option

variable {input : UnityCompileAuthorityInput}

namespace CompileAuthority

open Fallible

variable {World : Type} (malloc : World → Bool × World)

/-! ## Tokens -/

def combinationTokens (combination : Bytes) : List Bytes :=
  (combination.splitOnP isspace).filter (· ≠ [])

lemma combinationTokens_cons {byte : UInt8} (h : isspace byte = true) (rest : Bytes) :
    combinationTokens (byte :: rest) = combinationTokens rest := by
  have hnone : ∀ byte ∈ ([] : Bytes), isspace byte = false := nofun
  have hspl := splitOnP_append_cons_of_forall_mem hnone byte h rest
  rw [nil_append] at hspl
  rw [combinationTokens, hspl]
  rfl

lemma combinationTokens_dropWhile (cursor : Bytes) :
    combinationTokens (cursor.dropWhile isspace) = combinationTokens cursor := by
  induction cursor with
  | nil => rfl
  | cons byte rest ih =>
    by_cases hspace : isspace byte = true
    · rw [dropWhile_cons_of_pos hspace, ih, combinationTokens_cons hspace]
    · rw [dropWhile_cons_of_neg hspace]

lemma combinationTokens_takeWhile (cursor : Bytes) : combinationTokens cursor =
      [cursor.takeWhile fun byte => ! isspace byte].filter (· ≠ []) ++
        combinationTokens (cursor.dropWhile fun byte => ! isspace byte) := by
  have htoken : ∀ byte ∈ cursor.takeWhile fun byte => ! isspace byte, isspace byte = false := by
    intro byte hmem
    simpa using mem_takeWhile_imp hmem
  have hspl := (takeWhile_append_dropWhile (p := fun byte => ! isspace byte) (l := cursor)).symm
  cases hrest : cursor.dropWhile fun byte => ! isspace byte with
  | nil =>
    rw [hrest, append_nil] at hspl
    rw [← hspl] at htoken ⊢
    rw [combinationTokens, splitOnP_eq_singleton htoken]
    simp [combinationTokens, splitOnP_nil]
  | cons byte rest =>
    have hspace : isspace byte = true := by
      have hhead := head?_dropWhile_not (fun byte => ! isspace byte) cursor
      rw [hrest] at hhead
      simpa using hhead
    rw [hrest] at hspl
    rw [combinationTokens_cons hspace]
    conv_lhs => rw [hspl]
    rw [combinationTokens, splitOnP_append_cons_of_forall_mem htoken byte hspace]
    exact filter_append [_] _

variable {cursor : Bytes}

lemma length_next_cursor (h : cursor ≠ []) :
    ((cursor.dropWhile isspace).dropWhile fun byte => ! isspace byte).length < cursor.length := by
  have hspaces := congrArg length (takeWhile_append_dropWhile (p := isspace) (l := cursor))
  have htoken := congrArg length (takeWhile_append_dropWhile
    (p := fun byte => ! isspace byte) (l := cursor.dropWhile isspace))
  rw [length_append] at hspaces htoken
  have hpos : 0 < cursor.length := length_pos_iff.mpr h
  cases hbegin : cursor.dropWhile isspace with
  | nil => exact hpos
  | cons byte rest =>
    have hbyte : isspace byte = false := by
      have hhead := head?_dropWhile_not isspace cursor
      rw [hbegin] at hhead
      simpa using hhead
    rw [hbegin] at hspaces htoken
    rw [takeWhile_cons_of_pos (by rw [hbyte]; rfl), length_cons] at htoken
    omega

/-! ## First occurrences -/

variable {α : Type} {xs : List α}

lemma eraseDups_concat_of_mem [BEq α] [LawfulBEq α] {x : α} (h : x ∈ xs) :
    (xs ++ [x]).eraseDups = xs.eraseDups := by
  rw [eraseDups_append]
  simp [removeAll, h]

lemma eraseDups_concat_of_notMem [BEq α] [LawfulBEq α] {x : α} (h : x ∉ xs) :
    (xs ++ [x]).eraseDups = xs.eraseDups ++ [x] := by
  rw [eraseDups_append]
  simp [removeAll, h, eraseDups_cons]

/-- The strings are the first occurrences of the names that came, and the set has just them. -/
structure OrderedInv (ordered : OrderedOwnedStringSet) (names : List Bytes) : Prop where
  set : SetInv ordered.set
  keys : (keys ordered.set).Perm (ordered.values.map CString.bytes)
  values : ordered.values.map CString.bytes = names.eraseDups

lemma orderedInv_empty : OrderedInv ⟨[], 0, emptySet⟩ [] := ⟨setInv_empty, .refl _, rfl⟩

lemma OrderedInv.nodup {ordered : OrderedOwnedStringSet} {names : List Bytes}
    (h : OrderedInv ordered names) : (ordered.values.map CString.bytes).Nodup :=
  h.keys.nodup_iff.mp h.set.nodup

lemma bytes_copy_span {value : Bytes} (h : 0 ∉ value) : (copy_span value).bytes = value := by
  rw [copy_span, takeWhile_eq_self_iff]
  intro byte hmem
  rw [decide_eq_true_iff]
  rintro rfl
  exact h hmem

def Appended (names : List Bytes) (value : Bytes) (result : Option OrderedOwnedStringSet) : Prop :=
  ∀ ordered, result = some ordered → OrderedInv ordered (names ++ [value])

section Append

variable {ordered : OrderedOwnedStringSet} {names : List Bytes} {value : Bytes}

lemma grow_values_ends (h : OrderedInv ordered names) :
    Ends FailsWithStatus (grow_values malloc ordered) fun result =>
      ∀ grown, result = some grown → OrderedInv grown names := by
  unfold grow_values
  refine .ite (fun _ => ?_) fun _ => .pure fun grown hgrown => some.inj hgrown ▸ h
  refine .ite (fun _ => .pure nofun) fun _ => ?_
  apply Ends.bind (allocate_ends malloc _ _)
  intro allocated _
  refine .pure fun grown hgrown => ?_
  split at hgrown
  · obtain rfl := some.inj hgrown
    exact ⟨h.set, h.keys, h.values⟩
  · nomatch hgrown

/-- **Appending** keeps the first occurrences. -/
theorem append_owned_span_ends (h : OrderedInv ordered names) (hval : 0 ∉ value) :
    Ends FailsWithStatus (append_owned_span malloc ordered value) (Appended names value) := by
  have hmem : value ∈ keys ordered.set ↔ value ∈ names := by
    rw [h.keys.mem_iff, h.values, mem_eraseDups]
  have hfails : Appended names value none := nofun
  unfold append_owned_span
  apply Ends.bind (string_set_contains_span_ends h.set value)
  intro found hfound
  refine .ite (fun hyes => .pure fun result hres => ?_) fun hno => ?_
  · obtain rfl := some.inj hres
    refine ⟨h.set, h.keys, ?_⟩
    rw [eraseDups_concat_of_mem (hmem.mp (hfound.mp hyes)), h.values]
  have hnew : value ∉ names := fun hin => hno (hfound.mpr (hmem.mpr hin))
  refine .ite (fun _ => .pure hfails) fun _ => ?_
  apply Ends.bind (grow_values_ends malloc h)
  intro grown hgrown
  cases grown with
  | none => exact .pure hfails
  | some grown =>
    have hinv := hgrown grown rfl
    apply Ends.bind (allocate_ends malloc _ _)
    intro allocated _
    refine .ite (fun _ => .pure hfails) fun _ => ?_
    apply Ends.bind (string_set_insert_span_ends malloc hinv.set (bytes_copy_span hval))
    rintro ⟨result, set⟩ hinserted
    cases result with
    | error => exact .pure hfails
    | present =>
      -- The set had nothing of the name a moment ago.
      have hin := hinserted.1
      rw [hinv.keys.mem_iff, hinv.values, mem_eraseDups] at hin
      exact absurd hin hnew
    | inserted =>
      obtain ⟨-, hset, hperm⟩ := hinserted
      refine .pure fun result hres => ?_
      obtain rfl := some.inj hres
      have hvals : (grown.values ++ [copy_span value]).map CString.bytes =
          grown.values.map CString.bytes ++ [value] := by
        rw [map_append, map_singleton, bytes_copy_span hval]
      refine ⟨hset, ?_, ?_⟩
      · rw [hvals]
        exact (hperm.trans (hinv.keys.cons value)).trans (perm_append_singleton _ _).symm
      · rw [hvals, hinv.values, eraseDups_concat_of_notMem hnew]

end Append

/-! ## Disabled keywords -/

variable (active : List Bytes)

/-- The tokens of a combination that are disabled where the active ones are given. -/
def disabledTokens (combination : Bytes) : List Bytes :=
  (combinationTokens combination).filter fun token => token ≠ asciiBytes "_" ∧ token ∉ active

/-- The first token of a cursor that has one, and the tokens behind it. -/
theorem disabledTokens_step (cursor : Bytes) : disabledTokens active cursor =
      ([(cursor.dropWhile isspace).takeWhile fun byte => ! isspace byte].filter fun token =>
          token ≠ [] ∧ token ≠ asciiBytes "_" ∧ token ∉ active) ++
        disabledTokens active ((cursor.dropWhile isspace).dropWhile fun byte => ! isspace byte) := by
  rw [disabledTokens, ← combinationTokens_dropWhile, combinationTokens_takeWhile,
    List.filter_append, List.filter_filter]
  congr 1
  apply List.filter_congr
  intro token _
  rw [Bool.eq_iff_iff]
  simp only [Bool.and_eq_true, decide_eq_true_eq]
  tauto

def combinationNames (combination : Option CString) : List Bytes :=
  disabledTokens active (combination.elim [] CString.bytes)

variable {disabled : OrderedOwnedStringSet}

section Disabled

variable {active_names : StringSet} (hactive : SetInv active_names)

include hactive

lemma add_disabled_tokens_ends {fuel : ℕ} {names : List Bytes}
    (hfuel : cursor.length ≤ fuel) (hcursor : 0 ∉ cursor) (h : OrderedInv disabled names) :
    Ends FailsWithStatus (add_disabled_tokens malloc active_names fuel cursor disabled)
      fun disabled => OrderedInv disabled (names ++ disabledTokens (keys active_names) cursor) := by
  induction fuel generalizing cursor disabled names with
  | zero =>
    obtain rfl := length_eq_zero_iff.mp (Nat.le_zero.mp hfuel)
    rw [show disabledTokens (keys active_names) [] = [] from rfl, append_nil]
    exact .pure h
  | succ fuel ih =>
    unfold add_disabled_tokens
    refine .ite (fun hend => ?_) fun hmore => ?_
    · rw [hend, show disabledTokens (keys active_names) [] = [] from rfl, append_nil]
      exact .pure h
    have hnext := length_next_cursor hmore
    rw [disabledTokens_step]
    have hbegin : 0 ∉ cursor.dropWhile isspace := fun hmem =>
      hcursor ((dropWhile_sublist _).mem hmem)
    generalize cursor.dropWhile isspace = begin at hnext hbegin
    have hrest : 0 ∉ begin.dropWhile fun byte => ! isspace byte := fun hmem =>
      hbegin ((dropWhile_sublist _).mem hmem)
    have htoken : 0 ∉ begin.takeWhile fun byte => ! isspace byte := fun hmem =>
      hbegin ((takeWhile_sublist _).mem hmem)
    dsimp only
    generalize (begin.dropWhile fun byte => ! isspace byte) = rest at hnext hrest
    generalize (begin.takeWhile fun byte => ! isspace byte) = token at htoken
    -- Both ways to pass over a token go on with the same names.
    have hskip : ¬ (token ≠ [] ∧ token ≠ asciiBytes "_" ∧ token ∉ keys active_names) →
        Ends FailsWithStatus (add_disabled_tokens malloc active_names fuel rest disabled)
          fun disabled => OrderedInv disabled (names ++
            (([token].filter fun token => token ≠ [] ∧ token ≠ asciiBytes "_" ∧
              token ∉ keys active_names) ++ disabledTokens (keys active_names) rest)) := by
      intro hno
      rw [filter_cons_of_neg (by rwa [decide_eq_true_iff]), filter_nil, nil_append]
      exact ih (by omega) hrest h
    refine .ite (fun hpass => hskip (by tauto)) fun hname => ?_
    apply Ends.bind (string_set_contains_span_ends hactive token)
    intro found hfound
    refine .ite (fun hyes => hskip fun hkept => hkept.2.2 (hfound.mp hyes)) fun hno => ?_
    apply Ends.bind (append_owned_span_ends malloc h htoken)
    intro appended happended
    cases appended with
    | none => exact .fail ⟨.outOfMemory, nofun, rfl⟩
    | some disabled =>
      rw [filter_cons_of_pos (by rw [decide_eq_true_iff]; tauto), filter_nil, ← append_assoc]
      exact ih (by omega) hrest (happended disabled rfl)

lemma add_disabled_combination_ends {names : List Bytes} (h : OrderedInv disabled names)
    (combination : Option CString) :
    Ends FailsWithStatus (add_disabled_combination malloc active_names disabled combination)
      fun disabled => OrderedInv disabled
        (names ++ combinationNames (keys active_names) combination) := by
  cases combination with
  | none => exact .fail ⟨.invalidArgument, nofun, rfl⟩
  | some combination =>
    exact add_disabled_tokens_ends malloc hactive (Nat.le_refl _) combination.no_nul h

end Disabled

variable (bits : UInt64)

/-- The capability depends on the settings and is not there. -/
def isMissing (row : CString × ℕ) : Bool :=
  unity_platform_capability_is_settings_dependent row.2 && ! has_bit bits row.2

def missingCapabilities : List CString :=
  (k_platform_capability_keywords.zipIdx.filter (isMissing bits)).map Prod.fst

lemma add_disabled_capability_ends {names : List Bytes} (h : OrderedInv disabled names)
    (row : CString × ℕ) :
    Ends FailsWithStatus (add_disabled_capability malloc bits disabled row) fun disabled =>
      OrderedInv disabled (names ++ (([row].filter (isMissing bits)).map Prod.fst).map
        CString.bytes) := by
  unfold add_disabled_capability
  refine .ite (fun hpass => ?_) fun hmiss => ?_
  · have hno : ¬ isMissing bits row = true := by
      rcases hpass with hfixed | hthere
      · simp [isMissing, hfixed]
      · simp [isMissing, hthere]
    rw [filter_cons_of_neg hno]
    refine .pure ?_
    simpa using h
  · have hyes : isMissing bits row = true := by
      simp only [not_or, Bool.not_eq_false, Bool.not_eq_true] at hmiss
      simp [isMissing, hmiss]
    rw [filter_cons_of_pos hyes]
    apply Ends.bind (append_owned_span_ends malloc h row.1.no_nul)
    intro appended happended
    cases appended with
    | none => exact .fail ⟨.outOfMemory, nofun, rfl⟩
    | some disabled => exact .pure (happended disabled rfl)

variable (program : SnippetProgramKeywordVariants)

/-- The combinations of a program in the order of their families. -/
def combinations : List (Option CString) :=
  program.user_global.combinations.toList ++ program.user_local.combinations.toList ++
    program.builtin.combinations.toList

/-- The names that are to be disabled, with all their occurrences. -/
def disabledNames (bits : UInt64) (active : List Bytes) : List Bytes :=
  (combinations program).flatMap (combinationNames active) ++
    (missingCapabilities bits).map CString.bytes

variable {contract : SnippetCompileContract}

lemma build_disabled_keywords_ends {active_names : StringSet} (hactive : SetInv active_names)
    {program : SnippetProgramKeywordVariants}
    (hprog : unity_compiler_snippet_contract_find_program_variants contract
      input.compiler_program = some program) :
    Ends FailsWithStatus (build_disabled_keywords malloc contract input active_names)
      fun disabled => (disabled.map CString.bytes).Nodup ∧
        disabled.map CString.bytes = (disabledNames program input.platform_capabilities.bits
          (keys active_names)).eraseDups := by
  unfold build_disabled_keywords
  rw [hprog]
  dsimp only
  refine .bind (Q := fun disabled => OrderedInv disabled
    ((combinations program).flatMap (combinationNames (keys active_names))))
    ?_ fun disabled hcombinations => ?_
  · refine Ends.foldlM (I := fun done disabled =>
      OrderedInv disabled (done.flatMap (combinationNames (keys active_names))))
      orderedInv_empty fun done combination _ disabled h => ?_
    rw [flatMap_append, flatMap_singleton]
    exact add_disabled_combination_ends malloc hactive h combination
  · refine .bind (Q := fun disabled => OrderedInv disabled (disabledNames program
      input.platform_capabilities.bits (keys active_names))) ?_
      fun disabled h => .pure ⟨h.nodup, h.values⟩
    refine Ends.foldlM (I := fun done disabled => OrderedInv disabled
      ((combinations program).flatMap (combinationNames (keys active_names)) ++
        ((done.filter (isMissing input.platform_capabilities.bits)).map Prod.fst).map
          CString.bytes)) (by simpa using hcombinations) fun done row _ disabled h => ?_
    rw [filter_append, map_append, map_append, ← append_assoc]
    exact add_disabled_capability_ends malloc _ h row

/-! ## Selected rows -/

def indicesOf (indices : CArray ℤ) : List ℤ := indices.values.getD []

/-- The rows that the indices select are marked, and they have names. -/
structure Selection (names : List (Option CString)) (indices : List ℤ) (selected : List Bool) :
    Prop where
  marks : selected = (List.range names.length).map fun i : ℕ => decide ((i : ℤ) ∈ indices)
  named : ∀ i : ℕ, (i : ℤ) ∈ indices → has_text (names[i]?.getD none) = true

lemma selection_nil (names : List (Option CString)) :
    Selection names [] (List.replicate names.length false) := by
  refine ⟨?_, nofun⟩
  simp [map_const']

variable {selected : List Bool} {names : List (Option CString)}

lemma select_scope_ends (indices : CArray ℤ) {chosen : List ℤ}
    (h : Selection names chosen selected) :
    Ends FailsWithStatus (select_scope names indices selected : AuthorityM World (List Bool))
      (Selection names (chosen ++ indicesOf indices)) := by
  unfold select_scope indicesOf
  cases indices.values with
  | none =>
    refine .failWhen (fun _ => ⟨.invalidArgument, nofun, rfl⟩) fun _ => .pure ?_
    rwa [getD_none, append_nil]
  | some list =>
    refine Ends.foldlM (I := fun done selected => Selection names (chosen ++ done) selected)
      (by rwa [append_nil]) fun done index _ selected h => ?_
    refine .failWhen (fun _ => ⟨.invalidKeywordIndex, nofun, rfl⟩) fun hgood => .pure ?_
    simp only [not_or, Bool.not_eq_false] at hgood
    obtain ⟨hnn, hlt, htext⟩ := hgood
    obtain ⟨i, rfl⟩ := Int.eq_ofNat_of_zero_le (Int.not_lt.mp hnn)
    rw [Int.toNat_natCast] at htext ⊢
    have hbnd : i < names.length := by omega
    refine ⟨?_, fun j hj => ?_⟩
    · rw [h.marks]
      apply ext_getElem (by simp)
      intro j hj _
      simp only [length_set, length_map, length_range] at hj
      rw [getElem_set]
      by_cases hij : i = j
      · simp [hij]
      · have hij' : ¬ j = i := fun heq => hij heq.symm
        have hne : (j : ℤ) ≠ i := fun heq => hij' (Int.ofNat.inj heq)
        have hmem : (j : ℤ) ∈ chosen ++ (done ++ [(i : ℤ)]) ↔ (j : ℤ) ∈ chosen ++ done := by
          rw [← append_assoc, mem_append, mem_singleton]
          exact or_iff_left hne
        rw [if_neg hij]
        simp only [getElem_map, getElem_range, hmem]
    · rw [← append_assoc] at hj
      rcases mem_append.mp hj with hold | hnew
      · exact h.named j hold
      · rw [Int.ofNat.inj (mem_singleton.mp hnew)]
        exact htext

variable (input : UnityCompileAuthorityInput)

lemma select_keyword_indices_ends (names : List (Option CString)) :
    Ends FailsWithStatus (select_keyword_indices input names (List.replicate names.length false) :
        AuthorityM World (List Bool))
      (Selection names (indicesOf input.global_keyword_indices ++
        indicesOf input.local_keyword_indices)) := by
  apply Ends.bind (select_scope_ends input.global_keyword_indices (selection_nil names))
  intro selected h
  exact select_scope_ends input.local_keyword_indices h

/-! ## User keywords -/

lemma require_ends (count size : ℕ) :
    Ends FailsWithStatus (require malloc count size) fun _ => True := by
  apply Ends.bind (allocate_ends malloc count size)
  intro allocated _
  unfold failWhen
  exact .ite (fun _ => .fail ⟨.outOfMemory, nofun, rfl⟩) fun _ => .pure trivial

lemma require_items_ends (count size : ℕ) :
    Ends FailsWithStatus (require_items malloc count size) fun _ => True :=
  .ite (fun _ => require_ends malloc count size) fun _ => .pure trivial

def selectedNames (names : List (Option CString)) (indices : List ℤ) : List (Option CString) :=
  (names.zipIdx.filter fun row => (row.2 : ℤ) ∈ indices).map Prod.fst

variable {indices : List ℤ}

lemma selectedNames_eq (h : Selection names indices selected) :
    ((names.zip selected).filter fun row => row.2).map Prod.fst = selectedNames names indices := by
  have hzip : names.zip selected =
      names.zipIdx.map (Prod.map id fun i : ℕ => decide ((i : ℤ) ∈ indices)) := by
    rw [h.marks, List.zipIdx_eq_zip_range', ← List.range_eq_range', List.zip_map_right]
  rw [hzip, List.filter_map, List.map_map]
  rfl

structure UsersInv (users : List CString × StringSet) (names : List (Option CString)) : Prop where
  set : SetInv users.2
  keys : (keys users.2).Perm (users.1.map CString.bytes)
  names : users.1.map some = names

variable {users : List CString × StringSet}

lemma add_user_keyword_ends (h : UsersInv users names) {row : Option CString × Bool}
    (hrow : row.2 = true → has_text row.1 = true) :
    Ends FailsWithStatus (add_user_keyword malloc users row) fun users =>
      UsersInv users (names ++ ([row].filter fun row => row.2).map Prod.fst) := by
  obtain ⟨name, marked⟩ := row
  unfold add_user_keyword
  refine .ite (fun hno => ?_) fun hyes => ?_
  · obtain rfl : marked = false := hno
    exact .pure (by simpa using h)
  obtain rfl : marked = true := by simpa using hyes
  cases name with
  | none => exact absurd (hrow rfl) Bool.false_ne_true
  | some name =>
    apply Ends.bind (string_set_insert_span_ends malloc h.set rfl)
    rintro ⟨result, set⟩ hinserted
    cases result with
    | error => exact .fail ⟨.outOfMemory, nofun, rfl⟩
    | present => exact .fail ⟨.ambiguousKeywordName, nofun, rfl⟩
    | inserted =>
      obtain ⟨-, hset, hperm⟩ := hinserted
      refine .bind (require_ends malloc _ _) fun _ _ => .pure ⟨hset, ?_, ?_⟩
      · rw [map_append, map_singleton]
        exact (hperm.trans (h.keys.cons _)).trans (perm_append_singleton _ _).symm
      · rw [map_append, h.names]
        rfl

lemma build_user_keywords_ends (h : Selection names indices selected) :
    Ends FailsWithStatus (build_user_keywords malloc names selected) fun users =>
      UsersInv users (selectedNames names indices) := by
  unfold build_user_keywords
  refine .failWhen (fun _ => ⟨.invalidArgument, nofun, rfl⟩) fun _ => ?_
  refine .bind (require_items_ends malloc _ _) fun _ _ => ?_
  rw [← selectedNames_eq h]
  refine Ends.foldlM (I := fun done users =>
    UsersInv users ((done.filter fun row => row.2).map Prod.fst))
    ?_ fun done row hdone users husers => ?_
  · exact ⟨setInv_empty, .refl _, rfl⟩
  rw [filter_append, map_append]
  refine add_user_keyword_ends malloc husers fun hmarked => ?_
  -- The mark of a row is where the row is.
  obtain ⟨rest, hzip⟩ := hdone
  obtain ⟨i, hi, hrow⟩ := getElem_of_mem (l := names.zip selected)
    (by rw [hzip]; exact mem_append_right done mem_cons_self)
  rw [getElem_zip] at hrow
  obtain ⟨hi_names, hi_selected⟩ : i < names.length ∧ i < selected.length := by
    rw [length_zip] at hi
    omega
  have hmark : selected[i] = true := by rw [← hmarked, ← hrow]
  have hin : (i : ℤ) ∈ indices := by
    simpa [h.marks] using hmark
  have htext := h.named i hin
  rwa [getElem?_eq_getElem hi_names, getD_some, show names[i] = row.1 by rw [← hrow]] at htext

/-! ## Platform keywords -/

lemma copy_strings_ends (strings : List CString) :
    Ends FailsWithStatus (copy_strings malloc strings) fun _ => True := by
  refine .bind (Q := fun _ => True) ?_ fun _ _ => .pure trivial
  induction strings with
  | nil => exact .pure trivial
  | cons string strings ih => exact .bind (require_ends malloc _ _) fun _ _ => ih

lemma build_platform_keywords_ends :
    Ends FailsWithStatus (build_platform_keywords malloc input) fun _ => True := by
  unfold build_platform_keywords
  refine .bind (require_items_ends malloc _ _) fun _ _ => ?_
  exact .bind (copy_strings_ends malloc _) fun _ _ => .pure trivial

/-! ## Requirements -/

/-- The base word joined with the words of the conditions whose keyword is given. -/
def joinedRequirements (contract : SnippetCompileContract) (users : List CString) : UInt64 :=
  (contract.conditional_requirements.toList.filter fun conditional =>
    conditional.keyword ∈ users.map some).foldl
    (fun requirements conditional => requirements ||| conditional.requirements)
    contract.requirements

lemma mem_map_bytes_iff {users : List CString} {string : CString} :
    string.bytes ∈ users.map CString.bytes ↔ some string ∈ users.map some := by
  rw [List.mem_map, List.mem_map]
  refine exists_congr fun user => and_congr_right fun _ => ?_
  rw [some.injEq, CString.mk.injEq]

lemma build_requirements_ends (h : UsersInv users names)
    (hnamed : ∀ conditional ∈ contract.conditional_requirements.toList, has_text
      conditional.keyword = true) :
    Ends FailsWithStatus (build_requirements contract users.2 : AuthorityM World UInt64)
      fun requirements => requirements = joinedRequirements contract users.1 := by
  unfold build_requirements joinedRequirements
  refine Ends.foldlM (I := fun done requirements => requirements =
    (done.filter fun conditional : ConditionalShaderRequirement =>
      conditional.keyword ∈ users.1.map some).foldl
      (fun requirements conditional => requirements ||| conditional.requirements)
      contract.requirements) rfl fun done conditional hdone requirements hreqs => ?_
  obtain ⟨rest, hlist⟩ := hdone
  have htext := hnamed conditional (by
    rw [hlist]
    exact mem_append_right done mem_cons_self)
  unfold add_requirement
  cases hkw : conditional.keyword with
  | none =>
    rw [hkw] at htext
    cases htext
  | some keyword =>
    apply Ends.bind (string_set_contains_span_ends h.set keyword.bytes)
    intro active hactive
    rw [h.keys.mem_iff, mem_map_bytes_iff, ← hkw] at hactive
    refine .pure ?_
    rw [filter_append, foldl_append, ← hreqs]
    by_cases hmem : conditional.keyword ∈ users.1.map some
    · rw [if_pos (hactive.mpr hmem), filter_cons_of_pos (by simpa using hmem)]
      rfl
    · rw [if_neg (fun hyes => hmem (hactive.mp hyes)), filter_cons_of_neg (by simpa using hmem)]
      rfl

/-! ## The build -/

/-- The lists of an authority are those of its input. -/
structure AuthorityLists (input : UnityCompileAuthorityInput) (contract : SnippetCompileContract)
    (program : SnippetProgramKeywordVariants) (authority : UnityCompileAuthority) : Prop where
  user : authority.user_keywords.map some = selectedNames (input.keyword_names.values.getD [])
    (indicesOf input.global_keyword_indices ++ indicesOf input.local_keyword_indices)
  user_nodup : authority.user_keywords.Nodup
  disabled : authority.disabled_keywords.map CString.bytes =
    (disabledNames program input.platform_capabilities.bits
      (authority.user_keywords.map CString.bytes)).eraseDups
  disabled_nodup : authority.disabled_keywords.Nodup
  requirements : authority.requirements = joinedRequirements contract authority.user_keywords

lemma disabledNames_congr (bits : UInt64) {active active' : List Bytes}
    (h : active.Perm active') :
    disabledNames program bits active = disabledNames program bits active' := by
  have hsame : disabledTokens active = disabledTokens active' := by
    funext combination
    apply filter_congr
    intro token _
    simp only [h.mem_iff]
  unfold disabledNames combinationNames
  rw [hsame]

lemma named_of_validate (h : unity_compiler_snippet_contract_validate contract = true) :
    ∀ conditional ∈ contract.conditional_requirements.toList,
      has_text conditional.keyword = true := by
  unfold unity_compiler_snippet_contract_validate at h
  dsimp only at h
  split at h
  · nomatch h
  · simp only [Bool.and_eq_true] at h
    exact all_eq_true.mp h.2

lemma build_authority_ends : Ends FailsWithStatus (build_authority malloc input) fun authority =>
      ∃ contract program, input.contract = some contract ∧
        unity_compiler_snippet_contract_find_program_variants contract input.compiler_program =
          some program ∧ AuthorityLists input contract program authority := by
  unfold build_authority
  cases hctr : input.contract with
  | none => exact .fail ⟨.missingPreprocessContract, nofun, rfl⟩
  | some contract =>
    refine .failWhen (fun _ => ⟨.invalidArgument, nofun, rfl⟩) fun hvalid => ?_
    refine .failWhen (fun _ => ⟨.missingVariantFamilies, nofun, rfl⟩) fun hfamilies => ?_
    refine .failWhen (fun _ => ⟨.missingPlatformCapabilities, nofun, rfl⟩) fun _ => ?_
    refine .failWhen (fun _ => ⟨.invalidArgument, nofun, rfl⟩) fun _ => ?_
    simp only [not_or, Bool.not_eq_false] at hvalid
    obtain ⟨program, hprog⟩ : ∃ program,
        unity_compiler_snippet_contract_find_program_variants contract input.compiler_program =
          some program := by
      rw [Bool.not_eq_false, unity_compiler_snippet_contract_has_variant_families] at hfamilies
      cases hfind : unity_compiler_snippet_contract_find_program_variants contract
          input.compiler_program with
      | none =>
        rw [hfind] at hfamilies
        cases hfamilies
      | some program => exact ⟨program, rfl⟩
    refine .bind (require_items_ends malloc _ _) fun _ _ => ?_
    apply Ends.bind (select_keyword_indices_ends input _)
    intro selected hsel
    apply Ends.bind (build_user_keywords_ends malloc hsel)
    rintro ⟨users, active_names⟩ husers
    apply Ends.bind (build_platform_keywords_ends malloc input)
    rintro ⟨platform_keywords, compiler_flags⟩ -
    apply Ends.bind (build_disabled_keywords_ends malloc husers.set hprog)
    rintro disabled ⟨hnodup, hdisab⟩
    apply Ends.bind (build_requirements_ends husers (named_of_validate hvalid.1))
    rintro requirements hreqs
    refine .pure ⟨contract, program, rfl, hprog, ?_⟩
    rw [disabledNames_congr program _ husers.keys] at hdisab
    exact {
      user := husers.names
      user_nodup := (husers.keys.nodup_iff.mp husers.set.nodup).of_map
      disabled := hdisab
      disabled_nodup := hnodup.of_map
      requirements := hreqs }

/-- Two tables and three families, with the capabilities left open. -/
def sampleInput (index : ℤ) (bits : UInt64) : UnityCompileAuthorityInput :=
  let family (combinations : List String) : SnippetKeywordVariantSet :=
    { present := true
      combinations :=
        { values := some (combinations.map fun name => some (nameString name))
          count := combinations.length
          count_eq := fun _ l h => by rw [← Option.some.inj h, List.length_map] } }
  let program : SnippetProgramKeywordVariants :=
    { compiler_program := 0
      user_global := family ["_", "FOG SHARED", " BLUR SHARED"]
      user_local := family ["LOCAL FOG"]
      builtin := family ["SHARED INSTANCING"] }
  { contract := some
      { start_line := 0
        use_dxc_apis := 0
        never_use_dxc_apis := 0
        program_keyword_variants :=
          { values := some [program], count := 1, count_eq := fun _ l h => by cases h; rfl }
        non_stripped_user_keywords := { values := none, count := 0, count_eq := nofun }
        builtin_keywords := { values := none, count := 0, count_eq := nofun }
        requirements := 1
        conditional_requirements :=
          { values := some [⟨some (nameString "FOG"), 4⟩, ⟨some (nameString "BLUR"), 8⟩]
            count := 2
            count_eq := fun _ l h => by cases h; rfl } }
    keyword_names :=
      { values := some [some (nameString "FOG"), some (nameString "UNITY_NO_DXT5nm")]
        count := 2
        count_eq := fun l h => by cases h; rfl }
    global_keyword_indices :=
      { values := some [index], count := 1, count_eq := fun l h => by cases h; rfl }
    local_keyword_indices := { values := none, count := 0, count_eq := nofun }
    compiler_program := 0
    pass_type := 4
    platform_capabilities := { present := true, bits } }

def emptyAuthority : UnityCompileAuthority := ⟨[], [], [], 0, 0⟩

end CompileAuthority

open CompileAuthority

/-! ## The lists of an authority -/

/-- **A build** that succeeds lists the selected rows, the other names of the program's families and
the capabilities that are not there. One that fails leaves the authority of the caller alone. -/
theorem compile_authority_lists {World : Type} (malloc : World → Bool × World)
    (input : UnityCompileAuthorityInput) (out_authority : UnityCompileAuthority) (world : World) :
    let result := unity_compile_authority_build malloc input out_authority world
    result.1 ≠ .undefined ∧
    (result.1 = .status .ok → ∃ contract program, input.contract = some contract ∧
      unity_compiler_snippet_contract_find_program_variants contract input.compiler_program =
        some program ∧ AuthorityLists input contract program result.2.1) ∧
    (result.1 ≠ .status .ok → result.2.1 = out_authority) := by
  have hends := build_authority_ends malloc input
  unfold unity_compile_authority_build
  rcases hrun : build_authority malloc input world with ⟨authority | authority, world'⟩
  · obtain ⟨status, hstatus, hstop⟩ := hends.error world _ world' hrun
    refine ⟨by rw [hstop]; exact nofun, fun hok => ?_, fun _ => rfl⟩
    rw [hstop] at hok
    exact absurd (AuthorityStop.status.inj hok) hstatus
  · exact ⟨nofun, fun _ => hends.ok world authority world' hrun, fun hne => absurd rfl hne⟩

lemma sample_build_ok : (unity_compile_authority_build (fun world : Unit => (true, world))
      (sampleInput 0 0x1ffffffff) emptyAuthority ()).1 = .status .ok := by
  decide +kernel

/-- The build of the sample succeeds, and its lists are those of the input. -/
theorem compile_authority_lists_sample :
    (unity_compile_authority_build (fun world : Unit => (true, world))
      (sampleInput 0 0x1ffffffff) emptyAuthority ()).1 = .status .ok ∧
    ∃ contract program, (sampleInput 0 0x1ffffffff).contract = some contract ∧
      unity_compiler_snippet_contract_find_program_variants contract 0 = some program ∧
      AuthorityLists (sampleInput 0 0x1ffffffff) contract program
        (unity_compile_authority_build (fun world : Unit => (true, world))
          (sampleInput 0 0x1ffffffff) emptyAuthority ()).2.1 :=
  ⟨sample_build_ok, (compile_authority_lists (fun world : Unit => (true, world))
    (sampleInput 0 0x1ffffffff) emptyAuthority ()).2.1 sample_build_ok⟩

/-! ## Enabled and disabled -/

lemma mem_disabled_iff {contract : SnippetCompileContract}
    {program : SnippetProgramKeywordVariants} {authority : UnityCompileAuthority}
    (h : AuthorityLists input contract program authority) {name : CString}
    (huser : name ∈ authority.user_keywords) :
    name ∈ authority.disabled_keywords ↔
      name ∈ missingCapabilities input.platform_capabilities.bits := by
  have hbytes : ∀ names : List CString, name ∈ names ↔ name.bytes ∈ names.map CString.bytes := by
    intro names
    rw [mem_map_bytes_iff, List.mem_map_of_injective (some_injective _)]
  rw [hbytes authority.disabled_keywords, h.disabled, List.mem_eraseDups, disabledNames,
    List.mem_append, ← hbytes]
  refine or_iff_right fun hmem => ?_
  obtain ⟨combination, -, htoken⟩ := mem_flatMap.mp hmem
  have hkept := (mem_filter.mp htoken).2
  rw [decide_eq_true_iff] at hkept
  exact hkept.2 ((hbytes _).mp huser)

/-- **No name is enabled and disabled at once** exactly when no selected row has the name of a
capability that depends on the settings and is not there. -/
theorem compile_authority_disjoint_iff {World : Type} {malloc : World → Bool × World}
    {input : UnityCompileAuthorityInput} {out_authority : UnityCompileAuthority} {world : World}
    (hok : (unity_compile_authority_build malloc input out_authority world).1 = .status .ok) :
    (∀ name ∈ (unity_compile_authority_build malloc input out_authority world).2.1.user_keywords,
      name ∉ (unity_compile_authority_build malloc input out_authority world).2.1.disabled_keywords)
    ↔ ∀ capability ∈ missingCapabilities input.platform_capabilities.bits,
      some capability ∉ selectedNames (input.keyword_names.values.getD [])
        (indicesOf input.global_keyword_indices ++ indicesOf input.local_keyword_indices) := by
  have hends := build_authority_ends malloc input
  unfold unity_compile_authority_build at hok ⊢
  rcases hrun : build_authority malloc input world with ⟨authority | authority, world'⟩
  · obtain ⟨status, hstatus, hstop⟩ := hends.error world _ world' hrun
    rw [hrun] at hok
    dsimp only at hok
    rw [hstop] at hok
    exact absurd (AuthorityStop.status.inj hok) hstatus
  obtain ⟨contract, program, -, -, hlists⟩ := hends.ok world authority world' hrun
  dsimp only
  rw [← hlists.user]
  simp only [List.mem_map_of_injective (some_injective _)]
  constructor
  · intro hdisjoint capability hmissing huser
    exact hdisjoint capability huser ((mem_disabled_iff hlists huser).mpr hmissing)
  · intro hcapabilities name huser hdisabled
    exact hcapabilities name ((mem_disabled_iff hlists huser).mp hdisabled) huser

/-- The selected row is not a capability. -/
theorem compile_authority_disjoint_sample :
    (unity_compile_authority_build (fun world : Unit => (true, world))
      (sampleInput 0 0x1ffffffff) emptyAuthority ()).1 = .status .ok ∧
    (∀ name ∈ (unity_compile_authority_build (fun world : Unit => (true, world))
        (sampleInput 0 0x1ffffffff) emptyAuthority ()).2.1.user_keywords,
      name ∉ (unity_compile_authority_build (fun world : Unit => (true, world))
        (sampleInput 0 0x1ffffffff) emptyAuthority ()).2.1.disabled_keywords) :=
  ⟨sample_build_ok, (compile_authority_disjoint_iff sample_build_ok).mpr (by decide +kernel)⟩

/-- The selected row has the name of a capability, and it is enabled and disabled. -/
theorem compile_authority_not_disjoint :
    (unity_compile_authority_build (fun world : Unit => (true, world))
      (sampleInput 1 0x1fffffffe) emptyAuthority ()).1 = .status .ok ∧
    ∃ name ∈ (unity_compile_authority_build (fun world : Unit => (true, world))
        (sampleInput 1 0x1fffffffe) emptyAuthority ()).2.1.user_keywords,
      name ∈ (unity_compile_authority_build (fun world : Unit => (true, world))
        (sampleInput 1 0x1fffffffe) emptyAuthority ()).2.1.disabled_keywords := by
  decide +kernel

end DXBCSandbox
