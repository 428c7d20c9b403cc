/-
The buffer of `flatten_path` (`src/compiler/unity_include_closure.c`).

The buffer is as large as the path and two bytes more, and a store that leaves it has no result. It
is held up to its end, without its first slash: the bytes behind the end are stored before they are
read. The read position is the part of the path that is left.
-/
import DXBCSandbox.Compiler.IncludeClosure

namespace DXBCSandbox.IncludeClosure.Buffer

open List Option

/-- The first slash takes a byte of the buffer. -/
def store (limit : ℕ) (result bytes : Bytes) : Option Bytes :=
  if result.length + 1 + bytes.length ≤ limit then some (result ++ bytes) else none

def put_component (limit : ℕ) (result component : Bytes) : Option Bytes :=
  if component = [] ∨ component = asciiBytes "." then some result
  else if component = asciiBytes ".." then
    -- The end moves back over the bytes that are no slash, and then over the slash.
    some (result.rdropWhile (· ≠ slash)).dropLast
  else if result = [] then store limit result component
  else (store limit result [slash]).bind (store limit · component)

def skip_slashes (path : Bytes) : Bytes := path.dropWhile (· = slash)

lemma length_rest_lt {path : Bytes} (h : path ≠ []) :
    ((skip_slashes path).dropWhile (· ≠ slash)).length < path.length := by
  obtain ⟨c, path, rfl⟩ := exists_cons_of_ne_nil h
  have hskip := (dropWhile_sublist (l := path) fun c => decide (c = slash)).length_le
  have hrest := fun l : Bytes => (dropWhile_sublist (l := l) (decide <| · ≠ slash)).length_le
  by_cases hc : c = slash
  · have := hrest (skip_slashes path)
    simp only [skip_slashes, hc, dropWhile_cons, decide_true, if_true, length_cons] at this ⊢
    omega
  · have := hrest path
    simp only [skip_slashes, hc, dropWhile_cons, decide_false, length_cons, ne_eq,
      not_false_eq_true, decide_true, if_true, Bool.false_eq_true, if_false] at this ⊢
    omega

def flatten_loop (limit : ℕ) (result path : Bytes) : Option Bytes :=
  if path = [] then some result
  else (put_component limit result ((skip_slashes path).takeWhile (· ≠ slash))).bind fun result =>
    flatten_loop limit result ((skip_slashes path).dropWhile (· ≠ slash))
termination_by path.length
decreasing_by exact length_rest_lt ‹_›

/-- The whole function. The terminator is the last store. -/
def flatten_path (path : Bytes) : Option (Option Bytes) :=
  if path.head? ≠ some slash then some none
  else do
    let limit := path.length + 2
    let result ← flatten_loop limit [] path.tail
    let _ ← store limit result [0]
    pure (some (slash :: result))

/-! ## The loop -/

variable {result component path : Bytes} {limit : ℕ}

/-- One component. There is room for it, and for the slash before it when one is stored. -/
theorem put_component_eq
    (h : result.length + 1 + (if result = [] then 0 else 1) + component.length ≤ limit) :
    put_component limit result component = some (flatten_component result component) ∧
      (flatten_component result component).length ≤
        result.length + (if result = [] then 0 else 1) + component.length := by
  unfold put_component flatten_component
  by_cases hskip : component = [] ∨ component = asciiBytes "."
  · rw [if_pos hskip, if_pos hskip]
    exact ⟨rfl, by omega⟩
  rw [if_neg hskip, if_neg hskip]
  by_cases hpop : component = asciiBytes ".."
  · rw [if_pos hpop, if_pos hpop]
    have hlen := ( dropLast_prefix _).trans
      ( rdropWhile_prefix (p := (decide <| · ≠ slash)) (l := result)) |>.length_le
    exact ⟨rfl, by omega⟩
  rw [if_neg hpop, if_neg hpop]
  by_cases hnil : result = []
  · subst hnil
    exact ⟨if_pos (by simpa using h), by simp⟩
  · simp only [if_neg hnil] at h ⊢
    refine ⟨?_, by simp; omega⟩
    rw [store, if_pos (by rw [length_singleton]; omega), bind_some, store,
      if_pos (by rw [length_append, length_singleton]; omega), append_assoc, singleton_append]

lemma splitOn_slash : (slash :: path).splitOn slash = [] :: path.splitOn slash :=
  splitOn_append_cons_self_of_not_mem not_mem_nil path

@[simp] lemma flatten_component_nil : flatten_component result [] = result := if_pos (.inl rfl)

lemma foldl_skip_slashes : ((skip_slashes path).splitOn slash).foldl flatten_component result =
      (path.splitOn slash).foldl flatten_component result := by
  induction path with
  | nil => rfl
  | cons c path ih =>
    by_cases hc : c = slash
    · rw [skip_slashes, hc, dropWhile_cons_of_pos (by simp), splitOn_slash, foldl_cons,
        flatten_component_nil, ← ih, skip_slashes]
    · rw [skip_slashes, dropWhile_cons_of_neg (by simp [hc])]

lemma eq_slash_of_head_dropWhile {c : UInt8} (h : c ∈ (path.dropWhile (· ≠ slash)).head?) :
    c = slash := by
  have hhead := head?_dropWhile_not (decide <| · ≠ slash) path
  rw [mem_def.mp h] at hhead
  simpa using hhead

/-- A component is read up to its slash, which the next round skips. -/
theorem foldl_takeWhile : (path.splitOn slash).foldl flatten_component result =
      ((path.dropWhile (· ≠ slash)).splitOn slash).foldl flatten_component
        (flatten_component result (path.takeWhile (· ≠ slash))) := by
  have hnot : slash ∉ path.takeWhile (· ≠ slash) := fun hmem => by
    simpa using mem_takeWhile_imp hmem
  conv_lhs => rw [← takeWhile_append_dropWhile (p := (· ≠ slash)) (l := path)]
  cases hrest : path.dropWhile (· ≠ slash) with
  | nil => rw [append_nil, splitOn_eq_singleton hnot]; simp
  | cons c rest =>
    have hc : c = slash := @eq_slash_of_head_dropWhile path c (by rw [hrest]; rfl)
    rw [hc, splitOn_append_cons_self_of_not_mem hnot, splitOn_slash, foldl_cons, foldl_cons,
      flatten_component_nil]

/-- What is left of the path begins with a slash, or nothing is stored yet. So the slash that is
stored has the room of one that was read. -/
theorem flatten_loop_eq (h : result.length + 2 + path.length ≤ limit)
    (hslash : result = [] ∨ ∀ c ∈ path.head?, c = slash) :
    flatten_loop limit result path = some ((path.splitOn slash).foldl flatten_component result) ∧
    ((path.splitOn slash).foldl flatten_component result).length + 2 ≤ limit := by
  induction hn : path.length using Nat.strong_induction_on generalizing path result with
  | _ n ih =>
    rw [flatten_loop]
    by_cases hnil : path = []
    · rw [if_pos hnil, hnil]
      exact ⟨by simp, by simp; omega⟩
    have hlen : (skip_slashes path).length + (if result = [] then 0 else 1) ≤ path.length := by
      obtain rfl | hslash := hslash
      · exact (dropWhile_sublist _).length_le
      obtain ⟨c, rest, rfl⟩ := exists_cons_of_ne_nil hnil
      have hle := (dropWhile_sublist (l := rest) (decide <| · = slash)).length_le
      rw [skip_slashes, dropWhile_cons_of_pos (by simp [hslash c rfl]), length_cons]
      split_ifs <;> omega
    have hparts := congrArg length
      (takeWhile_append_dropWhile (p := (· ≠ slash)) (l := skip_slashes path))
    rw [length_append] at hparts
    obtain ⟨hput, hle⟩ := @put_component_eq result
      ((skip_slashes path).takeWhile (· ≠ slash)) limit (by omega)
    have hrest := @ih _ (hn ▸ length_rest_lt hnil)
      (flatten_component result ((skip_slashes path).takeWhile (· ≠ slash))) _
      (by omega) (.inr fun c hc => eq_slash_of_head_dropWhile hc) rfl
    rwa [if_neg hnil, hput, bind_some, ← foldl_skip_slashes, foldl_takeWhile]

/-- The buffer is never left, and what it holds is the path of the closure's model. -/
theorem flatten_path_eq : flatten_path path = some (IncludeClosure.flatten_path path) := by
  unfold flatten_path IncludeClosure.flatten_path
  cases path with
  | nil => rfl
  | cons first path =>
    by_cases hfirst : first = slash
    · obtain ⟨hloop, hlen⟩ := @flatten_loop_eq [] path ((first :: path).length + 2)
        (by simp; omega) (.inl rfl)
      rw [if_neg (by simp [hfirst]), tail_cons]
      simp only [hloop, bind_eq_bind, bind_some, store, length_singleton]
      rw [if_pos hlen]
      simp [hfirst]
    · simp [hfirst]

/-! ## The path that is returned -/

/-- The fold over the components that drops and pops. At the root there is nothing to pop. -/
def resolve (kept : List Bytes) (component : Bytes) : List Bytes :=
  if component = [] ∨ component = asciiBytes "." then kept
  else if component = asciiBytes ".." then kept.dropLast
  else kept ++ [component]

def resolved (path : Bytes) : List Bytes := (path.tail.splitOn slash).foldl resolve []

structure Proper (component : Bytes) : Prop where
  ne_nil : component ≠ []
  ne_dot : component ≠ asciiBytes "."
  ne_dots : component ≠ asciiBytes ".."
  slash_not_mem : slash ∉ component

lemma slash_not_mem_splitOn (h : component ∈ path.splitOn slash) : slash ∉ component := by
  induction path generalizing component with
  | nil => simp_all
  | cons b path ih =>
    obtain ⟨first, others, hsplit⟩ := exists_cons_of_ne_nil (splitOn_ne_nil slash path)
    rw [splitOn_cons_eq_if_modifyHead, hsplit] at h
    rw [hsplit] at ih
    have hfirst := ih mem_cons_self
    split_ifs at h <;> grind [modifyHead_cons]

lemma intercalate_concat {kept : List Bytes} : [slash].intercalate (kept ++ [component]) =
      if kept = [] then component else [slash].intercalate kept ++ slash :: component := by
  induction kept with
  | nil => simp
  | cons first kept ih =>
    rw [cons_append, intercalate_cons_of_ne_nil (by simp), ih]
    by_cases hnil : kept = [] <;> simp [hnil, intercalate_cons_of_ne_nil]

variable {kept : List Bytes}

lemma intercalate_eq_nil (h : ∀ c ∈ kept, Proper c) :
    [slash].intercalate kept = [] ↔ kept = [] := by
  cases kept using reverseRecOn with
  | nil => simp
  | append_singleton kept last =>
    rw [intercalate_concat]
    have hne := (h last (by simp)).ne_nil
    by_cases hnil : kept = [] <;> simp [hnil, hne]

lemma rdropWhile_append_of_forall {p : UInt8 → Bool} (h : ∀ c ∈ component, p c = true) :
    (result ++ component).rdropWhile p = result.rdropWhile p := by
  rw [rdropWhile, rdropWhile, reverse_append,
    dropWhile_append_of_pos fun c hc => h c (mem_reverse.mp hc)]

/-- The last slash stands before the last component. -/
theorem pop_intercalate (h : ∀ c ∈ kept, Proper c) :
    (([slash].intercalate kept).rdropWhile (· ≠ slash)).dropLast =
      [slash].intercalate kept.dropLast := by
  cases kept using reverseRecOn with
  | nil => rfl
  | append_singleton kept last =>
    have hlast : ∀ c ∈ last, decide (c ≠ slash) = true := fun c hc =>
      decide_eq_true fun heq => (h last (by simp)).slash_not_mem (heq ▸ hc)
    rw [intercalate_concat, dropLast_concat]
    by_cases hnil : kept = []
    · rw [if_pos hnil, hnil, rdropWhile_eq_nil_iff.mpr hlast, dropLast_nil, intercalate_nil]
    · rw [if_neg hnil, append_cons, rdropWhile_append_of_forall hlast,
        rdropWhile_concat_neg _ _ _ (by simp), dropLast_concat]

lemma resolve_step (h : ∀ c ∈ kept, Proper c) (hslash : slash ∉ component) :
    (∀ c ∈ resolve kept component, Proper c) ∧
    flatten_component ([slash].intercalate kept) component =
      [slash].intercalate (resolve kept component) := by
  unfold resolve flatten_component
  by_cases hskip : component = [] ∨ component = asciiBytes "."
  · rw [if_pos hskip, if_pos hskip]
    exact ⟨h, rfl⟩
  rw [if_neg hskip, if_neg hskip]
  by_cases hpop : component = asciiBytes ".."
  · rw [if_pos hpop, if_pos hpop]
    exact ⟨fun c hc => h c (dropLast_subset _ hc), pop_intercalate h⟩
  obtain ⟨hne, hdot⟩ := not_or.mp hskip
  rw [if_neg hpop, if_neg hpop, intercalate_concat]
  refine ⟨fun c hc => ?_, if_congr (intercalate_eq_nil h) rfl rfl⟩
  obtain hc | hc := mem_append.mp hc
  · exact h c hc
  · rw [mem_singleton.mp hc]
    exact ⟨hne, hdot, hpop, hslash⟩

lemma resolve_run (l : List Bytes) (h : ∀ c ∈ kept, Proper c)
    (hl : ∀ component ∈ l, slash ∉ component) :
    (∀ c ∈ l.foldl resolve kept, Proper c) ∧
    l.foldl flatten_component ([slash].intercalate kept) =
      [slash].intercalate (l.foldl resolve kept) := by
  induction l generalizing kept with
  | nil => exact ⟨h, rfl⟩
  | cons component l ih =>
    obtain ⟨hproper, htext⟩ := resolve_step h (hl component mem_cons_self)
    rw [foldl_cons, foldl_cons, htext]
    exact ih hproper (forall_mem_cons.mp hl).2

lemma proper_resolved : ∀ c ∈ resolved path, Proper c :=
  (resolve_run _ (by simp) fun _ => slash_not_mem_splitOn).1

lemma flatten_path_absolute (h : path.head? = some slash) :
    flatten_path path = some (some (slash :: [slash].intercalate (resolved path))) := by
  rw [flatten_path_eq]
  cases path with
  | nil => cases h
  | cons first path =>
    rw [IncludeClosure.flatten_path, if_neg (by simpa using h)]
    exact congrArg (fun text => some (some (slash :: text)))
      (@resolve_run [] _ (by simp) fun _ => slash_not_mem_splitOn).2

/-- Components that stay are what the path that they make is resolved to. -/
theorem resolved_intercalate (h : ∀ c ∈ kept, Proper c) :
    resolved (slash :: [slash].intercalate kept) = kept := by
  have hfold : ∀ l before : List Bytes, (∀ c ∈ l, Proper c) →
      l.foldl resolve before = before ++ l := by
    intro l
    induction l with
    | nil => simp
    | cons c l ih =>
      intro before hl
      have hc := hl c mem_cons_self
      rw [foldl_cons, resolve, if_neg (not_or.mpr ⟨hc.ne_nil, hc.ne_dot⟩), if_neg hc.ne_dots,
        ih _ (forall_mem_cons.mp hl).2, append_assoc, singleton_append]
  rw [resolved, tail_cons]
  by_cases hnil : kept = []
  · rw [hnil]
    rfl
  · rw [splitOn_intercalate _ (fun c hc => (h c hc).slash_not_mem) hnil, hfold _ _ h, nil_append]

/-- **Flattening.** The path that is returned has the components that the fold leaves, no store is
outside of the buffer, and the path is its own flattening. -/
theorem flatten_path_canonical (h : path.head? = some slash) :
    ∃ flat, flatten_path path = some (some flat) ∧
      flat = slash :: [slash].intercalate (resolved path) ∧
      (∀ component ∈ resolved path, Proper component) ∧
      flatten_path flat = some (some flat) := by
  refine ⟨_, flatten_path_absolute h, rfl, proper_resolved, ?_⟩
  rw [flatten_path_absolute rfl, resolved_intercalate proper_resolved]

/-- `/a/..//b/` is `/b`. -/
theorem flatten_path_canonical_popped :
    flatten_path (asciiBytes "/a/..//b/") = some (some (asciiBytes "/b")) := by
  obtain ⟨flat, hflat, htext, -⟩ := @flatten_path_canonical (asciiBytes "/a/..//b/") rfl
  exact hflat.trans (congrArg (some ∘ some) (htext.trans (by decide)))

end DXBCSandbox.IncludeClosure.Buffer
