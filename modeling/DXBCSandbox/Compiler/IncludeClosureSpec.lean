/-
The include closure is closed (`src/compiler/unity_include_closure.c`).

A successful step keeps what has been observed and adds its own paths, so behind a scan all the
candidates of its names are there. The worklist goes through the files in their order, and the
files that are merged into one that is scanned have its contents and its parents.
-/
import DXBCSandbox.Compiler.IncludeClosure
import DXBCSandbox.Compiler.IncludeScanSpec
import DXBCSandbox.Lib.Checks

namespace DXBCSandbox

open List Option Prod

namespace IncludeScan

/-! ## What a scan visits -/

def visitedNames (text : Bytes) : List Bytes := (usc_include_scan text recorder []).2

section Visits

variable {σ : Type} {visit : Visitor σ} {context context' : σ}

lemma scan_include_visits {operand : Bytes}
    (h : scan_include operand visit context = (.ok, context')) :
    ∃ name, visit context name = (true, context') ∧
      ∀ visited, scan_include operand recorder visited = (.ok, visited ++ [name]) := by
  unfold scan_include at h ⊢
  cases hopnd : operand.dropWhile horizontal_space with
  | nil =>
    rw [hopnd] at h
    cases h
  | cons c line =>
    rw [hopnd] at h
    dsimp only at h ⊢
    split at h
    · cases h
    rename_i hopening
    simp only [if_neg hopening]
    generalize line.takeWhile (· != if c = byte '"' then byte '"' else byte '>') = name at h ⊢
    split at h
    · cases h
    rename_i d rest hrest
    split at h
    · cases h
    rename_i hname
    simp only [if_neg hname]
    split at h
    · cases h
    rename_i hend
    simp only [if_neg hend]
    split at h
    · rename_i next hvisit
      rw [← (mk.inj h).2]
      exact ⟨_, hvisit, fun visited => rfl⟩
    · cases h

/-- A line that is read visits the same names for any visitor that takes them. -/
theorem scan_directive_visits {line : Bytes}
    (h : scan_directive line visit context = (.ok, context')) :
    ∃ names, visitAll visit context names = some context' ∧
      ∀ visited, scan_directive line recorder visited = (.ok, visited ++ names) := by
  have hnone (hcontext : context = context') :
      ∃ names, visitAll visit context names = some context' ∧ ∀ visited : List Bytes,
          (UscIncludeScanStatus.ok, visited) = (.ok, visited ++ names) :=
    ⟨[], congrArg some hcontext, fun visited => by rw [append_nil]⟩
  unfold scan_directive at h ⊢
  dsimp only at h ⊢
  split at h
  · cases h
  rename_i hdigraph
  simp only [if_neg hdigraph]
  cases hline : line.dropWhile horizontal_space with
  | nil =>
    rw [hline] at h
    exact hnone (mk.inj h).2
  | cons c rest =>
    rw [hline] at h
    dsimp only at h ⊢
    split at h
    · rename_i hc
      simp only [if_pos hc]
      exact hnone (mk.inj h).2
    rename_i hc
    simp only [if_neg hc]
    split at h
    · rename_i hname
      simp only [if_pos hname]
      obtain ⟨name, hvisit, hall⟩ := scan_include_visits h
      refine ⟨[name], ?_, hall⟩
      simp only [visitAll, hvisit]
    rename_i hname
    simp only [if_neg hname]
    split at h
    · cases h
    rename_i hpragma
    simp only [if_neg hpragma]
    split at h
    · cases h
    rename_i hother
    simp only [if_neg hother]
    exact hnone (mk.inj h).2

lemma scanEach_visits {lines : List Bytes} (h : scanEach visit lines context = (.ok, context')) :
    ∃ names, visitAll visit context names = some context' ∧
      ∀ visited, scanEach recorder lines visited = (.ok, visited ++ names) := by
  induction lines generalizing context with
  | nil =>
    refine ⟨[], congrArg some (mk.inj h).2, fun visited => ?_⟩
    rw [append_nil]
    rfl
  | cons line lines ih =>
    rw [scanEach] at h
    split at h
    · rename_i next hline
      obtain ⟨names, hnames, hfst⟩ := scan_directive_visits hline
      obtain ⟨names', hnames', hrest⟩ := ih h
      refine ⟨names ++ names', ?_, fun visited => ?_⟩
      · rw [visitAll_append, hnames]
        exact hnames'
      · rw [scanEach, hfst]
        dsimp only
        rw [hrest, append_assoc]
    · rename_i hfail
      exact absurd h (hfail context')

/-- **A scan that succeeds has visited the names of its text.** -/
theorem usc_include_scan_visits {text : Bytes}
    (h : usc_include_scan text visit context = (.ok, context')) :
    visitAll visit context (visitedNames text) = some context' := by
  unfold visitedNames
  unfold usc_include_scan at h ⊢
  cases hlogical : logical_source text with
  | none =>
    rw [hlogical] at h
    nomatch h
  | some logical =>
    rw [hlogical] at h
    dsimp only at h ⊢
    rw [scan_lines_eq (Nat.lt_succ_self _)] at h ⊢
    obtain ⟨names, hnames, hall⟩ := scanEach_visits h
    rw [hall]
    exact hnames

end Visits

end IncludeScan

namespace IncludeClosure

open IncludeScan (visitAll visitedNames)

variable {Lease : Type} (services : IncludeServices Lease) (sha256 : Bytes → CacheDigest)
  (roots : List Bytes)

/-! ## Observations -/

/-- There is a file at the path, with these contents. -/
def HasBytes (path bytes : Bytes) : Prop :=
  ∃ lease, services.include_file_lease_create path MAX_FILE_BYTES = some (some bytes, lease)

def record (path : Bytes) : Bytes :=
  match services.include_file_lease_create path MAX_FILE_BYTES with
  | none => []
  | some (none, _) => hash_bytes path ++ hash_bytes [0]
  | some (some bytes, _) =>
    hash_bytes path ++ (hash_bytes [1] ++ hash_bytes (sha256 bytes).toList)

structure StandsFor (path bytes : Bytes) (file : IncludeFile) : Prop where
  lexical : (parent_path path).bind flatten_path = some file.lexical_parent
  physical : (parent_path path).bind services.realpath = some file.physical_parent
  digest : file.digest = sha256 bytes

/-- The paths are hashed in their order, and the files among them are in the worklist. -/
structure Sound (header : Bytes) (s : State Lease) : Prop where
  nodup : s.paths.Nodup
  observed : ∀ path ∈ s.paths,
    (services.include_file_lease_create path MAX_FILE_BYTES).isSome
  hashed : s.hashed = header ++ s.paths.flatMap (record services sha256)
  files_le : s.files.length ≤ MAX_FILES
  listed : ∀ path ∈ s.paths, ∀ bytes, HasBytes services path bytes →
    ∃ file ∈ s.files, StandsFor services sha256 path bytes file
  origin : ∀ file ∈ s.files, file.digest = sha256 file.bytes ∧
    ∃ path, HasBytes services path file.bytes

structure Grown (s s' : State Lease) : Prop where
  paths : ∀ path ∈ s.paths, path ∈ s'.paths
  files : s.files <+: s'.files
  lexical_parent : s'.lexical_parent = s.lexical_parent
  physical_parent : s'.physical_parent = s.physical_parent

lemma Grown.refl (s : State Lease) : Grown s s := ⟨fun _ h => h, prefix_rfl, rfl, rfl⟩

variable {s : State Lease}

lemma Grown.trans {t u : State Lease} (h : Grown s t) (h' : Grown t u) : Grown s u where
  paths path hpath := h'.paths path (h.paths path hpath)
  files := h.files.trans h'.files
  lexical_parent := h'.lexical_parent.trans h.lexical_parent
  physical_parent := h'.physical_parent.trans h.physical_parent

variable {services sha256} {s' : State Lease}

lemma capture_file_spec {path bytes : Bytes}
    (h : capture_file services sha256 path bytes s = (true, s')) :
    (∃ file ∈ s'.files, StandsFor services sha256 path bytes file) ∧ Grown s s' ∧
      s'.paths = s.paths ∧ s'.hashed = s.hashed ∧
      (s.files.length ≤ MAX_FILES → s'.files.length ≤ MAX_FILES) ∧
      ∀ file ∈ s'.files, file ∈ s.files ∨ (file.digest = sha256 bytes ∧ file.bytes = bytes) := by
  unfold capture_file at h
  dsimp only at h
  split at h
  · rename_i lexical physical hlex hphys
    split at h
    · rename_i hany
      rw [← (mk.inj h).2]
      obtain ⟨file, hfile, hsame⟩ := any_eq_true.mp hany
      obtain ⟨hdig, hlex', hphys'⟩ := of_decide_eq_true hsame
      exact ⟨⟨file, hfile, hlex.trans (congrArg some hlex'.symm),
        hphys.trans (congrArg some hphys'.symm), hdig⟩, Grown.refl s, rfl, rfl, id,
        fun _ => .inl⟩
    split at h
    · nomatch h
    rename_i hroom
    rw [← (mk.inj h).2]
    refine ⟨⟨_, mem_append_right _ (mem_singleton_self _), hlex, hphys, rfl⟩,
      ⟨fun _ h => h, prefix_append _ _, rfl, rfl⟩, rfl, rfl, fun hle => ?_,
      fun file hfile => ?_⟩
    · rw [length_append, length_singleton]
      omega
    · rcases mem_append.mp hfile with hfile | hfile
      · exact .inl hfile
      · rw [mem_singleton.mp hfile]
        exact .inr ⟨rfl, rfl⟩
  · nomatch h

variable {header : Bytes}

/-- **One path.** It has been observed afterwards, and nothing is lost. -/
theorem capture_path_spec {path : Bytes} (h : capture_path services sha256 path s = (true, s'))
    (hs : Sound services sha256 header s) :
    Sound services sha256 header s' ∧ Grown s s' ∧ path ∈ s'.paths := by
  unfold capture_path at h
  split at h
  · rename_i hmem
    rw [← (mk.inj h).2]
    exact ⟨hs, Grown.refl s, hmem⟩
  rename_i hnew
  split at h
  · nomatch h
  have hnodup : (s.paths ++ [path]).Nodup := by
    refine nodup_append.mpr ⟨hs.nodup, pairwise_singleton _ _, ?_⟩
    intro a ha b hb heq
    rw [mem_singleton.mp hb] at heq
    exact hnew (heq ▸ ha)
  dsimp only at h
  split at h
  · nomatch h
  rename_i content lease hcreate
  split at h
  · nomatch h
  rename_i merged hmerge
  have hobs : ∀ other ∈ s.paths ++ [path],
      (services.include_file_lease_create other MAX_FILE_BYTES).isSome := by
    refine forall_mem_append.mpr ⟨hs.observed, fun other hother => ?_⟩
    rw [mem_singleton.mp hother, hcreate]
    rfl
  split at h
  · -- a path without a file
    rw [← (mk.inj h).2]
    refine ⟨⟨hnodup, hobs, ?_, hs.files_le, ?_, hs.origin⟩,
      ⟨fun _ => mem_append_left _, prefix_rfl, rfl, rfl⟩,
      mem_append_right _ (mem_singleton_self path)⟩
    · simp only [hs.hashed, flatMap_append, flatMap_singleton, record, hcreate, append_assoc]
    · intro other hother bytes hbytes
      rcases mem_append.mp hother with hother | hother
      · exact hs.listed other hother bytes hbytes
      · rw [mem_singleton.mp hother] at hbytes
        obtain ⟨_, hbytes⟩ := hbytes
        rw [hcreate] at hbytes
        nomatch hbytes
  · rename_i bytes
    obtain ⟨hstands, hgrown, hpaths, hhashed, hle, horigin⟩ := capture_file_spec h
    refine ⟨⟨?_, ?_, ?_, hle hs.files_le, ?_, ?_⟩, ⟨fun other hother => ?_, hgrown.files,
      hgrown.lexical_parent, hgrown.physical_parent⟩, ?_⟩
    · rw [hpaths]
      exact hnodup
    · rw [hpaths]
      exact hobs
    · rw [hpaths, hhashed]
      simp only [hs.hashed, flatMap_append, flatMap_singleton, record, hcreate, append_assoc]
    · rw [hpaths]
      intro other hother content hcontent
      rcases mem_append.mp hother with hother | hother
      · obtain ⟨file, hfile, hfor⟩ := hs.listed other hother content hcontent
        exact ⟨file, hgrown.files.mem hfile, hfor⟩
      · rw [mem_singleton.mp hother] at hcontent ⊢
        obtain ⟨_, hcontent⟩ := hcontent
        rw [hcreate] at hcontent
        rw [← some.inj (mk.inj (some.inj hcontent)).1]
        exact hstands
    · intro file hfile
      rcases horigin file hfile with hfile | ⟨hdig, hbytes⟩
      · exact hs.origin file hfile
      · rw [hbytes]
        exact ⟨hdig, path, lease, hcreate⟩
    · rw [hpaths]
      exact mem_append_left _ hother
    · rw [hpaths]
      exact mem_append_right _ (mem_singleton_self path)

/-! ## Candidates -/

/-- Both forms of the candidate have been observed. -/
def Observed (paths : List Bytes) (parent : Option Bytes) (name : Bytes) : Prop :=
  ∃ flat, flatten_path (raw_candidate parent name) = some flat ∧ flat ∈ paths ∧
    raw_candidate parent name ∈ paths

/-- Each location where a compiler may look for the name, seen from a file with the parents. -/
structure Covered (paths : List Bytes) (lexical physical : Option Bytes)
    (name : Bytes) : Prop where
  lexical : ∀ parent, lexical = some parent → Observed paths (some parent) name
  physical : ∀ parent, physical = some parent → Observed paths (some parent) name
  root : ∀ root ∈ roots, Observed paths (some root) name
  absolute : absolute name = true → Observed paths none name

variable {name : Bytes}

lemma Observed.mono {paths paths' : List Bytes} {parent : Option Bytes}
    (h : Observed paths parent name) (hsub : ∀ path ∈ paths, path ∈ paths') :
    Observed paths' parent name := by
  obtain ⟨flat, hflat, hmem, hraw⟩ := h
  exact ⟨flat, hflat, hsub _ hmem, hsub _ hraw⟩

variable {roots} in
lemma Covered.mono {paths paths' : List Bytes} {lexical physical : Option Bytes}
    (h : Covered roots paths lexical physical name) (hsub : ∀ path ∈ paths, path ∈ paths') :
    Covered roots paths' lexical physical name where
  lexical parent hparent := (h.lexical parent hparent).mono hsub
  physical parent hparent := (h.physical parent hparent).mono hsub
  root root hroot := (h.root root hroot).mono hsub
  absolute habsolute := (h.absolute habsolute).mono hsub

variable (services sha256) in
/-- A step that succeeds keeps what has been observed, and establishes a property of the paths that
more of them do not break. -/
def Establishes (m : StateM (State Lease) Bool) (p : List Bytes → Prop) : Prop :=
  ∀ (header : Bytes) (s s' : State Lease), m s = (true, s') →
    Sound services sha256 header s → Sound services sha256 header s' ∧ Grown s s' ∧ p s'.paths

lemma Establishes.mono {m : StateM (State Lease) Bool} {p q : List Bytes → Prop}
    (h : Establishes services sha256 m p) (hpq : ∀ paths, p paths → q paths) :
    Establishes services sha256 m q := by
  intro header s s' hrun hs
  obtain ⟨hs', hgrown, hp⟩ := h header s s' hrun hs
  exact ⟨hs', hgrown, hpq _ hp⟩

lemma establishes_skip :
    Establishes services sha256 (pure true : StateM (State Lease) Bool) fun _ => True := by
  intro header s s' hrun hs
  rw [← (mk.inj hrun).2]
  exact ⟨hs, Grown.refl s, trivial⟩

lemma andAlso_eq_true {σ : Type} {m m' : StateM σ Bool} {s s' : σ}
    (h : andAlso m m' s = (true, s')) : ∃ t, m s = (true, t) ∧ m' t = (true, s') := by
  unfold andAlso at h
  simp only [bind, StateT.bind] at h
  generalize hfst : m s = first at h
  obtain ⟨ok, t⟩ := first
  cases ok with
  | true => exact ⟨t, rfl, h⟩
  | false => nomatch h

/-- One step after the other. The first property is not broken by more paths. -/
theorem Establishes.andAlso {m m' : StateM (State Lease) Bool} {p q : List Bytes → Prop}
    (h : Establishes services sha256 m p) (h' : Establishes services sha256 m' q)
    (hp : ∀ paths paths' : List Bytes, (∀ path ∈ paths, path ∈ paths') → p paths → p paths') :
    Establishes services sha256 (andAlso m m') fun paths => p paths ∧ q paths := by
  intro header s s' hrun hs
  obtain ⟨t, hfst, hsnd⟩ := andAlso_eq_true hrun
  obtain ⟨ht, hgrown, hdone⟩ := h header s t hfst hs
  obtain ⟨hs', hgrown', hdone'⟩ := h' header t s' hsnd ht
  exact ⟨hs', hgrown.trans hgrown', hp _ _ hgrown'.paths hdone, hdone'⟩

lemma establishes_path (path : Bytes) :
    Establishes services sha256 (capture_path services sha256 path) fun paths => path ∈ paths :=
  fun _ _ _ hrun hs => capture_path_spec hrun hs

lemma establishes_candidate (parent : Option Bytes) (name : Bytes) :
    Establishes services sha256 (capture_candidate services sha256 parent name)
      fun paths => Observed paths parent name := by
  intro header s s' hrun hs
  unfold capture_candidate at hrun
  dsimp only at hrun
  split at hrun
  · nomatch hrun
  rename_i flat hflat
  have hraw : Establishes services sha256
      (if raw_candidate parent name ≠ flat then
        capture_path services sha256 (raw_candidate parent name) else pure true)
      fun paths => raw_candidate parent name ≠ flat → raw_candidate parent name ∈ paths := by
    split
    · exact (establishes_path _).mono fun _ hmem _ => hmem
    · rename_i hsame
      exact establishes_skip.mono fun _ _ hne => absurd hne hsame
  have hboth := (@establishes_path _ services sha256 flat).andAlso hraw
    fun _ _ hsub hmem => hsub _ hmem
  obtain ⟨hs', hgrown, hmem, hmem'⟩ := hboth header s s' hrun hs
  refine ⟨hs', hgrown, flat, hflat, hmem, ?_⟩
  by_cases hsame : raw_candidate parent name = flat
  · rw [hsame]
    exact hmem
  · exact hmem' hsame

lemma establishes_parent (parent : Option Bytes) (name : Bytes) :
    Establishes services sha256 (capture_parent services sha256 parent name)
      fun paths => ∀ p, parent = some p → Observed paths (some p) name := by
  unfold capture_parent
  cases parent with
  | none => exact establishes_skip.mono nofun
  | some parent =>
    refine (establishes_candidate (some parent) name).mono fun _ hobs p hp => ?_
    rw [← some.inj hp]
    exact hobs

lemma establishes_roots (name : Bytes) (roots : List Bytes) :
    Establishes services sha256 (capture_roots services sha256 name roots)
      fun paths => ∀ root ∈ roots, Observed paths (some root) name := by
  induction roots with
  | nil => exact establishes_skip.mono nofun
  | cons root rest ih =>
    rw [capture_roots]
    refine ((establishes_candidate (some root) name).andAlso ih fun _ _ hsub hobs =>
      hobs.mono hsub).mono fun _ hall => ?_
    exact forall_mem_cons.mpr hall

/-- **One name.** All its candidates have been observed afterwards. -/
theorem capture_include_spec (h : capture_include services sha256 roots name s = (true, s'))
    (hs : Sound services sha256 header s) :
    Sound services sha256 header s' ∧ Grown s s' ∧
      Covered roots s'.paths s.lexical_parent s.physical_parent name := by
  obtain ⟨t, hlex, h⟩ := andAlso_eq_true h
  obtain ⟨u, hphys, h⟩ := andAlso_eq_true h
  obtain ⟨v, hroots, habs⟩ := andAlso_eq_true h
  obtain ⟨ht, hst, hlex⟩ := establishes_parent s.lexical_parent name header s t hlex hs
  obtain ⟨hu, htu, hphys⟩ := establishes_parent t.physical_parent name header t u hphys ht
  obtain ⟨hv, huv, hroots⟩ := establishes_roots name roots header u v hroots hu
  have hlast : Establishes services sha256
      (if absolute name = true then capture_candidate services sha256 none name else pure true)
      fun paths => absolute name = true → Observed paths none name := by
    split
    · exact (establishes_candidate none name).mono fun _ hobs _ => hobs
    · rename_i hnot
      exact establishes_skip.mono fun _ _ hname => absurd hname hnot
  obtain ⟨hs', hvs, habs⟩ := hlast header v s' habs hv
  have hus := huv.trans hvs
  rw [hst.physical_parent] at hphys
  exact ⟨hs', hst.trans (htu.trans hus),
    fun parent hparent => (hlex parent hparent).mono (htu.trans hus).paths,
    fun parent hparent => (hphys parent hparent).mono hus.paths,
    fun root hroot => (hroots root hroot).mono hvs.paths, habs⟩

/-! ## Scans -/

lemma visitAll_spec {names : List Bytes}
    (h : visitAll (visitor services sha256 roots) s names = some s')
    (hs : Sound services sha256 header s) :
    Sound services sha256 header s' ∧ Grown s s' ∧
      ∀ name ∈ names, Covered roots s'.paths s.lexical_parent s.physical_parent name := by
  induction names generalizing s with
  | nil =>
    rw [← some.inj h]
    exact ⟨hs, Grown.refl s, fun _ hmem => absurd hmem not_mem_nil⟩
  | cons name names ih =>
    rw [visitAll] at h
    split at h
    · rename_i t hname
      obtain ⟨ht, hst, hcovered⟩ := capture_include_spec roots hname hs
      obtain ⟨hs', hts, hall⟩ := ih h ht
      refine ⟨hs', hst.trans hts, forall_mem_cons.mpr ⟨hcovered.mono hts.paths, ?_⟩⟩
      rw [← hst.lexical_parent, ← hst.physical_parent]
      exact hall
    · cases h

/-- **One text.** The candidates of all its names have been observed. -/
theorem scanText_spec {text : Bytes} (h : scanText services sha256 roots text s = .ok s')
    (hs : Sound services sha256 header s) :
    Sound services sha256 header s' ∧ Grown s s' ∧ ∀ name ∈ visitedNames text,
        Covered roots s'.paths s.lexical_parent s.physical_parent name := by
  unfold scanText at h
  split at h
  · rename_i t hscan
    rw [← Except.ok.inj h]
    exact visitAll_spec roots (IncludeScan.usc_include_scan_visits hscan) hs
  · cases h

lemma scanText_ends (text : Bytes) (s : State Lease) :
    scanText services sha256 roots text s ≠ .error .endless := by
  unfold scanText
  split
  · exact nofun
  · exact nofun

def FileCovered (paths : List Bytes) (file : IncludeFile) : Prop :=
  ∀ name ∈ visitedNames file.bytes,
    Covered roots paths (some file.lexical_parent) (some file.physical_parent) name

/-- **The worklist.** Behind the loop, the files from the index on are covered as those before. -/
theorem scanFiles_spec {fuel index : ℕ} (h : scanFiles services sha256 roots fuel index s = .ok s')
    (hs : Sound services sha256 header s)
    (hbefore : ∀ i < index, ∀ file, s.files[i]? = some file → FileCovered roots s.paths file) :
    Sound services sha256 header s' ∧ (∀ path ∈ s.paths, path ∈ s'.paths) ∧
      ∀ file ∈ s'.files, FileCovered roots s'.paths file := by
  induction fuel generalizing index s with
  | zero => nomatch h
  | succ fuel ih =>
    rw [scanFiles] at h
    split at h
    · rename_i hend
      rw [← Except.ok.inj h]
      refine ⟨hs, fun _ hmem => hmem, fun file hfile => ?_⟩
      obtain ⟨i, hi⟩ := mem_iff_getElem?.mp hfile
      have hlt : i < s.files.length := (List.getElem?_eq_some_iff.mp hi).1
      exact hbefore i (hlt.trans_le (List.getElem?_eq_none_iff.mp hend)) file hi
    · rename_i file hfile
      obtain ⟨t, hscan, hrest⟩ := Checks.bind_eq_ok.mp h
      have hstart : Sound services sha256 header { s with
          lexical_parent := some file.lexical_parent
          physical_parent := some file.physical_parent } :=
        ⟨hs.nodup, hs.observed, hs.hashed, hs.files_le, hs.listed, hs.origin⟩
      obtain ⟨ht, hgrown, hcovered⟩ := scanText_spec roots hscan hstart
      -- the files up to this one are where they were, and they are covered now
      have hidx : ∀ i < index + 1, ∀ file, t.files[i]? = some file →
          FileCovered roots t.paths file := by
        intro i hi other hother
        have hlt : index < s.files.length := (List.getElem?_eq_some_iff.mp hfile).1
        have hsame : s.files[i]? = some other := by
          obtain ⟨added, hadded⟩ := hgrown.files
          rwa [← hadded, List.getElem?_append_left (by dsimp only; omega)] at hother
        rcases Nat.lt_succ_iff_lt_or_eq.mp hi with hi | rfl
        · exact fun name hname => (hbefore i hi other hsame name hname).mono hgrown.paths
        · rw [hfile] at hsame
          rw [← some.inj hsame]
          exact hcovered
      obtain ⟨hs', hpaths, hall⟩ := ih hrest ht hidx
      exact ⟨hs', fun path hpath => hpaths path (hgrown.paths path hpath), hall⟩

lemma scanFiles_ends {fuel index : ℕ} (hs : Sound services sha256 header s)
    (hidx : index ≤ s.files.length) (hfuel : MAX_FILES < fuel + index) :
    scanFiles services sha256 roots fuel index s ≠ .error .endless := by
  induction fuel generalizing index s with
  | zero =>
    have hle := hs.files_le
    omega
  | succ fuel ih =>
    rw [scanFiles]
    split
    · exact nofun
    rename_i file hfile
    have hlt : index < s.files.length := (List.getElem?_eq_some_iff.mp hfile).1
    cases hscan : scanText services sha256 roots file.bytes { s with
        lexical_parent := some file.lexical_parent
        physical_parent := some file.physical_parent } with
    | error failure =>
      intro h
      rw [Except.error.inj h] at hscan
      exact scanText_ends roots _ _ hscan
    | ok t =>
      obtain ⟨ht, hgrown, -⟩ := scanText_spec roots hscan
        ⟨hs.nodup, hs.observed, hs.hashed, hs.files_le, hs.listed, hs.origin⟩
      have hlen : s.files.length ≤ t.files.length := hgrown.files.length_le
      exact ih ht (by omega) (by omega)

/-! ## The closure -/

variable (services sha256) in
/-- No two files have different contents with the same digest. -/
def CollisionFree : Prop :=
  ∀ path path' bytes bytes', HasBytes services path bytes → HasBytes services path' bytes' →
    sha256 bytes = sha256 bytes' → bytes = bytes'

variable (services sha256) in
/-- **A closed closure.** Whatever the source, the implicit headers or a scanned file may include
has been observed, and all that has been observed has been hashed, once. A file among the observed
paths has been scanned, or one with its parents and its digest. -/
structure Closed (source : Bytes) (environment_digest : CacheDigest) (closure : State Lease) : Prop
    extends Sound services sha256 (hashedHeader roots environment_digest) closure where
  implicit : ∀ name ∈ [HLSLSupport, UnityShaderVariables],
    Covered roots closure.paths none none name
  source : ∀ name ∈ visitedNames source, Covered roots closure.paths none none name
  scanned : ∀ file ∈ closure.files, ∀ name ∈ visitedNames file.bytes,
    Covered roots closure.paths (some file.lexical_parent) (some file.physical_parent) name
  /-- So nothing is left out where a digest tells what has been scanned. -/
  file : CollisionFree services sha256 → ∀ path ∈ closure.paths, ∀ bytes,
    HasBytes services path bytes → ∃ lexical physical,
      (parent_path path).bind flatten_path = some lexical ∧
      (parent_path path).bind services.realpath = some physical ∧
      ∀ name ∈ visitedNames bytes,
        Covered roots closure.paths (some lexical) (some physical) name

lemma sound_start (environment_digest : CacheDigest) (total_bytes : ℕ) :
    Sound services sha256 (hashedHeader roots environment_digest)
      ⟨[], [], total_bytes, none, none, none, hashedHeader roots environment_digest⟩ where
  nodup := List.Pairwise.nil
  observed _ h := nomatch h
  hashed := (append_nil _).symm
  files_le := Nat.zero_le _
  listed _ h := nomatch h
  origin _ h := nomatch h

lemma closureOf_ends (source : Bytes) (environment_digest : CacheDigest) :
    closureOf services sha256 roots source environment_digest ≠ .error .endless := by
  intro h
  unfold closureOf at h
  split at h
  · nomatch h
  split at h
  · nomatch h
  rename_i s himpl
  obtain ⟨r, hfst, hsnd⟩ := andAlso_eq_true himpl
  obtain ⟨hr, -, -⟩ := capture_include_spec roots hfst
    (sound_start roots environment_digest source.length)
  obtain ⟨hs, -, -⟩ := capture_include_spec roots hsnd hr
  cases hscan : scanText services sha256 roots source s with
  | error failure =>
    rw [hscan] at h
    rw [Except.error.inj h] at hscan
    exact scanText_ends roots source s hscan
  | ok t =>
    obtain ⟨ht, -, -⟩ := scanText_spec roots hscan hs
    rw [hscan] at h
    have hloop := scanFiles_ends roots ht (Nat.zero_le _) (Nat.lt_succ_self MAX_FILES)
    cases hfiles : scanFiles services sha256 roots (MAX_FILES + 1) 0 t with
    | error failure =>
      rw [hfiles] at hloop
      simp only [bind, Except.bind, hfiles] at h
      exact hloop h
    | ok u =>
      simp only [bind, Except.bind, hfiles] at h
      split at h
      · nomatch h
      · nomatch h

lemma closed_of_closureOf {source : Bytes} {environment_digest : CacheDigest} {closure : State Lease}
    (h : closureOf services sha256 roots source environment_digest = .ok closure) :
    Closed services sha256 roots source environment_digest closure := by
  unfold closureOf at h
  split at h
  · nomatch h
  split at h
  · nomatch h
  rename_i s himpl
  obtain ⟨t, hscan, h⟩ := Checks.bind_eq_ok.mp h
  obtain ⟨u, hloop, h⟩ := Checks.bind_eq_ok.mp h
  split at h
  swap
  · nomatch h
  rw [← Except.ok.inj h]
  obtain ⟨r, hfst, hsnd⟩ := andAlso_eq_true himpl
  obtain ⟨hr, hstart, hsupport⟩ := capture_include_spec roots hfst
    (sound_start roots environment_digest source.length)
  obtain ⟨hs, hrs, hvariables⟩ := capture_include_spec roots hsnd hr
  obtain ⟨ht, hst, hsrc⟩ := scanText_spec roots hscan hs
  obtain ⟨hu, htu, hfiles⟩ := scanFiles_spec roots hloop ht
    fun _ hi => absurd hi (Nat.not_lt_zero _)
  rw [hstart.lexical_parent, hstart.physical_parent] at hvariables
  have hlex := hrs.lexical_parent.trans hstart.lexical_parent
  have hphys := hrs.physical_parent.trans hstart.physical_parent
  rw [hlex, hphys] at hsrc
  have hsu : ∀ path ∈ s.paths, path ∈ u.paths := fun path hpath => htu path (hst.paths path hpath)
  refine ⟨hu, ?_, fun name hname => (hsrc name hname).mono htu, hfiles,
    fun hfree path hpath bytes hbytes => ?_⟩
  · intro name hname
    rcases mem_cons.mp hname with rfl | hname
    · exact hsupport.mono fun path hpath => hsu path (hrs.paths path hpath)
    · rw [mem_singleton.mp hname]
      exact hvariables.mono hsu
  · obtain ⟨file, hfile, hstands⟩ := hu.listed path hpath bytes hbytes
    refine ⟨file.lexical_parent, file.physical_parent, hstands.lexical, hstands.physical, ?_⟩
    -- the file may have been scanned under another path with the same contents
    obtain ⟨hdig, other, hother⟩ := hu.origin file hfile
    rw [hfree path other bytes file.bytes hbytes hother (hstands.digest.symm.trans hdig)]
    exact hfiles file hfile

end IncludeClosure

open IncludeClosure

/-- **The include closure is closed.** Its worklist ends. When it succeeds, every candidate of every
name that the scan visits, in the source and in every file that was scanned, has been observed and
hashed, in its flattened and its raw form. -/
theorem include_closure_closed {Lease : Type} {services : IncludeServices Lease}
    {sha256 : Bytes → CacheDigest} (source : Bytes) (roots : List Bytes)
    (environment_digest : CacheDigest) :
    usc_include_closure_create services sha256 source roots environment_digest ≠ .error .endless ∧
      ∀ digest lease, usc_include_closure_create services sha256 source roots environment_digest =
            .ok (digest, lease) →
          ∃ closure, Closed services sha256 roots source environment_digest closure ∧
            digest = sha256 closure.hashed ∧ lease = closure.lease := by
  unfold usc_include_closure_create
  cases hrun : closureOf services sha256 roots source environment_digest with
  | error failure =>
    refine ⟨fun h => ?_, nofun⟩
    have hends := @closureOf_ends _ services sha256 roots source environment_digest
    rw [hrun] at hends
    exact hends (congrArg _ (Except.error.inj h))
  | ok closure =>
    refine ⟨fun h => (nomatch h), fun digest lease h => ?_⟩
    have hpair := mk.inj (Except.ok.inj h)
    exact ⟨closure, closed_of_closureOf roots hrun, hpair.1.symm, hpair.2.symm⟩

/-! ## A sample

`HLSLSupport.cginc` and `a.h` in the directory `/r` include each other. -/

namespace IncludeClosure

def sampleSupport : Bytes := asciiBytes "#include \"a.h\"\n"
def sampleHeader : Bytes := asciiBytes "#include <HLSLSupport.cginc>\n"

def sampleServices : IncludeServices Unit where
  include_file_lease_create path _ :=
    if path = asciiBytes "/r/HLSLSupport.cginc" then some (some sampleSupport, ())
    else if path = asciiBytes "/r/a.h" then some (some sampleHeader, ())
    else some (none, ())
  toolchain_lease_merge _ lease := some lease
  toolchain_lease_validate lease := lease.isSome
  realpath path := some path

def sampleHash (bytes : Bytes) : CacheDigest :=
  Vector.replicate 32 (UInt8.ofNat bytes.length)

lemma sample_collisionFree : CollisionFree sampleServices sampleHash := by
  have hbytes : ∀ path bytes, HasBytes sampleServices path bytes →
      bytes = sampleSupport ∨ bytes = sampleHeader := by
    rintro path bytes ⟨lease, hcreate⟩
    unfold sampleServices at hcreate
    dsimp only at hcreate
    split at hcreate
    · exact .inl (some.inj (mk.inj (some.inj hcreate)).1).symm
    split at hcreate
    · exact .inr (some.inj (mk.inj (some.inj hcreate)).1).symm
    · nomatch hcreate
  have hne : sampleHash sampleSupport ≠ sampleHash sampleHeader := by decide +kernel
  intro path path' bytes bytes' h h' heq
  rcases hbytes path bytes h with rfl | rfl
  · rcases hbytes path' bytes' h' with rfl | rfl
    · rfl
    · exact absurd heq hne
  · rcases hbytes path' bytes' h' with rfl | rfl
    · exact absurd heq.symm hne
    · rfl

end IncludeClosure

theorem include_closure_closed_sample :
    ∃ digest lease, usc_include_closure_create sampleServices sampleHash [] [asciiBytes "/r"]
        (Vector.replicate 32 0) = .ok (digest, lease) ∧
      CollisionFree sampleServices sampleHash ∧
      ∃ closure : State Unit, closure.paths.Nodup ∧ digest = sampleHash closure.hashed ∧
        Observed closure.paths (some (asciiBytes "/r")) HLSLSupport := by
  cases hrun : usc_include_closure_create sampleServices sampleHash [] [asciiBytes "/r"]
      (Vector.replicate 32 0) with
  | error failure =>
    have hok : (usc_include_closure_create sampleServices sampleHash [] [asciiBytes "/r"]
      (Vector.replicate 32 0)).toOption.isSome = true := by decide +kernel
    rw [hrun] at hok
    nomatch hok
  | ok result =>
    obtain ⟨closure, hclosed, hdigest, -⟩ := (include_closure_closed []
      [asciiBytes "/r"] (Vector.replicate 32 0)).2 result.1 result.2 hrun
    exact ⟨result.1, result.2, rfl, sample_collisionFree, closure, hclosed.nodup, hdigest,
      (hclosed.implicit HLSLSupport mem_cons_self).root _ mem_cons_self⟩

end DXBCSandbox
