/-
Merging leases (`src/compiler/unity_compiler_cache.c`).

A merge refuses two different entries of one path. That never happens to valid leases: the kinds of
entries say different things of a path, and the directory of a file that exists is a directory. So
what is refused is exactly a lease that is no longer valid.
-/
import DXBCSandbox.Compiler.ToolchainLease
import DXBCSandbox.Lib.KeyedList
import DXBCSandbox.Lib.StateRules

namespace DXBCSandbox

open List Option

namespace ToolchainLease

/-! ## What calls return -/

/-- Whenever it starts, `p` returns a result with `post`. -/
def Yields {α : Type} (p : Calls α) (post : α → Prop) : Prop :=
  Triple (fun _ => True) p fun a _ => post a

variable {world : ℕ → FileSystem}

namespace Yields

variable {α β : Type} {post : α → Prop}

lemma pure {a : α} (h : post a) : Yields (Pure.pure a) post := fun _ _ => h

variable {p : Calls α}

lemma bind {f : α → Calls β} {mid : α → Prop} {post : β → Prop} (hp : Yields p mid)
    (hf : ∀ a, mid a → Yields (f a) post) : Yields (p >>= f) post :=
  Triple.bind hp fun a now hmid => hf a hmid now trivial

variable {f : FileSystem → α}

lemma systemCall (h : ∀ now, post (f (world now))) :
    Yields (ToolchainLease.systemCall world f) post :=
  fun now _ => h now

lemma call_bind {g : α → Calls β} {post : β → Prop} (h : ∀ now, Yields (g (f (world now))) post) :
    Yields (ToolchainLease.systemCall world f >>= g) post := fun now _ => h now (now + 1) trivial

lemma any : Yields p fun _ => True := fun _ _ => trivial

lemma mono {post' : α → Prop} (h : Yields p post) (hpost : ∀ a, post a → post' a) :
    Yields p post' := fun now _ => hpost _ (h now trivial)

end Yields

/-- The file system of a moment, for as long as nothing changes it. -/
def still (fs : FileSystem) : ℕ → FileSystem := fun _ => fs

section Still

variable {fs : FileSystem}

lemma still_call {α : Type} (f : FileSystem → α) :
    Yields (systemCall (still fs) f) fun r => r = f fs := .systemCall fun _ => rfl

/-- In a file system that does not change, what is read from a link is always the same. -/
theorem read_symlink_rounds_still (path : CString) (expected : FileStatus) (rounds capacity : ℕ) :
    ∃ name, Yields (read_symlink_rounds (still fs) path expected rounds capacity)
      fun r => r = name := by
  induction rounds generalizing capacity with
  | zero => exact ⟨none, .pure rfl⟩
  | succ rounds ih =>
    rw [read_symlink_rounds]
    by_cases hlarge : 1024 * 1024 < capacity
    · rw [if_pos hlarge]
      exact ⟨none, .pure rfl⟩
    · rw [if_neg hlarge]
      cases hlink : fs.readlink path with
      | none =>
        refine ⟨none, .bind (still_call _) fun a ha => ?_⟩
        rw [ha, hlink]
        exact .pure rfl
      | some target =>
        by_cases hfits : (target.take capacity).length < capacity
        · refine ⟨if fs.lstat path = .found expected then some (target.take capacity) else none,
            .bind (still_call _) fun a ha => ?_⟩
          rw [ha, hlink]
          dsimp only
          rw [if_pos hfits]
          exact .bind (still_call _) fun current hcur => .pure (by rw [hcur])
        · obtain ⟨name, hname⟩ := ih (capacity * 2)
          refine ⟨if 1024 * 1024 / 2 < capacity then none else name,
            .bind (still_call _) fun a ha => ?_⟩
          rw [ha, hlink]
          dsimp only
          rw [if_neg hfits]
          by_cases hlast : 1024 * 1024 / 2 < capacity
          · rw [if_pos hlast, if_pos hlast]
            exact .pure rfl
          · rw [if_neg hlast, if_neg hlast]
            exact hname

def linkName (fs : FileSystem) (path : CString) (expected : FileStatus) : Option Bytes :=
  (read_symlink_snapshot (still fs) path expected 0).1

lemma read_symlink_snapshot_still (path : CString) (expected : FileStatus) :
    Yields (read_symlink_snapshot (still fs) path expected) fun r =>
      r = linkName fs path expected := by
  obtain ⟨name, hname⟩ : ∃ name, Yields (read_symlink_snapshot (still fs) path expected)
      fun r => r = name := by
    unfold read_symlink_snapshot
    split_ifs
    · exact ⟨none, .pure rfl⟩
    · exact read_symlink_rounds_still path expected _ _
  rwa [linkName, show (read_symlink_snapshot (still fs) path expected 0).1 = name from
    hname 0 trivial]

def Holds (fs : FileSystem) (entry : CacheLeaseEntry) : Prop :=
  match entry.kind with
  | .directoryResolution =>
    (fs.realpath entry.path).map (fun path => path.bytes) = some entry.target_name
  | .missing => fs.lstat entry.path = .missing
  | .direct => fs.lstat entry.path = .found entry.link_status
  | .symlink => fs.lstat entry.path = .found entry.link_status ∧
      S_ISLNK entry.link_status.mode = true ∧
      linkName fs entry.path entry.link_status = some entry.target_name ∧
      fs.stat entry.path = some entry.target_status

lemma validate_symlink_still (entry : CacheLeaseEntry) :
    Yields (validate_symlink (still fs) entry entry.link_status) fun valid =>
      valid = true ↔ linkName fs entry.path entry.link_status = some entry.target_name ∧
        fs.stat entry.path = some entry.target_status := by
  unfold validate_symlink
  refine .bind (read_symlink_snapshot_still _ _) fun name hname => ?_
  cases name with
  | none => exact .pure (by simp [← hname])
  | some name =>
    dsimp only
    by_cases hsame : name = entry.target_name
    · rw [if_neg (not_not.mpr hsame)]
      exact .bind (still_call _) fun status hstat => .pure (by simp [← hname, hsame, hstat])
    · rw [if_pos hsame]
      exact .pure (by simp [← hname, hsame])

/-- **One entry.** -/
theorem validate_entry_still (entry : CacheLeaseEntry) :
    Yields (validate_entry (still fs) entry) fun valid => valid = true ↔ Holds fs entry := by
  unfold validate_entry Holds
  cases entry.kind with
  | missing => exact .bind (still_call _) fun status hstatus => .pure (by simp [hstatus])
  | direct => exact .bind (still_call _) fun status hstatus => .pure (by simp [hstatus])
  | directoryResolution => exact .bind (still_call _) fun status hstatus => .pure (by simp [hstatus])
  | symlink =>
    refine .bind (still_call _) fun status hstatus => ?_
    by_cases hlink : status ≠ .found entry.link_status ∨ S_ISLNK entry.link_status.mode = false
    · rw [if_pos hlink]
      refine .pure (iff_of_false Bool.false_ne_true fun h => ?_)
      rcases hlink with hstat | hmode
      · exact hstat (hstatus.trans h.1)
      · rw [hmode] at h
        exact Bool.false_ne_true h.2.1
    · rw [if_neg hlink]
      push Not at hlink
      refine (validate_symlink_still entry).mono fun valid hvalid => ?_
      rw [hvalid, ← hstatus]
      simp [hlink.1, hlink.2]

/-- **A lease.** It is valid exactly when each of its entries holds. -/
theorem validate_still (lease : Lease) :
    Yields (usc_cache_toolchain_lease_validate (still fs) lease) fun valid =>
      valid = true ↔ ∀ entry ∈ lease, Holds fs entry := by
  induction lease with
  | nil => exact .pure (by simp)
  | cons entry lease ih =>
    rw [usc_cache_toolchain_lease_validate]
    refine .bind (validate_entry_still entry) fun valid hvalid => ?_
    rw [forall_mem_cons, ← hvalid]
    cases valid with
    | false => exact .pure (by simp)
    | true =>
      refine ih.mono fun rest hrest => ?_
      simpa using hrest

end Still

/-! ## What leases record -/

lemma not_link_of_regular {mode : ℕ} (h : S_ISREG mode = true) :
    S_ISLNK mode = false ∧ S_ISDIR mode = false := by
  rw [S_ISREG, decide_eq_true_iff] at h
  rw [S_ISLNK, S_ISDIR, h]
  exact ⟨rfl, rfl⟩

/-- What an entry has beside its path, by its kind. The directory of an entry is recorded with a
file in it. -/
def EntryRecorded (lease : Lease) (entry : CacheLeaseEntry) : Prop :=
  match entry.kind with
  | .missing => entry.link_status = .zeroed ∧ entry.target_status = .zeroed ∧
      entry.target_name = []
  | .direct => S_ISREG entry.link_status.mode = true ∧
      entry.target_status = entry.link_status ∧ entry.target_name = []
  | .symlink => S_ISREG entry.target_status.mode = true
  | .directoryResolution => entry.link_status = .zeroed ∧ entry.target_status = .zeroed ∧
      ∃ below ∈ lease, (below.kind = .direct ∨ below.kind = .symlink) ∧
        parentPath below.path = some entry.path

def paths (lease : Lease) : List CString := lease.map fun entry => entry.path

/-- The invariant of leases: each path once, with what its kind records. -/
structure Recorded (lease : Lease) : Prop where
  nodup : (paths lease).Nodup
  entry : ∀ entry ∈ lease, EntryRecorded lease entry

variable {lease : Lease} {entry : CacheLeaseEntry}

lemma EntryRecorded.mono {lease' : Lease} (hsub : lease ⊆ lease')
    (h : EntryRecorded lease entry) : EntryRecorded lease' entry := by
  unfold EntryRecorded at h ⊢
  cases hkind : entry.kind with
  | missing => simpa only [hkind] using h
  | direct => simpa only [hkind] using h
  | symlink => simpa only [hkind] using h
  | directoryResolution =>
    simp only [hkind] at h ⊢
    obtain ⟨hlink, htgt, below, hbelow, hrest⟩ := h
    exact ⟨hlink, htgt, below, hsub hbelow, hrest⟩

/-- The kind of entry that a file system has for a path. -/
def kindAt (fs : FileSystem) (path : CString) : Option CacheLeaseEntryKind :=
  match fs.lstat path, fs.stat path with
  | .missing, _ => some .missing
  | .found link, some target =>
    if S_ISDIR target.mode then some .directoryResolution
    else if S_ISLNK link.mode then some .symlink else some .direct
  | _, _ => none

variable {fs : FileSystem}

/-- **No two kinds.** The kind of an entry of a valid lease is the one that the file system has for
its path. -/
theorem kindAt_eq (hlease : Recorded lease) (hholds : ∀ entry ∈ lease, Holds fs entry)
    (hent : entry ∈ lease) :
    kindAt fs entry.path = some entry.kind := by
  have hrec := hlease.entry entry hent
  have hvalid := hholds entry hent
  unfold EntryRecorded at hrec
  unfold Holds at hvalid
  unfold kindAt
  cases hkind : entry.kind with
  | missing =>
    simp only [hkind] at hvalid
    rw [hvalid]
  | direct =>
    simp only [hkind] at hvalid hrec
    obtain ⟨hlink, hdir⟩ := not_link_of_regular hrec.1
    rw [hvalid, fs.stat_of_lstat _ _ hvalid hlink]
    simp [hlink, hdir]
  | symlink =>
    simp only [hkind] at hvalid hrec
    obtain ⟨-, hdir⟩ := not_link_of_regular hrec
    rw [hvalid.1, hvalid.2.2.2]
    simp [hvalid.2.1, hdir]
  | directoryResolution =>
    simp only [hkind] at hrec
    obtain ⟨-, -, below, hbelow, hbelowKind, hparent⟩ := hrec
    have hexists : ∃ status, fs.lstat below.path = .found status := by
      have hbelowHolds := hholds below hbelow
      unfold Holds at hbelowHolds
      rcases hbelowKind with h | h
      · simp only [h] at hbelowHolds
        exact ⟨_, hbelowHolds⟩
      · simp only [h] at hbelowHolds
        exact ⟨_, hbelowHolds.1⟩
    obtain ⟨status, hstat⟩ := hexists
    obtain ⟨directory, hdirectory, hmode⟩ := fs.stat_parent _ _ _ hstat hparent
    obtain ⟨link, hlink⟩ := fs.lstat_of_stat _ _ hdirectory
    rw [hlink, hdirectory]
    simp [hmode]

/-- **No conflict.** Valid leases have the same entry for a path. -/
theorem entry_unique {left right : Lease} (hleft : Recorded left) (hright : Recorded right)
    (hleft_holds : ∀ entry ∈ left, Holds fs entry) (hright_holds : ∀ entry ∈ right, Holds fs entry)
    {a b : CacheLeaseEntry} (ha : a ∈ left) (hb : b ∈ right) (hpath : a.path = b.path) : a = b := by
  have hkind : a.kind = b.kind := by
    have hsame := kindAt_eq hleft hleft_holds ha
    rw [hpath, kindAt_eq hright hright_holds hb, some_inj] at hsame
    exact hsame.symm
  have hra := hleft.entry a ha
  have hrb := hright.entry b hb
  have hva := hleft_holds a ha
  have hvb := hright_holds b hb
  obtain ⟨path, kind, link_status, target_status, target_name⟩ := a
  obtain ⟨path', kind', link_status', target_status', target_name'⟩ := b
  obtain rfl : path = path' := hpath
  obtain rfl : kind = kind' := hkind
  unfold EntryRecorded at hra hrb
  unfold Holds at hva hvb
  cases kind with
  | missing =>
    obtain ⟨rfl, rfl, rfl⟩ := hra
    obtain ⟨rfl, rfl, rfl⟩ := hrb
    rfl
  | direct =>
    dsimp only at hra hrb
    obtain ⟨-, rfl, rfl⟩ := hra
    obtain ⟨-, rfl, rfl⟩ := hrb
    have hlink := LstatResult.found.inj (hva.symm.trans hvb)
    dsimp only at hlink
    rw [hlink]
  | symlink =>
    obtain ⟨hlink, -, hname, htgt⟩ := hva
    obtain ⟨hlink', -, hname', htgt'⟩ := hvb
    obtain rfl : link_status = link_status' := LstatResult.found.inj (hlink.symm.trans hlink')
    obtain rfl : target_name = target_name' := some_inj.mp (hname.symm.trans hname')
    obtain rfl : target_status = target_status' := some_inj.mp (htgt.symm.trans htgt')
    rfl
  | directoryResolution =>
    obtain ⟨rfl, rfl, -⟩ := hra
    obtain ⟨rfl, rfl, -⟩ := hrb
    obtain rfl : target_name = target_name' := some_inj.mp (hva.symm.trans hvb)
    rfl

/-! ## Merging -/

def newEntries (target addition : Lease) : Lease :=
  newOnes (fun entry => entry.path) target addition

lemma cache_lease_entries_equal_iff {a b : CacheLeaseEntry} (hpath : a.path = b.path) :
    cache_lease_entries_equal a b = true ↔ a = b := by
  obtain ⟨path, kind, link_status, target_status, target_name⟩ := a
  obtain ⟨path', kind', link_status', target_status', target_name'⟩ := b
  obtain rfl : path = path' := hpath
  simp [cache_lease_entries_equal]

variable {target : Lease}

/-- **Duplicates.** With each path once in the addition, an entry is compared with the one of its
path in the target. -/
theorem find_duplicates_eq {seen addition : Lease}
    (hseen : ∀ entry ∈ addition, entry.path ∉ paths seen) (hnodup : (paths addition).Nodup)
    (hagree : ∀ entry ∈ addition, ∀ other ∈ target, entry.path = other.path → entry = other) :
    find_duplicates (target ++ seen) addition = some (addition.map fun entry =>
      decide (entry.path ∈ paths target)) := by
  induction addition generalizing seen with
  | nil => rfl
  | cons entry addition ih =>
    rw [paths, map_cons, nodup_cons] at hnodup
    have hrest := @ih (seen ++ [entry]) (fun other hother hmem => by
        rw [paths, map_append, mem_append, map_singleton, mem_singleton] at hmem
        rcases hmem with hmem | hmem
        · exact hseen other (mem_cons_of_mem _ hother) hmem
        · exact hnodup.1 (mem_map.mpr ⟨other, hother, hmem⟩)) hnodup.2
      (forall_mem_cons.mp hagree).2
    rw [← append_assoc] at hrest
    rw [find_duplicates, hrest]
    cases hfind : (target ++ seen).find? fun other => other.path = entry.path with
    | none =>
      have hnew : entry.path ∉ paths target := by
        intro hmem
        obtain ⟨other, hother, hpath⟩ := mem_map.mp hmem
        exact find?_eq_none.mp hfind other (mem_append_left _ hother) (decide_eq_true hpath)
      simp [hnew]
    | some other =>
      have hpath : other.path = entry.path := by
        simpa using find?_some hfind
      have hother : other ∈ target := by
        rcases mem_append.mp (mem_of_find?_eq_some hfind) with h | h
        · exact h
        · exact absurd (mem_map.mpr ⟨other, h, hpath⟩) (hseen entry mem_cons_self)
      have hequal := (cache_lease_entries_equal_iff hpath.symm).mpr
        (hagree entry mem_cons_self other hother hpath.symm)
      have hold : entry.path ∈ paths target :=
        mem_map.mpr ⟨other, hother, hpath⟩
      simp [hequal, hold]

variable {duplicates : List Bool}

lemma agree_of_find_duplicates {seen addition : Lease} (htgt : (paths target).Nodup)
    (h : find_duplicates (target ++ seen) addition = some duplicates) :
    ∀ entry ∈ addition, ∀ other ∈ target, entry.path = other.path → entry = other := by
  induction addition generalizing seen duplicates with
  | nil => simp
  | cons entry addition ih =>
    rw [find_duplicates] at h
    have hrest : ∀ other, other ∈ addition → ∀ prior ∈ target, other.path = prior.path →
        other = prior := by
      split at h
      · obtain ⟨rest, hrest, -⟩ := map_eq_some_iff.mp h
        rw [append_assoc] at hrest
        exact ih hrest
      · split_ifs at h
        obtain ⟨rest, hrest, -⟩ := map_eq_some_iff.mp h
        rw [append_assoc] at hrest
        exact ih hrest
    rw [forall_mem_cons]
    refine ⟨fun other hother hpath => ?_, hrest⟩
    have hfind : (target ++ seen).find? (fun prior => prior.path = entry.path) = some other := by
      rw [find?_append, hpath, find?_key htgt hother, some_or]
    rw [hfind] at h
    dsimp only at h
    split_ifs at h with hequal
    exact (cache_lease_entries_equal_iff hpath).mp hequal

lemma append_entries_eq (target old addition : Lease) :
    append_entries target (addition.map fun entry => decide (entry.path ∈ paths old)) addition =
        target ++ newEntries old addition := by
  induction addition generalizing target with
  | nil => simp [append_entries, newEntries, newOnes]
  | cons entry addition ih =>
    rw [map_cons, append_entries, ih, newEntries, newEntries, newOnes, newOnes, ← paths]
    by_cases hold : entry.path ∈ paths old
    · simp [hold]
    · simp [hold]

lemma append_entries_of_find {addition : Lease} (htgt : Recorded target)
    (hadd : Recorded addition) (h : find_duplicates target addition = some duplicates) :
    append_entries target duplicates addition = target ++ newEntries target addition := by
  rw [← append_nil target] at h
  have hagree := agree_of_find_duplicates htgt.nodup h
  rw [find_duplicates_eq (fun entry _ => by simp [paths]) hadd.nodup hagree, some_inj] at h
  rw [← h, append_entries_eq]

/-- **A merged lease records what its parts do.** -/
theorem Recorded.merge {addition : Lease} (htgt : Recorded target) (hadd : Recorded addition)
    (hagree : ∀ entry ∈ addition, ∀ other ∈ target, entry.path = other.path → entry = other) :
    Recorded (target ++ newEntries target addition) where
  nodup := nodup_append_newOnes htgt.nodup hadd.nodup
  entry := by
    intro entry hent
    have hmem := fun other => (mem_append_newOnes (a := other) hagree).mpr
    rcases (mem_append_newOnes hagree).mp hent with h | h
    · exact (htgt.entry entry h).mono fun other hother => hmem other (.inl hother)
    · exact (hadd.entry entry h).mono fun other hother => hmem other (.inr hother)

variable {path : CString}

lemma contains_path_iff (hnodup : (paths lease).Nodup) {require_existing : Bool} :
    usc_cache_toolchain_lease_contains_path lease path require_existing = true ↔
      ∃ entry ∈ lease, entry.kind ≠ .directoryResolution ∧ entry.path = path ∧
        (require_existing = true → entry.kind ≠ .missing) := by
  induction lease with
  | nil => simp [usc_cache_toolchain_lease_contains_path]
  | cons entry lease ih =>
    rw [paths, map_cons, nodup_cons] at hnodup
    rw [usc_cache_toolchain_lease_contains_path]
    by_cases hhere : entry.kind ≠ .directoryResolution ∧ entry.path = path
    · rw [if_pos hhere]
      have hother : ∀ other ∈ lease, other.path ≠ path := fun other hother hpath =>
        hnodup.1 (mem_map.mpr ⟨other, hother, hpath.trans hhere.2.symm⟩)
      constructor
      · intro h
        refine ⟨entry, mem_cons_self, hhere.1, hhere.2, fun hrequire => ?_⟩
        simpa [hrequire] using h
      · rintro ⟨other, hmem, -, hpath, hexisting⟩
        rcases mem_cons.mp hmem with rfl | hmem
        · cases require_existing with
          | false => rfl
          | true => simpa using hexisting rfl
        · exact absurd hpath (hother other hmem)
    · rw [if_neg hhere, ih hnodup.2]
      constructor
      · rintro ⟨other, hmem, hrest⟩
        exact ⟨other, mem_cons_of_mem _ hmem, hrest⟩
      · rintro ⟨other, hmem, hkind, hpath, hexisting⟩
        rcases mem_cons.mp hmem with rfl | hmem
        · exact absurd ⟨hkind, hpath⟩ hhere
        · exact ⟨other, hmem, hkind, hpath, hexisting⟩

lemma contains_path_merge {addition : Lease} (htgt : Recorded target) (hadd : Recorded addition)
    (hagree : ∀ entry ∈ addition, ∀ other ∈ target, entry.path = other.path → entry = other)
    (path : CString) (require_existing : Bool) :
    usc_cache_toolchain_lease_contains_path (target ++ newEntries target addition) path
        require_existing =
      (usc_cache_toolchain_lease_contains_path target path require_existing ||
        usc_cache_toolchain_lease_contains_path addition path require_existing) := by
  rw [Bool.eq_iff_iff, Bool.or_eq_true, contains_path_iff htgt.nodup, contains_path_iff hadd.nodup,
    contains_path_iff (htgt.merge hadd hagree).nodup]
  simp only [newEntries, mem_append_newOnes hagree, or_and_right, exists_or]

/-! ## Obtained leases -/

lemma parentPath_ne_of_regular {status : FileStatus} (hstat : fs.stat path = some status)
    (hregular : S_ISREG status.mode = true) :
    parentPath path ≠ some path := by
  intro hparent
  obtain ⟨link, hlink⟩ := fs.lstat_of_stat _ _ hstat
  obtain ⟨directory, hdir, hmode⟩ := fs.stat_parent _ _ _ hlink hparent
  rw [hstat, some_inj] at hdir
  rw [← hdir, (not_link_of_regular hregular).2] at hmode
  exact Bool.false_ne_true hmode

structure FileEntry (path : CString) (entry : CacheLeaseEntry) : Prop where
  path_eq : entry.path = path
  kind : entry.kind = .direct ∨ entry.kind = .symlink
  recorded : ∀ lease, EntryRecorded lease entry
  not_root : parentPath path ≠ some path

section Create

variable {world : ℕ → FileSystem} {sha256 : Bytes → Bytes}

lemma cache_file_snapshot_yields (path : CString) (max_size : ℕ) :
    Yields (cache_file_snapshot world sha256 path max_size []) fun result =>
      ∀ snapshot ∈ result, ∃ entry, snapshot.1 = [entry] ∧ FileEntry path entry := by
  have hnone : ∀ snapshot ∈ (none : Option (Lease × Bytes × Bytes)),
      ∃ entry, snapshot.1 = [entry] ∧ FileEntry path entry := by simp
  refine .call_bind fun now => ?_
  cases hlink : (world now).lstat path with
  | missing => exact .pure hnone
  | failed => exact .pure hnone
  | found link_status =>
    dsimp only
    cases hmode : S_ISLNK link_status.mode with
    | true =>
      rw [if_pos rfl]
      refine .bind .any fun name _ => ?_
      cases name with
      | none => exact .pure hnone
      | some target_name =>
        refine .call_bind fun now' => ?_
        cases htgt : (world now').stat path with
        | none => exact .pure hnone
        | some target_status =>
          dsimp only
          by_cases hadm : admits_target max_size target_status = true
          · rw [if_neg (not_not.mpr hadm)]
            have hregular : S_ISREG target_status.mode = true := by
              simp [admits_target] at hadm
              exact hadm.1
            refine .bind .any fun bytes _ => ?_
            cases bytes with
            | none => exact .pure hnone
            | some bytes =>
              refine .bind .any fun stable _ => ?_
              cases stable with
              | false => exact .pure hnone
              | true =>
                refine .pure fun snapshot hsnap => ?_
                obtain rfl := mem_some_iff.mp hsnap
                exact ⟨_, rfl, rfl, .inr rfl, fun _ => hregular,
                  parentPath_ne_of_regular htgt hregular⟩
          · rw [if_pos hadm]
            exact .pure hnone
    | false =>
      rw [if_neg Bool.false_ne_true]
      by_cases hadm : admits_target max_size link_status = true
      · rw [if_neg (not_not.mpr hadm)]
        have hregular : S_ISREG link_status.mode = true := by
          simp [admits_target] at hadm
          exact hadm.1
        refine .bind .any fun bytes _ => ?_
        cases bytes with
        | none => exact .pure hnone
        | some bytes =>
          refine .pure fun snapshot hsnap => ?_
          obtain rfl := mem_some_iff.mp hsnap
          exact ⟨_, rfl, rfl, .inl rfl, fun _ => ⟨hregular, rfl, rfl⟩,
            parentPath_ne_of_regular ((world now).stat_of_lstat _ _ hlink hmode) hregular⟩
      · rw [if_pos hadm]
        exact .pure hnone

lemma record_parent_resolution_yields (lease : Lease) (path : CString) :
    Yields (cache_lease_record_parent_resolution world lease path) fun extended =>
      ∀ lease' ∈ extended, ∃ parent name, parentPath path = some parent ∧
        lease' = lease ++ [⟨parent, .directoryResolution, .zeroed, .zeroed, name⟩] := by
  unfold cache_lease_record_parent_resolution
  cases parentPath path with
  | none => exact .pure (by simp)
  | some parent =>
    refine .call_bind fun now => .pure fun lease' hlease' => ?_
    obtain ⟨resolved, -, rfl⟩ := map_eq_some_iff.mp hlease'
    exact ⟨parent, resolved.bytes, rfl, rfl⟩

lemma validated_yields {result : IncludeFileLease} (h : Recorded result.lease) :
    Yields (validated world result) fun validated =>
      ∀ created ∈ validated, Recorded created.lease := by
  refine .bind .any fun valid _ => .pure fun created hcreat => ?_
  split at hcreat
  · obtain rfl := mem_some_iff.mp hcreat
    exact h
  · simp at hcreat

/-- **A lease of an include file.** -/
theorem usc_cache_include_file_lease_create_yields (path : CString) (max_size : ℕ) :
    Yields (usc_cache_include_file_lease_create world sha256 path max_size) fun created =>
      ∀ result ∈ created, Recorded result.lease := by
  have hnone : ∀ result ∈ (none : Option IncludeFileLease), Recorded result.lease := by simp
  unfold usc_cache_include_file_lease_create
  split
  · exact .pure hnone
  · refine .call_bind fun now => ?_
    cases (world now).lstat path with
    | failed => exact .pure hnone
    | missing =>
      refine validated_yields ⟨nodup_singleton path, fun entry hent => ?_⟩
      obtain rfl := mem_singleton.mp hent
      exact ⟨rfl, rfl, rfl⟩
    | found status =>
      refine .bind (cache_file_snapshot_yields path max_size) fun snapshot hsnap => ?_
      cases snapshot with
      | none => exact .pure hnone
      | some snapshot =>
        obtain ⟨lease, bytes, digest⟩ := snapshot
        obtain ⟨entry, rfl, hent⟩ := hsnap _ rfl
        refine .bind (record_parent_resolution_yields [entry] path) fun extended hextended => ?_
        cases extended with
        | none => exact .pure hnone
        | some lease =>
          obtain ⟨parent, name, hparent, rfl⟩ := hextended lease rfl
          have hpaths : entry.path ≠ parent := by
            rintro rfl
            rw [hent.path_eq] at hparent
            exact hent.not_root hparent
          refine validated_yields ⟨by simpa [paths] using hpaths, fun other hother => ?_⟩
          rcases mem_append.mp hother with h | h
          · obtain rfl := mem_singleton.mp h
            exact hent.recorded _
          · obtain rfl := mem_singleton.mp h
            exact ⟨rfl, rfl, entry, mem_append_left _ (mem_singleton_self entry),
              hent.kind, hent.path_eq ▸ hparent⟩

end Create

/-- The leases that there are: those of include files, and what merges make of them, whatever the
file system does at the time. -/
inductive Obtained (sha256 : Bytes → Bytes) : Lease → Prop where
  | create {world : ℕ → FileSystem} {now : ℕ} {path : CString} {max_size : ℕ}
      {result : IncludeFileLease} :
      (usc_cache_include_file_lease_create world sha256 path max_size now).1 = some result →
      Obtained sha256 result.lease
  | merge {world : ℕ → FileSystem} {now : ℕ} {target addition merged : Lease} :
      Obtained sha256 target → Obtained sha256 addition →
      (usc_cache_toolchain_lease_merge world (some target) (some addition) now).1 =
        (true, some merged, none) → Obtained sha256 merged

lemma merge_yields (target addition : Lease) :
    Yields (usc_cache_toolchain_lease_merge world (some target) (some addition)) fun result =>
      result = (false, some target, some addition) ∨ ∃ duplicates,
        find_duplicates target addition = some duplicates ∧
        result = (true, some (append_entries target duplicates addition), none) := by
  refine .bind .any fun source_valid _ => ?_
  cases source_valid with
  | false => exact .pure (.inl rfl)
  | true =>
    refine .bind .any fun target_valid _ => ?_
    cases target_valid with
    | false => exact .pure (.inl rfl)
    | true =>
      rw [if_neg (by decide)]
      cases hfind : find_duplicates target addition with
      | none => exact .pure (.inl rfl)
      | some duplicates => exact .pure (.inr ⟨duplicates, rfl, rfl⟩)

/-- **Every lease records what its entries need.** -/
theorem Obtained.recorded {sha256 : Bytes → Bytes} (h : Obtained sha256 lease) :
    Recorded lease := by
  induction h with
  | create hcreate =>
    exact usc_cache_include_file_lease_create_yields _ _ _ trivial _ hcreate
  | @merge world now target addition merged _ _ hmerge ihtarget ihaddition =>
    rcases @merge_yields world target addition now trivial with h | ⟨duplicates, hfind, h⟩
    · rw [hmerge] at h
      exact absurd (congrArg Prod.fst h) (by simp)
    · rw [hmerge, append_entries_of_find ihtarget ihaddition hfind] at h
      rw [some_inj.mp (congrArg (fun r => r.2.1) h)]
      rw [← append_nil target] at hfind
      exact ihtarget.merge ihaddition (agree_of_find_duplicates ihtarget.nodup hfind)

/-! ## A merge in a file system that does not change -/

def Validates (fs : FileSystem) (lease : Lease) : Prop :=
  (usc_cache_toolchain_lease_validate (still fs) lease 0).1 = true

lemma validates_iff :
    Validates fs lease ↔ ∀ entry ∈ lease, Holds fs entry := validate_still lease 0 trivial

lemma validate_yields (fs : FileSystem) (lease : Lease) :
    Yields (usc_cache_toolchain_lease_validate (still fs) lease) fun valid =>
      valid = true ↔ Validates fs lease :=
  (validate_still lease).mono fun _ h => h.trans validates_iff.symm

/-- **One merge.** It succeeds exactly when both leases are valid. -/
theorem merge_still {addition : Lease} (htgt : Recorded target) (hadd : Recorded addition) :
    Yields (usc_cache_toolchain_lease_merge (still fs) (some target) (some addition)) fun result =>
        (¬ (Validates fs target ∧ Validates fs addition) ∧
          result = (false, some target, some addition)) ∨
        (Validates fs target ∧ Validates fs addition ∧
          result = (true, some (target ++ newEntries target addition), none)) := by
  refine .bind (validate_yields fs addition) fun source_valid hsrc => ?_
  cases source_valid with
  | false => exact .pure (.inl ⟨fun h => Bool.false_ne_true (hsrc.mpr h.2), rfl⟩)
  | true =>
    refine .bind (validate_yields fs target) fun target_valid htarget_valid => ?_
    cases target_valid with
    | false => exact .pure (.inl ⟨fun h => Bool.false_ne_true (htarget_valid.mpr h.1), rfl⟩)
    | true =>
      have haddv := hsrc.mp rfl
      have htarget_valid := htarget_valid.mp rfl
      have hfind := @find_duplicates_eq target [] addition (fun entry _ => by simp [paths])
        hadd.nodup fun entry hent other hother hpath =>
          entry_unique hadd htgt (validates_iff.mp haddv)
            (validates_iff.mp htarget_valid) hent hother hpath
      rw [append_nil] at hfind
      rw [if_neg (by decide), hfind]
      exact .pure (.inr ⟨htarget_valid, haddv, by
        rw [append_entries_of_find htgt hadd hfind]⟩)

/-- **Merging leases.** In any file system, a merge of two leases succeeds exactly when both are
valid. The result has the entries of the destination and then those of the source whose path is new,
each path once. It is valid in a file system exactly when both leases are, and it has the paths of
both. A merge that fails changes neither lease. -/
theorem lease_merge (sha256 : Bytes → Bytes) (fs : FileSystem) (now : ℕ)
    (destination source : Lease) (hdestination : Obtained sha256 destination)
    (hsource : Obtained sha256 source) :
    let result :=
      (usc_cache_toolchain_lease_merge (still fs) (some destination) (some source) now).1
    (result.1 = true ↔ Validates fs destination ∧ Validates fs source) ∧
    (result.1 = true → ∃ merged, result.2 = (some merged, none) ∧
      merged = destination ++ source.filter (fun entry => entry.path ∉ paths destination) ∧
      (paths merged).Nodup ∧
      (∀ fs', Validates fs' merged ↔ Validates fs' destination ∧ Validates fs' source) ∧
      ∀ path require_existing,
        usc_cache_toolchain_lease_contains_path merged path require_existing =
          (usc_cache_toolchain_lease_contains_path destination path require_existing ||
            usc_cache_toolchain_lease_contains_path source path require_existing)) ∧
    (result.1 = false → result.2 = (some destination, some source)) := by
  intro result
  have hd := hdestination.recorded
  have hs := hsource.recorded
  rcases merge_still hd hs now trivial with ⟨hinvalid, hresult⟩ | ⟨hvalid_d, hvalid_s, hresult⟩
  · have hresult : result = (false, some destination, some source) := hresult
    rw [hresult]
    exact ⟨iff_of_false Bool.false_ne_true hinvalid, fun h => absurd h Bool.false_ne_true,
      fun _ => rfl⟩
  · have hresult : result = (true, some (destination ++ newEntries destination source), none) :=
      hresult
    have hagree : ∀ entry ∈ source, ∀ other ∈ destination, entry.path = other.path →
        entry = other := fun entry hentry other hother hpath =>
      entry_unique hs hd (validates_iff.mp hvalid_s) (validates_iff.mp hvalid_d) hentry hother hpath
    rw [hresult]
    refine ⟨iff_of_true rfl ⟨hvalid_d, hvalid_s⟩, fun _ => ⟨_, rfl, rfl,
      (hd.merge hs hagree).nodup, fun fs' => ?_, contains_path_merge hd hs hagree⟩,
      fun h => absurd h.symm Bool.false_ne_true⟩
    simp only [validates_iff, newEntries, mem_append_newOnes hagree, or_imp, forall_and]

def smallFileSystem : FileSystem where
  lstat path := if path.bytes = asciiBytes "/" then .found { FileStatus.zeroed with mode := 0o040000 }
    else if path.bytes = asciiBytes "/a" then .found { FileStatus.zeroed with mode := 0o100000 }
    else .missing
  stat path := if path.bytes = asciiBytes "/" then some { FileStatus.zeroed with mode := 0o040000 }
    else if path.bytes = asciiBytes "/a" then some { FileStatus.zeroed with mode := 0o100000 }
    else none
  readlink _ := none
  realpath path := if path.bytes = asciiBytes "/" ∨ path.bytes = asciiBytes "/a" then some path
    else none
  open_file path _ := if path.bytes = asciiBytes "/a" then some 3 else none
  fstat _ := some { FileStatus.zeroed with mode := 0o100000 }
  read_file _ := some []
  close_file _ := true
  stat_of_lstat path status h _ := by
    split_ifs at h ⊢
    all_goals simp_all
  lstat_of_stat path status h := by
    split_ifs at h ⊢
    all_goals simp_all
  stat_parent path status parent h hparent := by
    have hpath : path.bytes = asciiBytes "/" ∨ path.bytes = asciiBytes "/a" := by
      split_ifs at h with hroot hfile
      · exact .inl hroot
      · exact .inr hfile
    have hbytes : parent.bytes = asciiBytes "/" := by
      unfold parentPath at hparent
      split at hparent
      · simp at hparent
      · rename_i bytes hcut
        rw [← Option.some_inj.mp hparent]
        rcases hpath with h | h
        · rw [h] at hcut
          exact (Option.some_inj.mp (hcut.symm.trans (by decide +kernel)))
        · rw [h] at hcut
          exact (Option.some_inj.mp (hcut.symm.trans (by decide +kernel)))
    exact ⟨_, if_pos hbytes, rfl⟩

def smallLease (path : CString) : Lease :=
  ((usc_cache_include_file_lease_create (still smallFileSystem) id path 100 0).1.map
    fun result => result.lease).getD []

lemma smallLease_obtained
    (h : (usc_cache_include_file_lease_create (still smallFileSystem) id path 100 0).1.isSome) :
    Obtained id (smallLease path) := by
  obtain ⟨result, hres⟩ := isSome_iff_exists.mp h
  rw [smallLease, hres]
  exact .create hres

/-- A file and a missing file. -/
theorem lease_merge_sample : (usc_cache_toolchain_lease_merge (still smallFileSystem)
        (some (smallLease ⟨asciiBytes "/a", by decide +kernel⟩))
        (some (smallLease ⟨asciiBytes "/b", by decide +kernel⟩)) 0).1.1 = true ∧
      Validates smallFileSystem (smallLease ⟨asciiBytes "/a", by decide +kernel⟩) := by
  have hrun : (usc_cache_toolchain_lease_merge (still smallFileSystem)
      (some (smallLease ⟨asciiBytes "/a", by decide +kernel⟩))
      (some (smallLease ⟨asciiBytes "/b", by decide +kernel⟩)) 0).1.1 = true := by decide +kernel
  exact ⟨hrun, ((lease_merge id smallFileSystem 0 _ _ (smallLease_obtained (by decide +kernel))
    (smallLease_obtained (by decide +kernel))).1.mp hrun).1⟩

end ToolchainLease

end DXBCSandbox
