/-
Leases on files of the toolchain (`src/compiler/unity_compiler_cache.c`).

A lease lists what was seen of the file system: a path that was missing, a file with its status, a
symbolic link with its target, and where the directory of a file resolves to. It is valid as long as
the file system looks the same. The lease of an include file has one or two entries, and leases are
merged into one.

Other processes may change the file system between any two system calls. So a function is given a
file system for each moment, and each of its calls takes one moment. Allocations succeed. Leases are
values here: the two arguments of a merge are different objects.
-/
import DXBCSandbox.Common.VariantKey

namespace DXBCSandbox.ToolchainLease

/-! ## The file system -/

/-- The fields of a `struct stat` that are compared. A `CacheLeaseStat` has the same fields. -/
structure FileStatus where
  device : ℕ
  inode : ℕ
  mode : ℕ
  link_count : ℕ
  user : ℕ
  group : ℕ
  size : ℤ
  mtime_seconds : ℤ
  mtime_nanoseconds : ℤ
  ctime_seconds : ℤ
  ctime_nanoseconds : ℤ
  deriving DecidableEq

def FileStatus.zeroed : FileStatus := ⟨0, 0, 0, 0, 0, 0, 0, 0, 0, 0, 0⟩

def S_ISLNK (mode : ℕ) : Bool := mode &&& 0o170000 = 0o120000
def S_ISREG (mode : ℕ) : Bool := mode &&& 0o170000 = 0o100000
def S_ISDIR (mode : ℕ) : Bool := mode &&& 0o170000 = 0o040000

/-- The result of `lstat`. A missing file is `ENOENT`. -/
inductive LstatResult where
  | found (status : FileStatus)
  | missing
  | failed
  deriving DecidableEq

/-- What is before the last slash of a path, or the root. -/
def parentBytes (path : Bytes) : Option Bytes :=
  match path.reverse.dropWhile (fun c => c ≠ 47) with
  | [] => none
  | _ :: before => some (if before = [] then [47] else before.reverse)

lemma zero_notMem_parentBytes {path parent : Bytes} (h : parentBytes path = some parent)
    (hpath : 0 ∉ path) : 0 ∉ parent := by
  unfold parentBytes at h
  split at h
  · simp at h
  · rename_i slash before hdrop
    have hbefore : ∀ c ∈ before, c ∈ path := fun c hc =>
      List.mem_reverse.mp ((List.dropWhile_sublist _).mem (by
        rw [hdrop]
        exact List.mem_cons_of_mem _ hc))
    obtain rfl := Option.some_inj.mp h
    split_ifs
    · decide
    · exact fun hzero => hpath (hbefore 0 (List.mem_reverse.mp hzero))

/-- The directory that a path is in, as `cache_lease_record_parent_resolution` cuts it. -/
def parentPath (path : CString) : Option CString :=
  match h : parentBytes path.bytes with
  | none => none
  | some parent => some ⟨parent, zero_notMem_parentBytes h path.no_nul⟩

/-- The system calls at one moment, and what POSIX says of path resolution: `stat` is `lstat` where
there is no link, a path that `stat` resolves exists, and a path that exists is in a directory. -/
structure FileSystem where
  lstat : CString → LstatResult
  stat : CString → Option FileStatus
  readlink : CString → Option Bytes
  realpath : CString → Option CString
  open_file : CString → (follow : Bool) → Option ℕ
  fstat : ℕ → Option FileStatus
  read_file : ℕ → Option Bytes
  close_file : ℕ → Bool
  stat_of_lstat : ∀ path status, lstat path = .found status → S_ISLNK status.mode = false →
    stat path = some status
  lstat_of_stat : ∀ path status, stat path = some status → ∃ link, lstat path = .found link
  stat_parent : ∀ path status parent, lstat path = .found status → parentPath path = some parent →
    ∃ directory, stat parent = some directory ∧ S_ISDIR directory.mode = true

/-! ## Leases -/

inductive CacheLeaseEntryKind where
  | missing | direct | symlink | directoryResolution
  deriving DecidableEq

structure CacheLeaseEntry where
  path : CString
  kind : CacheLeaseEntryKind
  link_status : FileStatus
  target_status : FileStatus
  target_name : Bytes

abbrev Lease := List CacheLeaseEntry

variable (lease : Lease)

def cache_lease_record_missing (path : CString) : Lease :=
  lease ++ [⟨path, .missing, .zeroed, .zeroed, []⟩]

def cache_lease_record_direct (path : CString) (status : FileStatus) : Lease :=
  lease ++ [⟨path, .direct, status, status, []⟩]

def cache_lease_record_symlink (path : CString) (link_status target_status : FileStatus)
    (target_name : Bytes) : Lease :=
  lease ++ [⟨path, .symlink, link_status, target_status, target_name⟩]

/-- System calls, each at the next moment. -/
abbrev Calls := StateM ℕ

section Calls

variable (world : ℕ → FileSystem) (sha256 : Bytes → Bytes)

def systemCall {α : Type} (f : FileSystem → α) : Calls α := fun now => (f (world now), now + 1)

/-- The rounds of the loop over buffer sizes. The size doubles and ends at a megabyte, so thirteen
rounds are enough. -/
def read_symlink_rounds (path : CString) (expected : FileStatus) :
    (rounds capacity : ℕ) → Calls (Option Bytes)
  | 0, _ => pure none
  | rounds + 1, capacity =>
    if 1024 * 1024 < capacity then pure none
    else do
      match ← systemCall world fun fs => fs.readlink path with
      | none => pure none
      | some target =>
        if (target.take capacity).length < capacity then do
          let current ← systemCall world fun fs => fs.lstat path
          pure (if current = .found expected then some (target.take capacity) else none)
        else if 1024 * 1024 / 2 < capacity then pure none
        else read_symlink_rounds path expected rounds (capacity * 2)

variable (path : CString)

def read_symlink_snapshot (expected : FileStatus) : Calls (Option Bytes) :=
  if 1024 * 1024 ≤ expected.size then pure none
  else read_symlink_rounds world path expected 13 (max 256 (expected.size.toNat + 1))

/-! ## Validation -/

def validate_symlink (entry : CacheLeaseEntry) (link_status : FileStatus) : Calls Bool := do
  match ← read_symlink_snapshot world entry.path link_status with
  | none => pure false
  | some target_name =>
    if target_name ≠ entry.target_name then pure false
    else do
      let target_status ← systemCall world fun fs => fs.stat entry.path
      pure (target_status = some entry.target_status)

def validate_entry (entry : CacheLeaseEntry) : Calls Bool :=
  match entry.kind with
  | .directoryResolution => do
    let resolved ← systemCall world fun fs => fs.realpath entry.path
    pure (resolved.map (fun path => path.bytes) = some entry.target_name)
  | .missing => do
    let link_status ← systemCall world fun fs => fs.lstat entry.path
    pure (link_status = .missing)
  | .direct => do
    let link_status ← systemCall world fun fs => fs.lstat entry.path
    pure (link_status = .found entry.link_status)
  | .symlink => do
    let link_status ← systemCall world fun fs => fs.lstat entry.path
    if link_status ≠ .found entry.link_status ∨ S_ISLNK entry.link_status.mode = false then
      pure false
    else validate_symlink world entry entry.link_status

def usc_cache_toolchain_lease_validate : Lease → Calls Bool
  | [] => pure true
  | entry :: lease => do
    if ← validate_entry world entry then usc_cache_toolchain_lease_validate lease
    else pure false

/-! ## The lease of an include file -/

def cache_stat_path (follow : Bool) : Calls (Option FileStatus) :=
  systemCall world fun fs =>
    if follow then fs.stat path
    else match fs.lstat path with
      | .found status => some status
      | _ => none

/-- What is read between `open` and `close`, if the descriptor has the expected status before and
after, and as many bytes as that says. -/
def read_open_file (descriptor : ℕ) (expected : FileStatus) : Calls (Option Bytes) := do
  let before ← systemCall world fun fs => fs.fstat descriptor
  if before ≠ some expected ∨ S_ISREG expected.mode = false ∨ expected.size < 0 then pure none
  else do
    match ← systemCall world fun fs => fs.read_file descriptor with
    | none => pure none
    | some bytes => do
      let after ← systemCall world fun fs => fs.fstat descriptor
      pure (if after = before ∧ (bytes.length : ℤ) = expected.size then some bytes else none)

def digest_regular_file_snapshot (expected : FileStatus) (follow : Bool) :
    Calls (Option Bytes) := do
  match ← systemCall world fun fs => fs.open_file path follow with
  | none => pure none
  | some descriptor => do
    let bytes ← read_open_file world descriptor expected
    let closed ← systemCall world fun fs => fs.close_file descriptor
    if bytes = none ∨ closed = false then pure none
    else do
      let current ← cache_stat_path world path follow
      pure (if current = some expected then bytes else none)

/-- The tests after the contents of a linked file have been read. -/
def symlink_is_stable (link_status target_status : FileStatus) (target_name : Bytes) :
    Calls Bool := do
  let current_link ← systemCall world fun fs => fs.lstat path
  if current_link ≠ .found link_status then pure false
  else do
    let current_name ← read_symlink_snapshot world path link_status
    if current_name ≠ some target_name then pure false
    else do
      let current_target ← systemCall world fun fs => fs.stat path
      pure (current_target = some target_status)

/-- The tests on the status of the file itself. -/
def admits_target (max_size : ℕ) (target_status : FileStatus) : Bool :=
  S_ISREG target_status.mode ∧ 0 ≤ target_status.size ∧ target_status.size ≤ max_size

/-- `cache_file_snapshot`: the lease with the file, the contents and their digest. -/
def cache_file_snapshot (max_size : ℕ) (lease : Lease) :
    Calls (Option (Lease × Bytes × Bytes)) := do
  match ← systemCall world fun fs => fs.lstat path with
  | .missing | .failed => pure none
  | .found link_status =>
    if S_ISLNK link_status.mode then do
      match ← read_symlink_snapshot world path link_status with
      | none => pure none
      | some target_name => do
        match ← systemCall world fun fs => fs.stat path with
        | none => pure none
        | some target_status =>
          if ¬ admits_target max_size target_status then pure none
          else do
            match ← digest_regular_file_snapshot world path target_status true with
            | none => pure none
            | some bytes => do
              if ← symlink_is_stable world path link_status target_status target_name then
                pure (some (cache_lease_record_symlink lease path link_status
                  target_status target_name, bytes, sha256 bytes))
              else pure none
    else if ¬ admits_target max_size link_status then pure none
    else do
      match ← digest_regular_file_snapshot world path link_status false with
      | none => pure none
      | some bytes =>
        pure (some (cache_lease_record_direct lease path link_status, bytes, sha256 bytes))

def cache_lease_record_parent_resolution (lease : Lease) (path : CString) : Calls (Option Lease) :=
  match parentPath path with
  | none => pure none
  | some parent => do
    let resolved ← systemCall world fun fs => fs.realpath parent
    pure (resolved.map fun resolved =>
      lease ++ [⟨parent, .directoryResolution, .zeroed, .zeroed, resolved.bytes⟩])

/-- What `usc_cache_include_file_lease_create` returns. -/
structure IncludeFileLease where
  bytes : Option Bytes
  digest : Bytes
  missing : Bool
  lease : Lease

/-- `ok && usc_cache_toolchain_lease_validate(lease)`. -/
def validated (result : IncludeFileLease) : Calls (Option IncludeFileLease) := do
  let valid ← usc_cache_toolchain_lease_validate world result.lease
  pure (if valid then some result else none)

def usc_cache_include_file_lease_create (max_size : ℕ) : Calls (Option IncludeFileLease) :=
  if path.bytes.head? ≠ some 47 then pure none
  else do
    match ← systemCall world fun fs => fs.lstat path with
    | .failed => pure none
    | .missing =>
      validated world ⟨none, List.replicate 32 0, true, cache_lease_record_missing [] path⟩
    | .found _ => do
      match ← cache_file_snapshot world sha256 path max_size [] with
      | none => pure none
      | some (lease, bytes, digest) => do
        match ← cache_lease_record_parent_resolution world lease path with
        | none => pure none
        | some lease => validated world ⟨some bytes, digest, false, lease⟩

/-! ## Merging -/

def cache_lease_entries_equal (a b : CacheLeaseEntry) : Bool :=
  a.kind = b.kind ∧ a.link_status = b.link_status ∧ a.target_status = b.target_status ∧
    a.target_name = b.target_name

def usc_cache_toolchain_lease_contains_path :
    Lease → (path : CString) → (require_existing : Bool) → Bool
  | [], _, _ => false
  | entry :: lease, path, require_existing =>
    if entry.kind ≠ .directoryResolution ∧ entry.path = path then
      ! require_existing || entry.kind ≠ .missing
    else usc_cache_toolchain_lease_contains_path lease path require_existing

/-- The loop over the entries of the addition. Each is compared with the first entry of its path
before it. The result says which are duplicates, and there is none if two differ. -/
def find_duplicates : (prior addition : List CacheLeaseEntry) → Option (List Bool)
  | _, [] => some []
  | prior, entry :: addition =>
    match prior.find? fun other => other.path = entry.path with
    | none => (find_duplicates (prior ++ [entry]) addition).map (List.cons false)
    | some other =>
      if ¬ cache_lease_entries_equal entry other then none
      else (find_duplicates (prior ++ [entry]) addition).map (List.cons true)

/-- The last loop: the entries that are no duplicates go to the end of the target. -/
def append_entries (target : Lease) : List Bool → Lease → Lease
  | duplicate :: duplicates, entry :: addition =>
    append_entries (if duplicate then target else target ++ [entry]) duplicates addition
  | _, _ => target

/-- `usc_cache_toolchain_lease_merge`: whether it succeeds, and the two leases afterwards. A missing
lease is a null pointer. -/
def usc_cache_toolchain_lease_merge (destination source : Option Lease) :
    Calls (Bool × Option Lease × Option Lease) :=
  match source with
  | none => pure (false, destination, none)
  | some addition => do
    if ¬ (← usc_cache_toolchain_lease_validate world addition) then
      pure (false, destination, source)
    else
      match destination with
      | none => pure (true, source, none)
      | some target => do
        if ¬ (← usc_cache_toolchain_lease_validate world target) then
          pure (false, destination, source)
        else
          match find_duplicates target addition with
          | none => pure (false, destination, source)
          | some duplicates =>
            pure (true, some (append_entries target duplicates addition), none)

end Calls

end DXBCSandbox.ToolchainLease
