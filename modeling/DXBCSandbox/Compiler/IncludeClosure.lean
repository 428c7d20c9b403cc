/-
The include closure of the compile cache (`src/compiler/unity_include_closure.c`).

Before a program is compiled, every path that the compiler may look at for one of its includes is
observed, whether there is a file or not, and every file that is found is scanned in turn. A path is
observed once. Files with the same contents and the same parents are scanned once.

What the operating system and the leases of the cache say is a parameter, which does not change
during the call. Texts are their bytes up to the terminator, and the roots are not null.
-/
import DXBCSandbox.Compiler.CacheStore
import DXBCSandbox.Compiler.IncludeScan
import DXBCSandbox.Lib.StateRules
import Mathlib.Data.List.DropRight

namespace DXBCSandbox

open IncludeScan (Visitor usc_include_scan)

namespace IncludeClosure

def MAX_FILES : ℕ := 8192
def MAX_PATHS : ℕ := 65536
def MAX_FILE_BYTES : ℕ := 16 * 1024 * 1024
def MAX_CLOSURE_BYTES : ℕ := 64 * 1024 * 1024

def slash : UInt8 := 0x2f
def backslash : UInt8 := 0x5c

/-- What the closure asks the file system and the leases of the cache. -/
structure IncludeServices (Lease : Type) where
  /-- `usc_cache_include_file_lease_create`: the bytes of the file, or that it is missing. -/
  include_file_lease_create : (path : Bytes) → (max_size : ℕ) →
    Option (Option Bytes × Lease)
  toolchain_lease_merge : (destination : Option Lease) → (source : Lease) → Option Lease
  toolchain_lease_validate : Option Lease → Bool
  realpath : Bytes → Option Bytes

structure IncludeFile where
  lexical_parent : Bytes
  physical_parent : Bytes
  digest : CacheDigest
  bytes : Bytes

/-- `IncludeClosure` without its roots. The bytes that have been hashed stand for the context of the
hash. -/
structure State (Lease : Type) where
  paths : List Bytes
  files : List IncludeFile
  total_bytes : ℕ
  lexical_parent : Option Bytes
  physical_parent : Option Bytes
  lease : Option Lease
  hashed : Bytes

def hash_bytes (bytes : Bytes) : Bytes := leBytes 8 bytes.length ++ bytes

/-! ## Paths -/

def parent_path (path : Bytes) : Option Bytes :=
  match path.reverse.dropWhile (· ≠ slash) with
  | [] => none
  | _ :: before => some (if before = [] then [slash] else before.reverse)

/-- One component. The result is held without its first slash. -/
def flatten_component (result component : Bytes) : Bytes :=
  if component = [] ∨ component = asciiBytes "." then result
  else if component = asciiBytes ".." then (result.rdropWhile (· ≠ slash)).dropLast
  else if result = [] then component
  else result ++ slash :: component

def flatten_path (path : Bytes) : Option Bytes :=
  match path with
  | [] => none
  | first :: rest =>
    if first ≠ slash then none
    else some (slash :: (rest.splitOn slash).foldl flatten_component [])

/-- The path of a name under a parent, with slashes only. -/
def raw_candidate (parent : Option Bytes) (name : Bytes) : Bytes :=
  let raw := match parent with
    | none => name
    | some parent => if parent = [] then name else parent ++ slash :: name
  raw.map fun c => if c = backslash then slash else c

/-! ## Observation -/

section Closure

variable {Lease : Type} (services : IncludeServices Lease) (sha256 : Bytes → CacheDigest)
  (roots : List Bytes)

/-- A file that has been found. One like it may be there already. -/
def capture_file (path bytes : Bytes) : StateM (State Lease) Bool := fun closure =>
  let digest := sha256 bytes
  match (parent_path path).bind flatten_path, (parent_path path).bind services.realpath with
  | some lexical, some physical =>
    if closure.files.any fun file => file.digest = digest ∧ file.lexical_parent = lexical ∧
        file.physical_parent = physical then (true, closure)
    else if closure.files.length = MAX_FILES ∨
        MAX_CLOSURE_BYTES - closure.total_bytes < bytes.length then (false, closure)
    else
      (true, { closure with
        files := closure.files ++ [⟨lexical, physical, digest, bytes⟩]
        total_bytes := closure.total_bytes + bytes.length })
  | _, _ => (false, closure)

def capture_path (path : Bytes) : StateM (State Lease) Bool := fun closure =>
  if path ∈ closure.paths then (true, closure)
  else if closure.paths.length = MAX_PATHS then (false, closure)
  else
    let closure := { closure with paths := closure.paths ++ [path] }
    match services.include_file_lease_create path MAX_FILE_BYTES with
    | none => (false, closure)
    | some (content, lease) =>
      match services.toolchain_lease_merge closure.lease lease with
      | none => (false, closure)
      | some lease =>
        let closure := { closure with
          lease := some lease, hashed := closure.hashed ++ hash_bytes path }
        match content with
        | none => (true, { closure with hashed := closure.hashed ++ hash_bytes [0] })
        | some bytes =>
          capture_file services sha256 path bytes { closure with
            hashed := closure.hashed ++ hash_bytes [1] ++
              hash_bytes (sha256 bytes).toList }

def capture_candidate (parent : Option Bytes) (name : Bytes) :
    StateM (State Lease) Bool := fun closure =>
  let raw := raw_candidate parent name
  match flatten_path raw with
  | none => (false, closure)
  | some flat =>
    andAlso (capture_path services sha256 flat)
      (if raw ≠ flat then capture_path services sha256 raw else pure true) closure

/-- A parent of the file that is being scanned, if there is one. -/
def capture_parent (parent : Option Bytes) (name : Bytes) : StateM (State Lease) Bool :=
  match parent with
  | none => pure true
  | some parent => capture_candidate services sha256 (some parent) name

def capture_roots (name : Bytes) : List Bytes → StateM (State Lease) Bool
  | [] => pure true
  | root :: rest =>
    andAlso (capture_candidate services sha256 (some root) name) (capture_roots name rest)

/-- `name[0] == '/' || name[0] == '\\'`. -/
def absolute (name : Bytes) : Bool :=
  name.head? = some slash ∨ name.head? = some backslash

def capture_include (name : Bytes) : StateM (State Lease) Bool :=
  andAlso (fun closure => capture_parent services sha256 closure.lexical_parent name closure) <|
  andAlso (fun closure => capture_parent services sha256 closure.physical_parent name closure) <|
  andAlso (capture_roots services sha256 name roots) <|
    if absolute name then capture_candidate services sha256 none name else pure true

def visitor : Visitor (State Lease) := fun closure name =>
  capture_include services sha256 roots name closure

/-! ## The worklist -/

inductive Failure where
  | refused | endless
  deriving DecidableEq

/-- `usc_include_scan(bytes, size, capture_include, &closure) == USC_INCLUDE_SCAN_OK`. -/
def scanText (text : Bytes) (closure : State Lease) : Except Failure (State Lease) :=
  match usc_include_scan text (visitor services sha256 roots) closure with
  | (.ok, closure) => .ok closure
  | _ => .error .refused

/-- The loop over the files, which may grow on the way. It is out of fuel where the loop of the
source would go on. -/
def scanFiles : (fuel index : ℕ) → State Lease → Except Failure (State Lease)
  | 0, _, _ => .error .endless
  | fuel + 1, index, closure =>
    match closure.files[index]? with
    | none => .ok closure
    | some file => do
      let closure ← scanText services sha256 roots file.bytes { closure with
        lexical_parent := some file.lexical_parent
        physical_parent := some file.physical_parent }
      scanFiles fuel (index + 1) closure

def HLSLSupport : Bytes := asciiBytes "HLSLSupport.cginc"
def UnityShaderVariables : Bytes := asciiBytes "UnityShaderVariables.cginc"

def hashedHeader (environment_digest : CacheDigest) : Bytes :=
  hash_bytes (asciiBytes "DXBCSandbox.UnityCompiler.literal-include-closure.v1") ++
    hash_bytes environment_digest.toList ++ hash_bytes (leBytes 8 roots.length) ++
    roots.flatMap hash_bytes

def closureOf (source : Bytes) (environment_digest : CacheDigest) : Except Failure (State Lease) :=
  if MAX_CLOSURE_BYTES < source.length ∨ roots = [] ∨ 64 < roots.length ∨
      ¬ roots.all fun root => root.head? = some slash then .error .refused
  else
    match andAlso (capture_include services sha256 roots HLSLSupport)
        (capture_include services sha256 roots UnityShaderVariables)
        ⟨[], [], source.length, none, none, none, hashedHeader roots environment_digest⟩ with
    | (false, _) => .error .refused
    | (true, closure) => do
      let closure ← scanText services sha256 roots source closure
      let closure ← scanFiles services sha256 roots (MAX_FILES + 1) 0 closure
      if services.toolchain_lease_validate closure.lease then .ok closure else .error .refused

end Closure

end IncludeClosure

open IncludeClosure

def usc_include_closure_create {Lease : Type} (services : IncludeServices Lease)
    (sha256 : Bytes → CacheDigest) (source : Bytes) (roots : List Bytes)
    (environment_digest : CacheDigest) : Except Failure (CacheDigest × Option Lease) :=
  (closureOf services sha256 roots source environment_digest).map fun closure =>
    (sha256 closure.hashed, closure.lease)

end DXBCSandbox
