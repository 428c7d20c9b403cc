/-
Which cache entries a live answer replaces.

A store replaces an entry that is malformed, and never one that is well formed around another
payload. So a payload that the decoder of responses rejects stays where it is: the call asks the
compiler, its answer is refused by the cache, and the next call finds the same payload again.
-/
import DXBCSandbox.Compiler.PreprocessCache
import DXBCSandbox.Compiler.CacheStoreSpec

namespace DXBCSandbox

open List Option

namespace PreprocessCache

open CacheStore ResponseCodec

variable {sha256_bytes : Bytes → CacheDigest}

/-! ## A store by itself -/

section Store

variable {request_digest : CacheDigest} {data : Bytes} {entry : Option CacheNode}

lemma inspect_of_hit {payload : Bytes}
    (h : usc_cache_load sha256_bytes request_digest entry = some payload) :
    inspect_cache_entry sha256_bytes request_digest data entry =
      if payload = data then .identical else .different := by
  obtain ⟨node, rfl, hnode⟩ := bind_eq_some_iff.mp h
  simp only [inspect_cache_entry, hnode]

lemma inspect_of_miss {node : CacheNode}
    (h : usc_cache_load sha256_bytes request_digest (some node) = none) :
    inspect_cache_entry sha256_bytes request_digest data (some node) = .corrupt := by
  have hnode : entry_payload sha256_bytes request_digest node = none := h
  simp only [inspect_cache_entry, hnode]

lemma store_attempts_none (attempts : ℕ) :
    store_attempts sha256_bytes request_digest data (attempts + 1) none =
      (some (.regular (entry_bytes sha256_bytes request_digest data)), true) := by
  simp [store_attempts, inspect_cache_entry]

lemma usc_cache_store_of_hit {payload : Bytes}
    (h : usc_cache_load sha256_bytes request_digest entry = some payload) :
    (usc_cache_store sha256_bytes request_digest data entry).1 = entry := by
  unfold usc_cache_store
  split
  · rw [store_attempts, inspect_of_hit h]
    by_cases heq : payload = data
    · simp [heq]
    · simp [heq]
  · rfl

lemma usc_cache_store_of_miss (hsize : data.length ≤ USC_CACHE_MAX_OUTPUT_SIZE)
    (h : usc_cache_load sha256_bytes request_digest entry = none) :
    usc_cache_store sha256_bytes request_digest data entry =
      (some (.regular (entry_bytes sha256_bytes request_digest data)), true) := by
  rw [usc_cache_store, if_pos hsize]
  cases entry with
  | none => exact store_attempts_none 7
  | some node =>
    rw [store_attempts, inspect_of_miss h]
    exact store_attempts_none 6

lemma load_after_store (hsize : data.length ≤ USC_CACHE_MAX_OUTPUT_SIZE)
    (h : usc_cache_load sha256_bytes request_digest entry = none) :
    usc_cache_load sha256_bytes request_digest
      (usc_cache_store sha256_bytes request_digest data entry).1 = some data := by
  rw [usc_cache_store_of_miss hsize h]
  exact entry_payload_entry_bytes request_digest hsize

end Store

/-! ## What a call leaves -/

section Calls

variable {call : PreprocessCall} {answer : PreprocessAnswer} {request_digest : CacheDigest}
  {entry : Option CacheNode} {serialized : Bytes}

lemma sealed_mirrors (pending_source : CString)
    (pending_contract : ResponseCodec.SnippetCompileContract CString) :
    Mirrors (sealed pending_source pending_contract) := by
  intro contract hctr
  cases hctr
  exact ⟨rfl, rfl, rfl, rfl⟩

lemma response_live (answer : PreprocessAnswer) : LiveResponse answer.response := by
  intro snippet hsnip
  unfold PreprocessAnswer.response at hsnip
  split at hsnip
  · obtain ⟨pending, -, rfl⟩ := mem_map.mp hsnip
    exact sealed_mirrors pending.1 pending.2
  · cases hsnip

structure AnswersWithSuccess (call : PreprocessCall) (answer : PreprocessAnswer) : Prop where
  not_cache_only : call.compiler_cache_only_enabled = false
  transaction : call.begin_compiler_transaction = true
  session : validate_captured_session_valid_apis call true = true
  answered : call.answer = some answer
  success : answer.primary_success = true

/-- After the answer, the toolchain is the one of the lease, which has every file that was read. -/
def KeepsAuthority (call : PreprocessCall) (answer : PreprocessAnswer) : Prop :=
  call.toolchain_authority = true ∧
    preprocess_dependencies_are_captured call answer.response.result = true

variable (sha256_bytes) in
def NextLoadDecodesTo (call : PreprocessCall) (request_digest : CacheDigest)
    (entry : Option CacheNode) (response : UnityCompilerPreprocessResponse CString) : Prop :=
  ∃ stored, usc_cache_load sha256_bytes request_digest
      (unity_compiler_preprocess_contract_response sha256_bytes call request_digest entry).2 =
        some stored ∧
    usc_cache_deserialize_preprocess_response stored = (true, response.map CString.bytes)

lemma cached_response_of_load {stored : Bytes} {response : UnityCompilerPreprocessResponse Buffer}
    (hload : usc_cache_load sha256_bytes request_digest entry = some stored)
    (hdec : usc_cache_deserialize_preprocess_response stored = (true, response)) :
    cached_response sha256_bytes request_digest entry = some response := by
  simp only [cached_response, hload, bind_some, hdec]

lemma entry_after_success (hdir : call.cache_dir = true) (hlive : AnswersWithSuccess call answer)
    (hmiss : cached_response sha256_bytes request_digest entry = none)
    (hdata : usc_cache_serialize_preprocess_response answer.response = some serialized) :
    (KeepsAuthority call answer →
      (unity_compiler_preprocess_contract_response sha256_bytes call request_digest entry).2 =
        (usc_cache_store sha256_bytes request_digest serialized entry).1) ∧
    (¬ KeepsAuthority call answer →
      (unity_compiler_preprocess_contract_response sha256_bytes call request_digest entry).2 =
        entry) := by
  obtain ⟨hcache_only, htrans, hsession, hanswer, hsucc⟩ := hlive
  simp only [unity_compiler_preprocess_contract_response, hdir, if_true, hmiss, ask_compiler,
    hcache_only, htrans, hsession, hanswer, hsucc]
  constructor
  · rintro ⟨htool, hcapt⟩
    simp [htool, hcapt, store_response, hdata]
  · intro hnot
    by_cases htool : call.toolchain_authority = true
    · have hcapt : preprocess_dependencies_are_captured call answer.response.result = false :=
        Bool.eq_false_iff.mpr fun hcapt => hnot ⟨htool, hcapt⟩
      simp [htool, hcapt]
    · simp [htool]

/-! ### Well-formed entries -/

lemma well_formed_entry_kept {payload : Bytes}
    (h : usc_cache_load sha256_bytes request_digest entry = some payload) (call : PreprocessCall) :
    (unity_compiler_preprocess_contract_response sha256_bytes call request_digest entry).2 =
      entry := by
  have hstore (cache_ready response) :
      store_response sha256_bytes cache_ready request_digest response entry = entry := by
    unfold store_response
    split
    · split
      · exact usc_cache_store_of_hit h
      · rfl
    · rfl
  have hask : (ask_compiler sha256_bytes call request_digest entry).2 = entry := by
    unfold ask_compiler
    cases call.answer with
    | none =>
      dsimp only
      split_ifs <;> rfl
    | some answer =>
      dsimp only
      split_ifs
      all_goals first
        | rfl
        | exact hstore ..
  unfold unity_compiler_preprocess_contract_response
  split
  · rfl
  · exact hask

/-- **A well-formed entry is final**: no run of calls for its request changes it, whatever the
compiler answers. The calls follow one another, no other store comes between them, and no system
call of a load or a store fails. -/
theorem well_formed_entry_kept_by_run {payload : Bytes}
    (h : usc_cache_load sha256_bytes request_digest entry = some payload)
    (calls : List PreprocessCall) :
    calls.foldl (fun entry call => (unity_compiler_preprocess_contract_response sha256_bytes call
      request_digest entry).2) entry = entry := by
  induction calls with
  | nil => rfl
  | cons call calls ih => rw [foldl_cons, well_formed_entry_kept h call, ih]

end Calls

/-- **Which entries heal.** The next load decodes to the live answer exactly where the answer still
has its authority and the entry was missing or malformed. A well-formed entry around a payload that
the decoder rejects stays. -/
theorem preprocess_entry_heals_iff (sha256_bytes : Bytes → CacheDigest)
    (call : PreprocessCall) (answer : PreprocessAnswer) (request_digest : CacheDigest)
    (entry : Option CacheNode) (serialized : Bytes) (hdir : call.cache_dir = true)
    (hmiss : cached_response sha256_bytes request_digest entry = none)
    (hlive : AnswersWithSuccess call answer)
    (hdata : usc_cache_serialize_preprocess_response answer.response = some serialized) :
    NextLoadDecodesTo sha256_bytes call request_digest entry answer.response ↔
      KeepsAuthority call answer ∧ usc_cache_load sha256_bytes request_digest entry = none := by
  obtain ⟨hkept, hrejected⟩ := entry_after_success hdir hlive hmiss hdata
  constructor
  · rintro ⟨stored, hload, hdecodes⟩
    -- What decodes was no hit before, so the call has changed the entry.
    have hchanged : (unity_compiler_preprocess_contract_response sha256_bytes call request_digest
        entry).2 ≠ entry := by
      intro hsame
      rw [hsame] at hload
      rw [cached_response_of_load hload hdecodes] at hmiss
      cases hmiss
    refine ⟨by_contra fun hnot => hchanged (hrejected hnot), ?_⟩
    by_contra hsome
    obtain ⟨payload, hpayload⟩ := ne_none_iff_exists'.mp hsome
    exact hchanged (well_formed_entry_kept hpayload call)
  · rintro ⟨hauthority, hnone⟩
    have hsize : serialized.length ≤ USC_CACHE_MAX_OUTPUT_SIZE := by
      obtain ⟨-, hfit, rfl⟩ := serialize_preprocess_response_eq_some.mp hdata
      exact hfit
    refine ⟨serialized, ?_, response_read_back (response_live answer) hdata⟩
    rw [hkept hauthority]
    exact load_after_store hsize hnone

/-! ### An entry that stays undecodable -/

def emptyAnswer : PreprocessAnswer := ⟨true, [], [], [], none, none⟩

def liveCall : PreprocessCall where
  cache_dir := true
  compiler_cache_only_enabled := false
  toolchain_authority := true
  valid_apis_is_rejection := false
  session_capabilities_failed := false
  session_capabilities_ready := true
  match_valid_apis := true
  begin_compiler_transaction := true
  path_is_captured := fun _ _ => true
  answer := some emptyAnswer

lemma liveCall_answers : AnswersWithSuccess liveCall emptyAnswer := ⟨rfl, rfl, rfl, rfl, rfl⟩

lemma emptyAnswer_written : ∃ serialized,
    usc_cache_serialize_preprocess_response emptyAnswer.response = some serialized :=
  isSome_iff_exists.mp rfl

/-- A missing entry heals. -/
theorem preprocess_entry_heals_missing :
    NextLoadDecodesTo samplePayloadDigest liveCall sampleRequest none emptyAnswer.response := by
  obtain ⟨serialized, hserialized⟩ := emptyAnswer_written
  exact (preprocess_entry_heals_iff samplePayloadDigest liveCall emptyAnswer sampleRequest none
    serialized rfl rfl liveCall_answers hserialized).mpr ⟨⟨rfl, rfl⟩, rfl⟩

def emptyPayloadEntry : Option CacheNode :=
  some (.regular (entry_bytes samplePayloadDigest sampleRequest []))

theorem undecodable_entry_kept_by_two_calls :
    [liveCall, liveCall].foldl (fun entry call => (unity_compiler_preprocess_contract_response
      samplePayloadDigest call sampleRequest entry).2) emptyPayloadEntry = emptyPayloadEntry := by
  have hload : usc_cache_load samplePayloadDigest sampleRequest emptyPayloadEntry = some [] :=
    @entry_payload_entry_bytes samplePayloadDigest sampleRequest [] (Nat.zero_le _)
  exact well_formed_entry_kept_by_run hload _

/-- With an entry around the empty payload, the call succeeds and stores nothing. -/
theorem undecodable_entry_stays : liveCall.cache_dir = true ∧
      cached_response samplePayloadDigest sampleRequest emptyPayloadEntry = none ∧
      AnswersWithSuccess liveCall emptyAnswer ∧ KeepsAuthority liveCall emptyAnswer ∧
      (∃ serialized,
        usc_cache_serialize_preprocess_response emptyAnswer.response = some serialized) ∧
      ¬ NextLoadDecodesTo samplePayloadDigest liveCall sampleRequest emptyPayloadEntry
        emptyAnswer.response := by
  have hload : usc_cache_load samplePayloadDigest sampleRequest emptyPayloadEntry = some [] :=
    @entry_payload_entry_bytes samplePayloadDigest sampleRequest [] (Nat.zero_le _)
  have hrejected : (usc_cache_deserialize_preprocess_response []).1 = false := by
    decide
  refine ⟨rfl, ?_, liveCall_answers, ⟨rfl, rfl⟩, emptyAnswer_written, ?_⟩
  · simp only [cached_response, hload, bind_some]
    split
    · next response hdecodes =>
        rw [hdecodes] at hrejected
        cases hrejected
    · rfl
  · rintro ⟨stored, hstored, hdecodes⟩
    rw [well_formed_entry_kept hload, hload] at hstored
    obtain rfl := some_inj.mp hstored
    rw [hdecodes] at hrejected
    cases hrejected

end PreprocessCache

end DXBCSandbox
