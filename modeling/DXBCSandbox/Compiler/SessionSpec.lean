/-
What a session authorizes.

Work goes only to a process that reported the captured capabilities, and only if they are the
expected ones. What a lease captured stays what it is, and once two processes disagreed nothing is
written any more until the lease is gone. All of it is one invariant of the state and its trace,
which every operation keeps whatever the world answers.
-/
import DXBCSandbox.Compiler.Session

namespace DXBCSandbox

open List Option

namespace Session

/-! ## What the entries of a trace say -/

/-- A process reported other capabilities than the captured ones. -/
def Entry.Disagrees (e : Entry) : Prop :=
  ∃ capabilities, e.event = .report capabilities ∧ e.channel.session_capabilities_ready = true ∧
    e.channel.session_capabilities ≠ capabilities

def Entry.IsWrite (e : Entry) : Prop := ∃ command process, e.event = .write command process

/-- Work is written to a process that reported the captured capabilities, and these are the expected
ones if any are expected. -/
def Entry.Authorized (world : World) (e : Entry) : Prop :=
  ∀ command process, e.event = .write command process → command.isWork = true →
    e.channel.session_capabilities_ready = true ∧
      world.reports process = some e.channel.session_capabilities ∧
      (e.channel.expected_valid_apis_ready = false ∨ e.channel.expected_valid_apis =
        e.channel.session_capabilities.raw_available_platform_mask &&& UNITY_COMPILER_PLATFORM_MASK)

/-! ## The invariant -/

/-- A channel that may come behind a trace. -/
structure Fits (world : World) (trace : List Entry) (leases : ℕ) (c : UnityCompilerChannel) :
    Prop where
  process : ∀ p, c.socket_fd = some p →
    c.session_capabilities_ready = true ∧ world.reports p = some c.session_capabilities
  ready : c.session_capabilities_ready = true → c.cache_toolchain_lease.isSome = true ∧
    c.session_capabilities_failed = false ∧
    unity_compiler_session_capabilities_validate c.session_capabilities = true
  failed : c.session_capabilities_failed = true → c.cache_toolchain_lease.isSome = true
  fresh : ∀ l, c.cache_toolchain_lease = some l → l < leases
  /-- What the lease captured is still there, unless processes disagreed. -/
  kept : ∀ e ∈ trace, ∀ l, e.channel.cache_toolchain_lease = some l →
    c.cache_toolchain_lease = some l → e.channel.session_capabilities_ready = true →
      c.session_capabilities_failed = true ∨ (c.session_capabilities_ready = true ∧
        c.session_capabilities = e.channel.session_capabilities)
  broken : ∀ e ∈ trace, e.Disagrees →
    c.cache_toolchain_lease = e.channel.cache_toolchain_lease → c.session_capabilities_failed = true

/-- A trace as it may be. The newest entry comes first. -/
structure Legal (world : World) (trace : List Entry) (leases : ℕ) : Prop where
  fresh : ∀ e ∈ trace, ∀ l, e.channel.cache_toolchain_lease = some l → l < leases
  authorized : ∀ e ∈ trace, e.Authorized world
  same : ∀ e ∈ trace, ∀ e' ∈ trace, ∀ l, e.channel.cache_toolchain_lease = some l →
    e'.channel.cache_toolchain_lease = some l → e.channel.session_capabilities_ready = true →
      e'.channel.session_capabilities_ready = true →
        e.channel.session_capabilities = e'.channel.session_capabilities
  leased : ∀ e ∈ trace, e.channel.session_capabilities_ready = true →
    e.channel.cache_toolchain_lease.isSome = true
  stopped : trace.Pairwise fun newer older => older.Disagrees → newer.IsWrite →
    newer.channel.cache_toolchain_lease ≠ older.channel.cache_toolchain_lease

structure Sound (world : World) (s : State) : Prop where
  fits : Fits world s.trace s.leases s.channel
  legal : Legal world s.trace s.leases

section

variable {world : World} {trace : List Entry} {leases : ℕ} {c c' : UnityCompilerChannel} {s : State}
  (h : Fits world trace leases c)

include h in
lemma Fits.same {e : Entry} (he : e ∈ trace) {l : ℕ}
    (hl : e.channel.cache_toolchain_lease = some l) (hc : c.cache_toolchain_lease = some l)
    (hready : e.channel.session_capabilities_ready = true)
    (hready' : c.session_capabilities_ready = true) :
    c.session_capabilities = e.channel.session_capabilities := by
  rcases h.kept e he l hl hc hready with hfail | ⟨-, hsame⟩
  · rw [(h.ready hready').2.1] at hfail
    cases hfail
  · exact hsame

lemma Legal.push (h : Legal world trace leases) (hc : Fits world trace leases c) {event : Event}
    (hwork : Entry.Authorized world ⟨event, c⟩)
    (hwrite : Entry.IsWrite ⟨event, c⟩ → c.session_capabilities_failed = false) :
    Legal world (⟨event, c⟩ :: trace) leases where
  fresh := forall_mem_cons.mpr ⟨hc.fresh, h.fresh⟩
  authorized := forall_mem_cons.mpr ⟨hwork, h.authorized⟩
  same := by
    intro e he e' he' l hl hl' hready hready'
    rcases mem_cons.mp he with rfl | he
    · rcases mem_cons.mp he' with rfl | he'
      · rfl
      · exact hc.same he' hl' hl hready' hready
    · rcases mem_cons.mp he' with rfl | he'
      · exact (hc.same he hl hl' hready hready').symm
      · exact h.same e he e' he' l hl hl' hready hready'
  leased := forall_mem_cons.mpr ⟨fun hready => (hc.ready hready).1, h.leased⟩
  stopped := by
    refine pairwise_cons.mpr ⟨?_, h.stopped⟩
    intro e he hdis hisWrite hlease
    have hfail := hc.broken e he hdis hlease
    rw [hwrite hisWrite] at hfail
    cases hfail

include h in
/-- The channel still fits behind its own entry, unless that is a disagreement. -/
theorem Fits.push {event : Event}
    (hagrees : Entry.Disagrees ⟨event, c⟩ → c.session_capabilities_failed = true) :
    Fits world (⟨event, c⟩ :: trace) leases c where
  process := h.process
  ready := h.ready
  failed := h.failed
  fresh := h.fresh
  kept := forall_mem_cons.mpr ⟨fun _ _ _ hready => .inr ⟨hready, rfl⟩, h.kept⟩
  broken := forall_mem_cons.mpr ⟨fun hdis _ => hagrees hdis, h.broken⟩

lemma not_disagrees_update : ¬ Entry.Disagrees ⟨.update, c⟩ := by
  rintro ⟨_, hevent, -⟩
  nomatch hevent

/-- **An assignment** to a channel that fits. -/
theorem Sound.update_of_fits (h : Sound world s) {f : UnityCompilerChannel → UnityCompilerChannel}
    (hf : Fits world s.trace s.leases (f s.channel)) : Sound world (update f s).2 where
  fits := hf.push fun hdis => absurd hdis not_disagrees_update
  legal := by
    apply h.legal.push hf
    · intro command process hevent
      nomatch hevent
    · rintro ⟨command, process, hevent⟩
      nomatch hevent

/-! ## Assignments -/

include h

lemma Fits.keep (hlease : c'.cache_toolchain_lease = c.cache_toolchain_lease)
    (hcaps : c'.session_capabilities = c.session_capabilities)
    (hready : c'.session_capabilities_ready = c.session_capabilities_ready)
    (hfail : c'.session_capabilities_failed = c.session_capabilities_failed)
    (hsocket : c'.socket_fd = none ∨ c'.socket_fd = c.socket_fd) : Fits world trace leases c' where
  process := by
    intro p hp
    rw [hready, hcaps]
    rcases hsocket with hnone | hsame
    · rw [hnone] at hp
      nomatch hp
    · exact h.process p (hsame ▸ hp)
  ready := by
    rw [hready, hlease, hfail, hcaps]
    exact h.ready
  failed := by
    rw [hfail, hlease]
    exact h.failed
  fresh := by
    rw [hlease]
    exact h.fresh
  kept := by
    rw [hlease, hfail, hready, hcaps]
    exact h.kept
  broken := by
    rw [hlease, hfail]
    exact h.broken

omit h in
lemma Fits.discard (hlegal : Legal world trace leases) (hsocket : c.socket_fd = none)
    (hready : c.session_capabilities_ready = false)
    (hfail : c.session_capabilities_failed = false)
    (hlease : c.cache_toolchain_lease = none) : Fits world trace leases c where
  process := by
    intro p hp
    rw [hsocket] at hp
    nomatch hp
  ready := by
    intro h
    rw [hready] at h
    cases h
  failed := by
    intro h
    rw [hfail] at h
    cases h
  fresh := by
    intro l hl
    rw [hlease] at hl
    nomatch hl
  kept := by
    intro e _ l _ hl
    rw [hlease] at hl
    nomatch hl
  broken := by
    -- A disagreement is about captured capabilities, so it had a lease.
    rintro e he ⟨_, -, hcapt, -⟩ hsame
    have hleased := hlegal.leased e he hcapt
    rw [← hsame, hlease] at hleased
    cases hleased

lemma Fits.new_lease (hlegal : Legal world trace leases)
    (hnone : c.cache_toolchain_lease = none) :
    Fits world trace (leases + 1) { c with cache_toolchain_lease := some leases } := by
  have hready : c.session_capabilities_ready = false := by
    rw [← Bool.not_eq_true]
    intro hready
    have hlease := (h.ready hready).1
    rw [hnone] at hlease
    cases hlease
  have hold : ∀ e ∈ trace, e.channel.cache_toolchain_lease ≠ some leases :=
    fun e he heq => Nat.lt_irrefl _ (hlegal.fresh e he leases heq)
  refine ⟨?_, ?_, fun _ => rfl, ?_, ?_, ?_⟩
  · intro p hp
    have hproc := (h.process p hp).1
    rw [hready] at hproc
    cases hproc
  · intro hready'
    exact absurd (hready.symm.trans hready') Bool.false_ne_true
  · intro l hl
    rw [← some.inj hl]
    exact Nat.lt_succ_self _
  · intro e he l hl hl'
    rw [← some.inj hl'] at hl
    exact absurd hl (hold e he)
  · intro e he _ hsame
    exact absurd hsame.symm (hold e he)

lemma Fits.fail (hsocket : c.socket_fd = none) (hlease : c.cache_toolchain_lease.isSome = true)
    (capabilities : UnityCompilerSessionCapabilities) :
    Fits world trace leases { c with
      session_capabilities := capabilities
      session_capabilities_ready := false
      session_capabilities_failed := true } where
  process := by
    intro p hp
    have hp : c.socket_fd = some p := hp
    rw [hsocket] at hp
    nomatch hp
  ready := fun hready => absurd hready Bool.false_ne_true
  failed := fun _ => hlease
  fresh := h.fresh
  kept := fun _ _ _ _ _ _ => .inl rfl
  broken := fun _ _ _ _ => rfl

/-- A record that is the first one under its lease, or the same again. -/
theorem Fits.capture (hsocket : c.socket_fd = none) (hlease : c.cache_toolchain_lease.isSome = true)
    (hagr : c.session_capabilities_failed = false) {capabilities : UnityCompilerSessionCapabilities}
    (hvalid : unity_compiler_session_capabilities_validate capabilities = true)
    (hsame : c.session_capabilities_ready = true → c.session_capabilities = capabilities) :
    Fits world trace leases { c with
      session_capabilities := capabilities, session_capabilities_ready := true } where
  process := by
    intro p hp
    have hp : c.socket_fd = some p := hp
    rw [hsocket] at hp
    nomatch hp
  ready := fun _ => ⟨hlease, hagr, hvalid⟩
  failed := h.failed
  fresh := h.fresh
  kept := by
    intro e he l hl hc hready
    rcases h.kept e he l hl hc hready with hfail | ⟨hcapt, hcaps⟩
    · rw [hagr] at hfail
      cases hfail
    · exact .inr ⟨rfl, (hsame hcapt).symm.trans hcaps⟩
  broken := h.broken

variable {process : ℕ}

lemma Fits.connect (hready : c.session_capabilities_ready = true)
    (hreports : world.reports process = some c.session_capabilities) :
    Fits world trace leases { c with socket_fd := some process, process_id := some process } where
  process := by
    intro p hp
    obtain rfl : process = p := some.inj hp
    exact ⟨hready, hreports⟩
  ready := h.ready
  failed := h.failed
  fresh := h.fresh
  kept := h.kept
  broken := h.broken

omit h in
lemma Legal.mono (h : Legal world trace leases) : Legal world trace (leases + 1) where
  fresh := fun e he l hl => Nat.lt_succ_of_lt (h.fresh e he l hl)
  authorized := h.authorized
  same := h.same
  leased := h.leased
  stopped := h.stopped

lemma Fits.mono : Fits world trace (leases + 1) c where
  process := h.process
  ready := h.ready
  failed := h.failed
  fresh := fun l hl => Nat.lt_succ_of_lt (h.fresh l hl)
  kept := h.kept
  broken := h.broken

omit h

/-! ## What the parts of an operation keep -/

/-- A question changes nothing that the invariant is about. -/
structure Unasked (P : State → Prop) : Prop where
  asked : ∀ s n, P s → P { s with asked := n }

lemma Sound.unasked : Unasked (Sound world) := ⟨fun _ _ h => ⟨h.fits, h.legal⟩⟩

variable {P : State → Prop}

lemma maintains_ask (hP : Unasked P) : Maintains P (ask world) :=
  fun s hs => hP.asked s _ hs

lemma maintains_asked {α : Type} {f : Bool → SessionM α}
    (hf : ∀ b, Maintains (Sound world) (f b)) : Maintains (Sound world) (ask world >>= f) :=
  .bind (maintains_ask Sound.unasked) hf

lemma triple_getChannel :
    Triple P getChannel fun c s => P s ∧ s.channel = c := fun _ hs => ⟨hs, rfl⟩

lemma maintains_getChannel : Maintains P getChannel := fun _ hs => hs

lemma maintains_update {f : UnityCompilerChannel → UnityCompilerChannel}
    (hf : ∀ s, Sound world s → Fits world s.trace s.leases (f s.channel)) :
    Maintains (Sound world) (update f) := fun s hs => hs.update_of_fits (hf s hs)

lemma maintains_newLease : Maintains (Sound world) newLease :=
  fun _ hs => ⟨hs.fits.mono, hs.legal.mono⟩

lemma maintains_askLease : Maintains (Sound world) (askLease world) := by
  apply maintains_asked
  intro held
  exact .ite (.returning maintains_newLease) (.pure _)

lemma maintains_set_expected (valid_apis : UInt32) :
    Maintains (Sound world) (unity_compiler_set_expected_valid_apis valid_apis) := by
  apply Maintains.bind maintains_getChannel
  intro channel
  apply Maintains.guarded
  apply Maintains.returning
  exact maintains_update fun s hs => hs.fits.keep rfl rfl rfl rfl (.inr rfl)

lemma maintains_clear_expected :
    Maintains (Sound world) unity_compiler_clear_expected_valid_apis := by
  apply Maintains.bind maintains_getChannel
  intro channel
  apply Maintains.guarded
  apply Maintains.returning
  exact maintains_update fun s hs => hs.fits.keep rfl rfl rfl rfl (.inr rfl)

lemma maintains_invalidate : Maintains (Sound world) invalidate_compiler_channel :=
  maintains_update fun _ hs => hs.fits.keep rfl rfl rfl rfl (.inl rfl)

lemma maintains_discard_source : Maintains (Sound world) discard_source_authority :=
  maintains_update fun _ hs => hs.fits.keep rfl rfl rfl rfl (.inr rfl)

lemma maintains_discard : Maintains (Sound world) (discard_toolchain_authority true) := by
  intro s hs
  have hproc := maintains_invalidate s hs
  have hsrc := maintains_discard_source _ hproc
  exact hsrc.update_of_fits (Fits.discard hsrc.legal rfl rfl rfl rfl)

lemma maintains_validate_lease (lease : Option ℕ) (hP : Unasked P) :
    Maintains P (validate_lease world lease) :=
  .ite (maintains_ask hP) (.pure _)

lemma maintains_getcwd (hP : Unasked P) : Maintains P (getcwd world) :=
  fun s hs => hP.asked s _ hs

lemma maintains_validate_include (hP : Unasked P) :
    Maintains P (validate_include_authority world) := by
  apply Maintains.bind maintains_getChannel
  intro channel
  apply Maintains.andAlso (maintains_validate_lease _ hP)
  apply Maintains.andAlso (maintains_validate_lease _ hP)
  apply Maintains.bind maintains_getChannel
  intro channel
  apply Maintains.guarded
  exact .bind (maintains_getcwd hP) fun _ => .pure _

/-- The authority may be used: there is a lease, and no processes disagreed under it. -/
structure Open (world : World) (s : State) : Prop where
  sound : Sound world s
  leased : s.channel.cache_toolchain_lease.isSome = true
  agreed : s.channel.session_capabilities_failed = false

lemma Open.unasked : Unasked (Open world) :=
  ⟨fun s n h => ⟨Sound.unasked.asked s n h.sound, h.leased, h.agreed⟩⟩

structure Leased (world : World) (s : State) : Prop where
  sound : Sound world s
  leased : s.channel.cache_toolchain_lease.isSome = true

lemma Leased.unasked : Unasked (Leased world) :=
  ⟨fun s n h => ⟨Sound.unasked.asked s n h.sound, h.leased⟩⟩

def OpenIf (world : World) (passed : Bool) (s : State) : Prop :=
  Sound world s ∧ (passed = true → Open world s)

lemma openIf_false {s : State} (h : Sound world s) : OpenIf world false s :=
  ⟨h, fun hfalse => absurd hfalse Bool.false_ne_true⟩

lemma triple_keep_or_discard (valid : Bool) :
    Triple (Leased world) (keep_or_discard valid) (OpenIf world) := by
  unfold keep_or_discard
  apply Triple.ite
  · intro _ s hs
    refine ⟨hs.sound, ?_⟩
    intro hagr
    refine ⟨hs.sound, hs.leased, ?_⟩
    have hagr : (!s.channel.session_capabilities_failed) = true := hagr
    rwa [Bool.not_eq_true'] at hagr
  · intro _ s hs
    exact openIf_false (maintains_discard s hs.sound)

lemma triple_first_lease : Triple (fun s => Sound world s ∧
      s.channel.cache_toolchain_lease = none ∧ s.channel.session_capabilities_failed = false)
    (do match ← askLease world with
      | none => return false
      | some lease =>
        update fun channel => { channel with cache_toolchain_lease := some lease }
        return true) (OpenIf world) := by
  rintro s ⟨hs, hnone, hagr⟩
  have hasked := Sound.unasked.asked s (s.asked + 1) hs
  cases hheld : world.holds s.asked with
  | false =>
    have hrun : askLease world s = (none, { s with asked := s.asked + 1 }) := by
      show (if world.holds s.asked = true then _ else _ : SessionM _) _ = _
      rw [hheld]
      rfl
    show OpenIf world (StateT.bind (askLease world) _ s).1 (StateT.bind (askLease world) _ s).2
    unfold StateT.bind
    rw [hrun]
    exact openIf_false hasked
  | true =>
    have hrun : askLease world s =
        (some s.leases, { s with asked := s.asked + 1, leases := s.leases + 1 }) := by
      show (if world.holds s.asked = true then _ else _ : SessionM _) _ = _
      rw [hheld]
      rfl
    show OpenIf world (StateT.bind (askLease world) _ s).1 (StateT.bind (askLease world) _ s).2
    unfold StateT.bind
    rw [hrun]
    have hsound : Sound world { s with asked := s.asked + 1, leases := s.leases + 1 } :=
      maintains_newLease _ hasked
    have hnext := hsound.update_of_fits (f := fun channel =>
      { channel with cache_toolchain_lease := some s.leases }) (hs.fits.new_lease hs.legal hnone)
    exact ⟨hnext, fun _ => ⟨hnext, rfl, hagr⟩⟩

lemma triple_capture_or_validate :
    Triple (Sound world) (capture_or_validate_toolchain_authority world) (OpenIf world) := by
  unfold capture_or_validate_toolchain_authority
  refine Triple.bind triple_getChannel ?_
  intro channel
  apply Triple.ite
  · exact fun _ s hs => openIf_false hs.1
  intro _
  apply Triple.ite
  · intro hleased
    have hstart : ∀ s, Sound world s ∧ s.channel = channel → Leased world s :=
      fun s hs => ⟨hs.1, hs.2 ▸ hleased⟩
    refine Triple.mono ?_ hstart fun _ _ h => h
    refine Triple.bind ?_ triple_keep_or_discard
    exact Maintains.andAlso (maintains_ask Leased.unasked)
      (maintains_validate_include Leased.unasked)
  · intro hnone
    refine Triple.mono triple_first_lease ?_ fun _ _ h => h
    rintro s ⟨hs, rfl⟩
    rw [Bool.not_eq_true, isSome_eq_false_iff, isNone_iff_eq_none] at hnone
    refine ⟨hs, hnone, ?_⟩
    rw [← Bool.not_eq_true]
    intro hfail
    have hleased := hs.fits.failed hfail
    rw [hnone] at hleased
    cases hleased

lemma maintains_validate_existing :
    Maintains (Sound world) (validate_existing_toolchain_authority world) := by
  unfold validate_existing_toolchain_authority
  refine Triple.bind triple_getChannel ?_
  intro channel
  apply Triple.ite
  · exact fun _ s hs => hs.1
  intro hleased
  have hstart : ∀ s, Sound world s ∧ s.channel = channel → Leased world s := by
    rintro s ⟨hs, rfl⟩
    exact ⟨hs, isSome_iff_ne_none.mpr hleased⟩
  refine Triple.mono ?_ hstart fun _ _ h => h
  refine Triple.bind ?_ fun valid =>
    Triple.mono (triple_keep_or_discard valid) (fun _ h => h) fun _ _ h => h.1
  exact Maintains.andAlso (maintains_ask Leased.unasked)
    (Maintains.andAlso (maintains_validate_lease _ Leased.unasked)
      (maintains_validate_include Leased.unasked))

lemma maintains_capture :
    Maintains (Sound world) (capture_or_validate_toolchain_authority world) :=
  Triple.mono triple_capture_or_validate (fun _ h => h) fun _ _ h => h.1

lemma maintains_get_toolchain : Maintains (Sound world) (get_toolchain_fingerprints world) := by
  apply Maintains.bind maintains_getChannel
  intro channel
  exact .guarded maintains_capture

lemma maintains_refresh_source (root : Bytes) :
    Maintains (Sound world) (refresh_source_authority world root) := by
  apply Maintains.bind maintains_getChannel
  intro channel
  refine .ite ?_ (.pure _)
  apply Maintains.bind
  · exact .andAlso (maintains_ask Sound.unasked)
      (.andAlso (.pure _) (maintains_validate_include Sound.unasked))
  · intro valid
    apply Maintains.guarded
    exact .bind maintains_invalidate fun _ => maintains_discard_source

lemma maintains_capture_source (root : Bytes) (working_directory : Option CString) :
    Maintains (Sound world) (capture_source_authority world root working_directory) := by
  apply Maintains.bind maintains_getChannel
  intro channel
  apply Maintains.guarded
  apply Maintains.bind maintains_askLease
  intro lease
  cases lease with
  | none => exact .pure _
  | some lease =>
    apply Maintains.returning
    exact maintains_update fun s hs => hs.fits.keep rfl rfl rfl rfl (.inr rfl)

lemma maintains_get_source (source_directory : Option CString) :
    Maintains (Sound world) (get_source_fingerprints world source_directory) := by
  apply Maintains.bind maintains_getChannel
  intro channel
  apply Maintains.guarded
  apply Maintains.bind (maintains_getcwd Sound.unasked)
  intro working_directory
  cases request_search_root source_directory working_directory with
  | none => exact .pure _
  | some root =>
    apply Maintains.bind (maintains_refresh_source root)
    intro _
    exact .andAlso maintains_get_toolchain (maintains_capture_source root _)

lemma maintains_merge_include : Maintains (Sound world) (merge_include_authority world) := by
  apply Maintains.bind maintains_getChannel
  intro channel
  refine .ite ?_ (.pure _)
  apply maintains_asked
  intro merged
  apply Maintains.ite
  · apply Maintains.returning
    exact maintains_update fun s hs => hs.fits.keep rfl rfl rfl rfl (.inr rfl)
  · exact .returning maintains_discard

lemma maintains_capture_include : Maintains (Sound world) (capture_include_authority world) := by
  apply Maintains.bind maintains_askLease
  intro lease
  apply Maintains.bind
  · exact maintains_update fun s hs => hs.fits.keep rfl rfl rfl rfl (.inr rfl)
  · intro _
    exact .guarded maintains_validate_existing

lemma maintains_get_request (source_directory source : Option CString) :
    Maintains (Sound world) (get_request_fingerprints world source_directory source) := by
  apply Maintains.bind
  · exact maintains_update fun s hs => hs.fits.keep rfl rfl rfl rfl (.inr rfl)
  · intro _
    apply Maintains.guarded
    exact .andAlso (maintains_get_source source_directory)
      (.andAlso maintains_merge_include maintains_capture_include)

/-! ## The process -/

lemma capabilities_equal_iff {left right : UnityCompilerSessionCapabilities}
    (hleft : unity_compiler_session_capabilities_validate left = true)
    (hright : unity_compiler_session_capabilities_validate right = true) :
    unity_compiler_session_capabilities_equal left right = true ↔ left = right := by
  unfold unity_compiler_session_capabilities_equal
  rw [hleft, hright]
  constructor
  · intro h
    by_cases hmask : left.raw_available_platform_mask ≠ right.raw_available_platform_mask
    · rw [if_pos (.inr (.inr hmask))] at h
      cases h
    · rw [if_neg (by simp [hmask]), List.all_eq_true] at h
      obtain ⟨mask, platforms⟩ := left
      obtain ⟨mask', platforms'⟩ := right
      obtain rfl : mask = mask' := not_not.mp hmask
      refine congrArg _ (Vector.ext fun i hi => ?_)
      obtain ⟨hfeatures, hver⟩ := of_decide_eq_true (h ⟨i, hi⟩ (mem_finRange _))
      have hplat : ∀ a b : UnityCompilerPlatformCapability,
          a.supported_features = b.supported_features → a.version = b.version → a = b := by
        rintro ⟨_, _⟩ ⟨_, _⟩ rfl rfl
        rfl
      exact hplat _ _ hfeatures hver
  · rintro rfl
    rw [if_neg (by simp), List.all_eq_true]
    exact fun index _ => decide_eq_true ⟨rfl, rfl⟩

/-- A channel that lets a command through has no expectation or one that is met. -/
theorem permits_iff (hfits : Fits world trace leases c)
    (hready : c.session_capabilities_ready = true)
    (h : expected_valid_apis_authority_permits_live_command c = true) :
    c.expected_valid_apis_ready = false ∨ c.expected_valid_apis =
      c.session_capabilities.raw_available_platform_mask &&& UNITY_COMPILER_PLATFORM_MASK := by
  obtain ⟨-, hagr, hvalid⟩ := hfits.ready hready
  unfold expected_valid_apis_authority_permits_live_command
    expected_valid_apis_authority_snapshot unity_compiler_session_capabilities_valid_apis at h
  rw [hready, hagr, hvalid] at h
  cases hexp : c.expected_valid_apis_ready with
  | false => exact .inl rfl
  | true =>
    right
    rw [hexp] at h
    have hstat := of_decide_eq_true h
    by_contra hne
    simp [hne] at hstat

/-- The authority may be used, and there is no process. -/
structure Idle (world : World) (s : State) : Prop where
  opened : Open world s
  socket : s.channel.socket_fd = none

lemma Idle.unasked : Unasked (Idle world) :=
  ⟨fun s n h => ⟨Open.unasked.asked s n h.opened, h.socket⟩⟩

lemma maintains_newProcess : Maintains (Idle world) newProcess :=
  fun _ hs => ⟨⟨⟨hs.opened.sound.fits, hs.opened.sound.legal⟩, hs.opened.leased,
    hs.opened.agreed⟩, hs.socket⟩

lemma maintains_emit_initialize :
    Maintains (Idle world) (emit (.write .initializeCompiler process)) := by
  rintro s ⟨⟨hs, hleased, hagr⟩, hsocket⟩
  refine ⟨⟨⟨hs.fits.push ?_, hs.legal.push hs.fits ?_ fun _ => hagr⟩, hleased, hagr⟩, hsocket⟩
  · rintro ⟨_, hevent, -⟩
    nomatch hevent
  · intro command process' hevent hwork
    obtain ⟨rfl, -⟩ := Event.write.inj hevent
    exact absurd hwork (by decide)

lemma maintains_start_child : Maintains (Idle world) (start_child world) := by
  apply Maintains.bind (maintains_ask Idle.unasked)
  intro spawned
  refine .ite ?_ (.pure _)
  apply Maintains.bind maintains_newProcess
  intro process
  apply Maintains.bind (maintains_ask Idle.unasked)
  intro connected
  exact .guarded (.pure _)

/-- A session with the record of a new process on its trace. -/
structure Reported (world : World) (process : ℕ) (capabilities : UnityCompilerSessionCapabilities)
    (s : State) : Prop where
  legal : Legal world s.trace s.leases
  fails : Fits world s.trace s.leases { s.channel with
    session_capabilities := no_capabilities
    session_capabilities_ready := false
    session_capabilities_failed := true }
  captures : (s.channel.session_capabilities_ready = true →
      s.channel.session_capabilities = capabilities) →
    Fits world s.trace s.leases { s.channel with
      session_capabilities := capabilities, session_capabilities_ready := true }
  ready : s.channel.session_capabilities_ready = true →
    unity_compiler_session_capabilities_validate s.channel.session_capabilities = true
  valid : unity_compiler_session_capabilities_validate capabilities = true
  reports : world.reports process = some capabilities

lemma triple_read_session_capabilities (process : ℕ) :
    Triple (Idle world) (read_session_capabilities world process) fun capabilities s =>
      match capabilities with
      | none => Sound world s
      | some capabilities => Reported world process capabilities s := by
  unfold read_session_capabilities
  cases hreports : world.reports process with
  | none => exact fun s hs => hs.opened.sound
  | some capabilities =>
    apply Triple.ite
    · exact fun _ s hs => hs.opened.sound
    intro hvalid s hs
    rw [Bool.not_eq_true', Bool.not_eq_false] at hvalid
    obtain ⟨⟨hsound, hleased, hagr⟩, hsocket⟩ := hs
    have hlegal : Legal world (⟨.report capabilities, s.channel⟩ :: s.trace) s.leases := by
      apply hsound.legal.push hsound.fits
      · exact nofun
      · rintro ⟨_, _, hevent⟩
        nomatch hevent
    refine ⟨hlegal, ?_, ?_, fun h => (hsound.fits.ready h).2.2, hvalid, hreports⟩
    · -- The entry may be the disagreement: from here on the session has failed.
      have hfail := hsound.fits.fail hsocket hleased no_capabilities
      exact {
        process := hfail.process
        ready := hfail.ready
        failed := hfail.failed
        fresh := hfail.fresh
        kept := fun _ _ _ _ _ _ => .inl rfl
        broken := fun _ _ _ _ => rfl }
    · intro hsame
      refine (hsound.fits.push ?_).capture hsocket hleased hagr hvalid hsame
      rintro ⟨reported, hevent, hready, hne⟩
      obtain rfl := Event.report.inj hevent
      exact absurd (hsame hready) hne

/-- A new process becomes the channel's process only if its record is the captured one. -/
theorem triple_adopt_process (process : ℕ) :
    Triple (Idle world) (adopt_process world process) fun _ => Sound world := by
  unfold adopt_process
  refine Triple.bind maintains_emit_initialize fun _ => ?_
  refine Triple.bind (maintains_ask Idle.unasked) fun written => ?_
  apply Triple.ite
  · exact fun _ s hs => hs.opened.sound
  intro _
  refine Triple.bind (triple_read_session_capabilities process) fun capabilities => ?_
  cases capabilities with
  | none => exact fun s hs => hs
  | some capabilities =>
    refine Triple.bind triple_getChannel fun channel => ?_
    apply Triple.ite
    · rintro - s ⟨hs, rfl⟩
      exact ⟨hs.fails.push fun hdis => absurd hdis not_disagrees_update,
        hs.legal.push hs.fails (nofun) (by rintro ⟨_, _, hevent⟩; exact nomatch hevent)⟩
    · rintro hagrees s ⟨hs, rfl⟩
      have hsame : s.channel.session_capabilities_ready = true →
          s.channel.session_capabilities = capabilities := by
        intro hready
        rw [← capabilities_equal_iff (hs.ready hready) hs.valid]
        by_contra hne
        rw [Bool.not_eq_true] at hne
        exact hagrees ⟨hready, by rw [hne]; rfl⟩
      have hfits := hs.captures hsame
      have hcapt : Sound world (update (fun channel => { channel with
          session_capabilities := capabilities, session_capabilities_ready := true }) s).2 :=
        ⟨hfits.push fun hdis => absurd hdis not_disagrees_update, hs.legal.push hfits (nofun)
            (by rintro ⟨_, _, hevent⟩; exact nomatch hevent)⟩
      have hnext : Triple (fun t => Sound world t ∧ t.channel.session_capabilities_ready = true ∧
          t.channel.session_capabilities = capabilities) (do
            let channel ← getChannel
            if !expected_valid_apis_authority_permits_live_command channel then return false
            else
              update fun channel =>
                { channel with socket_fd := some process, process_id := some process }
              return true) fun _ => Sound world := by
        refine Triple.bind triple_getChannel fun channel => ?_
        apply Triple.ite
        · exact fun _ t ht => ht.1.1
        · rintro - t ⟨⟨ht, hready, hcaps⟩, -⟩
          have hconnected := ht.fits.connect hready (hs.reports.trans (congrArg some hcaps.symm))
          exact ht.update_of_fits (f := fun channel =>
            { channel with socket_fd := some process, process_id := some process }) hconnected
      exact hnext _ ⟨hcapt, rfl, rfl⟩

lemma maintains_start_process : Maintains (Sound world) (unity_compiler_start_process world) := by
  unfold unity_compiler_start_process
  refine Triple.bind triple_capture_or_validate fun authorized => ?_
  apply Triple.ite
  · exact fun _ s hs => hs.1
  intro hauth
  rw [Bool.not_eq_true', Bool.not_eq_false] at hauth
  refine Triple.bind triple_getChannel fun channel => ?_
  apply Triple.ite
  · exact fun _ s hs => hs.1.1
  intro _
  apply Triple.ite
  · exact fun _ s hs => hs.1.1
  intro hproc
  refine Triple.bind (Q := fun _ => Idle world) ?_ fun _ => ?_
  · apply Triple.ite
    · rintro - s ⟨hs, -⟩
      have hopen := hs.2 hauth
      exact ⟨⟨maintains_invalidate s hs.1, hopen.leased, hopen.agreed⟩, rfl⟩
    · rintro hnone s ⟨hs, rfl⟩
      refine ⟨hs.2 hauth, ?_⟩
      by_contra hne
      exact hnone (.inl (isSome_iff_ne_none.mpr hne))
  · refine Triple.bind maintains_start_child fun process => ?_
    cases process with
    | none => exact fun s hs => hs.opened.sound
    | some process => exact triple_adopt_process process

/-- A session whose next command may be written. -/
def Permitted (world : World) (s : State) : Prop :=
  Sound world s ∧ expected_valid_apis_authority_permits_live_command s.channel = true

lemma Permitted.unasked : Unasked (Permitted world) :=
  ⟨fun s n h => ⟨Sound.unasked.asked s n h.1, h.2⟩⟩

lemma triple_begin_transaction :
    Triple (Sound world) (begin_compiler_transaction world) fun begun s =>
      Sound world s ∧ (begun = true → Permitted world s) := by
  have hfails : ∀ s, Sound world s → Sound world s ∧ (false = true → Permitted world s) :=
    fun s hs => ⟨hs, fun h => absurd h Bool.false_ne_true⟩
  unfold begin_compiler_transaction
  refine Triple.bind maintains_start_process fun started => ?_
  apply Triple.ite
  · exact fun _ s hs => hfails s hs
  intro _
  refine Triple.bind triple_getChannel fun channel => ?_
  apply Triple.ite
  · exact fun _ s hs => hfails s hs.1
  intro hpermits
  rw [Bool.not_eq_true', Bool.not_eq_false] at hpermits
  have hstart : ∀ s, Sound world s ∧ s.channel = channel → Permitted world s :=
    fun s hs => ⟨hs.1, hs.2 ▸ hpermits⟩
  refine Triple.mono ?_ hstart fun _ _ h => h
  refine Triple.bind (maintains_ask Permitted.unasked) fun timed => ?_
  apply Triple.ite
  · exact fun _ s hs => ⟨hs.1, fun _ => hs⟩
  · exact fun _ s hs => hfails _ (maintains_invalidate s hs.1)

/-- **A command is written** to the process of the captured record. -/
theorem Sound.emit_write (hs : Sound world s) {command : Command}
    (hproc : s.channel.socket_fd = some process) (hpermits : command.isWork = true →
      expected_valid_apis_authority_permits_live_command s.channel = true) :
    Sound world (emit (.write command process) s).2 := by
  obtain ⟨hready, hreports⟩ := hs.fits.process process hproc
  have hagr := (hs.fits.ready hready).2.1
  refine ⟨hs.fits.push ?_, hs.legal.push hs.fits ?_ fun _ => hagr⟩
  · rintro ⟨_, hevent, -⟩
    nomatch hevent
  · intro command' process' hevent hwork
    obtain ⟨rfl, rfl⟩ := Event.write.inj hevent
    exact ⟨hready, hreports, permits_iff hs.fits hready (hpermits hwork)⟩

variable (command : Command)

lemma triple_write_command (hP : ∀ s, P s → Sound world s ∧ (command.isWork = true →
      expected_valid_apis_authority_permits_live_command s.channel = true)) :
    Triple P (write_command world command) fun _ => Sound world := by
  unfold write_command
  refine Triple.bind triple_getChannel fun channel => ?_
  cases hsocket : channel.socket_fd with
  | none => exact fun s hs => (hP s hs.1).1
  | some process =>
    rintro s ⟨hs, rfl⟩
    obtain ⟨hsound, hpermits⟩ := hP s hs
    exact Sound.unasked.asked _ _ (hsound.emit_write hsocket hpermits)

lemma triple_exchange :
    Triple (Permitted world) (exchange world command) fun _ => Sound world := by
  unfold exchange
  refine Triple.bind (Q := fun _ => Sound world) ?_ fun received => ?_
  · exact Triple.andAlso (triple_write_command command fun s hs => ⟨hs.1, fun _ => hs.2⟩)
      (maintains_ask Sound.unasked) fun _ h => h
  · exact Maintains.ite (Maintains.pure _) (Maintains.returning maintains_invalidate)

lemma maintains_write_shutdown : Maintains (Sound world) (write_shutdown world) := by
  apply maintains_asked
  intro timed
  refine .ite ?_ (.pure _)
  refine .bind ?_ fun _ => .pure _
  exact triple_write_command .shutdown fun s hs => ⟨hs, fun hwork => absurd hwork (by decide)⟩

lemma maintains_stop_process : Maintains (Sound world) (unity_compiler_stop_process world) := by
  apply Maintains.bind
  · exact maintains_update fun s hs => hs.fits.keep rfl rfl rfl rfl (.inr rfl)
  intro _
  apply Maintains.bind maintains_getChannel
  intro channel
  refine .ite ?_ (.pure _)
  apply Maintains.bind maintains_write_shutdown
  intro _
  exact maintains_update fun s hs => hs.fits.keep rfl rfl rfl rfl (.inl rfl)

/-! ## Operations -/

lemma maintains_acquire_record (channel : UnityCompilerChannel) :
    Maintains (Sound world) (acquire_record world channel) := by
  apply Maintains.guarded
  apply maintains_asked
  intro cache_only
  exact .guarded maintains_start_process

lemma maintains_capture_capabilities :
    Maintains (Sound world) (unity_compiler_capture_session_capabilities world) := by
  unfold unity_compiler_capture_session_capabilities
  apply Maintains.bind maintains_getChannel
  intro channel
  apply Maintains.guarded
  apply Maintains.bind (maintains_acquire_record channel)
  intro ready
  apply Maintains.guarded
  exact .returning maintains_getChannel

lemma maintains_reject_uncaptured : Maintains (Sound world) (reject_uncaptured world) := by
  apply maintains_asked
  intro captured
  apply Maintains.guarded
  exact .returning maintains_discard

lemma maintains_include_unavailable : Maintains (Sound world) include_authority_is_unavailable :=
  .returning maintains_getChannel

lemma maintains_is_rejected : Maintains (Sound world) is_rejected :=
  .returning maintains_getChannel

lemma maintains_captured_valid_apis (valid_apis : UInt32) (require_captured : Bool) :
    Maintains P (captured_valid_apis valid_apis require_captured) :=
  .returning maintains_getChannel

/-- The part of an operation behind the cache, where a command is written. -/
theorem maintains_transaction {work : SessionM Bool}
    (hwork : Triple (Permitted world) work fun _ => Sound world) : Maintains (Sound world) (do
      if !(← begin_compiler_transaction world) then is_rejected else work) := by
  refine Triple.bind triple_begin_transaction fun begun => ?_
  apply Triple.ite
  · exact fun _ s hs => maintains_is_rejected s hs.1
  · intro hbegun s hs
    rw [Bool.not_eq_true', Bool.not_eq_false] at hbegun
    exact hwork s (hs.2 hbegun)

lemma triple_checked_work (valid_apis : UInt32) (command : Command) :
    Triple (Permitted world) (do
      if !(← captured_valid_apis valid_apis true) then return false
      else
        andAlso (exchange world command)
          (andAlso (validate_existing_toolchain_authority world) (reject_uncaptured world)))
      fun _ => Sound world := by
  refine Triple.bind (maintains_captured_valid_apis valid_apis true) fun captured => ?_
  apply Triple.ite
  · exact fun _ s hs => hs.1
  · intro _
    exact Triple.andAlso (triple_exchange command)
      (Maintains.andAlso maintains_validate_existing maintains_reject_uncaptured) fun _ h => h

lemma triple_plain_work : Triple (Permitted world)
    (andAlso (exchange world command) (validate_existing_toolchain_authority world))
      fun _ => Sound world :=
  Triple.andAlso (triple_exchange command) maintains_validate_existing fun _ h => h

variable (request : Request)

lemma maintains_preprocess_contract :
    Maintains (Sound world) (unity_compiler_preprocess_contract_response world request) := by
  unfold unity_compiler_preprocess_contract_response
  apply Maintains.bind (maintains_get_request _ _)
  intro fingerprints
  apply Maintains.ite maintains_include_unavailable
  apply Maintains.guarded
  apply maintains_asked
  intro digests
  apply Maintains.guarded
  apply maintains_asked
  intro cached
  apply Maintains.ite
  · apply maintains_asked
    intro captured
    apply Maintains.ite (.returning maintains_discard)
    apply Maintains.bind maintains_validate_existing
    intro valid
    apply Maintains.bind maintains_is_rejected
    intro rejected
    apply Maintains.guarded
    exact .andAlso (.pure _) (maintains_captured_valid_apis _ _)
  · apply maintains_asked
    intro cache_only
    apply Maintains.guarded
    exact maintains_transaction (triple_checked_work _ _)

lemma maintains_preprocess :
    Maintains (Sound world) (unity_compiler_preprocess world request) := by
  unfold unity_compiler_preprocess
  apply Maintains.guarded
  apply Maintains.bind maintains_getChannel
  intro channel
  apply Maintains.bind
  · unfold snapshot_or_capture
    cases unity_compiler_session_capabilities_snapshot channel with
    | none => exact maintains_capture_capabilities
    | some capabilities => exact .pure _
  · intro capabilities
    cases capabilities.bind unity_compiler_session_capabilities_valid_apis with
    | none => exact .pure _
    | some valid_apis => exact maintains_preprocess_contract _

lemma maintains_compile :
    Maintains (Sound world) (unity_compiler_compile_request_response_internal world request) := by
  unfold unity_compiler_compile_request_response_internal
  apply Maintains.guarded
  apply Maintains.bind (maintains_get_request _ _)
  intro fingerprints
  apply Maintains.ite maintains_include_unavailable
  apply maintains_asked
  intro digests
  apply Maintains.guarded
  apply maintains_asked
  intro cached
  apply Maintains.ite
  · apply Maintains.bind maintains_validate_existing
    intro valid
    apply Maintains.bind maintains_is_rejected
    intro rejected
    exact .guarded (.pure _)
  · apply maintains_asked
    intro cache_only
    apply Maintains.guarded
    exact maintains_transaction (triple_plain_work _)

lemma maintains_disassemble :
    Maintains (Sound world) (unity_compiler_disassemble_response world request) := by
  unfold unity_compiler_disassemble_response
  apply Maintains.guarded
  apply maintains_asked
  intro cache_only
  apply Maintains.guarded
  exact maintains_transaction (triple_plain_work _)

lemma maintains_transcript : Maintains (Sound world) (compute_request_transcript world request) :=
  .andAlso (maintains_get_request _ _) (maintains_ask Sound.unasked)

lemma maintains_compute {work : SessionM Bool} (hwork : Maintains (Sound world) work) :
    Maintains (Sound world) (do
      if !request.valid then return false
      else if !(← compute_request_transcript world request) then include_authority_is_unavailable
      else if !(← serializes world) then return false
      else if ← compiler_cache_only_enabled world then return true
      else work) := by
  apply Maintains.guarded
  apply Maintains.bind (maintains_transcript request)
  intro transcript
  apply Maintains.ite maintains_include_unavailable
  apply maintains_asked
  intro serialized
  apply Maintains.guarded
  apply maintains_asked
  intro cache_only
  exact .guarded hwork

lemma maintains_compile_compute :
    Maintains (Sound world) (unity_compiler_compile_compute_response world request) :=
  maintains_compute request (maintains_transaction (triple_plain_work _))

lemma maintains_preprocess_compute :
    Maintains (Sound world) (unity_compiler_preprocess_compute_response world request) :=
  maintains_compute request (maintains_transaction (triple_checked_work _ _))

lemma maintains_provenance (source_root source : Option CString) :
    Maintains (Sound world) (get_scoped_provenance world source_root source) :=
  .andAlso (.ite (maintains_get_request _ _) (maintains_get_source _))
    maintains_get_toolchain

lemma maintains_serialize :
    Maintains (Sound world) (unity_compiler_serialize_request world request) :=
  .andAlso (maintains_get_request _ _)
    (.andAlso (maintains_ask Sound.unasked) maintains_validate_existing)

lemma maintains_recycle : Maintains (Sound world) (unity_compiler_recycle_process world) := by
  apply Maintains.bind maintains_getChannel
  intro channel
  apply Maintains.guarded
  exact .returning maintains_stop_process

lemma maintains_reset : Maintains (Sound world) (update fun _ => no_channel) :=
  maintains_update fun _ hs => Fits.discard hs.legal rfl rfl rfl rfl

lemma maintains_shutdown : Maintains (Sound world) (unity_compiler_shutdown world) := by
  apply Maintains.bind maintains_stop_process
  intro _
  exact .bind maintains_discard_source fun _ => maintains_reset

lemma maintains_configure (lazy_start : Bool) :
    Maintains (Sound world) (unity_compiler_configure_channel world lazy_start) := by
  apply Maintains.bind maintains_reset
  intro _
  apply maintains_asked
  intro found
  apply Maintains.ite (.returning maintains_shutdown)
  apply Maintains.bind
  · exact maintains_update fun s hs => hs.fits.keep rfl rfl rfl rfl (.inr rfl)
  intro _
  apply Maintains.guarded
  apply maintains_asked
  intro cached
  apply Maintains.guarded
  apply Maintains.bind maintains_start_process
  intro started
  exact .guarded (.bind maintains_shutdown fun _ =>
    .pure _)

lemma maintains_perform (operation : Operation) :
    Maintains (Sound world) (perform world operation) := by
  cases operation with
  | start lazy_start => exact maintains_configure lazy_start
  | setExpected valid_apis => exact maintains_set_expected valid_apis
  | clearExpected => exact maintains_clear_expected
  | capture => exact .map maintains_capture_capabilities
  | preprocess request => exact maintains_preprocess_contract request
  | preprocessLegacy request => exact maintains_preprocess request
  | compile request => exact maintains_compile request
  | disassemble request => exact maintains_disassemble request
  | compileCompute request => exact maintains_compile_compute request
  | preprocessCompute request => exact maintains_preprocess_compute request
  | provenance source_root source => exact maintains_provenance source_root source
  | serialize request => exact maintains_serialize request
  | recycle => exact maintains_recycle
  | shutdown => exact .returning maintains_shutdown

lemma sound_run (world : World) (operations : List Operation) :
    Sound world (run world operations) := by
  apply Maintains.foldl_run maintains_perform
  have hempty : Legal world [] 0 :=
    ⟨fun _ he => (nomatch he), fun _ he => (nomatch he), fun _ he => (nomatch he),
      fun _ he => (nomatch he), List.Pairwise.nil⟩
  exact ⟨Fits.discard hempty rfl rfl rfl rfl, hempty⟩

end

/-- **Sessions keep to their authority.** In every run, work is written only to a process that
reported the captured record, with no expectation or the expectation that this record meets; all
records captured under one lease are the same; and once a process reported another record than the
captured one, nothing is written while that lease is there. -/
theorem session_authority (world : World) (operations : List Operation) :
    let trace := (run world operations).trace
    (∀ e ∈ trace, ∀ command process, e.event = .write command process → command.isWork = true →
      e.channel.session_capabilities_ready = true ∧
        world.reports process = some e.channel.session_capabilities ∧
        (e.channel.expected_valid_apis_ready = false ∨ e.channel.expected_valid_apis =
          e.channel.session_capabilities.raw_available_platform_mask &&&
            UNITY_COMPILER_PLATFORM_MASK)) ∧
    (∀ e ∈ trace, ∀ e' ∈ trace, ∀ lease, e.channel.cache_toolchain_lease = some lease →
      e'.channel.cache_toolchain_lease = some lease → e.channel.session_capabilities_ready = true →
        e'.channel.session_capabilities_ready = true →
          e.channel.session_capabilities = e'.channel.session_capabilities) ∧
    trace.Pairwise fun newer older => older.Disagrees → newer.IsWrite →
      older.channel.cache_toolchain_lease.isSome = true ∧
        newer.channel.cache_toolchain_lease ≠ older.channel.cache_toolchain_lease := by
  have hlegal := (sound_run world operations).legal
  refine ⟨hlegal.authorized, hlegal.same, ?_⟩
  apply hlegal.stopped.imp_of_mem
  rintro newer older - holder hstopped ⟨capabilities, hevent, hready, hne⟩ hwrite
  exact ⟨hlegal.leased older holder hready, hstopped ⟨capabilities, hevent, hready, hne⟩ hwrite⟩

end Session

end DXBCSandbox
