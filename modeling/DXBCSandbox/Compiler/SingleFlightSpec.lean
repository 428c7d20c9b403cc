/-
What holds in every interleaving of single-flight calls.

The invariant `Inv` ties the three places where an entry shows: the table, the heap and the calls
that hold its address. An entry is in the table while somebody participates in it; between the
last departure and `destroy_entry` it is only on the heap, and exactly one call still holds it.
-/
import DXBCSandbox.Compiler.SingleFlight
import Mathlib.Algebra.Order.BigOperators.Group.Finset

namespace DXBCSandbox

open List Option Function

namespace SingleFlight

section Invariant

variable {Caller : Type} [DecidableEq Caller] {calls : Caller → Call} {s s' : State Caller}

def delivered (call : Call) (joined : Bool) (outcome : OperationOutcome) : Returned :=
  ⟨outcome.result, outcome.size, if call.out_error then outcome.error else none, joined⟩

structure Holds (e : SingleFlightEntry Caller) (outcome : OperationOutcome) : Prop where
  result : e.result = outcome.result
  size : e.result_size = outcome.size
  error : e.error = outcome.error

variable {e : SingleFlightEntry Caller}

omit [DecidableEq Caller] in
lemma Holds.copy {outcome : OperationOutcome} (h : Holds e outcome) (call : Call)
    (joined : Bool) :
    delivered call joined outcome =
      ⟨(copy_entry_result e call.out_error).1, (copy_entry_result e call.out_error).2.1,
        (copy_entry_result e call.out_error).2.2, joined⟩ := by
  unfold copy_entry_result delivered
  rw [h.result, h.size, h.error]
  have hsize := outcome.size_eq
  cases hresult : outcome.result with
  | none =>
    rw [hresult] at hsize
    rw [hsize]
    rfl
  | some bytes =>
    have herror := outcome.error_eq (by rw [hresult]; rfl)
    rw [hresult] at hsize
    rw [hsize, herror]
    simp

/-- The order of the events of an entry. Behind the departure of the last participant comes only
the destruction, by the same call; behind the destruction comes nothing; there is one execution. -/
def Ordered (later earlier : Event Caller) : Prop :=
  (∀ c o, earlier = .left c o true → later.owner = o → later = .destroyed c o) ∧
    (∀ c o, earlier = .destroyed c o → later.owner ≠ o) ∧
    (∀ o x y, earlier = .executed o x → later ≠ .executed o y)

/-- `r` is the outcome of the execution that belongs to the entry that `c` joined. -/
def DeliveredTo (call : Call) (trace : List (Event Caller)) (c : Caller) (r : Returned) : Prop :=
  ∃ o x, .joined c o ∈ trace ∧ .executed o x ∈ trace ∧ r = delivered call (decide (c ≠ o)) x

variable {c : Caller} {trace : List (Event Caller)} {r : Returned}

lemma DeliveredTo.cons {call : Call} (h : DeliveredTo call trace c r) (event : Event Caller) :
    DeliveredTo call (event :: trace) c r := by
  obtain ⟨o, x, hjoined, hexecuted, hr⟩ := h
  exact ⟨o, x, mem_cons_of_mem _ hjoined, mem_cons_of_mem _ hexecuted, hr⟩

def CallerState.operates : CallerState → Option Address
  | .operating a => some a
  | .operated a _ => some a
  | _ => none

variable {a : Address}

lemma CallerState.entry_of_operates {state : CallerState} (h : state.operates = some a) :
    state.entry = some a := by
  cases state <;> simp_all [CallerState.operates, CallerState.entry]

variable {c' : Caller}

omit [DecidableEq Caller] in
lemma last_unique {o : Caller} (h : trace.Pairwise Ordered) (hc : .left c o true ∈ trace)
    (hc' : .left c' o true ∈ trace) :
    c = c' := by
  induction trace with
  | nil => cases hc
  | cons event trace ih =>
    obtain ⟨hevent, htrace⟩ := pairwise_cons.mp h
    rcases mem_cons.mp hc with hc | hc
    · rcases mem_cons.mp hc' with hc' | hc'
      · rw [← hc] at hc'
        exact (Event.left.inj hc').1.symm
      · have hdestroyed := (hevent _ hc').1 c' o rfl (by rw [← hc]; rfl)
        rw [← hc] at hdestroyed
        simp at hdestroyed
    · rcases mem_cons.mp hc' with hc' | hc'
      · have hdestroyed := (hevent _ hc).1 c o rfl (by rw [← hc']; rfl)
        rw [← hc'] at hdestroyed
        simp at hdestroyed
      · exact ih htrace hc hc'

attribute [local grind =] update_apply CallerState.entry CallerState.operates Event.owner
  Event.caller

variable (calls) in
/-- What holds between the steps of the calls. -/
structure Inv (s : State Caller) : Prop where
  fault : s.fault = false
  nodup : s.entries.Nodup
  linked : ∀ a ∈ s.entries, s.heap a ≠ none
  keys : ∀ a ∈ s.entries, ∀ b ∈ s.entries, ∀ e e', s.heap a = some e → s.heap b = some e' →
    e.key = e'.key → a = b
  /-- A participant holds an entry of the table, under its own key. -/
  member : ∀ c a, (s.callers c).entry = some a → a ∈ s.entries ∧
    ∀ e, s.heap a = some e → e.key = (calls c).key ∧ .joined c e.owner ∈ s.trace
  count : ∀ a e, s.heap a = some e → ∃ participants : Finset Caller,
    (∀ c, c ∈ participants ↔ (s.callers c).entry = some a) ∧
      e.participant_count = participants.card
  /-- An entry of the table has a participant. -/
  inhabited : ∀ a ∈ s.entries, ∃ c, (s.callers c).entry = some a
  /-- An entry that has left the table is about to be destroyed. -/
  pending : ∀ a e, s.heap a = some e → a ∉ s.entries → ∃ c r, s.callers c = .destroying a r
  destroying : ∀ c a r, s.callers c = .destroying a r → a ∉ s.entries ∧ s.heap a ≠ none ∧
    ∀ e, s.heap a = some e → .left c e.owner true ∈ s.trace
  created : ∀ a e, s.heap a = some e → .joined e.owner e.owner ∈ s.trace
  owners : ∀ a b e e', s.heap a = some e → s.heap b = some e' → e.owner = e'.owner → a = b
  operating : ∀ c a e, (s.callers c).operates = some a → s.heap a = some e →
    e.owner = c ∧ e.completed = false
  incomplete : ∀ a e, s.heap a = some e → e.completed = false →
    (s.callers e.owner).operates = some a
  waiting : ∀ c a e, (s.callers c = .waiting a ∨ s.callers c = .woken a) → s.heap a = some e →
    e.owner ≠ c
  woken : ∀ c a e, s.callers c = .woken a → s.heap a = some e → e.completed = true
  broadcast : ∀ a e, s.heap a = some e → e.completed = true → e.completed_condition = true
  completed : ∀ a e, s.heap a = some e → e.completed = true →
    ∃ x, .executed e.owner x ∈ s.trace ∧ Holds e x
  operated : ∀ c a x, s.callers c = .operated a x → .executed c x ∈ s.trace
  unexecuted : ∀ c a x, s.callers c = .operating a → .executed c x ∉ s.trace
  /-- A call that has not begun has left no trace. -/
  idle : ∀ c, s.callers c = .idle → ∀ event ∈ s.trace, event.owner ≠ c ∧ event.caller ≠ c
  live : ∀ a e, s.heap a = some e → ∀ c, .destroyed c e.owner ∉ s.trace
  present : ∀ a ∈ s.entries, ∀ e, s.heap a = some e → ∀ c, .left c e.owner true ∉ s.trace
  /-- Who has joined participates or has left. -/
  joined : ∀ c o, .joined c o ∈ s.trace → (∃ a e, (s.callers c).entry = some a ∧
    s.heap a = some e ∧ e.owner = o) ∨ ∃ last, .left c o last ∈ s.trace
  /-- An entry is on the heap or has been destroyed by the last one to leave. -/
  life : ∀ c o, .joined c o ∈ s.trace → (∃ a e, s.heap a = some e ∧ e.owner = o) ∨
    ∃ c', .left c' o true ∈ s.trace ∧ .destroyed c' o ∈ s.trace
  departed : ∀ c o last, .left c o last ∈ s.trace → .joined c o ∈ s.trace
  destroyed : ∀ c o, .destroyed c o ∈ s.trace → .left c o true ∈ s.trace
  order : s.trace.Pairwise Ordered
  result : ∀ c r, (s.callers c = .returned r ∨ ∃ a, s.callers c = .destroying a r) →
    DeliveredTo (calls c) s.trace c r

lemma Inv.initial : Inv calls (.initial Caller) := by
  constructor <;> simp [State.initial, CallerState.entry, CallerState.operates]

variable (h : Inv calls s)

include h

lemma Inv.begun (he : s.heap a = some e) : s.callers e.owner ≠ .idle :=
  fun hidle => (h.idle _ hidle _ (h.created a e he)).1 rfl

/-! ## The first critical section -/

variable {fresh : Address}

lemma Inv.create (hc : s.callers c = .idle) (hfresh : s.heap fresh = none)
    (hkey : ∀ a ∈ s.entries, ∀ e, s.heap a = some e → e.key ≠ (calls c).key) :
    Inv calls { s with
      entries := fresh :: s.entries
      heap := update s.heap fresh (some ⟨(calls c).key, 1, false, false, none, 0, none, c⟩)
      callers := update s.callers c (.operating fresh)
      trace := .joined c c :: s.trace } := by
  have hnot : fresh ∉ s.entries := by
    intro hmem
    exact h.linked fresh hmem hfresh
  have hidle := h.idle c hc
  -- nobody has met the new entry, and no entry is owned by this call
  have howner : ∀ a e, s.heap a = some e → e.owner ≠ c :=
    fun a e he => (hidle _ (h.created a e he)).1
  have hmet : ∀ c' a, (s.callers c').entry = some a → a ≠ fresh := by
    intro c' a hc' ha
    rw [ha] at hc'
    exact hnot (h.member c' fresh hc').1
  constructor
  case fault => exact h.fault
  case nodup => exact nodup_cons.mpr ⟨hnot, h.nodup⟩
  case linked => grind [h.linked]
  case keys => grind [h.keys]
  case member => grind [h.member]
  case count =>
    intro a e he
    by_cases ha : a = fresh
    · refine ⟨{c}, ?_, ?_⟩
      · intro c'
        grind [h.member]
      · grind
    · have he : s.heap a = some e := by grind
      obtain ⟨participants, hmem, hcard⟩ := h.count a e he
      refine ⟨participants, ?_, hcard⟩
      grind
  case inhabited =>
    intro a ha
    rcases mem_cons.mp ha with rfl | ha
    · exact ⟨c, by simp [CallerState.entry]⟩
    · obtain ⟨c', hc'⟩ := h.inhabited a ha
      exact ⟨c', by grind⟩
  case pending =>
    intro a e he ha
    obtain ⟨c', r, hc'⟩ := h.pending a e (by grind) (by grind)
    exact ⟨c', r, by grind⟩
  case destroying => grind [h.destroying]
  case created => grind [h.created]
  case owners => grind [h.owners]
  case operating =>
    grind [h.operating, CallerState.entry_of_operates]
  case incomplete => grind [h.incomplete]
  case waiting => grind [h.waiting]
  case woken => grind [h.woken]
  case broadcast => grind [h.broadcast]
  case completed => grind [h.completed]
  case operated => grind [h.operated]
  case unexecuted => grind [h.unexecuted]
  case idle => grind [h.idle]
  case live => grind [h.live]
  case present => grind [h.present]
  case joined =>
    intro c' o hmem
    rcases mem_cons.mp hmem with heq | hmem
    · left
      exact ⟨fresh, _, by grind, update_self .., by grind⟩
    · have hne : c' ≠ c := (hidle _ hmem).2
      rcases h.joined c' o hmem with ⟨a, e, hent, he, howner⟩ | ⟨last, hleft⟩
      · left
        exact ⟨a, e, by grind, by grind, howner⟩
      · exact .inr ⟨last, mem_cons_of_mem _ hleft⟩
  case life =>
    intro c' o hmem
    rcases mem_cons.mp hmem with heq | hmem
    · left
      exact ⟨fresh, _, update_self .., by grind⟩
    · rcases h.life c' o hmem with ⟨a, e, he, howner⟩ | ⟨c'', hleft, hdestr⟩
      · exact .inl ⟨a, e, by grind, howner⟩
      · exact .inr ⟨c'', mem_cons_of_mem _ hleft, mem_cons_of_mem _ hdestr⟩
  case departed => grind [h.departed]
  case destroyed => grind [h.destroyed]
  case order =>
    refine pairwise_cons.mpr ⟨?_, h.order⟩
    intro event hevent
    have howner := (hidle event hevent).1
    refine ⟨?_, ?_, ?_⟩
    · grind
    · grind
    · grind
  case result =>
    intro c' r hr
    exact (h.result c' r (by grind)).cons _

lemma Inv.join (hc : s.callers c = .idle) (ha : a ∈ s.entries) (he : s.heap a = some e)
    (hkey : e.key = (calls c).key) :
    Inv calls { s with
      heap := update s.heap a
        (some { e with participant_count := e.participant_count + 1 })
      callers := update s.callers c (if e.completed then .woken a else .waiting a)
      trace := .joined c e.owner :: s.trace } := by
  have hidle := h.idle c hc
  have howner : ∀ a e, s.heap a = some e → e.owner ≠ c :=
    fun a e he => (hidle _ (h.created a e he)).1
  constructor
  case fault => exact h.fault
  case nodup => exact h.nodup
  case linked => grind [h.linked]
  case keys => grind [h.keys]
  case member => grind [h.member]
  case count =>
    intro b e' he'
    by_cases hb : b = a
    · obtain ⟨participants, hmem, hcard⟩ := h.count a e he
      refine ⟨insert c participants, ?_, ?_⟩
      · grind
      · rw [Finset.card_insert_of_notMem (by grind), ← hcard]
        grind
    · obtain ⟨participants, hmem, hcard⟩ := h.count b e' (by grind)
      exact ⟨participants, by grind, hcard⟩
  case inhabited =>
    intro b hb
    obtain ⟨c', hc'⟩ := h.inhabited b hb
    exact ⟨c', by grind⟩
  case pending =>
    intro b e' he' hb
    obtain ⟨c', r, hc'⟩ := h.pending b e' (by grind) hb
    exact ⟨c', r, by grind⟩
  case destroying => grind [h.destroying]
  case created => grind [h.created]
  case owners => grind [h.owners]
  case operating => grind [h.operating]
  case incomplete => grind [h.incomplete]
  case waiting => grind [h.waiting]
  case woken => grind [h.woken]
  case broadcast => grind [h.broadcast]
  case completed =>
    intro b e' he' hcompl
    by_cases hb : b = a
    · obtain ⟨x, hx, hholds⟩ := h.completed a e he (by grind)
      have he' : e' = { e with participant_count := e.participant_count + 1 } := by
        grind
      rw [he']
      exact ⟨x, mem_cons_of_mem _ hx, hholds.result, hholds.size, hholds.error⟩
    · obtain ⟨x, hx, hholds⟩ := h.completed b e' (by grind) hcompl
      exact ⟨x, mem_cons_of_mem _ hx, hholds⟩
  case operated => grind [h.operated]
  case unexecuted => grind [h.unexecuted]
  case idle => grind [h.idle, h.begun he]
  case live => grind [h.live]
  case present => grind [h.present]
  case joined =>
    intro c' o hmem
    rcases mem_cons.mp hmem with heq | hmem
    · left
      exact ⟨a, _, by grind, update_self .., by grind⟩
    · have hne : c' ≠ c := (hidle _ hmem).2
      rcases h.joined c' o hmem with ⟨b, e', hent, he', howner⟩ | ⟨last, hleft⟩
      · left
        by_cases hb : b = a
        · exact ⟨a, _, by grind, update_self .., by grind⟩
        · exact ⟨b, e', by grind, by grind, howner⟩
      · exact .inr ⟨last, mem_cons_of_mem _ hleft⟩
  case life =>
    intro c' o hmem
    have hold : (∃ b e', s.heap b = some e' ∧ e'.owner = o) ∨
        ∃ c', .left c' o true ∈ s.trace ∧ .destroyed c' o ∈ s.trace := by
      rcases mem_cons.mp hmem with heq | hmem
      · exact .inl ⟨a, e, he, by grind⟩
      · exact h.life c' o hmem
    rcases hold with ⟨b, e', he', howner⟩ | ⟨c'', hleft, hdestr⟩
    · left
      by_cases hb : b = a
      · exact ⟨a, _, update_self .., by grind⟩
      · exact ⟨b, e', by grind, howner⟩
    · exact .inr ⟨c'', mem_cons_of_mem _ hleft, mem_cons_of_mem _ hdestr⟩
  case departed => grind [h.departed]
  case destroyed => grind [h.destroyed]
  case order =>
    refine pairwise_cons.mpr ⟨?_, h.order⟩
    intro event hevent
    refine ⟨?_, ?_, ?_⟩
    · grind [h.present]
    · grind [h.live]
    · grind
  case result =>
    intro c' r hr
    exact (h.result c' r (by grind)).cons _

/-! ## Outside the mutex -/

lemma Inv.operate (x : OperationOutcome) (hc : s.callers c = .operating a) :
    Inv calls { s with
      callers := update s.callers c (.operated a x)
      trace := .executed c x :: s.trace } := by
  have hent : (s.callers c).entry = some a := by rw [hc]; rfl
  have hoperates : (s.callers c).operates = some a := by rw [hc]; rfl
  have hmem := h.member c a hent
  obtain ⟨e, he⟩ := ne_none_iff_exists'.mp (h.linked a hmem.1)
  obtain ⟨howner, -⟩ := h.operating c a e hoperates he
  constructor
  case fault => exact h.fault
  case nodup => exact h.nodup
  case linked => exact h.linked
  case keys => exact h.keys
  case member => grind [h.member]
  case count =>
    intro b e' he'
    obtain ⟨participants, hparts, hcard⟩ := h.count b e' he'
    exact ⟨participants, by grind, hcard⟩
  case inhabited =>
    intro b hb
    obtain ⟨c', hc'⟩ := h.inhabited b hb
    exact ⟨c', by grind⟩
  case pending =>
    intro b e' he' hb
    obtain ⟨c', r, hc'⟩ := h.pending b e' he' hb
    exact ⟨c', r, by grind⟩
  case destroying => grind [h.destroying]
  case created => grind [h.created]
  case owners => exact h.owners
  case operating => grind [h.operating]
  case incomplete => grind [h.incomplete]
  case waiting => grind [h.waiting]
  case woken => grind [h.woken]
  case broadcast => grind [h.broadcast]
  case completed =>
    intro b e' he' hcompl
    obtain ⟨y, hy, hholds⟩ := h.completed b e' he' hcompl
    exact ⟨y, mem_cons_of_mem _ hy, hholds⟩
  case operated => grind [h.operated]
  case unexecuted => grind [h.unexecuted]
  case idle => grind [h.idle]
  case live => grind [h.live]
  case present => grind [h.present]
  case joined =>
    intro c' o hjoined
    rcases h.joined c' o (by grind) with ⟨b, e', hb, he', howner'⟩ | ⟨last, hleft⟩
    · left
      exact ⟨b, e', by grind, he', howner'⟩
    · exact .inr ⟨last, mem_cons_of_mem _ hleft⟩
  case life =>
    intro c' o hjoined
    rcases h.life c' o (by grind) with hlive | ⟨c'', hleft, hdestr⟩
    · exact .inl hlive
    · exact .inr ⟨c'', mem_cons_of_mem _ hleft, mem_cons_of_mem _ hdestr⟩
  case departed => grind [h.departed]
  case destroyed => grind [h.destroyed]
  case order =>
    refine pairwise_cons.mpr ⟨?_, h.order⟩
    intro event hevent
    refine ⟨?_, ?_, ?_⟩
    · grind [h.present]
    · grind [h.live]
    · grind [h.unexecuted]
  case result =>
    intro c' r hr
    exact (h.result c' r (by grind)).cons _

lemma Inv.destroy (hc : s.callers c = .destroying a r) (he : s.heap a = some e) :
    Inv calls { s with
      heap := update s.heap a none
      callers := update s.callers c (.returned r)
      trace := .destroyed c e.owner :: s.trace } := by
  obtain ⟨hnot, -, hleft⟩ := h.destroying c a r hc
  have hleft := hleft e he
  -- no one else holds the entry
  have halone : ∀ c' r', s.callers c' = .destroying a r' → c' = c := by
    intro c' r' hc'
    exact last_unique h.order ((h.destroying c' a r' hc').2.2 e he) hleft
  constructor
  case fault => exact h.fault
  case nodup => exact h.nodup
  case linked => grind [h.linked]
  case keys => grind [h.keys]
  case member => grind [h.member]
  case count =>
    intro b e' he'
    obtain ⟨participants, hparts, hcard⟩ := h.count b e' (by grind)
    exact ⟨participants, by grind, hcard⟩
  case inhabited =>
    intro b hb
    obtain ⟨c', hc'⟩ := h.inhabited b hb
    exact ⟨c', by grind⟩
  case pending =>
    intro b e' he' hb
    obtain ⟨c', r', hc'⟩ := h.pending b e' (by grind) hb
    exact ⟨c', r', by grind⟩
  case destroying => grind [h.destroying]
  case created => grind [h.created]
  case owners => grind [h.owners]
  case operating => grind [h.operating]
  case incomplete =>
    intro b e' he' hincompl
    have hold := h.incomplete b e' (by grind) hincompl
    have hne : e'.owner ≠ c := by
      intro howner
      rw [howner, hc] at hold
      exact absurd hold (by simp [CallerState.operates])
    grind
  case waiting => grind [h.waiting]
  case woken => grind [h.woken]
  case broadcast => grind [h.broadcast]
  case completed =>
    intro b e' he' hcompl
    obtain ⟨y, hy, hholds⟩ := h.completed b e' (by grind) hcompl
    exact ⟨y, mem_cons_of_mem _ hy, hholds⟩
  case operated => grind [h.operated]
  case unexecuted => grind [h.unexecuted]
  case idle => grind [h.idle, h.begun he]
  case live => grind [h.live, h.owners]
  case present => grind [h.present]
  case joined =>
    intro c' o hjoined
    rcases h.joined c' o (by grind) with ⟨b, e', hb, he', howner'⟩ | ⟨last, hleft⟩
    · left
      have hmem := (h.member c' b hb).1
      exact ⟨b, e', by grind, by grind, howner'⟩
    · exact .inr ⟨last, mem_cons_of_mem _ hleft⟩
  case life =>
    intro c' o hjoined
    rcases h.life c' o (by grind) with ⟨b, e', he', howner'⟩ | ⟨c'', hleft, hdestr⟩
    · by_cases hb : b = a
      · exact .inr ⟨c, by grind, by grind⟩
      · exact .inl ⟨b, e', by grind, howner'⟩
    · exact .inr ⟨c'', mem_cons_of_mem _ hleft, mem_cons_of_mem _ hdestr⟩
  case departed => grind [h.departed]
  case destroyed => grind [h.destroyed]
  case order =>
    refine pairwise_cons.mpr ⟨?_, h.order⟩
    intro event hevent
    refine ⟨?_, ?_, ?_⟩
    · intro c' o hlast howner
      have hsame : e.owner = o := howner
      rw [hlast, ← hsame] at hevent
      rw [last_unique h.order hevent hleft, hsame]
    · grind [h.live]
    · grind
  case result =>
    intro c' r' hr'
    exact (h.result c' r' (by grind)).cons _

/-! ## The second critical section -/

lemma Inv.wake (hc : s.callers c = .waiting a) (he : s.heap a = some e)
    (hcompl : e.completed = true) :
    Inv calls { s with callers := update s.callers c (.woken a) } := by
  have hmember := h.member c a (by rw [hc]; rfl)
  constructor
  case fault => exact h.fault
  case nodup => exact h.nodup
  case linked => exact h.linked
  case keys => exact h.keys
  case member => grind [h.member]
  case count =>
    intro b e' he'
    obtain ⟨participants, hparts, hcard⟩ := h.count b e' he'
    exact ⟨participants, by grind, hcard⟩
  case inhabited =>
    intro b hb
    obtain ⟨c', hc'⟩ := h.inhabited b hb
    exact ⟨c', by grind⟩
  case pending =>
    intro b e' he' hb
    obtain ⟨c', r, hc'⟩ := h.pending b e' he' hb
    exact ⟨c', r, by grind⟩
  case destroying => grind [h.destroying]
  case created => exact h.created
  case owners => exact h.owners
  case operating => grind [h.operating]
  case incomplete =>
    intro b e' he' hincompl
    have hold := h.incomplete b e' he' hincompl
    have hne : e'.owner ≠ c := by
      intro howner
      rw [howner, hc] at hold
      exact absurd hold (by simp [CallerState.operates])
    grind
  case waiting => grind [h.waiting]
  case woken => grind [h.woken]
  case broadcast => grind [h.broadcast]
  case completed => exact h.completed
  case operated => grind [h.operated]
  case unexecuted => grind [h.unexecuted]
  case idle => grind [h.idle]
  case live => exact h.live
  case present => exact h.present
  case joined =>
    intro c' o hjoined
    rcases h.joined c' o hjoined with ⟨b, e', hb, he', howner'⟩ | hleft
    · exact .inl ⟨b, e', by grind, he', howner'⟩
    · exact .inr hleft
  case life => exact h.life
  case departed => exact h.departed
  case destroyed => exact h.destroyed
  case order => exact h.order
  case result => grind [h.result]

omit h

variable (calls) in
/-- A participant leaves a completed entry: what it finds, and the state behind it. -/
structure Leaving (s s' : State Caller) (c : Caller) (a : Address)
    (e e' : SingleFlightEntry Caller) (x : OperationOutcome) (last : Bool) : Prop where
  entry : (s.callers c).entry = some a
  old : s.heap a = some e
  own : e.completed = false → e.owner = c
  key : e'.key = e.key
  owner : e'.owner = e.owner
  completed : e'.completed = true
  broadcast : e'.completed_condition = true
  executed : .executed e.owner x ∈ s.trace
  holds : Holds e' x
  /-- The last participant is the only one. -/
  last_iff : last = true ↔ ∀ c', (s.callers c').entry = some a → c' = c
  fault : s'.fault = s.fault
  nodup : s'.entries.Nodup
  mem_entries : ∀ b, b ∈ s'.entries ↔ b ∈ s.entries ∧ ¬ (last = true ∧ b = a)
  heap : s'.heap = Function.update s.heap a
    (some { e' with participant_count := e.participant_count - 1 })
  callers : s'.callers = Function.update s.callers c
    (if last then .destroying a (delivered (calls c) (decide (c ≠ e.owner)) x)
      else .returned (delivered (calls c) (decide (c ≠ e.owner)) x))
  trace : s'.trace = .left c e.owner last :: s.trace

variable {event : Event Caller}

section Leave

variable {s' : State Caller} {c : Caller} {a : Address} {e e' : SingleFlightEntry Caller}
  {x : OperationOutcome} {last : Bool}

include h

lemma Inv.erase_participant (hc : (s.callers c).entry = some a) (he : s.heap a = some e) :
    ∃ stay : Finset Caller, (∀ c', c' ∈ stay ↔ c' ≠ c ∧ (s.callers c').entry = some a) ∧
        e.participant_count - 1 = stay.card := by
  obtain ⟨participants, hparts, hcard⟩ := h.count a e he
  refine ⟨participants.erase c, ?_, ?_⟩
  · intro c'
    rw [Finset.mem_erase, hparts]
  · rw [hcard, Finset.card_erase_of_mem ((hparts c).mpr hc)]

lemma Inv.last_iff (hc : (s.callers c).entry = some a) (he : s.heap a = some e) :
    e.participant_count - 1 = 0 ↔ ∀ c', (s.callers c').entry = some a → c' = c := by
  obtain ⟨stay, hstay, hcard⟩ := h.erase_participant hc he
  rw [hcard, Finset.card_eq_zero, Finset.eq_empty_iff_forall_notMem]
  constructor
  · intro hall c' hc'
    by_contra hne
    exact hall c' ((hstay c').mpr ⟨hne, hc'⟩)
  · intro hall c' hc'
    obtain ⟨hne, hc'⟩ := (hstay c').mp hc'
    exact hne (hall c' hc')

lemma leaving_leave_entry (hc : (s.callers c).entry = some a) (he : s.heap a = some e)
    (hown : e.completed = false → e.owner = c) (hkey : e'.key = e.key) (howner : e'.owner = e.owner)
    (hcnt : e'.participant_count = e.participant_count) (hcompl : e'.completed = true)
    (hbroadcast : e'.completed_condition = true) (hx : .executed e.owner x ∈ s.trace) (hholds : Holds e' x) :
    Leaving calls s (leave_entry calls s c a e' (decide (c ≠ e.owner))) c a e e' x
      (decide (e.participant_count - 1 = 0)) := by
  have hlast := h.last_iff hc he
  unfold leave_entry
  dsimp only
  rw [hcnt, howner, ← hholds.copy]
  constructor
  case entry => exact hc
  case old => exact he
  case own => exact hown
  case key => exact hkey
  case owner => exact howner
  case completed => exact hcompl
  case broadcast => exact hbroadcast
  case executed => exact hx
  case holds => exact hholds
  case last_iff => rw [decide_eq_true_eq, hlast]
  case fault => rfl
  case nodup =>
    dsimp only
    split
    · exact h.nodup.erase a
    · exact h.nodup
  case mem_entries =>
    intro b
    dsimp only
    by_cases hzero : e.participant_count - 1 = 0
    · simp [hzero, h.nodup.mem_erase_iff, and_comm]
    · simp [hzero]
  case heap =>
    dsimp only
    rw [howner]
  case callers => rfl
  case trace => rfl

omit h

variable (l : Leaving calls s s' c a e e' x last)

include l

lemma Leaving.entry_iff (c' : Caller) (b : Address) :
    (s'.callers c').entry = some b ↔ c' ≠ c ∧ (s.callers c').entry = some b := by
  rw [l.callers, update_apply]
  by_cases hcc : c' = c
  · cases last <;> simp [hcc, CallerState.entry]
  · simp [hcc]

variable {e'' : SingleFlightEntry Caller} {b : Address}

lemma Leaving.heap_cases (hb : s'.heap b = some e'') :
    (b = a ∧ e'' = { e' with participant_count := e.participant_count - 1 }) ∨
      (b ≠ a ∧ s.heap b = some e'') := by
  rw [l.heap, update_apply] at hb
  by_cases hba : b = a
  · rw [if_pos hba] at hb
    exact .inl ⟨hba, (some.inj hb).symm⟩
  · rw [if_neg hba] at hb
    exact .inr ⟨hba, hb⟩

lemma Leaving.heap_self :
    s'.heap a = some { e' with participant_count := e.participant_count - 1 } := by
  rw [l.heap, update_self]

lemma Leaving.heap_ne (hb : b ≠ a) : s'.heap b = s.heap b := by
  rw [l.heap, update_of_ne hb]

lemma Leaving.callers_ne (hc : c' ≠ c) : s'.callers c' = s.callers c' := by
  rw [l.callers, update_of_ne hc]

lemma Leaving.mem_trace (hevent : event ∈ s.trace) : event ∈ s'.trace := by
  rw [l.trace]
  exact mem_cons_of_mem _ hevent

include h

lemma Leaving.count (b : Address) (e'' : SingleFlightEntry Caller) (hb : s'.heap b = some e'') :
    ∃ participants : Finset Caller, (∀ c', c' ∈ participants ↔ (s'.callers c').entry = some b) ∧
        e''.participant_count = participants.card := by
  rcases l.heap_cases hb with ⟨rfl, rfl⟩ | ⟨hba, hb⟩
  · obtain ⟨stay, hstay, hcard⟩ := h.erase_participant l.entry l.old
    refine ⟨stay, ?_, hcard⟩
    intro c'
    rw [hstay, l.entry_iff]
  · obtain ⟨others, hothers, hcard⟩ := h.count b e'' hb
    refine ⟨others, ?_, hcard⟩
    intro c'
    rw [hothers, l.entry_iff]
    constructor
    · intro hc'
      refine ⟨?_, hc'⟩
      -- the one that leaves is at `a`
      rintro rfl
      exact hba (some.inj (hc'.symm.trans l.entry))
    · exact fun hc' => hc'.2

lemma Leaving.inhabited (b : Address) (hb : b ∈ s'.entries) :
    ∃ c', (s'.callers c').entry = some b := by
  obtain ⟨hb, hne⟩ := (l.mem_entries b).mp hb
  obtain ⟨c', hc'⟩ := h.inhabited b hb
  by_cases hcc : c' = c
  · -- somebody else is still there
    rw [hcc] at hc'
    have hba : b = a := some.inj (hc'.symm.trans l.entry)
    have hnot := mt l.last_iff.mpr fun hlast => hne ⟨hlast, hba⟩
    push Not at hnot
    obtain ⟨c'', hc'', hne'⟩ := hnot
    exact ⟨c'', (l.entry_iff c'' b).mpr ⟨hne', hba ▸ hc''⟩⟩
  · exact ⟨c', (l.entry_iff c' b).mpr ⟨hcc, hc'⟩⟩

lemma Leaving.pending (b : Address) (e'' : SingleFlightEntry Caller) (he : s'.heap b = some e'')
    (hb : b ∉ s'.entries) :
    ∃ c' r, s'.callers c' = .destroying b r := by
  rw [l.mem_entries, not_and_not_right] at hb
  rcases l.heap_cases he with ⟨rfl, -⟩ | ⟨hba, he⟩
  · refine ⟨c, delivered (calls c) (decide (c ≠ e.owner)) x, ?_⟩
    have hlast := (hb (h.member c b l.entry).1).1
    rw [l.callers, update_self, if_pos hlast]
  · obtain ⟨c', r, hc'⟩ := h.pending b e'' he fun hmem => hba (hb hmem).2
    refine ⟨c', r, ?_⟩
    rw [l.callers_ne, hc']
    rintro rfl
    have hent := l.entry
    rw [hc'] at hent
    exact absurd hent (by simp [CallerState.entry])

lemma Leaving.incomplete (b : Address) (e'' : SingleFlightEntry Caller)
    (he : s'.heap b = some e'') (hincompl : e''.completed = false) :
    (s'.callers e''.owner).operates = some b := by
  rcases l.heap_cases he with ⟨rfl, rfl⟩ | ⟨hba, he⟩
  · exact absurd (hincompl.symm.trans l.completed) Bool.false_ne_true
  · have hold := h.incomplete b e'' he hincompl
    rw [l.callers_ne, hold]
    intro hcc
    have hent := CallerState.entry_of_operates hold
    rw [hcc, l.entry] at hent
    exact hba (some.inj hent).symm

lemma Leaving.completed_entry (b : Address) (e'' : SingleFlightEntry Caller)
    (he : s'.heap b = some e'') (hcompl : e''.completed = true) :
    ∃ y, .executed e''.owner y ∈ s'.trace ∧ Holds e'' y := by
  rcases l.heap_cases he with ⟨rfl, rfl⟩ | ⟨-, he⟩
  · refine ⟨x, ?_, l.holds.result, l.holds.size, l.holds.error⟩
    dsimp only
    rw [l.owner]
    exact l.mem_trace l.executed
  · obtain ⟨y, hy, hholds⟩ := h.completed b e'' he hcompl
    exact ⟨y, l.mem_trace hy, hholds⟩

omit h

lemma Leaving.exists_heap (he : s.heap b = some e'') :
    ∃ e₁, s'.heap b = some e₁ ∧ e₁.owner = e''.owner := by
  by_cases hba : b = a
  · rw [hba] at he ⊢
    refine ⟨_, l.heap_self, ?_⟩
    rw [← some.inj (l.old.symm.trans he)]
    exact l.owner
  · exact ⟨e'', (l.heap_ne hba).trans he, rfl⟩

lemma Leaving.mem_trace_cases (hevent : event ∈ s'.trace) (hne : event ≠ .left c e.owner last) :
    event ∈ s.trace := by
  rw [l.trace] at hevent
  exact (mem_cons.mp hevent).resolve_left hne

include h

lemma Leaving.joined (c' o : Caller) (hjoined : .joined c' o ∈ s'.trace) :
    (∃ b e'', (s'.callers c').entry = some b ∧ s'.heap b = some e'' ∧ e''.owner = o) ∨
      ∃ last', .left c' o last' ∈ s'.trace := by
  rcases h.joined c' o (l.mem_trace_cases hjoined (by simp)) with
    ⟨b, e'', hb, he'', howner⟩ | ⟨last', hleft⟩
  · by_cases hcc : c' = c
    · -- this call has just left
      have hba : b = a := by
        rw [hcc, l.entry] at hb
        exact (some.inj hb).symm
      rw [hba, l.old] at he''
      refine .inr ⟨last, ?_⟩
      rw [l.trace, hcc, ← howner, ← some.inj he'']
      exact mem_cons_self
    · obtain ⟨e₁, he₁, howner₁⟩ := l.exists_heap he''
      exact .inl ⟨b, e₁, (l.entry_iff c' b).mpr ⟨hcc, hb⟩, he₁, howner₁.trans howner⟩
  · exact .inr ⟨last', l.mem_trace hleft⟩

lemma Leaving.life (c' o : Caller) (hjoined : .joined c' o ∈ s'.trace) :
    (∃ b e'', s'.heap b = some e'' ∧ e''.owner = o) ∨
      ∃ c'', .left c'' o true ∈ s'.trace ∧ .destroyed c'' o ∈ s'.trace := by
  rcases h.life c' o (l.mem_trace_cases hjoined (by simp)) with
    ⟨b, e'', he'', howner⟩ | ⟨c'', hleft, hdestr⟩
  · obtain ⟨e₁, he₁, howner₁⟩ := l.exists_heap he''
    exact .inl ⟨b, e₁, he₁, howner₁.trans howner⟩
  · exact .inr ⟨c'', l.mem_trace hleft, l.mem_trace hdestr⟩

lemma Leaving.order : s'.trace.Pairwise Ordered := by
  have ha := (h.member c a l.entry).1
  have hold := l.old
  rw [l.trace]
  refine pairwise_cons.mpr ⟨?_, h.order⟩
  intro event hevent
  refine ⟨?_, ?_, ?_⟩
  · grind [h.present]
  · grind [h.live]
  · grind

lemma Leaving.result (c' : Caller) (r : Returned)
    (hr : s'.callers c' = .returned r ∨ ∃ a, s'.callers c' = .destroying a r) :
    DeliveredTo (calls c') s'.trace c' r := by
  by_cases hcc : c' = c
  · have hjoined := ((h.member c a l.entry).2 e l.old).2
    rw [l.callers, hcc, update_self] at hr
    rw [hcc]
    refine ⟨e.owner, x, l.mem_trace hjoined, l.mem_trace l.executed, ?_⟩
    grind
  · rw [l.callers_ne hcc] at hr
    rw [l.trace]
    exact (h.result c' r hr).cons _

/-- What the tables and the calls are to each other, once the participant has left. -/
theorem Inv.leave_entry : Inv calls s' := by
  have hold := l.old
  have hkey := l.key
  have howner := l.owner
  have hown := l.own
  have hlast := l.last_iff
  have hents := l.mem_entries
  have hent := l.entry_iff
  have hheap : ∀ b, s'.heap b = if b = a then
      some { e' with participant_count := e.participant_count - 1 } else s.heap b := by
    intro b
    rw [l.heap, update_apply]
  have hcallers : ∀ c', s'.callers c' = if c' = c then
      (if last then .destroying a (delivered (calls c) (decide (c ≠ e.owner)) x)
        else .returned (delivered (calls c) (decide (c ≠ e.owner)) x)) else s.callers c' := by
    intro c'
    rw [l.callers, update_apply]
  obtain ⟨ha, hmember⟩ := h.member c a l.entry
  constructor
  case fault => rw [l.fault, h.fault]
  case nodup => exact l.nodup
  case count => exact l.count h
  case inhabited => exact l.inhabited h
  case pending => exact l.pending h
  case incomplete => exact l.incomplete h
  case completed => exact l.completed_entry h
  case joined => exact l.joined h
  case life => exact l.life h
  case order => exact l.order h
  case result => exact l.result h
  case linked => grind [h.linked]
  case keys => grind [h.keys]
  case member => grind [h.member, l.trace]
  case destroying => grind [h.destroying, l.trace]
  case created => grind [h.created, l.trace]
  case owners => grind [h.owners]
  case operating => grind [h.operating]
  case waiting => grind [h.waiting]
  case woken => grind [h.woken, l.completed]
  case broadcast => grind [h.broadcast, l.broadcast]
  case operated => grind [h.operated, l.trace]
  case unexecuted => grind [h.unexecuted, l.trace]
  case idle => grind [h.idle, h.begun hold, l.trace]
  case live => grind [h.live, l.trace]
  case present => grind [h.present, h.owners, l.trace]
  case departed => grind [h.departed, l.trace]
  case destroyed => grind [h.destroyed, l.trace]

omit l

end Leave

/-! ## Every step -/

include h

lemma Inv.heap_of_mem (ha : a ∈ s.entries) : ∃ e, s.heap a = some e :=
  ne_none_iff_exists'.mp (h.linked a ha)

lemma Inv.heap_of_entry (hc : (s.callers c).entry = some a) : ∃ e, s.heap a = some e :=
  h.heap_of_mem (h.member c a hc).1

omit h

omit [DecidableEq Caller] in
lemma access_eq (he : s.heap a = some e) (f : SingleFlightEntry Caller → State Caller) :
    s.access a f = f e := by
  unfold State.access
  rw [he]

lemma operate_eq (hc : s.callers c = .operating a) (x : OperationOutcome) :
    SingleFlight.operate s c x = some { s with
      callers := update s.callers c (.operated a x)
      trace := .executed c x :: s.trace } := by
  unfold SingleFlight.operate
  rw [hc]

lemma leave_operated_eq {x : OperationOutcome} (hc : s.callers c = .operated a x)
    (he : s.heap a = some e) :
    SingleFlight.leave calls s c = some (SingleFlight.leave_entry calls s c a
      { e with
        result := x.result
        result_size := if x.result.isSome then x.size else 0
        error := x.error
        completed := true
        completed_condition := true } false) := by
  unfold SingleFlight.leave
  rw [hc]
  dsimp only
  rw [access_eq he]

lemma leave_woken_eq (hc : s.callers c = .woken a) (he : s.heap a = some e) :
    SingleFlight.leave calls s c = some (SingleFlight.leave_entry calls s c a e true) := by
  unfold SingleFlight.leave
  rw [hc]
  dsimp only
  rw [access_eq he]

lemma destroy_eq (hc : s.callers c = .destroying a r) (he : s.heap a = some e) :
    SingleFlight.destroy s c = some { s with
      heap := update s.heap a none
      callers := update s.callers c (.returned r)
      trace := .destroyed c e.owner :: s.trace } := by
  unfold SingleFlight.destroy
  rw [hc]
  dsimp only
  rw [access_eq he]

include h

lemma Inv.enter (hs : SingleFlight.enter calls s c fresh = some s') : Inv calls s' := by
  unfold SingleFlight.enter at hs
  split at hs
  case h_2 => simp at hs
  case h_1 hc =>
    split at hs
    case h_1 hfind =>
      split_ifs at hs with hfresh
      rw [← some.inj hs]
      refine h.create hc (by simpa using hfresh) ?_
      intro a ha e he hkey
      have hnot := List.find?_eq_none.mp hfind a ha
      rw [he] at hnot
      exact hnot (decide_eq_true hkey)
    case h_2 a hfind =>
      have ha := mem_of_find?_eq_some hfind
      obtain ⟨e, he⟩ := h.heap_of_mem ha
      have hkey := List.find?_some hfind
      rw [he] at hkey
      rw [← some.inj hs, access_eq he]
      exact h.join hc ha he (of_decide_eq_true hkey)

lemma Inv.leave (hs : SingleFlight.leave calls s c = some s') : Inv calls s' := by
  unfold SingleFlight.leave at hs
  split at hs
  case h_1 a x hc =>
    -- the owner stores the outcome of its own execution
    have hent : (s.callers c).entry = some a := by rw [hc]; rfl
    obtain ⟨e, he⟩ := h.heap_of_entry hent
    have howner := (h.operating c a e (by rw [hc]; rfl) he).1
    have hjoined : false = decide (c ≠ e.owner) := by simp [howner]
    rw [← some.inj hs, access_eq he, hjoined]
    refine h.leave_entry
      (leaving_leave_entry h hent he (fun _ => howner) rfl rfl rfl rfl rfl ?_ ⟨rfl, ?_, rfl⟩)
    · rw [howner]
      exact h.operated c a x hc
    · have hsize := x.size_eq
      cases hres : x.result with
      | none => simp [hsize, hres]
      | some bytes => simp
  case h_2 a hc =>
    have hent : (s.callers c).entry = some a := by rw [hc]; rfl
    obtain ⟨e, he⟩ := h.heap_of_entry hent
    have hcompl := h.woken c a e hc he
    have hjoined : true = decide (c ≠ e.owner) :=
      (decide_eq_true (h.waiting c a e (.inr hc) he).symm).symm
    obtain ⟨x, hx, hholds⟩ := h.completed a e he hcompl
    rw [← some.inj hs, access_eq he, hjoined]
    refine h.leave_entry (leaving_leave_entry h hent he ?_ rfl rfl rfl hcompl
      (h.broadcast a e he hcompl) hx hholds)
    intro hincompl
    rw [hcompl] at hincompl
    cases hincompl.symm
  case h_3 => simp at hs

/-- **One step keeps the invariant.** -/
theorem Inv.step (hstep : Step calls s s') : Inv calls s' := by
  cases hstep with
  | enter c fresh hs => exact h.enter hs
  | operate c x hs =>
    unfold SingleFlight.operate at hs
    split at hs
    · rw [← some.inj hs]
      exact h.operate x ‹_›
    · simp at hs
  | wake c hs =>
    unfold SingleFlight.wake at hs
    split at hs
    case h_1 a hc =>
      obtain ⟨e, he⟩ := h.heap_of_entry (by rw [hc]; rfl)
      rw [← some.inj hs, access_eq he]
      split
      · rename_i hcompl
        exact h.wake hc he hcompl.2
      · exact h
    case h_2 => simp at hs
  | leave c hs => exact h.leave hs
  | destroy c hs =>
    unfold SingleFlight.destroy at hs
    split at hs
    case h_1 a r hc =>
      obtain ⟨e, he⟩ := ne_none_iff_exists'.mp (h.destroying c a r hc).2.1
      rw [← some.inj hs, access_eq he]
      exact h.destroy hc he
    case h_2 => simp at hs

omit h

lemma Inv.of_reachable (h : Reachable calls s) : Inv calls s := by
  induction h with
  | initial => exact .initial
  | step h hstep ih => exact ih.step hstep

/-! ## What callers may rely on -/

variable (calls) in
/-- The promises of `usc_single_flight_execute` in one state of a run. -/
structure Safe (s : State Caller) : Prop where
  /-- No call touches an entry that has been destroyed. -/
  fault : s.fault = false
  /-- The table holds one live entry for a key. -/
  one_entry : s.entries.Nodup ∧ (∀ a ∈ s.entries, ∃ e, s.heap a = some e) ∧
    ∀ a ∈ s.entries, ∀ b ∈ s.entries, ∀ e e', s.heap a = some e → s.heap b = some e' →
      e.key = e'.key → a = b
  one_operation : ∀ c c' a a', s.callers c = .operating a → s.callers c' = .operating a' →
    (calls c).key = (calls c').key → c = c'
  /-- The participants are the calls that have joined and not left. -/
  participants : ∀ a e, s.heap a = some e → ∃ participants : Finset Caller,
    (∀ c, c ∈ participants ↔ (s.callers c).entry = some a) ∧
      e.participant_count = participants.card
  /-- After the last departure there is one destruction, by the same call, and nothing else. -/
  order : s.trace.Pairwise Ordered
  last : ∀ c o, .left c o true ∈ s.trace →
    ∀ c', .joined c' o ∈ s.trace → ∃ last, .left c' o last ∈ s.trace
  destroyed : ∀ c o, .destroyed c o ∈ s.trace → .left c o true ∈ s.trace
  /-- An entry whose participants have all returned is gone. -/
  removed : ∀ c o, .joined c o ∈ s.trace →
    (∀ c', .joined c' o ∈ s.trace → ∃ r, s.callers c' = .returned r) →
    ∃ c', .left c' o true ∈ s.trace ∧ .destroyed c' o ∈ s.trace
  returned : ∀ c r, s.callers c = .returned r → DeliveredTo (calls c) s.trace c r
  /-- While a call is inside, some call can go on. -/
  progress : ∀ c, s.callers c ≠ .idle → (∀ r, s.callers c ≠ .returned r) →
    ∃ s', Step calls s s' ∧ s' ≠ s

omit [DecidableEq Caller] in
lemma ne_of_trace (h : s'.trace = event :: s.trace) : s' ≠ s := by
  intro heq
  rw [heq] at h
  exact cons_ne_self _ _ h.symm

include h

lemma Inv.progress_owner (hc : (s.callers c).operates = some a) :
    ∃ s', Step calls s s' ∧ s' ≠ s := by
  obtain ⟨e, he⟩ := h.heap_of_entry (CallerState.entry_of_operates hc)
  cases hstate : s.callers c with
  | operating b =>
    have hnext := operate_eq hstate ⟨none, 0, none, rfl, fun _ => rfl⟩
    exact ⟨_, .operate c _ hnext, ne_of_trace rfl⟩
  | operated b x =>
    have hb : b = a := by
      rw [hstate] at hc
      exact some.inj hc
    rw [← hb] at he
    exact ⟨_, .leave c (leave_operated_eq hstate he), ne_of_trace rfl⟩
  | _ =>
    rw [hstate] at hc
    exact absurd hc (by simp [CallerState.operates])

lemma Inv.progress (hidle : s.callers c ≠ .idle) (hreturned : ∀ r, s.callers c ≠ .returned r) :
    ∃ s', Step calls s s' ∧ s' ≠ s := by
  cases hstate : s.callers c with
  | idle => exact absurd hstate hidle
  | returned r => exact absurd hstate (hreturned r)
  | operating a => exact h.progress_owner (by rw [hstate]; rfl)
  | operated a x => exact h.progress_owner (by rw [hstate]; rfl)
  | waiting a =>
    obtain ⟨e, he⟩ := h.heap_of_entry (c := c) (by rw [hstate]; rfl)
    cases hcompl : e.completed with
    | false => exact h.progress_owner (h.incomplete a e he hcompl)
    | true =>
      refine ⟨{ s with callers := update s.callers c (.woken a) }, .wake c ?_, ?_⟩
      · unfold SingleFlight.wake
        rw [hstate]
        dsimp only
        rw [access_eq he, if_pos ⟨h.broadcast a e he hcompl, hcompl⟩]
      · intro heq
        have hsame := congrArg (fun s => s.callers c) heq
        dsimp only at hsame
        rw [update_self, hstate] at hsame
        simp at hsame
  | woken a =>
    obtain ⟨e, he⟩ := h.heap_of_entry (c := c) (by rw [hstate]; rfl)
    exact ⟨_, .leave c (leave_woken_eq hstate he), ne_of_trace rfl⟩
  | destroying a r =>
    obtain ⟨e, he⟩ := ne_none_iff_exists'.mp (h.destroying c a r hstate).2.1
    exact ⟨_, .destroy c (destroy_eq hstate he), ne_of_trace rfl⟩

lemma Inv.one_operation {a' : Address} (hc : s.callers c = .operating a)
    (hc' : s.callers c' = .operating a') (hkey : (calls c).key = (calls c').key) : c = c' := by
  have hent : (s.callers c).entry = some a := by rw [hc]; rfl
  have hent' : (s.callers c').entry = some a' := by rw [hc']; rfl
  obtain ⟨ha, hmember⟩ := h.member c a hent
  obtain ⟨ha', hmember'⟩ := h.member c' a' hent'
  obtain ⟨e, he⟩ := h.heap_of_mem ha
  obtain ⟨e', he'⟩ := h.heap_of_mem ha'
  have hsame : a = a' := by
    apply h.keys a ha a' ha' e e' he he'
    rw [(hmember e he).1, (hmember' e' he').1, hkey]
  rw [← hsame] at hc'
  have howner := (h.operating c a e (by rw [hc]; rfl) he).1
  have howner' := (h.operating c' a e (by rw [hc']; rfl) he).1
  rw [← howner, ← howner']

lemma Inv.last {o : Caller} (hlast : .left c o true ∈ s.trace)
    (hjoined : .joined c' o ∈ s.trace) : ∃ last, .left c' o last ∈ s.trace := by
  rcases h.joined c' o hjoined with ⟨a, e, hent, he, howner⟩ | hleft
  · -- an entry with a participant has not been unlinked
    have ha := (h.member c' a hent).1
    rw [← howner] at hlast
    exact absurd hlast (h.present a ha e he c)
  · exact hleft

lemma Inv.removed {o : Caller} (hjoined : .joined c o ∈ s.trace)
    (hall : ∀ c', .joined c' o ∈ s.trace → ∃ r, s.callers c' = .returned r) :
    ∃ c', .left c' o true ∈ s.trace ∧ .destroyed c' o ∈ s.trace := by
  rcases h.life c o hjoined with ⟨a, e, he, howner⟩ | hgone
  · exfalso
    by_cases ha : a ∈ s.entries
    · obtain ⟨c', hc'⟩ := h.inhabited a ha
      have hjoined' := ((h.member c' a hc').2 e he).2
      rw [howner] at hjoined'
      obtain ⟨r, hr⟩ := hall c' hjoined'
      rw [hr] at hc'
      exact absurd hc' (by simp [CallerState.entry])
    · obtain ⟨c', r, hc'⟩ := h.pending a e he ha
      have hleft := (h.destroying c' a r hc').2.2 e he
      rw [howner] at hleft
      obtain ⟨r', hr'⟩ := hall c' (h.departed c' o true hleft)
      rw [hr'] at hc'
      simp at hc'
  · exact hgone

end Invariant

/-! ## The end of every run -/

/-- The most steps that a call has before it. -/
def CallerState.remaining : CallerState → ℕ
  | .idle => 4
  | .operating _ | .waiting _ => 3
  | .operated _ _ | .woken _ => 2
  | .destroying _ _ => 1
  | .returned _ => 0

section End

variable {Caller : Type} [DecidableEq Caller] {calls : Caller → Call} {s s' : State Caller}

omit [DecidableEq Caller] in
lemma exists_of_access {a : Address} {f : SingleFlightEntry Caller → State Caller}
    (h : some (s.access a f) = some s') (hfault : s'.fault = false) : ∃ e, f e = s' := by
  rw [Option.some.injEq] at h
  subst h
  unfold State.access at hfault ⊢
  split at hfault
  · exact ⟨_, rfl⟩
  · cases hfault

lemma remaining_ite_lt {p : Prop} [Decidable p] {a b : CallerState} {n : ℕ}
    (ha : a.remaining < n) (hb : b.remaining < n) : (if p then a else b).remaining < n := by
  split_ifs
  · exact ha
  · exact hb

/-- A step that changes anything moves one call, and forwards. -/
theorem Inv.moves (h : Inv calls s) (hstep : Step calls s s') (hne : s' ≠ s) :
    ∃ c q, s'.callers = update s.callers c q ∧ q.remaining < (s.callers c).remaining := by
  have hfault := (h.step hstep).fault
  cases hstep with
  | enter c fresh hs =>
    unfold SingleFlight.enter at hs
    split at hs
    next hc =>
      split at hs
      · split_ifs at hs
        cases hs
        exact ⟨c, _, rfl, by simp [hc, CallerState.remaining]⟩
      · obtain ⟨e, rfl⟩ := exists_of_access hs hfault
        exact ⟨c, _, rfl, by
          rw [hc]
          apply remaining_ite_lt <;> simp [CallerState.remaining]⟩
    · cases hs
  | operate c x hs =>
    unfold SingleFlight.operate at hs
    split at hs
    next hc =>
      cases hs
      exact ⟨c, _, rfl, by simp [hc, CallerState.remaining]⟩
    · cases hs
  | wake c hs =>
    unfold SingleFlight.wake at hs
    split at hs
    next hc =>
      obtain ⟨e, rfl⟩ := exists_of_access hs hfault
      split_ifs at hne ⊢
      · exact ⟨c, _, rfl, by simp [hc, CallerState.remaining]⟩
      · exact absurd rfl hne
    · cases hs
  | leave c hs =>
    unfold SingleFlight.leave at hs
    split at hs
    iterate 2 next hc =>
        obtain ⟨e, rfl⟩ := exists_of_access hs hfault
        exact ⟨c, _, rfl, by
          rw [hc]
          apply remaining_ite_lt <;> simp [CallerState.remaining]⟩
    · cases hs
  | destroy c hs =>
    unfold SingleFlight.destroy at hs
    split at hs
    next hc =>
      obtain ⟨e, rfl⟩ := exists_of_access hs hfault
      exact ⟨c, _, rfl, by simp [hc, CallerState.remaining]⟩
    · cases hs

variable [Fintype Caller]

lemma Inv.remaining_lt (h : Inv calls s) (hstep : Step calls s s') (hne : s' ≠ s) :
    ∑ c, (s'.callers c).remaining < ∑ c, (s.callers c).remaining := by
  obtain ⟨c, q, hcallers, hlt⟩ := h.moves hstep hne
  refine Finset.sum_lt_sum (fun c' _ => ?_) ⟨c, Finset.mem_univ c, by rwa [hcallers, update_self]⟩
  by_cases hc : c' = c
  · rw [hcallers, hc, update_self]
    exact Nat.le_of_lt hlt
  · rw [hcallers, update_of_ne hc]

end End

end SingleFlight

open SingleFlight

/-- **Single flight.** In every interleaving of any number of calls there is at most one entry and
one running operation for a key, an entry counts the calls inside it, the last one to leave unlinks
and destroys it, nobody touches it afterwards, and every call returns the outcome of the one
execution that belongs to the entry it joined. -/
theorem usc_single_flight_execute_spec {Caller : Type} [DecidableEq Caller]
    (calls : Caller → Call) (s : State Caller) (hs : Reachable calls s) : Safe calls s := by
  have h := Inv.of_reachable hs
  refine ⟨h.fault, ⟨h.nodup, fun a ha => h.heap_of_mem ha, h.keys⟩, ?_, h.count, h.order, ?_,
    h.destroyed, ?_, ?_, ?_⟩
  · exact fun c c' a a' hc hc' hkey => h.one_operation hc hc' hkey
  · exact fun c o hlast c' hjoined => h.last hlast hjoined
  · exact fun c o hjoined hall => h.removed hjoined hall
  · exact fun c r hr => h.result c r (.inl hr)
  · exact fun c hidle hreturned => h.progress hidle hreturned

def twoCalls : Bool → Call := fun _ => ⟨Vector.replicate _ 0, true⟩

/-- The second call joins while the operation runs; the first leaves before it wakes up. -/
theorem usc_single_flight_execute_two_calls :
    ∃ s : State Bool, Reachable twoCalls s ∧ Safe twoCalls s ∧
      s.callers true = .returned ⟨some [16, 0], 2, none, true⟩ := by
  have hrun : Reachable twoCalls (.initial Bool) := .initial
  have hrun := hrun.step (.enter false 7 rfl)
  have hrun := hrun.step (.enter true 8 rfl)
  have hrun := hrun.step (.operate false ⟨some [16, 0], 2, none, rfl, fun _ => rfl⟩ rfl)
  have hrun := hrun.step (.leave false rfl)
  have hrun := hrun.step (.wake true rfl)
  have hrun := hrun.step (.leave true rfl)
  have hrun := hrun.step (.destroy true rfl)
  exact ⟨_, hrun, usc_single_flight_execute_spec twoCalls _ hrun, rfl⟩

/-- **Every run ends.** Of finitely many calls there are at most four steps each that change
anything, and from wherever they are, all calls that have begun can return. -/
theorem usc_single_flight_execute_ends {Caller : Type} [DecidableEq Caller] [Fintype Caller]
    {calls : Caller → Call} {s : State Caller} (hs : Reachable calls s) :
    (∀ run, IsChain (fun s s' => Step calls s s' ∧ s' ≠ s) (s :: run) →
      run.length ≤ 4 * Fintype.card Caller) ∧
    ∃ t, Reachable calls t ∧ Relation.ReflTransGen (Step calls) s t ∧
      ∀ c, t.callers c = .idle ∨ ∃ r, t.callers c = .returned r := by
  constructor
  · intro run hrun
    have hle : ∑ c, (s.callers c).remaining ≤ 4 * Fintype.card Caller := by
      have h4 : ∀ q : CallerState, q.remaining ≤ 4 := fun q => by
        cases q <;> simp [CallerState.remaining]
      exact (Finset.sum_le_card_nsmul _ _ 4 fun c _ => h4 _).trans_eq (Nat.mul_comm _ _)
    refine Nat.le_trans ?_ hle
    clear hle
    induction run generalizing s with
    | nil => exact Nat.zero_le _
    | cons t run ih =>
      obtain ⟨⟨hstep, hne⟩, hrun⟩ := isChain_cons_cons.mp hrun
      exact Nat.lt_of_le_of_lt (ih (hs.step hstep) hrun) ((Inv.of_reachable hs).remaining_lt hstep hne)
  · induction hn : ∑ c, (s.callers c).remaining using Nat.strong_induction_on generalizing s with
    | _ n ih =>
      by_cases hdone : ∀ c, s.callers c = .idle ∨ ∃ r, s.callers c = .returned r
      · exact ⟨s, hs, .refl, hdone⟩
      push Not at hdone
      obtain ⟨c, hidle, hreturned⟩ := hdone
      obtain ⟨s', hstep, hne⟩ := (Inv.of_reachable hs).progress hidle hreturned
      have hlt := (Inv.of_reachable hs).remaining_lt hstep hne
      obtain ⟨t, ht, hrun, hall⟩ := ih _ (hn ▸ hlt) (hs.step hstep) rfl
      exact ⟨t, ht, .head hstep hrun, hall⟩

theorem usc_single_flight_execute_ends_two_calls :
    ∃ t, Reachable twoCalls t ∧ ∀ c, t.callers c = .idle ∨ ∃ r, t.callers c = .returned r := by
  obtain ⟨-, t, ht, -, hall⟩ := @usc_single_flight_execute_ends Bool _ _ twoCalls _ .initial
  exact ⟨t, ht, hall⟩

end DXBCSandbox
