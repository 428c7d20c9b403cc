/-
Open addressing with linear probing.

A table is a row of slots, each empty or with a key. A key is looked for from its home slot on,
going around, until it is found or an empty slot ends the search. That finds every key because
the slots between a key and its home are never empty ([`Filed`]), and it ends because some slot
is empty.
-/
import Mathlib.Data.List.ReduceOption
import Mathlib.Data.Nat.Find
import Mathlib.Data.Nat.ModEq
import Mathlib.Data.List.Nodup

namespace DXBCSandbox.LinearProbe

open List Option

variable {α κ : Type}

/-! ## Going around -/

/-- The loop from a slot on to the first entry that stops it, with a bound on its rounds. -/
def probe (table : List α) (stop : α → Bool) : (fuel slot : ℕ) → Option ℕ
  | 0, _ => none
  | fuel + 1, slot =>
    match table[slot]? with
    | none => none
    | some entry =>
      if stop entry then some slot
      else probe table stop fuel ((slot + 1) % table.length)

lemma probe_map {β : Type} (f : α → β) (table : List α) (stop : β → Bool) (fuel slot : ℕ) :
    probe (table.map f) stop fuel slot = probe table (fun entry => stop (f entry)) fuel slot := by
  induction fuel generalizing slot with
  | zero => rfl
  | succ fuel ih =>
    unfold probe
    rw [getElem?_map, length_map]
    cases table[slot]? with
    | none => rfl
    | some entry =>
      dsimp only [Option.map_some]
      rw [ih]

variable {table : List α} {slot i : ℕ}

lemma probe_eq_some {stop : α → Bool} {fuel : ℕ} (hslot : slot < table.length)
    (h : probe table stop fuel slot = some i) :
    ∃ d < fuel, i = (slot + d) % table.length ∧
      (∃ entry, table[i]? = some entry ∧ stop entry = true) ∧
      ∀ e < d, ∃ entry, table[(slot + e) % table.length]? = some entry ∧ stop entry = false := by
  induction fuel generalizing slot with
  | zero => cases h
  | succ fuel ih =>
    have hent := getElem?_eq_getElem hslot
    unfold probe at h
    rw [hent] at h
    dsimp only at h
    split at h
    case isTrue hstop =>
      cases h
      refine ⟨0, Nat.succ_pos fuel, ?_, ⟨_, hent, hstop⟩, fun e he => absurd he (by omega)⟩
      rw [Nat.add_zero, Nat.mod_eq_of_lt hslot]
    case isFalse hstop =>
      obtain ⟨d, hd, hi, hfound, hbefore⟩ := ih (Nat.mod_lt _ (by omega)) h
      refine ⟨d + 1, by omega, ?_, hfound, ?_⟩
      · rw [hi, Nat.mod_add_mod]
        congr 1
        omega
      · intro e he
        cases e with
        | zero =>
          rw [Nat.add_zero, Nat.mod_eq_of_lt hslot]
          exact ⟨_, hent, Bool.eq_false_iff.mpr hstop⟩
        | succ e =>
          have hnext := hbefore e (by omega)
          rw [Nat.mod_add_mod] at hnext
          rw [show slot + (e + 1) = slot + 1 + e by omega]
          exact hnext

lemma probe_of_first {stop : α → Bool} {d : ℕ} {entry : α} (hslot : slot < table.length)
    (hent : table[(slot + d) % table.length]? = some entry) (hstop : stop entry = true)
    (hbefore : ∀ e < d, ∃ entry, table[(slot + e) % table.length]? = some entry ∧
      stop entry = false) {fuel : ℕ} (hfuel : d < fuel) :
    probe table stop fuel slot = some ((slot + d) % table.length) := by
  induction d generalizing slot fuel with
  | zero =>
    obtain ⟨fuel, rfl⟩ : ∃ n, fuel = n + 1 := ⟨fuel - 1, by omega⟩
    have hzero : (slot + 0) % table.length = slot := Nat.mod_eq_of_lt hslot
    rw [hzero] at hent ⊢
    unfold probe
    rw [hent]
    exact if_pos hstop
  | succ d ih =>
    obtain ⟨fuel, rfl⟩ : ∃ n, fuel = n + 1 := ⟨fuel - 1, by omega⟩
    obtain ⟨first, hfst, hgo⟩ := hbefore 0 (by omega)
    rw [Nat.add_zero, Nat.mod_eq_of_lt hslot] at hfst
    have hshift : ∀ e, ((slot + 1) % table.length + e) % table.length =
        (slot + (e + 1)) % table.length := by
      intro e
      rw [Nat.mod_add_mod]
      congr 1
      omega
    unfold probe
    rw [hfst]
    dsimp only
    rw [if_neg (by rw [hgo]; exact Bool.false_ne_true), ← hshift d]
    apply ih (Nat.mod_lt _ (by omega))
    · rw [hshift]
      exact hent
    · intro e he
      rw [hshift]
      exact hbefore (e + 1) (by omega)
    · omega

lemma exists_distance {n : ℕ} (hslot : slot < n) (hi : i < n) : ∃ d < n, (slot + d) % n = i := by
  by_cases h : slot ≤ i
  · exact ⟨i - slot, by omega, by rw [show slot + (i - slot) = i by omega, Nat.mod_eq_of_lt hi]⟩
  · refine ⟨i + n - slot, by omega, ?_⟩
    rw [show slot + (i + n - slot) = i + n by omega, Nat.add_mod_right, Nat.mod_eq_of_lt hi]

lemma exists_probe (stop : α → Bool) {entry : α} (hslot : slot < table.length)
    (hent : table[i]? = some entry) (hstop : stop entry = true) :
    ∃ j, probe table stop table.length slot = some j := by
  have hi : i < table.length := (List.getElem?_eq_some_iff.mp hent).1
  obtain ⟨d, hd, hdi⟩ := exists_distance hslot hi
  -- Of all distances to a stop, take the least.
  have hexists : ∃ d, d < table.length ∧ ∃ entry,
      table[(slot + d) % table.length]? = some entry ∧ stop entry = true := by
    refine ⟨d, hd, entry, ?_, hstop⟩
    rw [hdi]
    exact hent
  classical
  obtain ⟨hlt, entry', hent', hstop'⟩ := Nat.find_spec hexists
  refine ⟨_, probe_of_first hslot hent' hstop' ?_ hlt⟩
  intro e he
  have hin : (slot + e) % table.length < table.length := Nat.mod_lt _ (by omega)
  refine ⟨_, List.getElem?_eq_getElem hin, ?_⟩
  by_contra hne
  apply Nat.find_min hexists he
  exact ⟨by omega, _, List.getElem?_eq_getElem hin, by simpa using hne⟩

/-! ## Tables -/

/-- The slots from the home of a key up to the key are all taken. -/
def Filed (home : κ → ℕ) (slots : List (Option κ)) : Prop :=
  ∀ (i : ℕ) (k : κ), slots[i]? = some (some k) → ∃ d < slots.length,
    i = (home k + d) % slots.length ∧
    ∀ e < d, ∃ k', slots[(home k + e) % slots.length]? = some (some k')

/-- A table in which every key is filed, and only once. -/
structure Table (home : κ → ℕ) (slots : List (Option κ)) : Prop where
  home_lt : ∀ k, slots ≠ [] → home k < slots.length
  filed : Filed home slots
  nodup : slots.reduceOption.Nodup

variable {home : κ → ℕ} {slots : List (Option κ)} {k : κ}

lemma mem_reduceOption_iff : k ∈ slots.reduceOption ↔ ∃ i : ℕ, slots[i]? = some (some k) := by
  rw [reduceOption_mem_iff, mem_iff_getElem?]

lemma exists_empty (h : slots.reduceOption.length < slots.length) :
    ∃ i : ℕ, slots[i]? = some none := by
  rw [← mem_iff_getElem?]
  by_contra hnone
  have hall : ∀ o ∈ slots, (id o : Option κ).isSome = true := by
    intro o ho
    cases o with
    | none => exact absurd ho hnone
    | some k => rfl
  exact absurd (reduceOption_length_eq_iff.mpr hall) (Nat.ne_of_lt h)

lemma slots_split {o : Option κ} (h : slots[i]? = some o) :
    slots = slots.take i ++ o :: slots.drop (i + 1) ∧ i < slots.length := by
  obtain ⟨hi, rfl⟩ := List.getElem?_eq_some_iff.mp h
  refine ⟨?_, hi⟩
  rw [← drop_eq_getElem_cons hi, take_append_drop]

lemma reduceOption_set_perm (h : slots[i]? = some none) :
    (slots.set i (some k)).reduceOption.Perm (k :: slots.reduceOption) := by
  obtain ⟨hspl, hi⟩ := slots_split h
  have hset : slots.set i (some k) = slots.take i ++ some k :: slots.drop (i + 1) := by
    rw [set_eq_take_append_cons_drop, if_pos hi]
  rw [hset]
  conv_rhs => rw [hspl]
  simp only [reduceOption_append, reduceOption_cons_of_some, reduceOption_cons_of_none]
  exact perm_middle

lemma Table.slot_unique (h : Table home slots) {j : ℕ} (hi : slots[i]? = some (some k))
    (hj : slots[j]? = some (some k)) : i = j := by
  classical
  by_contra hne
  -- Emptying one of the two slots takes the key out, but it is still in the other one.
  have hempty : (slots.set i none)[i]? = some none := by
    rw [List.getElem?_set_self (List.getElem?_eq_some_iff.mp hi).1]
  have hback : (slots.set i none).set i (some k) = slots := by
    rw [set_set]
    apply ext_getElem?
    intro m
    by_cases hm : m = i
    · subst hm
      rw [List.getElem?_set_self (List.getElem?_eq_some_iff.mp hi).1, hi]
    · rw [List.getElem?_set_ne (Ne.symm hm)]
  have hperm := reduceOption_set_perm (k := k) hempty
  rw [hback] at hperm
  have hnodup := hperm.nodup_iff.mp h.nodup
  apply (nodup_cons.mp hnodup).1
  apply mem_reduceOption_iff.mpr
  refine ⟨j, ?_⟩
  rw [List.getElem?_set_ne hne]
  exact hj

/-! ## Finding and filing a key -/

/-- The search for a key stops at an empty slot or at the key. -/
def stopsFor [DecidableEq κ] (k : κ) (o : Option κ) : Bool := o = none ∨ o = some k

def stopsEmpty (o : Option κ) : Bool := o.isNone

/-- The search ends, and it ends at the key exactly when the key is in the table. -/
theorem Table.lookup [DecidableEq κ] (h : Table home slots) (hload : slots.reduceOption.length < slots.length)
    (k : κ) : ∃ i, probe slots (stopsFor k) slots.length (home k) = some i ∧
      (slots[i]? = some (some k) ↔ k ∈ slots.reduceOption) := by
  have hhome : home k < slots.length := h.home_lt k (length_pos_iff.mp (by omega))
  obtain ⟨m, hm⟩ := exists_empty hload
  obtain ⟨i, hi⟩ := exists_probe (stopsFor k) hhome hm (by simp [stopsFor])
  refine ⟨i, hi, fun hkey => mem_reduceOption_iff.mpr ⟨i, hkey⟩, fun hmem => ?_⟩
  obtain ⟨j, hj⟩ := mem_reduceOption_iff.mp hmem
  obtain ⟨d, hd, hjd, htaken⟩ := h.filed j k hj
  -- Between its home and the key there are only other keys.
  have hreach : probe slots (stopsFor k) slots.length (home k) = some j := by
    rw [hjd] at hj ⊢
    apply probe_of_first hhome hj (by simp [stopsFor]) _ hd
    intro e he
    obtain ⟨k', hk'⟩ := htaken e he
    refine ⟨_, hk', ?_⟩
    have hne : k' ≠ k := by
      rintro rfl
      have heq := h.slot_unique hk' hj
      have hmod : e % slots.length = d % slots.length := Nat.ModEq.add_left_cancel' (home k') heq
      rw [Nat.mod_eq_of_lt (by omega), Nat.mod_eq_of_lt hd] at hmod
      omega
    simp [stopsFor, hne]
  rw [hi] at hreach
  rw [some.inj hreach]
  exact hj

lemma Table.insert (h : Table home slots) (hload : slots.reduceOption.length < slots.length)
    (hnew : k ∉ slots.reduceOption) :
    ∃ i, probe slots stopsEmpty slots.length (home k) = some i ∧ i < slots.length ∧
      Table home (slots.set i (some k)) ∧
      (slots.set i (some k)).reduceOption.Perm (k :: slots.reduceOption) := by
  have hhome : home k < slots.length := h.home_lt k (length_pos_iff.mp (by omega))
  obtain ⟨m, hm⟩ := exists_empty hload
  obtain ⟨i, hi⟩ := exists_probe stopsEmpty hhome hm rfl
  obtain ⟨d, hd, hid, ⟨o, ho, hnone⟩, htaken⟩ := probe_eq_some hhome hi
  obtain rfl : o = none := isNone_iff_eq_none.mp hnone
  have hlt : i < slots.length := (List.getElem?_eq_some_iff.mp ho).1
  have hperm := reduceOption_set_perm (k := k) ho
  -- What was taken stays taken.
  have hstays : ∀ (j : ℕ) (k' : κ), slots[j]? = some (some k') →
      (slots.set i (some k))[j]? = some (some k') := by
    intro j k' hj
    rw [List.getElem?_set_ne, hj]
    rintro rfl
    rw [ho] at hj
    cases hj
  refine ⟨i, hi, hlt, ⟨?_, ?_, ?_⟩, hperm⟩
  · intro k' _
    rw [length_set]
    exact h.home_lt k' (length_pos_iff.mp (by omega))
  · intro j k' hj
    rw [length_set]
    by_cases hji : j = i
    · subst hji
      rw [List.getElem?_set_self hlt] at hj
      cases hj
      refine ⟨d, hd, hid, fun e he => ?_⟩
      obtain ⟨o, ho', hsome⟩ := htaken e he
      cases o with
      | none => cases hsome
      | some k'' => exact ⟨k'', hstays _ _ ho'⟩
    · rw [List.getElem?_set_ne (Ne.symm hji)] at hj
      obtain ⟨d', hd', hjd, hbefore⟩ := h.filed j k' hj
      refine ⟨d', hd', hjd, fun e he => ?_⟩
      obtain ⟨k'', hk''⟩ := hbefore e he
      exact ⟨k'', hstays _ _ hk''⟩
  · rw [hperm.nodup_iff]
    exact nodup_cons.mpr ⟨hnew, h.nodup⟩

/-- The search for a key that is not in the table is the search for an empty slot. -/
theorem probe_of_notMem [DecidableEq κ] (hnew : k ∉ slots.reduceOption) (fuel slot : ℕ) :
    probe slots (stopsFor k) fuel slot = probe slots stopsEmpty fuel slot := by
  induction fuel generalizing slot with
  | zero => rfl
  | succ fuel ih =>
    unfold probe
    cases hent : slots[slot]? with
    | none => rfl
    | some entry =>
      have hsame : stopsFor k entry = stopsEmpty entry := by
        cases entry with
        | none => rfl
        | some k' =>
          have hne : k' ≠ k := fun heq =>
            hnew (mem_reduceOption_iff.mpr ⟨slot, by rw [hent, heq]⟩)
          simp [stopsFor, stopsEmpty, hne]
      dsimp only
      rw [hsame, ih]

lemma table_empty {n : ℕ} (hhome : ∀ k, 0 < n → home k < n) :
    Table home (List.replicate n none) := by
  have hnone : ∀ (i : ℕ) (k : κ), (List.replicate n (none : Option κ))[i]? ≠ some (some k) := by
    intro i k h
    obtain ⟨hi, hent⟩ := List.getElem?_eq_some_iff.mp h
    rw [getElem_replicate] at hent
    cases hent
  refine ⟨fun k hne => ?_, fun i k h => absurd h (hnone i k), ?_⟩
  · rw [length_replicate]
    apply hhome
    rw [← length_replicate (n := n) (a := (none : Option κ))]
    exact length_pos_iff.mpr hne
  · rw [reduceOption_replicate_none]
    exact nodup_nil

end DXBCSandbox.LinearProbe
