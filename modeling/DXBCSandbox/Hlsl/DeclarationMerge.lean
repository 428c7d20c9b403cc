/-
Adding declarations to a list of fields (`add_field` of
`src/translation/hlsl_global_declarations.c`).

Adding declarations one after another goes through exactly when any two of them are the same or
apart, and when they are not too many, and that says nothing about their order. What the fields hold
at the end is read off the declarations as well.
-/
import DXBCSandbox.Hlsl.GlobalDeclarations
import Mathlib.Data.Finset.Card
import Mathlib.Data.List.Sort

namespace DXBCSandbox

open List

namespace GlobalDeclarations

/-! ## Declarations -/

/-- What a field says about the constant buffer. -/
structure Declared where
  name : CString
  layout : DecodedVariableLayout
  byte_size : ℕ
  deriving DecidableEq

def Declared.stop (d : Declared) : ℕ := d.layout.byte_offset.toNat + d.byte_size

def Apart (a b : Declared) : Prop :=
  a.name ≠ b.name ∧ (a.stop ≤ b.layout.byte_offset.toNat ∨ b.stop ≤ a.layout.byte_offset.toNat)

instance (a b : Declared) : Decidable (Apart a b) := inferInstanceAs (Decidable (_ ∧ _))

lemma Apart.symm {a b : Declared} (h : Apart a b) : Apart b a := ⟨h.1.symm, h.2.symm⟩

lemma Apart.ne {a b : Declared} (h : Apart a b) : a ≠ b := fun heq => h.1 (congrArg _ heq)

end GlobalDeclarations

open GlobalDeclarations

def HLSLGlobalDeclarationField.declared (field : HLSLGlobalDeclarationField) : Declared :=
  ⟨field.name, field.layout, field.byte_size⟩

namespace GlobalDeclarations

lemma same_layout_iff (a b : HLSLGlobalDeclarationField) :
    same_layout a b = true ↔ a.declared = b.declared := by
  obtain ⟨aname, alayout, asize, acurrent, awitnesses⟩ := a
  obtain ⟨bname, blayout, bsize, bcurrent, bwitnesses⟩ := b
  obtain ⟨ao, aa, as, ar, ac, am⟩ := alayout
  obtain ⟨bo, ba, bs, br, bc, bm⟩ := blayout
  simp only [same_layout, decide_eq_true_eq, HLSLGlobalDeclarationField.declared,
    Declared.mk.injEq, DecodedVariableLayout.mk.injEq]
  tauto

def AllApart (fields : List HLSLGlobalDeclarationField) : Prop :=
  fields.Pairwise fun a b => Apart a.declared b.declared

variable {fields : List HLSLGlobalDeclarationField}

/-- **The slot of a field.** Among fields that are pairwise apart there is none, or the one that is
the same, or one that is in conflict. -/
theorem findSlot_spec (field : HLSLGlobalDeclarationField) (h : AllApart fields) :
    (findSlot field fields = .ok none ∧ ∀ prior ∈ fields, Apart prior.declared field.declared) ∨
      (∃ i prior, findSlot field fields = .ok (some i) ∧ fields[i]? = some prior ∧
        prior.declared = field.declared) ∨
      (findSlot field fields = .error .fieldConflict ∧
        ∃ prior ∈ fields, prior.declared ≠ field.declared ∧
          ¬ Apart prior.declared field.declared) := by
  induction fields with
  | nil => exact .inl ⟨rfl, nofun⟩
  | cons prior rest ih =>
    have hrest := pairwise_cons.mp h
    have hround : findSlot field (prior :: rest) =
        if Apart prior.declared field.declared then
          (findSlot field rest).map fun slot => slot.map fun i => i + 1
        else if ¬ same_layout prior field then .error .fieldConflict
        else .ok (some 0) := by
      rw [findSlot]
      refine if_congr ?_ rfl rfl
      simp only [Apart, Declared.stop, HLSLGlobalDeclarationField.declared]
      exact and_congr_right fun _ => or_comm
    rw [hround]
    by_cases hapart : Apart prior.declared field.declared
    · rw [if_pos hapart]
      rcases ih hrest.2 with ⟨hfind, hall⟩ | ⟨i, other, hfind, hother, hsame⟩ |
        ⟨hfind, other, hmem, hne, hnot⟩
      · rw [hfind]
        exact .inl ⟨rfl, forall_mem_cons.mpr ⟨hapart, hall⟩⟩
      · rw [hfind]
        exact .inr (.inl ⟨i + 1, other, rfl, hother, hsame⟩)
      · rw [hfind]
        exact .inr (.inr ⟨rfl, other, mem_cons_of_mem _ hmem, hne, hnot⟩)
    · rw [if_neg hapart]
      by_cases hsame : prior.declared = field.declared
      · rw [if_neg (not_not.mpr ((same_layout_iff _ _).mpr hsame))]
        exact .inr (.inl ⟨0, prior, rfl, rfl, hsame⟩)
      · rw [if_pos (mt (same_layout_iff _ _).mp hsame)]
        exact .inr (.inr ⟨rfl, prior, mem_cons_self, hsame, hapart⟩)

/-! ## Witnesses of a field -/

lemma insertWitness_concat (ids : List ℕ) (last witness : ℕ) :
    insertWitness (ids ++ [last]) witness =
      if witness < last then insertWitness ids witness ++ [last]
      else ids ++ [last] ++ [witness] := by
  unfold insertWitness
  rw [rdropWhile_concat, rtakeWhile_concat]
  by_cases h : witness < last
  · rw [if_pos (decide_eq_true h), if_pos (decide_eq_true h), if_pos h, append_assoc]
    rfl
  · have hnot : ¬ decide (witness < last) = true := by
      rw [decide_eq_true_eq]
      exact h
    rw [if_neg hnot, if_neg hnot, if_neg h]

variable {ids : List ℕ}

lemma mem_insertWitness {witness id : ℕ} :
    id ∈ insertWitness ids witness ↔ id = witness ∨ id ∈ ids := by
  induction ids using reverseRecOn with
  | nil => simp [insertWitness]
  | append_singleton ids last ih =>
    rw [insertWitness_concat]
    split
    · rw [mem_append, ih, mem_append, or_assoc]
    · rw [mem_append, mem_singleton]
      exact or_comm

lemma pairwise_insertWitness {witness : ℕ} (h : ids.Pairwise (· < ·)) (hnew : witness ∉ ids) :
    (insertWitness ids witness).Pairwise (· < ·) := by
  induction ids using reverseRecOn with
  | nil => simp [insertWitness]
  | append_singleton ids last ih =>
    obtain ⟨hids, -, hlast⟩ := pairwise_append.mp h
    rw [mem_append, mem_singleton, not_or] at hnew
    rw [insertWitness_concat]
    split
    · rename_i hlt
      refine pairwise_append.mpr ⟨ih hids hnew.1, pairwise_singleton _ _, ?_⟩
      intro a ha b hb
      rw [mem_singleton.mp hb]
      rcases mem_insertWitness.mp ha with rfl | ha
      · exact hlt
      · exact hlast a ha last (mem_singleton_self last)
    · rename_i hge
      refine pairwise_append.mpr ⟨h, pairwise_singleton _ _, ?_⟩
      intro a ha b hb
      rw [mem_singleton.mp hb]
      have hbelow : last < witness := by omega
      rcases mem_append.mp ha with ha | ha
      · exact (hlast a ha last (mem_singleton_self last)).trans hbelow
      · rwa [mem_singleton.mp ha]

/-! ## Adding declarations -/

structure Entry where
  declared : Declared
  witness : ℕ
  current : Bool

def Entry.field (e : Entry) : HLSLGlobalDeclarationField :=
  ⟨e.declared.name, e.declared.layout, e.declared.byte_size, false, []⟩

def addEntry (fields : List HLSLGlobalDeclarationField) (e : Entry) :
    Except HLSLGlobalDeclarationStatus (List HLSLGlobalDeclarationField) :=
  add_field fields e.field e.witness e.current

/-- The witnesses of a field are those of the entries that declare it, and it is current when one of
these is. -/
structure FieldOf (entries : List Entry) (field : HLSLGlobalDeclarationField) : Prop where
  sorted : field.witness_subprogram_indices.Pairwise (· < ·)
  witness_iff : ∀ w, w ∈ field.witness_subprogram_indices ↔
    ∃ e ∈ entries, e.declared = field.declared ∧ e.witness = w
  current_iff : field.current_authority = true ↔
    ∃ e ∈ entries, e.declared = field.declared ∧ e.current = true

/-- **The union of entries.** The fields are pairwise apart, they are what the entries declare, and
each is the field of its entries. -/
structure Merged (entries : List Entry) (fields : List HLSLGlobalDeclarationField) : Prop where
  apart : AllApart fields
  declared_iff : ∀ d, (∃ field ∈ fields, field.declared = d) ↔ ∃ e ∈ entries, e.declared = d
  field : ∀ field ∈ fields, FieldOf entries field

lemma merged_nil : Merged [] [] where
  apart := List.Pairwise.nil
  declared_iff _ := iff_of_false (fun ⟨_, h, _⟩ => (nomatch h)) fun ⟨_, h, _⟩ => (nomatch h)
  field _ h := nomatch h

lemma declared_addWitness (witness : ℕ) (current : Bool) (slot : HLSLGlobalDeclarationField) :
    (addWitness witness current slot).declared = slot.declared := by
  unfold addWitness
  simp only
  split <;> rfl

variable {entries : List Entry} {field : HLSLGlobalDeclarationField}

lemma FieldOf.add (h : FieldOf entries field) {e : Entry} (he : e.declared = field.declared) :
    FieldOf (entries ++ [e]) (addWitness e.witness e.current field) := by
  have hcur : (addWitness e.witness e.current field).current_authority =
      (field.current_authority || e.current) := by
    unfold addWitness
    simp only
    split <;> rfl
  have hmem (w : ℕ) : w ∈ (addWitness e.witness e.current field).witness_subprogram_indices ↔
      w = e.witness ∨ w ∈ field.witness_subprogram_indices := by
    unfold addWitness
    simp only
    split
    · rename_i hin
      refine ⟨.inr, ?_⟩
      rintro (rfl | hw)
      · exact hin
      · exact hw
    · exact mem_insertWitness
  refine ⟨?_, fun w => ?_, ?_⟩
  · unfold addWitness
    simp only
    split
    · exact h.sorted
    · rename_i hnew
      exact pairwise_insertWitness h.sorted hnew
  · rw [hmem, h.witness_iff, declared_addWitness]
    simp only [mem_append, mem_singleton, or_and_right, exists_or, exists_eq_left, he, true_and]
    rw [or_comm, @eq_comm _ w]
  · rw [hcur, declared_addWitness, Bool.or_eq_true, h.current_iff]
    simp only [mem_append, mem_singleton, or_and_right, exists_or, exists_eq_left, he, true_and]

lemma FieldOf.frame (h : FieldOf entries field) {e : Entry} (he : e.declared ≠ field.declared) :
    FieldOf (entries ++ [e]) field where
  sorted := h.sorted
  witness_iff w := by
    rw [h.witness_iff]
    simp only [mem_append, mem_singleton, or_and_right, exists_or, exists_eq_left, he,
      false_and, or_false]
  current_iff := by
    rw [h.current_iff]
    simp only [mem_append, mem_singleton, or_and_right, exists_or, exists_eq_left, he,
      false_and, or_false]

lemma FieldOf.first {e : Entry} (hnew : ∀ prior ∈ entries, prior.declared ≠ e.declared) :
    FieldOf (entries ++ [e]) (addWitness e.witness e.current e.field) := by
  refine @FieldOf.add _ e.field ⟨List.Pairwise.nil, fun w => ?_, ?_⟩ e rfl
  · refine iff_of_false (nofun) ?_
    rintro ⟨prior, hmem, hsame, -⟩
    exact hnew prior hmem hsame
  · refine iff_of_false (nofun) ?_
    rintro ⟨prior, hmem, hsame, -⟩
    exact hnew prior hmem hsame

variable {α : Type}

lemma modify_append_cons (a b : List α) (x : α) (f : α → α) :
    (a ++ x :: b).modify a.length f = a ++ f x :: b := by
  induction a with
  | nil => rfl
  | cons y a ih => rw [cons_append, length_cons, modify_succ_cons, ih]; rfl

lemma exists_split_of_getElem? {l : List α} {i : ℕ} {x : α} (h : l[i]? = some x) :
    ∃ a b, l = a ++ x :: b ∧ a.length = i := by
  obtain ⟨hi, rfl⟩ := List.getElem?_eq_some_iff.mp h
  refine ⟨l.take i, l.drop (i + 1), ?_, by rw [length_take]; omega⟩
  rw [getElem_cons_drop, take_append_drop]

lemma Merged.again {a b : List HLSLGlobalDeclarationField} {prior : HLSLGlobalDeclarationField}
    (h : Merged entries (a ++ prior :: b)) {e : Entry} (he : e.declared = prior.declared) :
    Merged (entries ++ [e]) (a ++ addWitness e.witness e.current prior :: b) := by
  have hsame := declared_addWitness e.witness e.current prior
  have hmap : (a ++ addWitness e.witness e.current prior :: b).map
      HLSLGlobalDeclarationField.declared =
      (a ++ prior :: b).map HLSLGlobalDeclarationField.declared := by
    simp only [map_append, map_cons, hsame]
  have hother : ∀ field, field ∈ a ∨ field ∈ b → e.declared ≠ field.declared := by
    obtain ⟨-, hright, hleft⟩ := pairwise_append.mp h.apart
    rintro field (hfld | hfld)
    · rw [he]
      exact (hleft field hfld prior mem_cons_self).ne.symm
    · rw [he]
      exact ((pairwise_cons.mp hright).1 field hfld).ne
  refine ⟨?_, fun d => ?_, fun field hfld => ?_⟩
  · have hapart := pairwise_map.mpr h.apart
    rw [← hmap] at hapart
    exact pairwise_map.mp hapart
  · have hmem : (∃ field ∈ a ++ addWitness e.witness e.current prior :: b, field.declared = d) ↔
        ∃ field ∈ a ++ prior :: b, field.declared = d := by
      rw [← mem_map, ← mem_map, hmap]
    rw [hmem, h.declared_iff]
    simp only [mem_append, mem_singleton, or_and_right, exists_or, exists_eq_left]
    refine ⟨.inl, ?_⟩
    rintro (hd | rfl)
    · exact hd
    · rw [he]
      exact (h.declared_iff _).mp ⟨prior, mem_append_right _ mem_cons_self, rfl⟩
  · rcases mem_append.mp hfld with hmem | hmem
    · exact (h.field field (mem_append_left _ hmem)).frame (hother field (.inl hmem))
    · rcases mem_cons.mp hmem with rfl | hmem
      · exact (h.field prior (mem_append_right _ mem_cons_self)).add he
      · exact (h.field field (mem_append_right _ (mem_cons_of_mem _ hmem))).frame
          (hother field (.inr hmem))

lemma Merged.first (h : Merged entries fields) {e : Entry}
    (he : ∀ prior ∈ fields, Apart prior.declared e.declared) :
    Merged (entries ++ [e]) (fields ++ [addWitness e.witness e.current e.field]) := by
  have hsame : (addWitness e.witness e.current e.field).declared = e.declared :=
    declared_addWitness _ _ _
  refine ⟨?_, fun d => ?_, fun field hfld => ?_⟩
  · refine pairwise_append.mpr ⟨h.apart, pairwise_singleton _ _, ?_⟩
    intro prior hprior field hfld
    rw [mem_singleton.mp hfld, hsame]
    exact he prior hprior
  · have hd := h.declared_iff d
    simp only [mem_append, mem_singleton, or_and_right, exists_or, exists_eq_left, hsame, hd]
  · rcases mem_append.mp hfld with hmem | hmem
    · exact (h.field field hmem).frame (he field hmem).ne.symm
    · rw [mem_singleton.mp hmem]
      refine FieldOf.first fun prior hprior heq => ?_
      obtain ⟨field, hmem, hdecl⟩ := (h.declared_iff _).mpr ⟨prior, hprior, rfl⟩
      exact (he field hmem).ne (hdecl.trans heq)

/-- **One entry.** It is added unless it is in conflict with an entry before, or new and one too
many. -/
theorem addEntry_spec (h : Merged entries fields) (e : Entry) :
    (∃ fields', addEntry fields e = .ok fields' ∧ Merged (entries ++ [e]) fields' ∧
        (fields.length ≤ 4096 → fields'.length ≤ 4096) ∧
        ∀ prior ∈ entries, prior.declared ≠ e.declared → Apart prior.declared e.declared) ∨
      (∃ status, addEntry fields e = .error status ∧
        ((∃ prior ∈ entries, prior.declared ≠ e.declared ∧ ¬ Apart prior.declared e.declared) ∨
          (4096 ≤ fields.length ∧ ∀ prior ∈ entries, prior.declared ≠ e.declared))) := by
  have hent : ∀ prior ∈ entries, ∃ field ∈ fields, field.declared = prior.declared :=
    fun prior hprior => (h.declared_iff _).mpr ⟨prior, hprior, rfl⟩
  unfold addEntry add_field
  rcases findSlot_spec e.field h.apart with ⟨hfind, hall⟩ | ⟨i, prior, hfind, hprior, hsame⟩ |
    ⟨hfind, prior, hprior, hne, hnot⟩
  · simp only [hfind]
    have hapart : ∀ prior ∈ entries, Apart prior.declared e.declared := by
      intro prior hprior
      obtain ⟨field, hfld, heq⟩ := hent prior hprior
      rw [← heq]
      exact hall field hfld
    by_cases hfull : 4096 ≤ fields.length
    · rw [if_pos hfull]
      exact .inr ⟨_, rfl, .inr ⟨hfull, fun prior hprior => (hapart prior hprior).ne⟩⟩
    · rw [if_neg hfull]
      refine .inl ⟨_, rfl, h.first hall, fun _ => ?_, fun prior hprior _ => hapart prior hprior⟩
      rw [length_append, length_singleton]
      omega
  · simp only [hfind]
    obtain ⟨a, b, rfl, rfl⟩ := exists_split_of_getElem? hprior
    rw [modify_append_cons]
    refine .inl ⟨_, rfl, h.again hsame.symm, fun hle => ?_, fun other hother hne => ?_⟩
    · rw [length_append, length_cons] at hle ⊢
      exact hle
    -- the entry declares what the field at its slot declares, and that is apart from the others
    obtain ⟨field, hfld, heq⟩ := hent other hother
    have hprior' : prior.declared = e.declared := hsame
    obtain ⟨-, hright, hleft⟩ := pairwise_append.mp h.apart
    rw [← heq, ← hprior']
    rw [← heq, ← hprior'] at hne
    rcases mem_append.mp hfld with hmem | hmem
    · exact hleft field hmem prior mem_cons_self
    · rcases mem_cons.mp hmem with rfl | hmem
      · exact absurd rfl hne
      · exact ((pairwise_cons.mp hright).1 field hmem).symm
  · simp only [hfind]
    obtain ⟨other, hother, heq⟩ := (h.declared_iff _).mp ⟨prior, hprior, rfl⟩
    rw [← heq] at hne hnot
    exact .inr ⟨_, rfl, .inl ⟨other, hother, hne, hnot⟩⟩

/-- Any two entries are the same or apart. -/
def Compatible (entries : List Entry) : Prop :=
  ∀ a ∈ entries, ∀ b ∈ entries, a.declared ≠ b.declared → Apart a.declared b.declared

/-- What the entries declare, each once. -/
def declaredSet (entries : List Entry) : Finset Declared :=
  (entries.map fun e => e.declared).toFinset

lemma mem_declaredSet {d : Declared} :
    d ∈ declaredSet entries ↔ ∃ e ∈ entries, e.declared = d := by
  rw [declaredSet, mem_toFinset, mem_map]

lemma Merged.length_eq (h : Merged entries fields) : fields.length = (declaredSet entries).card := by
  have hnodup : (fields.map HLSLGlobalDeclarationField.declared).Nodup :=
    pairwise_map.mpr (h.apart.imp fun hapart => hapart.ne)
  have hset : declaredSet entries = (fields.map HLSLGlobalDeclarationField.declared).toFinset := by
    ext d
    rw [mem_declaredSet, ← h.declared_iff, mem_toFinset, mem_map]
  rw [hset, toFinset_card_of_nodup hnodup, length_map]

lemma Compatible.concat (h : Compatible entries) {e : Entry}
    (he : ∀ prior ∈ entries, prior.declared ≠ e.declared → Apart prior.declared e.declared) :
    Compatible (entries ++ [e]) := by
  intro a ha b hb hne
  rcases mem_append.mp ha with ha | ha
  · rcases mem_append.mp hb with hb | hb
    · exact h a ha b hb hne
    · rw [mem_singleton.mp hb] at hne ⊢
      exact he a ha hne
  · rcases mem_append.mp hb with hb | hb
    · rw [mem_singleton.mp ha] at hne ⊢
      exact (he b hb hne.symm).symm
    · rw [mem_singleton.mp ha, mem_singleton.mp hb] at hne
      exact absurd rfl hne

/-- **A run of entries.** Behind a union it goes through exactly when all of them are compatible and
not too many, and then it is their union. -/
theorem addEntries_spec (rest : List Entry) (h : Merged entries fields)
    (hcompatible : Compatible entries) (hcard : (declaredSet entries).card ≤ 4096) :
    (∃ fields', rest.foldlM addEntry fields = .ok fields' ∧ Merged (entries ++ rest) fields' ∧
        Compatible (entries ++ rest) ∧ (declaredSet (entries ++ rest)).card ≤ 4096) ∨
      (∃ status, rest.foldlM addEntry fields = .error status ∧
        ¬ (Compatible (entries ++ rest) ∧ (declaredSet (entries ++ rest)).card ≤ 4096)) := by
  induction rest generalizing entries fields with
  | nil =>
    rw [append_nil]
    exact .inl ⟨fields, rfl, h, hcompatible, hcard⟩
  | cons e rest ih =>
    have happend : entries ++ e :: rest = entries ++ [e] ++ rest := by
      rw [append_assoc]
      rfl
    rw [foldlM_cons]
    rcases addEntry_spec h e with ⟨fields', hrun, hmrg, hlen, hapart⟩ | ⟨status, hrun, hbad⟩
    · rw [hrun, happend]
      refine ih hmrg (hcompatible.concat hapart) ?_
      rw [← hmrg.length_eq]
      exact hlen (h.length_eq.le.trans hcard)
    · rw [hrun]
      refine .inr ⟨status, rfl, ?_⟩
      rintro ⟨hall, hfew⟩
      have he : e ∈ entries ++ e :: rest := mem_append_right _ mem_cons_self
      rcases hbad with ⟨prior, hprior, hne, hnot⟩ | ⟨hfull, hnew⟩
      · exact hnot (hall prior (mem_append_left _ hprior) e he hne)
      · -- the new declaration is one more than there may be
        have hnotMem : e.declared ∉ declaredSet entries := by
          rw [mem_declaredSet]
          rintro ⟨prior, hprior, heq⟩
          exact hnew prior hprior heq
        have hsubset : insert e.declared (declaredSet entries) ⊆
            declaredSet (entries ++ e :: rest) := by
          intro d hd
          rw [mem_declaredSet]
          rcases Finset.mem_insert.mp hd with rfl | hd
          · exact ⟨e, he, rfl⟩
          · obtain ⟨prior, hprior, heq⟩ := mem_declaredSet.mp hd
            exact ⟨prior, mem_append_left _ hprior, heq⟩
        have hcnt := Finset.card_le_card hsubset
        rw [Finset.card_insert_of_notMem hnotMem, ← h.length_eq] at hcnt
        omega

/-! ## Order -/

variable {l l' : List Entry}

lemma Compatible.perm (h : l.Perm l') (hl : Compatible l) : Compatible l' :=
  fun a ha b hb => hl a (h.mem_iff.mpr ha) b (h.mem_iff.mpr hb)

lemma declaredSet_perm (h : l.Perm l') : declaredSet l = declaredSet l' := by
  ext d
  simp only [mem_declaredSet, h.mem_iff]

lemma addEntries_ok_iff (l : List Entry) : (∃ fields, l.foldlM addEntry [] = .ok fields) ↔
      Compatible l ∧ (declaredSet l).card ≤ 4096 := by
  rcases addEntries_spec l merged_nil (nofun) (Nat.zero_le _) with
    ⟨fields, hrun, -, hgood⟩ | ⟨status, hrun, hbad⟩
  · exact iff_of_true ⟨fields, hrun⟩ hgood
  · refine iff_of_false ?_ hbad
    rintro ⟨fields, hok⟩
    rw [hrun] at hok
    nomatch hok

lemma merged_of_addEntries (h : l.foldlM addEntry [] = .ok fields) : Merged l fields := by
  rcases addEntries_spec l merged_nil (nofun) (Nat.zero_le _) with
    ⟨fields', hrun, hmrg, -⟩ | ⟨status, hrun, -⟩
  · rw [h] at hrun
    rw [Except.ok.inj hrun]
    exact hmrg
  · rw [h] at hrun
    nomatch hrun

lemma FieldOf.unique (h : l.Perm l') {a b : HLSLGlobalDeclarationField} (ha : FieldOf l a)
    (hb : FieldOf l' b) (heq : a.declared = b.declared) : a = b := by
  have hwit : a.witness_subprogram_indices = b.witness_subprogram_indices := by
    refine ha.sorted.eq_of_mem_iff hb.sorted fun w => ?_
    simp only [ha.witness_iff, hb.witness_iff, h.mem_iff, heq]
  have hcur : a.current_authority = b.current_authority := by
    rw [Bool.eq_iff_iff, ha.current_iff, hb.current_iff]
    simp only [h.mem_iff, heq]
  obtain ⟨aname, alayout, asize, acurrent, awitnesses⟩ := a
  obtain ⟨bname, blayout, bsize, bcurrent, bwitnesses⟩ := b
  simp only [HLSLGlobalDeclarationField.declared, Declared.mk.injEq] at heq
  simp only [HLSLGlobalDeclarationField.mk.injEq]
  exact ⟨heq.1, heq.2.1, heq.2.2, hcur, hwit⟩

lemma Merged.nodup (h : Merged l fields) : fields.Nodup :=
  h.apart.imp fun hapart heq => hapart.ne (congrArg _ heq)

lemma Merged.perm (h : l.Perm l') {fields' : List HLSLGlobalDeclarationField}
    (hl : Merged l fields) (hl' : Merged l' fields') : fields.Perm fields' := by
  refine (perm_ext_iff_of_nodup hl.nodup hl'.nodup).mpr fun field => ⟨fun hmem => ?_,
    fun hmem => ?_⟩
  · obtain ⟨e, he, heq⟩ := (hl.declared_iff _).mp ⟨field, hmem, rfl⟩
    obtain ⟨other, hother, hsame⟩ := (hl'.declared_iff _).mpr ⟨e, h.mem_iff.mp he, heq⟩
    rwa [(hl.field field hmem).unique h (hl'.field other hother) hsame.symm]
  · obtain ⟨e, he, heq⟩ := (hl'.declared_iff _).mp ⟨field, hmem, rfl⟩
    obtain ⟨other, hother, hsame⟩ := (hl.declared_iff _).mpr ⟨e, h.mem_iff.mpr he, heq⟩
    rwa [← (hl.field other hother).unique h (hl'.field field hmem) hsame]

end GlobalDeclarations

end DXBCSandbox
