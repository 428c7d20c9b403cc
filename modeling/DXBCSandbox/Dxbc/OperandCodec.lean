/-
The operand parser loses nothing.

`DXBCOperand.serialize` writes an operand tree back as words, from the fields the
parser keeps for that purpose. The result here is that a successful parse consumed
exactly those words, so the tree determines the token sequence.

The parser is a tower of small readers, so the argument is a Hoare logic of one
assertion, [`Takes`]: what a reader returns, together with the words it took. One
rule per combinator, then one fact per reader of `Operand`.
-/
import DXBCSandbox.Dxbc.Operand
import Mathlib.Tactic.IntervalCases

namespace DXBCSandbox

open List StepParser Prod

/-! ## The serialiser -/

def lowWord (v : UInt64) : UInt32 := v.toUInt32

def highWord (v : UInt64) : UInt32 := (v >>> 32).toUInt32

/-- The words an index representation asks for: an immediate of one or two words, a
nested operand, or first the one and then the other. -/
def representationWords (representation : ℕ) (value : UInt64) (relative : List UInt32) :
    List UInt32 :=
  match representation with
  | 0 => [lowWord value]
  | 1 => [lowWord value, highWord value]
  | 2 => relative
  | 3 => lowWord value :: relative
  | 4 => lowWord value :: highWord value :: relative
  | _ => []

namespace DXBCOperandFields

def headWords (f : DXBCOperandFields) : List UInt32 :=
  f.raw_token :: (f.extended_tokens ++ f.immediate_words)

/-- The words of dimension `d`, where `relative` are those of its nested operand. -/
def indexWords (f : DXBCOperandFields) (d : ℕ) (relative : List UInt32) : List UInt32 :=
  if d < f.register_index_dim then
    representationWords (f.index_representations.get d) (f.index_values.get d) relative
  else []

end DXBCOperandFields

/-- The words of an operand tree: token, extended tokens, immediates, dimensions. -/
def OperandRef.serialize : OperandRef → List UInt32
  | .null => []
  | .node f rel_op0 rel_op1 rel_op2 =>
    f.headWords ++ f.indexWords 0 rel_op0.serialize ++ f.indexWords 1 rel_op1.serialize ++
      f.indexWords 2 rel_op2.serialize

namespace DXBCOperand

variable (op : DXBCOperand)

def serialize : List UInt32 := op.ref.serialize

def dimensionWords (d : ℕ) : List UInt32 :=
  op.indexWords d (op.relative_operand d).serialize

lemma serialize_eq : op.serialize = op.headWords ++ (op.dimensionWords 0 ++ op.dimensionWords 1 ++
      op.dimensionWords 2) := by
  simp only [serialize, ref, OperandRef.serialize, dimensionWords, relative_operand, append_assoc]

end DXBCOperand

/-! ## The two halves of a 64-bit index -/

lemma lowWord_toUInt64 (lo : UInt32) : lowWord lo.toUInt64 = lo := by
  simp only [lowWord, UInt32.toUInt32_toUInt64]

lemma lowWord_join64 (lo hi : UInt32) : lowWord (join64 lo hi) = lo := by
  apply UInt32.toBitVec_inj.mp
  ext i hi'
  simp [lowWord, join64]

lemma highWord_join64 (lo hi : UInt32) : highWord (join64 lo hi) = hi := by
  apply UInt32.toBitVec_inj.mp
  ext i hi'
  -- bit `32 + i` of the join is a bit of the high half
  have h64 : 32 + i < 64 := by omega
  have hi64 : i < 64 := by omega
  simp [highWord, join64, h64, hi64, BitVec.getLsbD_eq_getElem hi']

/-! ## What a reader takes -/

/-- Every successful run of `p` reads some words `ws`, returns a value related to
them by `post`, and does not refill the operand budget. -/
def Takes {α : Type} (p : OperandParser α) (post : α → List UInt32 → Prop) : Prop :=
  ∀ c a c', p.run c = some (a, c') → ∃ ws, c.stream.Reads c'.stream ws ∧ post a ws ∧
      c'.operand_token_budget ≤ c.operand_token_budget

namespace Takes

variable {α β : Type} {post : α → List UInt32 → Prop}

lemma pure {a : α} (h : post a []) : Takes (Pure.pure a) post := by
  intro c b c' hrun
  obtain ⟨rfl, rfl⟩ := mk.inj (run_pure_eq_some.mp hrun)
  exact ⟨[], .nil _, h, le_rfl⟩

lemma failure : Takes Alternative.failure post := by
  intro c a c' hrun
  exact (run_failure_eq_some.mp hrun).elim

variable {p : OperandParser α}

lemma bind {f : α → OperandParser β} {mid : α → List UInt32 → Prop}
    {post : β → List UInt32 → Prop} (hp : Takes p mid)
    (hf : ∀ a ws, mid a ws → Takes (f a) (fun b vs => post b (ws ++ vs))) :
    Takes (p >>= f) post := by
  intro c b c'' hrun
  obtain ⟨a, c', h1, h2⟩ := run_bind_eq_some.mp hrun
  obtain ⟨ws, hws, hmid, hle⟩ := hp c a c' h1
  obtain ⟨vs, hvs, hpost, hle'⟩ := hf a ws hmid c' b c'' h2
  exact ⟨ws ++ vs, hws.append hvs, hpost, hle'.trans hle⟩

lemma failure_bind {f : α → OperandParser β} {post : β → List UInt32 → Prop} :
    Takes (Alternative.failure >>= f) post := by
  intro c b c' hrun
  obtain ⟨a, c₁, h, -⟩ := run_bind_eq_some.mp hrun
  exact (run_failure_eq_some.mp h).elim

lemma mono {post' : α → List UInt32 → Prop} (hp : Takes p post)
    (h : ∀ a ws, post a ws → post' a ws) : Takes p post' := by
  intro c a c' hrun
  obtain ⟨ws, hws, hpost, hle⟩ := hp c a c' hrun
  exact ⟨ws, hws, h a ws hpost, hle⟩

lemma guard_bind {q : Prop} [Decidable q] (hp : q → Takes p post) :
    Takes (do guard q; p) post := by
  intro c a c' hrun
  obtain ⟨hq, hrun⟩ := run_guard_bind_eq_some.mp hrun
  exact hp hq c a c' hrun

end Takes

/-! ## The readers -/

section Readers

variable {rt : UnityCommon} {limit : ℕ}

lemma operand_read_u32_takes : Takes (operand_read_u32 rt limit) (fun w ws => ws = [w]) := by
  intro c w c' hrun
  change operand_read_u32 rt limit c = some (w, c') at hrun
  unfold operand_read_u32 at hrun
  split at hrun
  · obtain ⟨⟨w', s'⟩, hread, heq⟩ := Option.map_eq_some_iff.mp hrun
    obtain ⟨rfl, rfl⟩ := mk.inj heq
    obtain ⟨hreads, -⟩ := UnityCommon.stream_read_uint32_reads hread
    exact ⟨[w'], hreads, rfl, le_rfl⟩
  · cases hrun

lemma read_immediate_words_takes (n : ℕ) :
    Takes (read_immediate_words rt limit n) (fun ws vs => vs = ws) := by
  induction n with
  | zero => exact .pure rfl
  | succ n ih =>
    refine .bind operand_read_u32_takes ?_
    rintro w _ rfl
    refine .bind ih ?_
    rintro ws _ rfl
    exact .pure (by rw [append_nil, singleton_append])

lemma ExtendedTokens.append_tokens {e e' : ExtendedTokens} {ext : UInt32}
    (h : e.append ext = some e') : e'.tokens = e.tokens ++ [ext] := by
  unfold ExtendedTokens.append at h
  simp only at h
  split at h
  · split at h
    · cases h
    · rw [← Option.some.inj h]
  · split at h
    · cases h
    · rw [← Option.some.inj h]

lemma read_extended_tokens_takes (turns : ℕ) (more : Bool) (e : ExtendedTokens) :
    Takes (read_extended_tokens rt limit turns more e)
      (fun e' ws => e'.tokens = e.tokens ++ ws) := by
  induction turns generalizing more e with
  | zero =>
    cases more with
    | false => exact .pure (append_nil _).symm
    | true => exact .failure
  | succ turns ih =>
    cases more with
    | false => exact .pure (append_nil _).symm
    | true =>
      refine .bind operand_read_u32_takes ?_
      rintro ext _ rfl
      cases happ : e.append ext with
      | none => exact .failure
      | some e₁ =>
        refine (ih _ e₁).mono ?_
        intro e' ws hws
        rw [hws, ExtendedTokens.append_tokens happ, append_assoc]

/-- The fields an operand is written back from, other than the dimensions. -/
def SameHead (op op' : DXBCOperand) : Prop :=
  op'.raw_token = op.raw_token ∧ op'.extended_tokens = op.extended_tokens ∧
    op'.immediate_words = op.immediate_words ∧ op'.register_index_dim = op.register_index_dim

lemma SameHead.trans {a b c : DXBCOperand} (h : SameHead a b) (h' : SameHead b c) :
    SameHead a c := by
  obtain ⟨h1, h2, h3, h4⟩ := h
  obtain ⟨h1', h2', h3', h4'⟩ := h'
  exact ⟨h1'.trans h1, h2'.trans h2, h3'.trans h3, h4'.trans h4⟩

lemma sameHead_set_index_value (op : DXBCOperand) (d : ℕ) (v : UInt64) :
    SameHead op (op.set_index_value d v) := ⟨rfl, rfl, rfl, rfl⟩

lemma sameHead_set_index_representation (op : DXBCOperand) (d r : ℕ) :
    SameHead op (op.set_index_representation d r) := ⟨rfl, rfl, rfl, rfl⟩

lemma sameHead_set_relative_operand (op : DXBCOperand) (d : ℕ) (rel : OperandRef) :
    SameHead op (op.set_relative_operand d rel) := by
  rcases d with _ | _ | d <;> exact ⟨rfl, rfl, rfl, rfl⟩

lemma sameHead_sync_legacy_index (op : DXBCOperand) (d : ℕ) :
    SameHead op (op.sync_legacy_index d) := by
  rcases d with _ | _ | d <;> exact ⟨rfl, rfl, rfl, rfl⟩

lemma SameHead.headWords_eq {op op' : DXBCOperand} (h : SameHead op op') :
    op'.headWords = op.headWords := by
  obtain ⟨hraw, hext, himm, -⟩ := h
  simp only [DXBCOperandFields.headWords, hraw, hext, himm]

lemma read_immediates_takes (code : ℕ) (op : DXBCOperand) (himm : op.immediate_words = []) :
    Takes (read_immediates rt limit code op) (fun op' ws =>
      op'.raw_token = op.raw_token ∧ op'.extended_tokens = op.extended_tokens ∧
        op'.immediate_words = ws ∧ op'.register_index_dim = op.register_index_dim) := by
  unfold read_immediates
  split
  · refine .guard_bind fun _ => ?_
    refine .bind (read_immediate_words_takes _) ?_
    rintro words _ rfl
    dsimp only
    split
    · exact .pure ⟨rfl, rfl, (append_nil _).symm, rfl⟩
    · exact .pure ⟨rfl, rfl, (append_nil _).symm, rfl⟩
  · exact .pure ⟨rfl, rfl, himm, rfl⟩

/-- `op'` is `op` with dimension `d` filled in from the words `ws`. -/
structure Fills (op op' : DXBCOperand) (d : ℕ) (ws : List UInt32) : Prop where
  head : SameHead op op'
  words : op'.dimensionWords d = ws
  others : ∀ e, e < 3 → e ≠ d → op'.dimensionWords e = op.dimensionWords e

variable {d : ℕ}

/-- What the stores of one turn of the index loop add up to: representation `r`,
value `v` and nested operand `rel` in dimension `d`. -/
theorem fills_of_stores {op op' : DXBCOperand} {r : ℕ} {v : UInt64} {rel : OperandRef} (hd : d < 3)
    (hdim : d < op.register_index_dim) (head : SameHead op op')
    (hrep : op'.index_representations = op.index_representations.set d r)
    (hval : ∀ e, e < 3 → op'.index_values.get e = if e = d then v else op.index_values.get e)
    (hrel : ∀ e, e < 3 → op'.relative_operand e = if e = d then rel else op.relative_operand e) :
    Fills op op' d (representationWords r v rel.serialize) := by
  refine ⟨head, ?_, ?_⟩
  · simp only [DXBCOperand.dimensionWords, DXBCOperandFields.indexWords, head.2.2.2, if_pos hdim,
      hrep, Dims.get_set _ _ _ _ hd hd, hval d hd, hrel d hd, if_true]
  · intro e he hne
    simp only [DXBCOperand.dimensionWords, DXBCOperandFields.indexWords, head.2.2.2, hrep,
      Dims.get_set _ _ _ _ hd he, hval e he, hrel e he, if_neg hne]

variable (op : DXBCOperand)

lemma fills_set_index_value (r : ℕ) (v : UInt64) (hd : d < 3) (hdim : d < op.register_index_dim) :
    Fills op (((op.set_index_representation d r).set_index_value d v).sync_legacy_index d) d
      (representationWords r v (op.relative_operand d).serialize) := by
  refine fills_of_stores hd hdim (.trans (sameHead_set_index_representation op d r) <|
    (sameHead_set_index_value _ d v).trans (sameHead_sync_legacy_index _ d)) (by simp) ?_ ?_
  · intro e he
    simp [Dims.get_set _ _ _ _ hd he]
  · intro e he
    by_cases hed : e = d
    · simp [hed]
    · simp [hed]

lemma fills_set_relative_operand (r : ℕ) (rel : OperandRef) (hd : d < 3)
    (hdim : d < op.register_index_dim) :
    Fills op (((op.set_index_representation d r).set_relative_operand d rel).sync_legacy_index d)
      d (representationWords r (op.index_values.get d) rel.serialize) := by
  refine fills_of_stores hd hdim (.trans (sameHead_set_index_representation op d r) <|
    (sameHead_set_relative_operand _ d rel).trans (sameHead_sync_legacy_index _ d)) (by simp) ?_ ?_
  · intro e he
    by_cases hed : e = d
    · simp [hed]
    · simp [hed]
  · intro e he
    simp [DXBCOperand.relative_operand_set_relative_operand _ _ _ _ hd he]

lemma fills_set_index_value_relative (r : ℕ) (v : UInt64) (rel : OperandRef) (hd : d < 3)
    (hdim : d < op.register_index_dim) :
    Fills op ((((op.set_index_representation d r).set_index_value d v).set_relative_operand d
      rel).sync_legacy_index d) d (representationWords r v rel.serialize) := by
  refine fills_of_stores hd hdim (.trans (sameHead_set_index_representation op d r) <|
    (sameHead_set_index_value _ d v).trans <|
    (sameHead_set_relative_operand _ d rel).trans (sameHead_sync_legacy_index _ d)) (by simp) ?_ ?_
  · intro e he
    simp [Dims.get_set _ _ _ _ hd he]
  · intro e he
    simp [DXBCOperand.relative_operand_set_relative_operand _ _ _ _ hd he]

variable {nested : OperandParser DXBCOperand}

lemma read_index_takes (hnested : Takes nested (fun op ws => ws = op.serialize))
    (op : DXBCOperand) (d : ℕ) (hd : d < 3) (hdim : d < op.register_index_dim) :
    Takes (read_index rt limit nested op d) (fun op' ws => Fills op op' d ws) := by
  unfold read_index
  generalize ((op.raw_token >>> (22 + 3 * d).toUInt32) &&& 0x7).toNat = r
  rcases r with _ | _ | _ | _ | _ | r
  · refine .bind operand_read_u32_takes ?_
    rintro lo _ rfl
    have h := fills_set_index_value op 0 lo.toUInt64 hd hdim
    rw [representationWords, lowWord_toUInt64] at h
    exact .pure h
  · refine .bind operand_read_u32_takes ?_
    rintro lo _ rfl
    refine .bind operand_read_u32_takes ?_
    rintro hi _ rfl
    have h := fills_set_index_value op 1 (join64 lo hi) hd hdim
    rw [representationWords, lowWord_join64, highWord_join64] at h
    exact .pure h
  · refine .bind hnested ?_
    rintro rel _ rfl
    have h := fills_set_relative_operand op 2 rel.ref hd hdim
    refine .pure ?_
    rw [append_nil]
    exact h
  · refine .bind operand_read_u32_takes ?_
    rintro lo _ rfl
    refine .bind hnested ?_
    rintro rel _ rfl
    have h := fills_set_index_value_relative op 3 lo.toUInt64 rel.ref hd hdim
    rw [representationWords, lowWord_toUInt64] at h
    refine .pure ?_
    rw [append_nil]
    exact h
  · refine .bind operand_read_u32_takes ?_
    rintro lo _ rfl
    refine .bind operand_read_u32_takes ?_
    rintro hi _ rfl
    refine .bind hnested ?_
    rintro rel _ rfl
    have h := fills_set_index_value_relative op 4 (join64 lo hi) rel.ref hd hdim
    rw [representationWords, lowWord_join64, highWord_join64] at h
    refine .pure ?_
    rw [append_nil]
    exact h
  · exact .failure_bind

/-- The index loop from dimension `d` on: it fills `d, …, d + n - 1` in order and
leaves the dimensions before `d` alone. -/
theorem read_indices_takes (hnested : Takes nested (fun op ws => ws = op.serialize)) (n d : ℕ)
    (op : DXBCOperand) (hd : d + n ≤ 3) (hdim : d + n ≤ op.register_index_dim) :
    Takes (read_indices rt limit nested n d op) (fun op' ws =>
      SameHead op op' ∧ ws = (List.range' d n).flatMap op'.dimensionWords ∧
        ∀ e, e < d → op'.dimensionWords e = op.dimensionWords e) := by
  induction n generalizing d op with
  | zero => exact .pure ⟨⟨rfl, rfl, rfl, rfl⟩, rfl, fun _ _ => rfl⟩
  | succ n ih =>
    refine .bind (read_index_takes hnested op d (by omega) (by omega)) ?_
    intro op₁ ws hfill
    have hdim₁ : op₁.register_index_dim = op.register_index_dim := hfill.head.2.2.2
    refine (ih (d + 1) op₁ (by omega) (by omega)).mono ?_
    rintro op' vs ⟨hhead, hvs, hbefore⟩
    refine ⟨hfill.head.trans hhead, ?_, ?_⟩
    · rw [range'_succ, flatMap_cons, hbefore d (by omega), hfill.words, hvs]
    · intro e he
      rw [hbefore e (by omega), hfill.others e (by omega) (by omega)]

lemma set_swizzle_serialize : (set_swizzle op).serialize = op.serialize := by
  unfold set_swizzle
  split
  · split
    · rfl
    · split
      · rfl
      · rfl
  · rfl

lemma dimensionWords_flatMap (n : ℕ) (hn : n ≤ 3) (hdim : op.register_index_dim = n) :
    (List.range' 0 n).flatMap op.dimensionWords =
      op.dimensionWords 0 ++ op.dimensionWords 1 ++ op.dimensionWords 2 := by
  have hnil : ∀ d, n ≤ d → op.dimensionWords d = [] := by
    intro d hd
    rw [DXBCOperand.dimensionWords, DXBCOperandFields.indexWords, if_neg (by omega)]
  interval_cases n
  · simp [hnil]
  · simp [hnil, range'_succ]
  · simp [hnil, range'_succ]
  · simp [range'_succ]

lemma register_index_dim_le (token0 : UInt32) (e : ExtendedTokens) :
    (decode_operand_token token0 e).register_index_dim ≤ 3 := by
  change ((token0 >>> 20) &&& 0x3).toNat ≤ 3
  rw [UInt32.toNat_and]
  exact Nat.and_le_right

lemma spend_operand_token_takes : Takes (spend_operand_token limit) (fun _ ws => ws = []) := by
  intro c u c' hrun
  change spend_operand_token limit c = some (u, c') at hrun
  unfold spend_operand_token at hrun
  split at hrun
  · obtain ⟨-, rfl⟩ := mk.inj (Option.some.inj hrun)
    exact ⟨[], .nil _, rfl, Nat.sub_le _ _⟩
  · cases hrun

lemma parse_operand_body_takes (hnested : Takes nested (fun op ws => ws = op.serialize)) :
    Takes (parse_operand_body rt limit nested) (fun op ws => ws = op.serialize) := by
  refine .bind operand_read_u32_takes ?_
  rintro token0 _ rfl
  refine .bind (read_extended_tokens_takes _ _ _) ?_
  intro e exts hexts
  refine .guard_bind fun _ => ?_
  refine .bind (read_immediates_takes _ (decode_operand_token token0 e) rfl) ?_
  rintro op₁ imms ⟨hraw, hext, himm, hdim⟩
  have hdim₁ : op₁.register_index_dim ≤ 3 := hdim ▸ register_index_dim_le token0 e
  refine .bind (read_indices_takes hnested op₁.register_index_dim 0 op₁ (by omega) (by omega)) ?_
  rintro op₂ idx ⟨hhead, hidx, -⟩
  refine .pure ?_
  have hwords : op₂.headWords = token0 :: (exts ++ imms) := by
    rw [hhead.headWords_eq, DXBCOperandFields.headWords, hraw, hext, himm]
    change token0 :: (e.tokens ++ imms) = token0 :: (exts ++ imms)
    rw [hexts, nil_append]
  rw [set_swizzle_serialize, DXBCOperand.serialize_eq, hwords, hidx,
    dimensionWords_flatMap op₂ _ hdim₁ hhead.2.2.2]
  simp only [append_nil, cons_append, nil_append, append_assoc]

lemma parse_operand_recursive_impl_takes (depth : ℕ) :
    Takes (parse_operand_recursive_impl rt limit depth) (fun op ws => ws = op.serialize) := by
  induction depth with
  | zero => exact .failure
  | succ depth ih =>
    refine .bind spend_operand_token_takes ?_
    rintro _ _ rfl
    exact parse_operand_body_takes ih

end Readers

/-! ## The recursion bounds are never what stops the parser -/

/-- `p` and `q` run alike from every cursor with at most `b` operand tokens left. -/
def AgreeBelow {α : Type} (b : ℕ) (p q : OperandParser α) : Prop :=
  ∀ c : OperandCursor, c.operand_token_budget ≤ b → p.run c = q.run c

variable {b : ℕ}

lemma AgreeBelow.bind {α β : Type} {p q : OperandParser α} {f g : α → OperandParser β}
    {post : α → List UInt32 → Prop} (hpq : AgreeBelow b p q) (hp : Takes p post)
    (hfg : ∀ a ws, post a ws → AgreeBelow b (f a) (g a)) : AgreeBelow b (p >>= f) (q >>= g) := by
  intro c hc
  rw [StateT.run_bind, StateT.run_bind, ← hpq c hc]
  cases hrun : p.run c with
  | none => rfl
  | some r =>
    obtain ⟨ws, -, hpost, hle⟩ := hp c r.1 r.2 hrun
    exact hfg r.1 ws hpost r.2 (hle.trans hc)

lemma AgreeBelow.rfl {α : Type} {p : OperandParser α} : AgreeBelow b p p :=
  fun _ _ => Eq.refl _

lemma AgreeBelow.guard_bind {α : Type} {q : Prop} [Decidable q] {p p' : OperandParser α}
    (h : AgreeBelow b p p') : AgreeBelow b (do guard q; p) (do guard q; p') := by
  intro c hc
  by_cases hq : q
  · simpa only [guard, if_pos hq, pure_bind] using h c hc
  · simp only [guard, if_neg hq]
    exact Eq.refl _

section Bounds

variable {rt : UnityCommon} {limit : ℕ} {nested nested' : OperandParser DXBCOperand}

lemma read_index_agree {b : ℕ} {post : DXBCOperand → List UInt32 → Prop} (hn : Takes nested post)
    (h : AgreeBelow b nested nested') (op : DXBCOperand) (d : ℕ) :
    AgreeBelow b (read_index rt limit nested op d) (read_index rt limit nested' op d) := by
  unfold read_index
  generalize ((op.raw_token >>> (22 + 3 * d).toUInt32) &&& 0x7).toNat = r
  rcases r with _ | _ | _ | _ | _ | r
  · exact .rfl
  · exact .rfl
  · exact .bind h hn fun _ _ _ => .rfl
  · exact .bind .rfl operand_read_u32_takes fun _ _ _ => .bind h hn fun _ _ _ => .rfl
  · exact .bind .rfl operand_read_u32_takes fun _ _ _ =>
      .bind .rfl operand_read_u32_takes fun _ _ _ => .bind h hn fun _ _ _ => .rfl
  · exact .rfl

lemma read_indices_agree {b : ℕ} (hn : Takes nested (fun op ws => ws = op.serialize))
    (h : AgreeBelow b nested nested') (n d : ℕ) (op : DXBCOperand) (hd : d + n ≤ 3)
    (hdim : d + n ≤ op.register_index_dim) :
    AgreeBelow b (read_indices rt limit nested n d op) (read_indices rt limit nested' n d op) := by
  induction n generalizing d op with
  | zero => exact .rfl
  | succ n ih =>
    refine .bind (read_index_agree hn h op d) (read_index_takes hn op d (by omega) (by omega)) ?_
    intro op₁ ws hfill
    have hdim₁ : op₁.register_index_dim = op.register_index_dim := hfill.head.2.2.2
    exact ih (d + 1) op₁ (by omega) (by omega)

lemma parse_operand_body_agree {b : ℕ} (hn : Takes nested (fun op ws => ws = op.serialize))
    (h : AgreeBelow b nested nested') :
    AgreeBelow b (parse_operand_body rt limit nested) (parse_operand_body rt limit nested') := by
  refine .bind .rfl operand_read_u32_takes ?_
  intro token0 _ _
  refine .bind .rfl (read_extended_tokens_takes _ _ _) ?_
  intro e _ _
  refine .guard_bind (.bind .rfl (read_immediates_takes _ _ rfl) ?_)
  rintro op₁ _ ⟨-, -, -, hdim⟩
  have hdim₁ : op₁.register_index_dim ≤ 3 := hdim ▸ register_index_dim_le token0 e
  refine .bind (read_indices_agree hn h _ _ _ (by omega) (by omega))
    (read_indices_takes hn _ _ _ (by omega) (by omega)) ?_
  intro _ _ _
  exact .rfl

/-- One call of the parser: the entry check, then the body on one token less. -/
theorem parse_operand_recursive_impl_succ_run (depth : ℕ) (c : OperandCursor) :
    (parse_operand_recursive_impl rt limit (depth + 1)).run c =
      if c.operand_token_budget ≠ 0 ∧ limit ≤ c.stream.size ∧ c.stream.position ≤ limit ∧
          4 ≤ limit - c.stream.position then
        (parse_operand_body rt limit (parse_operand_recursive_impl rt limit depth)).run
          { c with operand_token_budget := c.operand_token_budget - 1 }
      else none := by
  rw [parse_operand_recursive_impl, StateT.run_bind]
  change (spend_operand_token limit c).bind _ = _
  unfold spend_operand_token
  split
  · rfl
  · rfl

lemma parse_operand_recursive_impl_depth (b depth depth' : ℕ) (h : b ≤ depth) (h' : b ≤ depth') :
    AgreeBelow b (parse_operand_recursive_impl rt limit depth)
      (parse_operand_recursive_impl rt limit depth') := by
  -- induction on the budget: the entry check spends one token before any nested call
  induction b generalizing depth depth' with
  | zero =>
    intro c hc
    have hnone : ∀ n, (parse_operand_recursive_impl rt limit n).run c = none := by
      intro n
      cases n with
      | zero => rfl
      | succ n =>
        rw [parse_operand_recursive_impl_succ_run, if_neg]
        omega
    rw [hnone, hnone]
  | succ b ih =>
    obtain ⟨depth, rfl⟩ : ∃ n, depth = n + 1 := ⟨depth - 1, by omega⟩
    obtain ⟨depth', rfl⟩ : ∃ n, depth' = n + 1 := ⟨depth' - 1, by omega⟩
    intro c hc
    rw [parse_operand_recursive_impl_succ_run, parse_operand_recursive_impl_succ_run]
    have hbody : AgreeBelow b
        (parse_operand_body rt limit (parse_operand_recursive_impl rt limit depth))
        (parse_operand_body rt limit (parse_operand_recursive_impl rt limit depth')) :=
      parse_operand_body_agree (parse_operand_recursive_impl_takes depth)
        (ih depth depth' (by omega) (by omega))
    rw [hbody { c with operand_token_budget := c.operand_token_budget - 1 }
      (Nat.sub_le_of_le_add hc)]

lemma operand_read_u32_position {c c' : OperandCursor} {w : UInt32}
    (h : (operand_read_u32 rt limit).run c = some (w, c')) :
    c'.stream.position = c.stream.position + 4 ∧ c.stream.position + 4 ≤ limit := by
  obtain ⟨_, hreads, rfl, -⟩ := operand_read_u32_takes c w c' h
  refine ⟨hreads.position_eq, ?_⟩
  change operand_read_u32 rt limit c = some (w, c') at h
  unfold operand_read_u32 at h
  split at h
  · omega
  · cases h

/-- With less than a word left, an announced extended token cannot be read. -/
theorem read_extended_tokens_short (turns : ℕ) (e : ExtendedTokens) (c : OperandCursor)
    (h : (limit - c.stream.position) / 4 = 0) :
    (read_extended_tokens rt limit turns true e).run c = none := by
  cases turns with
  | zero => rfl
  | succ turns =>
    have hshort : ¬(c.stream.position ≤ limit ∧ 4 ≤ limit - c.stream.position) := by omega
    rw [read_extended_tokens, StateT.run_bind]
    change (operand_read_u32 rt limit c).bind _ = none
    rw [operand_read_u32, if_neg hshort]
    rfl

/-- The extended-token loop never runs out of turns: past one turn for each word
before `limit`, more turns change nothing. -/
theorem read_extended_tokens_turns (turns turns' : ℕ) (more : Bool) (e : ExtendedTokens)
    (c : OperandCursor) (h : (limit - c.stream.position) / 4 ≤ turns)
    (h' : (limit - c.stream.position) / 4 ≤ turns') :
    (read_extended_tokens rt limit turns more e).run c =
      (read_extended_tokens rt limit turns' more e).run c := by
  cases more with
  | false => cases turns <;> cases turns' <;> rfl
  | true =>
    induction turns generalizing turns' e c with
    | zero =>
      rw [read_extended_tokens_short _ _ _ (by omega), read_extended_tokens_short _ _ _ (by omega)]
    | succ turns ih =>
      cases turns' with
      | zero =>
        rw [read_extended_tokens_short _ _ _ (by omega),
          read_extended_tokens_short _ _ _ (by omega)]
      | succ turns' =>
        rw [read_extended_tokens, read_extended_tokens, StateT.run_bind, StateT.run_bind]
        cases hread : (operand_read_u32 rt limit).run c with
        | none => rfl
        | some r =>
          obtain ⟨hpos, hle⟩ := operand_read_u32_position hread
          change StateT.run _ r.2 = StateT.run _ r.2
          cases e.append r.1 with
          | none => rfl
          | some e₁ =>
            dsimp only
            cases hmore : r.1 &&& 0x80000000 != 0 with
            | false => cases turns <;> cases turns' <;> rfl
            | true => exact ih turns' e₁ r.2 (by omega) (by omega)

end Bounds

/-! ## Losslessness -/

lemma parse_operand_recursive_reads {rt : UnityCommon} {limit : ℕ}
    {stream stream' : ByteStream} {op : DXBCOperand}
    (h : parse_operand_recursive rt limit stream = (some op, stream')) :
    stream.Reads stream' op.serialize := by
  unfold parse_operand_recursive at h
  dsimp only at h
  split at h
  · rename_i op' c hrun
    obtain ⟨rfl, rfl⟩ : op' = op ∧ c.stream = stream' := by
      simpa only [mk.injEq, Option.some.injEq] using h
    obtain ⟨ws, hreads, rfl, -⟩ := parse_operand_recursive_impl_takes _ _ _ _ hrun
    exact hreads
  · simp only [mk.injEq, reduceCtorEq, false_and] at h

/-- **The operand codec is lossless.** Writing back the returned tree gives the words
the parser consumed, and a tree comes from one word sequence only, whatever the
streams, limits and positions of the two parses. -/
theorem parse_operand_recursive_lossless (rt : UnityCommon) (limit : ℕ) (stream : ByteStream)
    (op : DXBCOperand) (stream' : ByteStream)
    (h : parse_operand_recursive rt limit stream = (some op, stream')) :
    op.serialize = stream.consumed stream' ∧ stream' = stream.advance (4 * op.serialize.length) ∧
      ∀ (limit₂ : ℕ) (stream₂ stream₂' : ByteStream),
        parse_operand_recursive rt limit₂ stream₂ = (some op, stream₂') →
          stream₂.consumed stream₂' = stream.consumed stream' := by
  have hreads := parse_operand_recursive_reads h
  refine ⟨hreads.consumed_eq.symm, hreads.1, ?_⟩
  intro limit₂ stream₂ stream₂' h₂
  rw [(parse_operand_recursive_reads h₂).consumed_eq, hreads.consumed_eq]

/-- The operand `-v[r1.x + 2].xyzw`: an extended token, and a dimension that is an
immediate plus a nested operand. -/
def indexedInputBytes : Bytes :=
  [0x46, 0x1e, 0xd0, 0x80, 0x41, 0, 0, 0, 2, 0, 0, 0, 0x0a, 0, 0x10, 0, 1, 0, 0, 0]

/-- That operand parses, and is written back as its five words. -/
theorem parse_indexed_input_lossless :
    ∃ op stream', parse_operand_recursive .reference 20 ⟨indexedInputBytes, 0⟩ =
        (some op, stream') ∧
      op.serialize = [0x80d01e46, 0x41, 2, 0x10000a, 1] ∧
      op.serialize = ByteStream.consumed ⟨indexedInputBytes, 0⟩ stream' := by
  have hsome : (parse_operand_recursive .reference 20 ⟨indexedInputBytes, 0⟩).1.map
      DXBCOperand.serialize = some [0x80d01e46, 0x41, 2, 0x10000a, 1] := by decide +kernel
  obtain ⟨op, hop, hwords⟩ := Option.map_eq_some_iff.mp hsome
  have hparse : parse_operand_recursive .reference 20 ⟨indexedInputBytes, 0⟩ =
      (some op, (parse_operand_recursive .reference 20 ⟨indexedInputBytes, 0⟩).2) :=
    Prod.ext hop (Eq.refl _)
  exact ⟨op, _, hparse, hwords, (parse_operand_recursive_lossless _ _ _ _ _ hparse).1⟩

end DXBCSandbox
