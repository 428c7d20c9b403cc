/-
The bounds of the operand parser (`src/dxbc/dxbc_operand.c`).

Two facts carry the argument. The parser with its exits does what `Operand` says, and a failure
anywhere ends at the limit. And each reader pays for the operands it returns: an operand costs one
token of the budget and at least one word of the stream.
-/
import DXBCSandbox.Dxbc.OperandCodec
import DXBCSandbox.Dxbc.OperandExits

namespace DXBCSandbox

open StepParser Prod

namespace OperandExits

variable {rt : UnityCommon} {limit : ℕ} {α β : Type}

/-! ## Every failure ends at the limit -/

lemma run_bind (p : OperandRun α) (f : α → OperandRun β) (c : OperandCursor) :
    (p >>= f).run c = match p.run c with
      | (some a, c') => (f a).run c'
      | (none, c') => (none, c') := by
  rw [OptionT.run_bind, Option.elimM]
  change StateT.run ((p.run c).1.elim (Pure.pure none) fun x => (f x).run) (p.run c).2 = _
  rcases p.run c with ⟨_ | a, c'⟩
  · rfl
  · rfl

lemma run_orParseFailed (p : OperandRun α) (c : OperandCursor) :
    (orParseFailed limit p).run c = match p.run c with
      | (some a, c') => (some a, c')
      | (none, c') => (none, move_to_limit limit c') := by
  rw [orParseFailed, OptionT.run_mk]
  rcases hrun : p.run c with ⟨_ | a, c'⟩
  · simp only [bind, StateT.bind, hrun]
    rfl
  · simp only [bind, StateT.bind, hrun]
    rfl

/-- `p` is `q` with its exits: it succeeds alike, and it fails with the stream at the limit. -/
def Exits (limit : ℕ) (p : OperandRun α) (q : OperandParser α) : Prop :=
  ∀ c : OperandCursor, limit ≤ c.stream.size →
    (∀ a c', q.run c = some (a, c') → p.run c = (some a, c')) ∧
    (q.run c = none → (p.run c).1 = none ∧ (p.run c).2.stream = ⟨c.stream.data, limit⟩)

lemma move_to_limit_stream {c : OperandCursor} (h : limit ≤ c.stream.size) :
    (move_to_limit limit c).stream = ⟨c.stream.data, limit⟩ := by
  rw [move_to_limit, if_pos h]

namespace Exits

lemma pure (a : α) : Exits limit (Pure.pure a) (Pure.pure a) := by
  intro c _
  refine ⟨fun b c' h => ?_, fun h => absurd h (by simp)⟩
  obtain ⟨rfl, rfl⟩ := mk.inj (run_pure_eq_some.mp h)
  rfl

lemma failed : Exits limit (operand_parse_failed limit : OperandRun α) failure := by
  intro c hsize
  exact ⟨fun a c' h => (run_failure_eq_some.mp h).elim, fun _ => ⟨rfl, move_to_limit_stream hsize⟩⟩

variable {p : OperandRun α} {q : OperandParser α}

/-- Sequencing. The first part leaves the data alone, so the limit stays in the array. -/
theorem bind {f : α → OperandRun β} {g : α → OperandParser β} {post : α → List UInt32 → Prop}
    (hp : Exits limit p q) (hq : Takes q post) (hf : ∀ a ws, post a ws → Exits limit (f a) (g a)) :
    Exits limit (p >>= f) (q >>= g) := by
  intro c hsize
  obtain ⟨hsome, hnone⟩ := hp c hsize
  rw [run_bind]
  cases hfst : q.run c with
  | none =>
    obtain ⟨h1, h2⟩ := hnone hfst
    rw [show p.run c = (none, (p.run c).2) from Prod.ext h1 rfl]
    refine ⟨fun b c' h => ?_, fun _ => ⟨rfl, h2⟩⟩
    obtain ⟨a, c₁, h, -⟩ := run_bind_eq_some.mp h
    rw [hfst] at h
    simp at h
  | some r =>
    obtain ⟨ws, hreads, hpost, -⟩ := hq c r.1 r.2 hfst
    have hsize' : limit ≤ r.2.stream.size := by
      rw [ByteStream.size, hreads.data_eq]
      exact hsize
    have hrest := hf r.1 ws hpost r.2 hsize'
    rw [hreads.data_eq] at hrest
    rw [hsome r.1 r.2 hfst, StateT.run_bind, hfst]
    exact hrest

/-- A call that is followed by an exit may fail anywhere in the array. -/
theorem orFailed (h : ∀ c : OperandCursor, limit ≤ c.stream.size →
      (∀ a c', q.run c = some (a, c') → p.run c = (some a, c')) ∧
      (q.run c = none → (p.run c).1 = none ∧ (p.run c).2.stream.data = c.stream.data)) :
    Exits limit (orParseFailed limit p) q := by
  intro c hsize
  obtain ⟨hsome, hnone⟩ := h c hsize
  rw [run_orParseFailed]
  constructor
  · intro a c' hq
    rw [hsome a c' hq]
  · intro hq
    obtain ⟨h1, h2⟩ := hnone hq
    have hsize' : limit ≤ (p.run c).2.stream.size := by
      rw [ByteStream.size, h2]
      exact hsize
    rw [show p.run c = (none, (p.run c).2) from Prod.ext h1 rfl]
    exact ⟨rfl, (move_to_limit_stream hsize').trans (by rw [h2])⟩

/-- An exit after a call that ends at the limit anyway changes nothing. -/
theorem again (h : Exits limit p q) : Exits limit (orParseFailed limit p) q :=
  orFailed fun c hsize => ⟨(h c hsize).1, fun hq =>
    ⟨((h c hsize).2 hq).1, by rw [((h c hsize).2 hq).2]⟩⟩

lemma test {fails passes : Prop} [Decidable fails] [Decidable passes] (htest : passes ↔ ¬ fails)
    (h : Exits limit p q) :
    Exits limit (if fails then operand_parse_failed limit else p) (do guard passes; q) := by
  by_cases hc : fails
  · rw [if_pos hc]
    simp only [guard, if_neg fun hpasses => htest.mp hpasses hc]
    exact failed
  · rw [if_neg hc]
    simpa only [guard, if_pos (htest.mpr hc), pure_bind] using h

end Exits

/-! ## The readers -/

/-- A read succeeds exactly when a word is left in front of the limit. -/
theorem operand_read_u32_run (c : OperandCursor) :
    (∀ a c', (DXBCSandbox.operand_read_u32 rt limit).run c = some (a, c') →
      (operand_read_u32 rt limit).run c = (some a, c')) ∧
    ((DXBCSandbox.operand_read_u32 rt limit).run c = none →
      (operand_read_u32 rt limit).run c = (none, c)) := by
  change (∀ a c', DXBCSandbox.operand_read_u32 rt limit c = some (a, c') → _) ∧
    (DXBCSandbox.operand_read_u32 rt limit c = none → _)
  rw [operand_read_u32, OptionT.run_mk]
  unfold DXBCSandbox.operand_read_u32
  by_cases hroom : c.stream.position ≤ limit ∧ 4 ≤ limit - c.stream.position
  · simp only [if_pos hroom]
    cases rt.stream_read_uint32 c.stream with
    | none => simp
    | some read => simp
  · simp only [if_neg hroom]
    simp

lemma read_exits : Exits limit (orParseFailed limit (operand_read_u32 rt limit))
      (DXBCSandbox.operand_read_u32 rt limit) :=
  Exits.orFailed fun c _ => ⟨(operand_read_u32_run c).1, fun hq => by
    rw [(operand_read_u32_run c).2 hq]
    exact ⟨rfl, rfl⟩⟩

lemma read_immediate_words_exits (n : ℕ) : Exits limit (read_immediate_words rt limit n)
      (DXBCSandbox.read_immediate_words rt limit n) := by
  induction n with
  | zero => exact .pure _
  | succ n ih =>
    exact .bind read_exits operand_read_u32_takes fun word _ _ =>
      .bind ih (read_immediate_words_takes n) fun words _ _ => .pure _

lemma read_extended_tokens_exits (turns : ℕ) (more : Bool) (e : ExtendedTokens) :
    Exits limit (read_extended_tokens rt limit turns more e)
      (DXBCSandbox.read_extended_tokens rt limit turns more e) := by
  induction turns generalizing more e with
  | zero =>
    cases more with
    | false => exact .pure _
    | true => exact .failed
  | succ turns ih =>
    cases more with
    | false => exact .pure _
    | true =>
      refine .bind read_exits operand_read_u32_takes fun ext _ _ => ?_
      cases e.append ext with
      | none => exact .failed
      | some e => exact ih _ e

lemma read_immediates_exits (component_count_code : ℕ) (op : DXBCOperand) :
    Exits limit (read_immediates rt limit component_count_code op)
      (DXBCSandbox.read_immediates rt limit component_count_code op) := by
  unfold read_immediates DXBCSandbox.read_immediates
  by_cases himm : op.type = .immediate32 ∨ op.type = .immediate64
  · rw [if_pos himm, if_pos himm]
    refine .test not_not.symm (.bind (read_immediate_words_exits _)
      (read_immediate_words_takes _) fun words _ _ => ?_)
    dsimp only
    split
    · exact .pure _
    · exact .pure _
  · rw [if_neg himm, if_neg himm]
    exact .pure op

variable {nested : OperandRun DXBCOperand} {nested' : OperandParser DXBCOperand}

lemma read_index_exits (h : Exits limit nested nested')
    (hn : Takes nested' fun op ws => ws = op.serialize) (op : DXBCOperand) (d : ℕ) :
    Exits limit (read_index rt limit nested op d)
      (DXBCSandbox.read_index rt limit nested' op d) := by
  unfold read_index DXBCSandbox.read_index
  dsimp only
  generalize ((op.raw_token >>> (22 + 3 * d).toUInt32) &&& 0x7).toNat = r
  rcases r with _ | _ | _ | _ | _ | r
  · exact .bind read_exits operand_read_u32_takes fun _ _ _ => .pure _
  · exact .bind read_exits operand_read_u32_takes fun _ _ _ =>
      .bind read_exits operand_read_u32_takes fun _ _ _ => .pure _
  · exact .bind h.again hn fun _ _ _ => .pure _
  · exact .bind read_exits operand_read_u32_takes fun _ _ _ =>
      .bind h.again hn fun _ _ _ => .pure _
  · exact .bind read_exits operand_read_u32_takes fun _ _ _ =>
      .bind read_exits operand_read_u32_takes fun _ _ _ => .bind h.again hn fun _ _ _ => .pure _
  · exact .bind .failed (@Takes.failure DXBCOperand fun _ _ => True) fun _ _ _ => .pure _

lemma read_indices_exits (h : Exits limit nested nested')
    (hn : Takes nested' fun op ws => ws = op.serialize) (n d : ℕ) (op : DXBCOperand)
    (hd : d + n ≤ 3) (hdim : d + n ≤ op.register_index_dim) :
    Exits limit (read_indices rt limit nested n d op)
      (DXBCSandbox.read_indices rt limit nested' n d op) := by
  induction n generalizing d op with
  | zero => exact .pure op
  | succ n ih =>
    refine .bind (read_index_exits h hn op d) (read_index_takes hn op d (by omega) (by omega)) ?_
    intro op₁ ws hfill
    have hdim₁ : op₁.register_index_dim = op.register_index_dim := hfill.head.2.2.2
    exact ih (d + 1) op₁ (by omega) (by omega)

variable {turns : ℕ}

lemma extended_tokens_exits (hturns : limit / 4 ≤ turns) (more : Bool) (e : ExtendedTokens) :
    Exits limit (read_extended_tokens rt limit turns more e)
      (DXBCSandbox.read_extended_tokens rt limit (limit / 4) more e) := by
  intro c hsize
  have hwords : (limit - c.stream.position) / 4 ≤ limit / 4 :=
    Nat.div_le_div_right (Nat.sub_le _ _)
  rw [read_extended_tokens_turns (limit / 4) turns more e c hwords (hwords.trans hturns)]
  exact read_extended_tokens_exits turns more e c hsize

/-- **The body.** Its first read finds the word that the entry check has asked for, and every later
failure has an exit. -/
theorem parse_operand_body_exits (hturns : limit / 4 ≤ turns) (h : Exits limit nested nested')
    (hn : Takes nested' fun op ws => ws = op.serialize) {c : OperandCursor}
    (hsize : limit ≤ c.stream.size) (hpos : c.stream.position ≤ limit)
    (hroom : 4 ≤ limit - c.stream.position) :
    (∀ op c', (DXBCSandbox.parse_operand_body rt limit nested').run c = some (op, c') →
      (parse_operand_body rt limit turns nested).run c = (some op, c')) ∧
    ((DXBCSandbox.parse_operand_body rt limit nested').run c = none →
      ((parse_operand_body rt limit turns nested).run c).1 = none ∧
      ((parse_operand_body rt limit turns nested).run c).2.stream = ⟨c.stream.data, limit⟩) := by
  obtain ⟨token0, c₁, hread⟩ : ∃ token0 c₁,
      (DXBCSandbox.operand_read_u32 rt limit).run c = some (token0, c₁) := by
    change ∃ token0 c₁, DXBCSandbox.operand_read_u32 rt limit c = some (token0, c₁)
    rw [DXBCSandbox.operand_read_u32, if_pos ⟨hpos, hroom⟩, rt.stream_read_uint32_eq,
      if_pos (by omega)]
    exact ⟨_, _, rfl⟩
  obtain ⟨ws, hreads, -, -⟩ := operand_read_u32_takes c token0 c₁ hread
  have hsize₁ : limit ≤ c₁.stream.size := by
    rw [ByteStream.size, hreads.data_eq]
    exact hsize
  rw [parse_operand_body, run_bind, (operand_read_u32_run c).1 _ _ hread,
    DXBCSandbox.parse_operand_body, StateT.run_bind, hread, ← hreads.data_eq]
  dsimp only [Option.bind_eq_bind, Option.bind_some]
  refine Exits.bind (extended_tokens_exits hturns _ _) (read_extended_tokens_takes _ _ _)
    (fun e _ _ => ?_) c₁ hsize₁
  refine .test Iff.rfl (.bind (read_immediates_exits _ _) (read_immediates_takes _ _ rfl) ?_)
  rintro op₁ _ ⟨-, -, -, hdim⟩
  have hdim₁ : op₁.register_index_dim ≤ 3 := hdim ▸ register_index_dim_le token0 e
  exact .bind (read_indices_exits h hn _ _ _ (by omega) (by omega))
    (read_indices_takes hn _ _ _ (by omega) (by omega)) fun _ _ _ => .pure _

/-- **The recursion.** -/
theorem parse_operand_recursive_impl_exits (hturns : limit / 4 ≤ turns) (depth : ℕ) :
    Exits limit (parse_operand_recursive_impl rt limit turns depth)
      (DXBCSandbox.parse_operand_recursive_impl rt limit depth) := by
  induction depth with
  | zero => exact .failed
  | succ depth ih =>
    intro c hsize
    rw [parse_operand_recursive_impl, run_bind, spend_operand_token, OptionT.run_mk,
      parse_operand_recursive_impl_succ_run]
    by_cases hent : c.operand_token_budget ≠ 0 ∧ limit ≤ c.stream.size ∧
        c.stream.position ≤ limit ∧ 4 ≤ limit - c.stream.position
    · rw [if_pos hent, if_neg (by omega)]
      exact parse_operand_body_exits hturns ih (parse_operand_recursive_impl_takes depth)
        (c := { c with operand_token_budget := c.operand_token_budget - 1 }) hsize hent.2.2.1
        hent.2.2.2
    · rw [if_neg hent, if_pos (by omega)]
      exact ⟨fun op c' h => absurd h (by simp), fun _ => ⟨rfl, move_to_limit_stream hsize⟩⟩

end OperandExits

/-! ## What an operand costs -/

def OperandRef.nodes : OperandRef → ℕ
  | .null => 0
  | .node _ rel_op0 rel_op1 rel_op2 => rel_op0.nodes + rel_op1.nodes + rel_op2.nodes + 1

namespace DXBCOperand

variable (op : DXBCOperand)

def relativeNodes : ℕ :=
  op.rel_op0.nodes + op.rel_op1.nodes + op.rel_op2.nodes

def nodes : ℕ := op.ref.nodes

lemma nodes_eq : op.nodes = op.relativeNodes + 1 := rfl

@[simp] lemma relativeNodes_sync_legacy_index (d : ℕ) :
    (op.sync_legacy_index d).relativeNodes = op.relativeNodes := by
  rcases d with _ | _ | d <;> rfl

lemma relativeNodes_set_relative_operand_le (d : ℕ) (rel : OperandRef) :
    (op.set_relative_operand d rel).relativeNodes ≤ rel.nodes + op.relativeNodes := by
  rcases d with _ | _ | d
  all_goals
    simp only [set_relative_operand, relativeNodes]
    omega

@[simp] lemma relativeNodes_set_swizzle : (set_swizzle op).relativeNodes = op.relativeNodes := by
  unfold set_swizzle
  split_ifs
  all_goals rfl

end DXBCOperand

/-- Every success pays for what it returns. It counts `made` operands, of which `base` were there
before: each of the others has taken a token of the budget and a word of the stream, and nothing is
read beyond the limit. -/
def Pays {α : Type} (limit : ℕ) (p : OperandParser α) (made : α → ℕ) (base : ℕ) : Prop :=
  ∀ c a c', p.run c = some (a, c') →
    c'.operand_token_budget + made a ≤ c.operand_token_budget + base ∧
    c.stream.position + 4 * made a ≤ c'.stream.position + 4 * base ∧
    (c.stream.position ≤ limit → c'.stream.position ≤ limit)

namespace Pays

variable {α β : Type} {limit base : ℕ} {made : α → ℕ}

lemma pure {a : α} (h : made a ≤ base) : Pays limit (Pure.pure a) made base := by
  intro c b c' hrun
  obtain ⟨rfl, rfl⟩ := mk.inj (run_pure_eq_some.mp hrun)
  exact ⟨by omega, by omega, id⟩

lemma failure : Pays limit Alternative.failure made base := by
  intro c a c' hrun
  exact (run_failure_eq_some.mp hrun).elim

variable {p : OperandParser α}

/-- Sequencing. The second part counts what the first one has made, and `rest` others. -/
theorem bind {f : α → OperandParser β} {made' : β → ℕ} {first : ℕ} (rest : ℕ)
    (hp : Pays limit p made first) (hf : ∀ a, Pays limit (f a) made' (made a + rest))
    (hbase : base = first + rest) : Pays limit (p >>= f) made' base := by
  intro c b c'' hrun
  obtain ⟨a, c', h1, h2⟩ := run_bind_eq_some.mp hrun
  obtain ⟨hbudget, hpos, hle⟩ := hp c a c' h1
  obtain ⟨hbudget', hpos', hle'⟩ := hf a c' b c'' h2
  exact ⟨by omega, by omega, fun h => hle' (hle h)⟩

lemma read_bind {f : α → OperandParser β} {made : β → ℕ} (hp : Pays limit p (fun _ => 0) 0)
    (hf : ∀ a, Pays limit (f a) made base) : Pays limit (p >>= f) made base :=
  .bind base hp (fun a => by rw [Nat.zero_add]; exact hf a) (Nat.zero_add base).symm

lemma guard_bind {q : Prop} [Decidable q] (hp : Pays limit p made base) :
    Pays limit (do guard q; p) made base := by
  intro c a c' hrun
  exact hp c a c' (run_guard_bind_eq_some.mp hrun).2

end Pays

section Costs

variable {rt : UnityCommon} {limit : ℕ}

lemma operand_read_u32_pays : Pays limit (operand_read_u32 rt limit) (fun _ => 0) 0 := by
  intro c w c' hrun
  obtain ⟨-, -, -, hbudget⟩ := operand_read_u32_takes c w c' hrun
  obtain ⟨hpos, hle⟩ := operand_read_u32_position hrun
  refine ⟨hbudget, ?_, fun _ => by omega⟩
  dsimp only
  omega

lemma read_immediate_words_pays (n : ℕ) :
    Pays limit (read_immediate_words rt limit n) (fun _ => 0) 0 := by
  induction n with
  | zero => exact .pure le_rfl
  | succ n ih => exact .read_bind operand_read_u32_pays fun _ => .read_bind ih fun _ => .pure le_rfl

lemma read_extended_tokens_pays (turns : ℕ) (more : Bool) (e : ExtendedTokens) :
    Pays limit (read_extended_tokens rt limit turns more e) (fun _ => 0) 0 := by
  induction turns generalizing more e with
  | zero =>
    cases more with
    | false => exact .pure le_rfl
    | true => exact .failure
  | succ turns ih =>
    cases more with
    | false => exact .pure le_rfl
    | true =>
      refine .read_bind operand_read_u32_pays fun ext => ?_
      cases e.append ext with
      | none => exact .failure
      | some e => exact ih _ e

lemma read_immediates_pays (component_count_code : ℕ) (op : DXBCOperand) :
    Pays limit (read_immediates rt limit component_count_code op)
      DXBCOperand.relativeNodes op.relativeNodes := by
  unfold read_immediates
  split
  · refine .guard_bind (.read_bind (read_immediate_words_pays _) fun words => ?_)
    dsimp only
    split
    · exact .pure le_rfl
    · exact .pure le_rfl
  · exact .pure le_rfl

variable {nested : OperandParser DXBCOperand}

lemma read_index_pays (hnested : Pays limit nested DXBCOperand.nodes 0) (op : DXBCOperand) (d : ℕ)
    : Pays limit (read_index rt limit nested op d) DXBCOperand.relativeNodes op.relativeNodes := by
  have hrel : ∀ (op₁ : DXBCOperand) (relative : DXBCOperand),
      ((op₁.set_relative_operand d relative.ref).sync_legacy_index d).relativeNodes ≤
        relative.nodes + op₁.relativeNodes := fun op₁ relative => by
    rw [DXBCOperand.relativeNodes_sync_legacy_index]
    exact op₁.relativeNodes_set_relative_operand_le d relative.ref
  have hsync (op₁ : DXBCOperand) := (op₁.relativeNodes_sync_legacy_index d).le
  unfold read_index
  generalize ((op.raw_token >>> (22 + 3 * d).toUInt32) &&& 0x7).toNat = r
  rcases r with _ | _ | _ | _ | _ | r
  · exact .read_bind operand_read_u32_pays fun _ => .pure (hsync _)
  · exact .read_bind operand_read_u32_pays fun _ =>
      .read_bind operand_read_u32_pays fun _ => .pure (hsync _)
  · exact .bind op.relativeNodes hnested (fun _ => .pure (hrel _ _)) (Nat.zero_add _).symm
  · exact .read_bind operand_read_u32_pays fun _ =>
      .bind op.relativeNodes hnested (fun _ => .pure (hrel _ _)) (Nat.zero_add _).symm
  · exact .read_bind operand_read_u32_pays fun _ => .read_bind operand_read_u32_pays fun _ =>
      .bind op.relativeNodes hnested (fun _ => .pure (hrel _ _)) (Nat.zero_add _).symm
  · exact .failure

lemma read_indices_pays (hnested : Pays limit nested DXBCOperand.nodes 0) (n d : ℕ)
    (op : DXBCOperand) :
    Pays limit (read_indices rt limit nested n d op)
      DXBCOperand.relativeNodes op.relativeNodes := by
  induction n generalizing d op with
  | zero => exact .pure le_rfl
  | succ n ih => exact .bind 0 (read_index_pays hnested op d) (fun op₁ => ih _ op₁) rfl

/-- **One operand.** Its own word is the first one that the body reads. -/
theorem parse_operand_body_pays (hnested : Pays limit nested DXBCOperand.nodes 0)
    {c c' : OperandCursor} {op : DXBCOperand}
    (hrun : (parse_operand_body rt limit nested).run c = some (op, c')) :
    c'.operand_token_budget + op.nodes ≤ c.operand_token_budget + 1 ∧
      c.stream.position + 4 * op.nodes ≤ c'.stream.position ∧ c'.stream.position ≤ limit := by
  obtain ⟨token0, c₁, hread, hrest⟩ := run_bind_eq_some.mp hrun
  obtain ⟨-, -, -, hbudget₁⟩ := operand_read_u32_takes c token0 c₁ hread
  obtain ⟨hpos₁, hle₁⟩ := operand_read_u32_position hread
  have hbody : Pays limit (do
      let e ← read_extended_tokens rt limit (limit / 4) (token0 &&& 0x80000000 != 0)
        ⟨[], false, 0, 0⟩
      let component_count_code := (token0 &&& 0x3).toNat
      let op := decode_operand_token token0 e
      guard ¬(component_count_code = 3 ∨ (component_count_code = 2 ∧ op.swizzle_mode = 3))
      let op ← read_immediates rt limit component_count_code op
      let op ← read_indices rt limit nested op.register_index_dim 0 op
      pure (set_swizzle op)) DXBCOperand.relativeNodes 0 := by
    refine .read_bind (read_extended_tokens_pays _ _ _) fun e => .guard_bind ?_
    refine .bind 0 (read_immediates_pays _ _) (fun op₁ => ?_) rfl
    exact .bind 0 (read_indices_pays hnested _ _ _) (fun op₂ => .pure (by simp)) rfl
  obtain ⟨hbudget, hpos, hle⟩ := hbody c₁ op c' hrest
  rw [DXBCOperand.nodes_eq]
  exact ⟨by omega, by omega, hle (by omega)⟩

lemma parse_operand_recursive_impl_pays (depth : ℕ) :
    Pays limit (parse_operand_recursive_impl rt limit depth) DXBCOperand.nodes 0 := by
  induction depth with
  | zero => exact .failure
  | succ depth ih =>
    intro c op c' hrun
    rw [parse_operand_recursive_impl_succ_run] at hrun
    split at hrun
    · rename_i hent
      obtain ⟨hbudget, hpos, hle⟩ := parse_operand_body_pays ih hrun
      dsimp only at hbudget hpos
      exact ⟨by omega, by omega, fun _ => hle⟩
    · simp at hrun

end Costs

namespace OperandExits

variable {rt : UnityCommon} {limit : ℕ} {stream : ByteStream}

/-- **The parser with its exits.** It is the parser of `Operand`, whatever bounds its loop and its
depth have, as long as they are large enough. -/
theorem parse_operand_within_eq {turns depth : ℕ} (hturns : limit / 4 ≤ turns)
    (hdepth : operandTokenBudget limit stream ≤ depth) :
    parse_operand_within rt limit turns depth stream =
      DXBCSandbox.parse_operand_recursive rt limit stream := by
  unfold parse_operand_within
  rw [DXBCSandbox.parse_operand_recursive,
    show (if limit ≤ stream.size ∧ stream.position ≤ limit then _ else 0) =
      operandTokenBudget limit stream from rfl]
  rw [parse_operand_recursive_impl_depth _ _ depth le_rfl hdepth
    ⟨stream, operandTokenBudget limit stream⟩ le_rfl]
  by_cases hsize : limit ≤ stream.size
  · obtain ⟨hsome, hnone⟩ := @parse_operand_recursive_impl_exits rt limit turns hturns depth
      ⟨stream, operandTokenBudget limit stream⟩ hsize
    cases hrun : (DXBCSandbox.parse_operand_recursive_impl rt limit depth).run
        ⟨stream, operandTokenBudget limit stream⟩ with
    | some r => simp only [hsome r.1 r.2 hrun]
    | none =>
      obtain ⟨h1, h2⟩ := hnone hrun
      exact Prod.ext h1 (h2.trans (if_pos hsize).symm)
  · -- a limit beyond the array is refused at the entry
    have hzero : operandTokenBudget limit stream = 0 := if_neg fun h => hsize h.1
    rw [hzero]
    have hstay : ∀ c : OperandCursor, c.stream = stream → move_to_limit limit c = c := by
      rintro c rfl
      rw [move_to_limit, if_neg hsize]
    cases depth with
    | zero =>
      change (none, (move_to_limit limit _).stream) = (none, _)
      rw [hstay _ rfl, if_neg hsize]
    | succ depth =>
      rw [parse_operand_recursive_impl, run_bind, spend_operand_token, OptionT.run_mk,
        parse_operand_recursive_impl_succ_run, if_pos (.inl rfl), if_neg fun h => h.1 rfl]
      change (none, (move_to_limit limit _).stream) = (none, _)
      rw [hstay _ rfl, if_neg hsize]

lemma parse_operand_recursive_eq (stream : ByteStream) : parse_operand_recursive rt limit stream =
      DXBCSandbox.parse_operand_recursive rt limit stream :=
  parse_operand_within_eq le_rfl le_rfl

lemma parse_operand_recursive_pays {stream' : ByteStream} {op : DXBCOperand}
    (h : parse_operand_recursive rt limit stream = (some op, stream')) :
    stream'.data = stream.data ∧ stream.position < stream'.position ∧ stream'.position ≤ limit ∧
      op.nodes ≤ operandTokenBudget limit stream ∧
      op.nodes ≤ (stream'.position - stream.position) / 4 := by
  rw [parse_operand_recursive_eq] at h
  have hreads := parse_operand_recursive_reads h
  unfold DXBCSandbox.parse_operand_recursive at h
  dsimp only at h
  split at h
  · rename_i op' c hrun
    obtain ⟨rfl, rfl⟩ : op' = op ∧ c.stream = stream' := by
      simpa only [mk.injEq, Option.some.injEq] using h
    obtain ⟨hbudget, hpos, hle⟩ := parse_operand_recursive_impl_pays _ _ _ _ hrun
    change c.operand_token_budget + op'.nodes ≤ operandTokenBudget limit stream + 0 at hbudget
    change stream.position + 4 * op'.nodes ≤ c.stream.position + 4 * 0 at hpos
    have hnodes := op'.nodes_eq
    -- a budget that paid for an operand was given for a position in front of the limit
    have hstart : stream.position ≤ limit := by
      by_contra hbeyond
      have hzero : operandTokenBudget limit stream = 0 := if_neg fun h => hbeyond h.2
      omega
    exact ⟨hreads.data_eq, by omega, hle hstart, by omega, by omega⟩
  · simp only [mk.injEq, reduceCtorEq, false_and] at h

lemma parse_operand_recursive_fails {stream' : ByteStream} (hsize : limit ≤ stream.size)
    (h : parse_operand_recursive rt limit stream = (none, stream')) :
    stream' = ⟨stream.data, limit⟩ := by
  rw [parse_operand_recursive_eq] at h
  unfold DXBCSandbox.parse_operand_recursive at h
  dsimp only at h
  split at h
  · simp only [mk.injEq, reduceCtorEq, false_and] at h
  · rw [if_pos hsize] at h
    exact (mk.inj h).2.symm

lemma operand_read_u32_at_limit {data : Bytes} (budget : ℕ) :
    ((operand_read_u32 rt limit).run ⟨⟨data, limit⟩, budget⟩).1 = none := by
  rw [operand_read_u32, OptionT.run_mk, if_neg]
  dsimp only
  omega

lemma parse_operand_recursive_at_limit {data : Bytes} (hsize : limit ≤ data.length) :
    parse_operand_recursive rt limit ⟨data, limit⟩ = (none, ⟨data, limit⟩) := by
  cases hrun : parse_operand_recursive rt limit ⟨data, limit⟩ with
  | mk result stream' =>
    cases result with
    | none => rw [parse_operand_recursive_fails hsize hrun]
    | some op =>
      obtain ⟨-, hmoved, hle, -, -⟩ := parse_operand_recursive_pays hrun
      dsimp only at hmoved
      omega

/-- **The bounds of the operand parser.** From any position in any array, with a limit in the array:
a success has moved the position, not beyond the limit, and the tree that it returns has no more
operands than the budget allows and than words were read. A failure leaves the position at the
limit, where no word and no operand can be read. And neither the bound of the loop over extended
tokens nor that of the depth is ever what stops the parser. -/
theorem operand_parser_bounds (rt : UnityCommon) (limit : ℕ) (stream : ByteStream)
    (hlimit : limit ≤ stream.size) :
    (∀ op stream', parse_operand_recursive rt limit stream = (some op, stream') →
      stream'.data = stream.data ∧
      stream.position < stream'.position ∧ stream'.position ≤ limit ∧
      op.nodes ≤ operandTokenBudget limit stream ∧
      op.nodes ≤ (stream'.position - stream.position) / 4) ∧
    (∀ stream', parse_operand_recursive rt limit stream = (none, stream') →
      stream' = ⟨stream.data, limit⟩ ∧
      (∀ budget, ((operand_read_u32 rt limit).run ⟨stream', budget⟩).1 = none) ∧
      parse_operand_recursive rt limit stream' = (none, stream')) ∧
    ∀ turns depth, limit / 4 ≤ turns → operandTokenBudget limit stream ≤ depth →
      parse_operand_within rt limit turns depth stream =
        parse_operand_recursive rt limit stream := by
  refine ⟨fun op stream' h => parse_operand_recursive_pays h, fun stream' h => ?_,
    fun turns depth hturns hdepth => ?_⟩
  · obtain rfl := parse_operand_recursive_fails hlimit h
    exact ⟨rfl, operand_read_u32_at_limit, parse_operand_recursive_at_limit hlimit⟩
  · rw [parse_operand_within_eq hturns hdepth, parse_operand_recursive_eq]

/-- An index that needs another operand, at the end of the array. -/
theorem operand_parser_bounds_sample :
    parse_operand_recursive .reference 8 ⟨[0x46, 0x1e, 0xd0, 0, 2, 0, 0, 0], 0⟩ =
        (none, ⟨[0x46, 0x1e, 0xd0, 0, 2, 0, 0, 0], 8⟩) ∧
      ((operand_read_u32 .reference 8).run ⟨⟨[0x46, 0x1e, 0xd0, 0, 2, 0, 0, 0], 8⟩, 0⟩).1 = none :=
  have hrun : parse_operand_recursive .reference 8 ⟨[0x46, 0x1e, 0xd0, 0, 2, 0, 0, 0], 0⟩ =
      (none, ⟨[0x46, 0x1e, 0xd0, 0, 2, 0, 0, 0], 8⟩) := by decide +kernel
  ⟨hrun, ((operand_parser_bounds .reference 8 ⟨[0x46, 0x1e, 0xd0, 0, 2, 0, 0, 0], 0⟩
    (by decide)).2.1 _ hrun).2.1 0⟩

end OperandExits

end DXBCSandbox
