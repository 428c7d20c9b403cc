/-
Readers, and what they accept.

A reader is a step parser that moves along a tape of symbols or fails. [`Tape.Accepts`] says
that it succeeds exactly on the spellings of its results. One such fact is both halves of a round
trip: a spelling is read back, and what is read is a spelling. It composes along the `do` block of
a reader, and the loops over counted items have their own rules.
-/
import DXBCSandbox.Lib.StepParser

namespace DXBCSandbox

open List StepParser

variable {σ τ α β : Type}

/-- How the states of a reader move along symbols. -/
structure Tape (σ τ : Type) where
  /-- The states a reader may be started in. -/
  Ok : σ → Prop
  /-- The second state is the first one, behind the symbols. -/
  Moves : σ → List τ → σ → Prop
  moves_nil : ∀ {s s'}, Moves s [] s' ↔ s' = s
  moves_append : ∀ {s u v s''}, Moves s (u ++ v) s'' ↔ ∃ s', Moves s u s' ∧ Moves s' v s''
  ok_of_moves : ∀ {s w s'}, Ok s → Moves s w s' → Ok s'

/-! ## Spellings in a row -/

/-- The spellings of the items one after the other. An item may know its index. -/
def SpellsEach (Spells : ℕ → α → List τ → Prop) : ℕ → List α → List τ → Prop
  | _, [], w => w = []
  | i, x :: xs, w => ∃ u v, Spells i x u ∧ SpellsEach Spells (i + 1) xs v ∧ w = u ++ v

section Row

variable {Spells : ℕ → α → List τ → Prop} {i : ℕ} {xs : List α} {w : List τ}

lemma spellsEach_append {ys : List α} :
    SpellsEach Spells i (xs ++ ys) w ↔ ∃ u v, SpellsEach Spells i xs u ∧
      SpellsEach Spells (i + xs.length) ys v ∧ w = u ++ v := by
  induction xs generalizing i w with
  | nil =>
    constructor
    · intro h
      exact ⟨[], w, rfl, h, rfl⟩
    · rintro ⟨u, v, rfl, hv, rfl⟩
      exact hv
  | cons x xs ih =>
    rw [length_cons, show i + (xs.length + 1) = i + 1 + xs.length by omega]
    constructor
    · rintro ⟨u, v, hx, hrest, rfl⟩
      obtain ⟨a, b, hxs, hys, rfl⟩ := ih.mp hrest
      exact ⟨u ++ a, b, ⟨u, a, hx, hxs, rfl⟩, hys, by rw [append_assoc]⟩
    · rintro ⟨u, v, ⟨a, b, hx, hxs, rfl⟩, hys, rfl⟩
      exact ⟨a, b ++ v, hx, ih.mpr ⟨b, v, hxs, hys, rfl⟩, by rw [append_assoc]⟩

/-- Where an item does not look at its index, the row does not either. -/
theorem spellsEach_shift {Spells : α → List τ → Prop} (j : ℕ) :
    SpellsEach (fun _ => Spells) i xs w ↔ SpellsEach (fun _ => Spells) j xs w := by
  induction xs generalizing i j w with
  | nil => exact Iff.rfl
  | cons x xs ih =>
    exact exists₂_congr fun u v => and_congr_right fun _ => and_congr_left fun _ => ih (j + 1)

lemma spellsEach_iff_flatMap {P : ℕ → α → Prop} {enc : α → List τ} :
    SpellsEach (fun k x u => P k x ∧ u = enc x) i xs w ↔
      (∀ k x, xs[k]? = some x → P (i + k) x) ∧ w = xs.flatMap enc := by
  induction xs generalizing i w with
  | nil =>
    constructor
    · intro h
      refine ⟨fun k x hx => ?_, h⟩
      cases hx
    · exact fun h => h.2
  | cons x xs ih =>
    constructor
    · rintro ⟨u, v, ⟨hx, rfl⟩, hxs, rfl⟩
      obtain ⟨hrest, rfl⟩ := ih.mp hxs
      refine ⟨fun k y hy => ?_, rfl⟩
      cases k with
      | zero =>
        cases hy
        exact hx
      | succ k =>
        rw [show i + (k + 1) = i + 1 + k by omega]
        exact hrest k y hy
    · rintro ⟨hall, rfl⟩
      refine ⟨enc x, xs.flatMap enc, ⟨hall 0 x rfl, rfl⟩, ih.mpr ⟨fun k y hy => ?_, rfl⟩, rfl⟩
      rw [show i + 1 + k = i + (k + 1) by omega]
      exact hall (k + 1) y hy

/-- A row of items that are made from others, each with one chosen spelling. -/
theorem spellsEach_map {f : β → α} {enc : β → List τ} {xs : List β}
    (h : ∀ k x, xs[k]? = some x → Spells (i + k) (f x) (enc x)) :
    SpellsEach Spells i (xs.map f) (xs.flatMap enc) := by
  induction xs generalizing i with
  | nil => rfl
  | cons x xs ih =>
    refine ⟨enc x, xs.flatMap enc, h 0 x rfl, ih fun k y hy => ?_, rfl⟩
    rw [show i + 1 + k = i + (k + 1) by omega]
    exact h (k + 1) y hy

lemma SpellsEach.imp {Spells' : ℕ → α → List τ → Prop} (h : SpellsEach Spells i xs w)
    (himp : ∀ k x u, i ≤ k → Spells k x u → Spells' k x u) : SpellsEach Spells' i xs w := by
  induction xs generalizing i w with
  | nil => exact h
  | cons x xs ih =>
    obtain ⟨u, v, hx, hxs, rfl⟩ := h
    refine ⟨u, v, himp i x u (Nat.le_refl i) hx, ih hxs fun k y w hk hy => ?_, rfl⟩
    exact himp k y w (by omega) hy

/-- A row of items that each take at least `least` takes at least so much for each of them. -/
theorem SpellsEach.le_size {size : List τ → ℕ} (hsize : ∀ u v, size (u ++ v) = size u + size v)
    {least : ℕ} (hleast : ∀ i x u, Spells i x u → least ≤ size u) (h : SpellsEach Spells i xs w) :
    xs.length * least ≤ size w := by
  induction xs generalizing i w with
  | nil =>
    rw [length_nil, Nat.zero_mul]
    exact Nat.zero_le _
  | cons x xs ih =>
    obtain ⟨u, v, hx, hxs, rfl⟩ := h
    have hfst := hleast i x u hx
    have hrest := ih hxs
    rw [length_cons, Nat.succ_mul, hsize]
    omega

end Row

/-! ## Acceptance -/

namespace Tape

variable {T : Tape σ τ}

/-- The reader succeeds exactly on the spellings of its results. -/
def Accepts (T : Tape σ τ) (p : StateT σ Option α) (Spells : α → List τ → Prop) : Prop :=
  ∀ ⦃s⦄, T.Ok s → ∀ x s', p.run s = some (x, s') ↔ ∃ w, Spells x w ∧ T.Moves s w s'

lemma accepts_pure (a : α) : T.Accepts (pure a) fun x w => x = a ∧ w = [] := by
  intro s _ x s'
  rw [run_pure_eq_some]
  constructor
  · intro h
    cases h
    exact ⟨[], ⟨rfl, rfl⟩, T.moves_nil.mpr rfl⟩
  · rintro ⟨w, ⟨rfl, rfl⟩, hmoves⟩
    rw [T.moves_nil.mp hmoves]

variable {p : StateT σ Option α} {R : α → List τ → Prop}

lemma Accepts.bind {f : α → StateT σ Option β} {Q : α → β → List τ → Prop} (hp : T.Accepts p R)
    (hf : ∀ x, T.Accepts (f x) (Q x)) :
    T.Accepts (p >>= f) fun y w => ∃ x u v, R x u ∧ Q x y v ∧ w = u ++ v := by
  intro s hs y s''
  rw [run_bind_eq_some]
  constructor
  · rintro ⟨x, s', hx, hy⟩
    obtain ⟨u, hu, hmove⟩ := (hp hs x s').mp hx
    obtain ⟨v, hv, hmove'⟩ := (hf x (T.ok_of_moves hs hmove) y s'').mp hy
    exact ⟨u ++ v, ⟨x, u, v, hu, hv, rfl⟩, T.moves_append.mpr ⟨s', hmove, hmove'⟩⟩
  · rintro ⟨w, ⟨x, u, v, hu, hv, rfl⟩, hmoves⟩
    obtain ⟨s', hmove, hmove'⟩ := T.moves_append.mp hmoves
    exact ⟨x, s', (hp hs x s').mpr ⟨u, hu, hmove⟩,
      (hf x (T.ok_of_moves hs hmove) y s'').mpr ⟨v, hv, hmove'⟩⟩

lemma Accepts.congr {Q : α → List τ → Prop} (hp : T.Accepts p R) (h : ∀ x w, R x w ↔ Q x w) :
    T.Accepts p Q := by
  intro s hs x s'
  rw [hp hs x s']
  exact exists_congr fun w => and_congr_left fun _ => h x w

lemma Accepts.map (hp : T.Accepts p R) (f : α → β) :
    T.Accepts (do let x ← p; pure (f x)) fun y w => ∃ x, y = f x ∧ R x w := by
  apply (hp.bind fun x => accepts_pure (f x)).congr
  intro y w
  constructor
  · rintro ⟨x, u, v, hx, ⟨rfl, rfl⟩, rfl⟩
    rw [append_nil]
    exact ⟨x, rfl, hx⟩
  · rintro ⟨x, rfl, hx⟩
    exact ⟨x, w, [], hx, ⟨rfl, rfl⟩, (append_nil w).symm⟩

lemma Accepts.lift_bind {o : Option α} {f : α → StateT σ Option β}
    {Q : α → β → List τ → Prop} (hf : ∀ x, T.Accepts (f x) (Q x)) :
    T.Accepts (do let x ← o; f x) fun y w => ∃ x, o = some x ∧ Q x y w := by
  intro s hs y s'
  rw [run_lift_bind_eq_some]
  constructor
  · rintro ⟨x, hx, hrun⟩
    obtain ⟨w, hw, hmoves⟩ := (hf x hs y s').mp hrun
    exact ⟨w, ⟨x, hx, hw⟩, hmoves⟩
  · rintro ⟨w, ⟨x, hx, hw⟩, hmoves⟩
    exact ⟨x, hx, (hf x hs y s').mpr ⟨w, hw, hmoves⟩⟩

lemma Accepts.guard_bind {c : Prop} [Decidable c] (hp : T.Accepts p R) :
    T.Accepts (do guard c; p) fun x w => c ∧ R x w := by
  intro s hs x s'
  rw [run_guard_bind_eq_some, hp hs x s']
  constructor
  · rintro ⟨hc, w, hw, hmoves⟩
    exact ⟨w, ⟨hc, hw⟩, hmoves⟩
  · rintro ⟨w, ⟨hc, hw⟩, hmoves⟩
    exact ⟨hc, w, hw, hmoves⟩

/-! ## Counted items -/

end Tape

/-- The loop over `n` items from index `i` on. -/
def readItems (item : ℕ → StateT σ Option α) : ℕ → ℕ → StateT σ Option (List α)
  | _, 0 => pure []
  | i, n + 1 => do
    let x ← item i
    let xs ← readItems item (i + 1) n
    pure (x :: xs)

namespace Tape

variable {T : Tape σ τ}

lemma accepts_readItems {item : ℕ → StateT σ Option α} {Spells : ℕ → α → List τ → Prop}
    (hitem : ∀ i, T.Accepts (item i) (Spells i)) (i n : ℕ) :
    T.Accepts (readItems item i n) fun xs w => xs.length = n ∧ SpellsEach Spells i xs w := by
  induction n generalizing i with
  | zero =>
    apply (accepts_pure []).congr
    intro xs w
    constructor
    · rintro ⟨rfl, rfl⟩
      exact ⟨rfl, rfl⟩
    · rintro ⟨hlen, hspells⟩
      rw [length_eq_zero_iff] at hlen
      subst hlen
      exact ⟨rfl, hspells⟩
  | succ n ih =>
    apply ((hitem i).bind fun x => (ih (i + 1)).map (x :: ·)).congr
    intro xs w
    constructor
    · rintro ⟨x, u, v, hx, ⟨ys, rfl, hlen, hys⟩, rfl⟩
      exact ⟨by rw [length_cons, hlen], u, v, hx, hys, rfl⟩
    · rintro ⟨hlen, hspells⟩
      cases xs with
      | nil => cases hlen
      | cons x xs =>
        obtain ⟨u, v, hx, hxs, rfl⟩ := hspells
        exact ⟨x, u, v, hx, ⟨xs, rfl, Nat.succ.inj hlen, hxs⟩, rfl⟩

end Tape

end DXBCSandbox
