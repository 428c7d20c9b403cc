/-
Programs that fail and keep the state they have reached.

A C function that returns early leaves behind whatever it has written so far, so the state is part
of a failed run as well. `Keeps` says that a program leaves a part of the state alone whatever it
returns, `Atomic` that it does so when it fails. A program is atomic when everything that can fail
comes before everything that writes, and that is what the rules of this file are for.
-/

namespace DXBCSandbox

/-- A program over a state that returns a value or fails. -/
def Fallible (σ ε α : Type) : Type := σ → Except ε α × σ

namespace Fallible

variable {σ ε α β γ : Type}

instance : Monad (Fallible σ ε) where
  pure a := fun s => (.ok a, s)
  bind p f := fun s =>
    match p s with
    | (.ok a, s) => f a s
    | (.error e, s) => (.error e, s)

def fail (e : ε) : Fallible σ ε α := fun s => (.error e, s)

def current : Fallible σ ε σ := fun s => (.ok s, s)

def update (f : σ → σ) : Fallible σ ε Unit := fun s => (.ok (), f s)

def failWhen (bad : Prop) [Decidable bad] (e : ε) : Fallible σ ε Unit :=
  if bad then fail e else pure ()

variable {s : σ} {a : α} {f : α → Fallible σ ε β}

theorem bind_ok {p : Fallible σ ε α} {s' : σ} (h : p s = (.ok a, s')) : (p >>= f) s = f a s' := by
  show (match p s with
    | (.ok a, s) => f a s
    | (.error e, s) => (.error e, s)) = _
  rw [h]

theorem bind_error {p : Fallible σ ε α} {s s' : σ} {e : ε} (h : p s = (.error e, s')) :
    (p >>= f) s = (.error e, s') := by
  show (match p s with
    | (.ok a, s) => f a s
    | (.error e, s) => (.error e, s)) = _
  rw [h]

/-- A run of two programs is a failure of the first or a run of both. -/
theorem bind_cases (p : Fallible σ ε α) (f : α → Fallible σ ε β) (s : σ) :
    (∃ e s', p s = (.error e, s') ∧ (p >>= f) s = (.error e, s')) ∨
      ∃ a s', p s = (.ok a, s') ∧ (p >>= f) s = f a s' := by
  match h : p s with
  | (.error e, s') => exact Or.inl ⟨e, s', rfl, bind_error h⟩
  | (.ok a, s') => exact Or.inr ⟨a, s', rfl, bind_ok h⟩

variable {t : σ} {b : β}

theorem bind_eq_ok {p : Fallible σ ε α} (h : (p >>= f) s = (.ok b, t)) :
    ∃ a s', p s = (.ok a, s') ∧ f a s' = (.ok b, t) := by
  rcases bind_cases p f s with ⟨e, s', -, hrun⟩ | ⟨a, s', hp, hrun⟩
  · rw [hrun] at h
    nomatch h
  · exact ⟨a, s', hp, hrun ▸ h⟩

variable {p : Fallible σ ε β}

theorem failWhen_bind_pos {bad : Prop} [Decidable bad] {e : ε} (h : bad) (s : σ) :
    (do failWhen bad e; p) s = (.error e, s) := by
  apply bind_error
  rw [failWhen, if_pos h]
  rfl

variable {bad : Prop} {e : ε}

theorem failWhen_bind_neg [Decidable bad] (h : ¬ bad) (s : σ) :
    (do failWhen bad e; p) s = p s := by
  apply bind_ok (a := ())
  rw [failWhen, if_neg h]
  rfl

theorem failWhen_bind_eq_ok [Decidable bad] (h : (do failWhen bad e; p) s = (.ok b, t)) :
    ¬ bad ∧ p s = (.ok b, t) := by
  by_cases hbad : bad
  · rw [failWhen_bind_pos hbad] at h
    nomatch h
  · rw [failWhen_bind_neg hbad] at h
    exact ⟨hbad, h⟩

def Fails (p : Fallible σ ε α) (s : σ) : Prop := ∃ e, (p s).1 = .error e

theorem fails_failWhen_bind [Decidable bad] (h : Fails p s) :
    Fails (do failWhen bad e; p) s := by
  by_cases hbad : bad
  · exact ⟨e, by rw [failWhen_bind_pos hbad]⟩
  · obtain ⟨e', he⟩ := h
    exact ⟨e', by rw [failWhen_bind_neg hbad, he]⟩

theorem fails_bind {p : Fallible σ ε α} {s : σ} (h : Fails p s) : Fails (p >>= f) s := by
  obtain ⟨e, he⟩ := h
  exact ⟨e, by rw [bind_error (Prod.ext he rfl)]⟩

/-! ## What a run leaves alone -/

/-- The view of the state is the same after every run. -/
def Keeps (view : σ → γ) (p : Fallible σ ε α) : Prop := ∀ s, view (p s).2 = view s

/-- The view of the state is the same after every run that fails. -/
def Atomic (view : σ → γ) (p : Fallible σ ε α) : Prop :=
  ∀ s e, (p s).1 = .error e → view (p s).2 = view s

variable {view : σ → γ} {p : Fallible σ ε α} {f : α → Fallible σ ε β}

theorem Keeps.atomic (h : Keeps view p) : Atomic view p := fun s _ _ => h s

theorem keeps_pure (a : α) : Keeps view (pure a : Fallible σ ε α) := fun _ => rfl

theorem keeps_fail (e : ε) : Keeps view (fail e : Fallible σ ε α) := fun _ => rfl

theorem keeps_current : Keeps view (current : Fallible σ ε σ) := fun _ => rfl

theorem keeps_failWhen (bad : Prop) [Decidable bad] (e : ε) :
    Keeps view (failWhen bad e : Fallible σ ε Unit) := by
  intro s
  unfold failWhen
  split <;> rfl

theorem keeps_update {g : σ → σ} (h : ∀ s, view (g s) = view s) :
    Keeps view (update g : Fallible σ ε Unit) := h

theorem Keeps.part {δ : Type} (h : Keeps view p) (g : γ → δ) : Keeps (fun s => g (view s)) p :=
  fun s => congrArg g (h s)

theorem Keeps.bind_eq_ok (hp : Keeps view p) (h : (p >>= f) s = (.ok b, t)) :
    ∃ a s', p s = (.ok a, s') ∧ view s' = view s ∧ f a s' = (.ok b, t) := by
  obtain ⟨a, s', hrun, hrest⟩ := Fallible.bind_eq_ok h
  have hs := hp s
  rw [hrun] at hs
  exact ⟨a, s', hrun, hs, hrest⟩

theorem Keeps.bind (hp : Keeps view p) (hf : ∀ a, Keeps view (f a)) : Keeps view (p >>= f) := by
  intro s
  have hs := hp s
  rcases bind_cases p f s with ⟨e, s', hrun, heq⟩ | ⟨a, s', hrun, heq⟩
  · rw [hrun] at hs
    rw [heq]
    exact hs
  · rw [hrun] at hs
    rw [heq, hf a s']
    exact hs

theorem Keeps.bind_atomic (hp : Keeps view p) (hf : ∀ a, Atomic view (f a)) :
    Atomic view (p >>= f) := by
  intro s e h
  have hs := hp s
  rcases bind_cases p f s with ⟨e', s', hrun, heq⟩ | ⟨a, s', hrun, heq⟩
  · rw [hrun] at hs
    rw [heq]
    exact hs
  · rw [hrun] at hs
    rw [heq] at h ⊢
    rw [hf a s' e h]
    exact hs

theorem atomic_update (g : σ → σ) : Atomic view (update g : Fallible σ ε Unit) :=
  nofun

/-! ## What a run establishes -/

/-- From `P`, a run that returns ends with `Q` and a run that fails with `E`. -/
def Ensures (P : σ → Prop) (p : Fallible σ ε α) (Q : α → σ → Prop) (E : ε → σ → Prop) : Prop :=
  ∀ s, P s → match p s with
    | (.ok a, t) => Q a t
    | (.error e, t) => E e t

section

variable {P : σ → Prop} {Q : α → σ → Prop} {R : β → σ → Prop} {E : ε → σ → Prop}

theorem Ensures.bind (hp : Ensures P p Q E) (hf : ∀ a, Ensures (Q a) (f a) R E) :
    Ensures P (p >>= f) R E := by
  intro s hs
  have hfst := hp s hs
  rcases bind_cases p f s with ⟨e, s', hrun, heq⟩ | ⟨a, s', hrun, heq⟩
  · rw [hrun] at hfst
    rw [heq]
    exact hfst
  · rw [hrun] at hfst
    rw [heq]
    exact hf a s' hfst

theorem ensures_failWhen [Decidable bad] (hbad : bad → ∀ s, P s → E e s)
    {Q : Unit → σ → Prop} (hgood : ¬ bad → ∀ s, P s → Q () s) :
    Ensures P (failWhen bad e : Fallible σ ε Unit) Q E := by
  intro s hs
  by_cases h : bad
  · rw [failWhen, if_pos h]
    exact hbad h s hs
  · rw [failWhen, if_neg h]
    exact hgood h s hs

theorem Ensures.failWhen {q : Fallible σ ε β} [Decidable bad] (hbad : bad → ∀ s, P s → E e s)
    (hq : ¬ bad → Ensures P q R E) : Ensures P (do failWhen bad e; q) R E :=
  (ensures_failWhen (Q := fun _ s => ¬ bad ∧ P s) hbad fun h _ hs => ⟨h, hs⟩).bind
    fun _ s h => hq h.1 s h.2

theorem Ensures.update {q : Fallible σ ε β} {M : σ → Prop} {g : σ → σ} (hg : ∀ s, P s → M (g s))
    (hq : Ensures M q R E) : Ensures P (do update g; q) R E := fun s h => hq (g s) (hg s h)

/-- The state that `current` returns is the one that the rest starts in. -/
theorem Ensures.current_eq {f : σ → Fallible σ ε β}
    (hf : ∀ s, P s → Ensures (fun t => t = s) (f s) R E) : Ensures P (do f (← current)) R E :=
  fun s h => hf s h s rfl

theorem Ensures.current {f : σ → Fallible σ ε β} (hf : ∀ s, P s → Ensures P (f s) R E) :
    Ensures P (do f (← current)) R E := fun s h => hf s h s h

end

variable {P : ε → Prop}

/-! ## What a run ends with -/

/-- A run ends with a result that satisfies `Q` or with an error that satisfies `P`. -/
structure Ends (P : ε → Prop) (p : Fallible σ ε α) (Q : α → Prop) : Prop where
  ok : ∀ s a s', p s = (.ok a, s') → Q a
  error : ∀ s e s', p s = (.error e, s') → P e

variable {Q : α → Prop} {R : β → Prop}

theorem Ends.pure (h : Q a) : Ends P (pure a : Fallible σ ε α) Q := by
  refine ⟨fun s b s' hrun => ?_, nofun⟩
  cases hrun
  exact h

theorem Ends.fail (h : P e) : Ends P (fail e : Fallible σ ε α) Q := by
  refine ⟨fun s b s' hrun => (nomatch hrun), fun s e' s' hrun => ?_⟩
  cases hrun
  exact h

theorem Ends.bind (hp : Ends P p Q) (hf : ∀ a, Q a → Ends P (f a) R) : Ends P (p >>= f) R := by
  constructor
  · intro s b t hrun
    obtain ⟨a, s', hfst, hrest⟩ := bind_eq_ok hrun
    exact (hf a (hp.ok s a s' hfst)).ok s' b t hrest
  · intro s e t hrun
    rcases bind_cases p f s with ⟨e', s', hfst, heq⟩ | ⟨a, s', hfst, heq⟩
    · rw [heq] at hrun
      have he : e' = e := Except.error.inj (Prod.mk.inj hrun).1
      rw [← he]
      exact hp.error s e' s' hfst
    · rw [heq] at hrun
      exact (hf a (hp.ok s a s' hfst)).error s' e t hrun

theorem Ends.failWhen [Decidable bad] (h : bad → P e) (hp : ¬ bad → Ends P p Q) :
    Ends P (do failWhen bad e; p) Q := by
  apply Ends.bind (Q := fun _ => ¬ bad) _ fun _ hgood => hp hgood
  unfold Fallible.failWhen
  by_cases hbad : bad
  · rw [if_pos hbad]
    exact .fail (h hbad)
  · rw [if_neg hbad]
    exact .pure hbad

theorem Ends.ite {c : Prop} [Decidable c] {p' : Fallible σ ε α} (hp : c → Ends P p Q)
    (hp' : ¬ c → Ends P p' Q) : Ends P (if c then p else p') Q := by
  by_cases hc : c
  · rw [if_pos hc]
    exact hp hc
  · rw [if_neg hc]
    exact hp' hc

theorem Ends.mono {Q' : α → Prop} (hp : Ends P p Q) (h : ∀ a, Q a → Q' a) : Ends P p Q' :=
  ⟨fun s a s' hrun => h a (hp.ok s a s' hrun), hp.error⟩

/-- The rule of a loop over a list. The invariant sees the part of the list that is done. -/
theorem Ends.foldlM {ι : Type} {op : α → ι → Fallible σ ε α} {I : List ι → α → Prop} {is : List ι}
    (hstart : I [] a) (hstep : ∀ done i, (∃ rest, is = done ++ i :: rest) → ∀ a, I done a →
      Ends P (op a i) (I (done ++ [i]))) : Ends P (is.foldlM op a) (I is) := by
  suffices hrest : ∀ (todo done : List ι) (a : α), is = done ++ todo → I done a →
      Ends P (todo.foldlM op a) (I is) from hrest is [] a rfl hstart
  intro todo
  induction todo with
  | nil =>
    intro done a his ha
    rw [his, List.append_nil]
    exact .pure ha
  | cons i rest ih =>
    intro done a his ha
    have his' : is = (done ++ [i]) ++ rest := by rw [his, List.append_assoc, List.singleton_append]
    exact .bind (hstep done i ⟨rest, his⟩ a ha) fun b hb => ih (done ++ [i]) b his' hb

end Fallible

end DXBCSandbox
