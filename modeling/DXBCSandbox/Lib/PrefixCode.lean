/-
Encodings whose end can be found.

An encoding is a prefix code when no encoding followed by anything equals another encoding
followed by anything. Fixed-width fields, sized byte strings and counted lists are prefix
codes, and so is their concatenation. So a format made of them can be read in only one way.
-/
import DXBCSandbox.Lib.LittleEndian

namespace DXBCSandbox

open List

variable {α : Type*} {ok : α → Prop} {enc : α → List UInt8}

/-- The encodings of two values and what follows them agree only if the values agree. -/
def PrefixCode (ok : α → Prop) (enc : α → List UInt8) : Prop :=
  ∀ x y r s, ok x → ok y → enc x ++ r = enc y ++ s → x = y ∧ r = s

namespace PrefixCode

lemma number (k : ℕ) : PrefixCode (fun n => n < 256 ^ k) (leBytes k) := by
  intro x y r s hx hy h
  obtain ⟨hbytes, hrest⟩ := append_inj h (by rw [length_leBytes, length_leBytes])
  refine ⟨?_, hrest⟩
  rw [← leValue_leBytes hx, hbytes, leValue_leBytes hy]

lemma sized (k : ℕ) :
    PrefixCode (fun bs => bs.length < 256 ^ k) fun bs => leBytes k bs.length ++ bs := by
  intro x y r s hx hy h
  rw [append_assoc, append_assoc] at h
  obtain ⟨hlen, h⟩ := number k _ _ _ _ hx hy h
  exact append_inj h hlen

lemma flatMap (h : PrefixCode ok enc) : ∀ (xs ys : List α) (r s : List UInt8),
    xs.length = ys.length → (∀ x ∈ xs, ok x) → (∀ y ∈ ys, ok y) →
    xs.flatMap enc ++ r = ys.flatMap enc ++ s → xs = ys ∧ r = s := by
  intro xs
  induction xs with
  | nil =>
    intro ys r s hlen _ _ heq
    obtain rfl : ys = [] := length_eq_zero_iff.mp hlen.symm
    exact ⟨rfl, heq⟩
  | cons x xs ih =>
    intro ys r s hlen hx hy heq
    cases ys with
    | nil => simp at hlen
    | cons y ys =>
      rw [flatMap_cons, flatMap_cons, append_assoc, append_assoc] at heq
      obtain ⟨hhead, heq⟩ := h _ _ _ _ (hx x mem_cons_self) (hy y mem_cons_self) heq
      obtain ⟨htail, hrest⟩ := ih ys r s (by simpa using hlen)
        (fun x' hx' => hx x' (mem_cons_of_mem _ hx'))
        (fun y' hy' => hy y' (mem_cons_of_mem _ hy')) heq
      exact ⟨by rw [hhead, htail], hrest⟩

lemma counted (k : ℕ) (h : PrefixCode ok enc) :
    PrefixCode (fun xs : List α => xs.length < 256 ^ k ∧ ∀ x ∈ xs, ok x)
      fun xs => leBytes k xs.length ++ xs.flatMap enc := by
  intro x y r s hx hy heq
  rw [append_assoc, append_assoc] at heq
  obtain ⟨hlen, heq⟩ := number k _ _ _ _ hx.1 hy.1 heq
  exact h.flatMap x y r s hlen hx.2 hy.2 heq

end PrefixCode

/-! ## Records of numbers -/

/-- Numbers of given widths, one after the other. -/
def numberBytes (fields : List (ℕ × ℕ)) : List UInt8 :=
  fields.flatMap fun field => leBytes field.1 field.2

lemma length_numberBytes (fields : List (ℕ × ℕ)) :
    (numberBytes fields).length = (fields.map Prod.fst).sum := by
  rw [numberBytes, length_flatMap]
  simp only [length_leBytes]

lemma numberBytes_append_inj {fs gs : List (ℕ × ℕ)} {r s : List UInt8}
    (hwidth : fs.map Prod.fst = gs.map Prod.fst) (hfs : ∀ f ∈ fs, f.2 < 256 ^ f.1)
    (hgs : ∀ g ∈ gs, g.2 < 256 ^ g.1) (h : numberBytes fs ++ r = numberBytes gs ++ s) :
    fs = gs ∧ r = s := by
  induction fs generalizing gs with
  | nil =>
    obtain rfl : gs = [] := by simpa using hwidth.symm
    exact ⟨rfl, h⟩
  | cons f fs ih =>
    cases gs with
    | nil => simp at hwidth
    | cons g gs =>
      obtain ⟨w, n⟩ := f
      obtain ⟨w', m⟩ := g
      simp only [map_cons, List.cons.injEq] at hwidth
      obtain ⟨rfl, hwidth⟩ := hwidth
      simp only [numberBytes, flatMap_cons, append_assoc] at h
      obtain ⟨hval, htail⟩ := PrefixCode.number w n m _ _ (hfs _ mem_cons_self)
        (hgs _ mem_cons_self) h
      obtain ⟨hflds, hrest⟩ := ih hwidth (forall_mem_cons.mp hfs).2
        (forall_mem_cons.mp hgs).2 htail
      exact ⟨by rw [hval, hflds], hrest⟩

end DXBCSandbox
