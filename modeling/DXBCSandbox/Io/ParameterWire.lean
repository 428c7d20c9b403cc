/-
The wire of the parameter blob.

The layout is stated without the reader: a model is a row of words and texts, and a row is
spelled by its bytes, where the padding behind a text may be anything. The serialiser takes zeros.
The readers of the parts accept exactly the spellings, so their checks of a count against the
bytes that are left never refuse one: an item takes at least the minimum that the check assumes.
-/
import DXBCSandbox.Io.SubprogramMetadata
import DXBCSandbox.Words

namespace DXBCSandbox

open StepParser ByteStream
open List (length_append map_append length_take length_drop append_inj append_nil)

/-! ## The wire -/

inductive WireItem where
  | word (value : UInt32)
  | text (bytes : Bytes)
  deriving DecidableEq

namespace WireItem

/-- The number of bytes behind a text of `n` bytes. -/
def paddingSize (n : ℕ) : ℕ := (4 - n % 4) % 4

/-- The little-endian word, or the text behind its length and padded with zeros. -/
def bytes : WireItem → Bytes
  | .word value => leBytes 4 value.toNat
  | .text t => leBytes 4 t.length ++ (t ++ List.replicate (paddingSize t.length) 0)

def Spells : WireItem → Bytes → Prop
  | .word value, bs => bs = leBytes 4 value.toNat
  | .text t, bs => ∃ padding : Bytes, padding.length = paddingSize t.length ∧
      bs = leBytes 4 t.length ++ (t ++ padding)

def size : WireItem → ℕ
  | .word _ => 4
  | .text t => 4 + (t.length + paddingSize t.length)

lemma spells_bytes (item : WireItem) : item.Spells item.bytes := by
  cases item with
  | word value => rfl
  | text t => exact ⟨_, List.length_replicate, rfl⟩

lemma Spells.length_eq {item : WireItem} {bs : Bytes} (h : item.Spells bs) :
    bs.length = item.size := by
  cases item with
  | word value =>
    rw [h, length_leBytes]
    rfl
  | text t =>
    obtain ⟨padding, hpad, rfl⟩ := h
    rw [length_append, length_leBytes, length_append, hpad]
    rfl

lemma size_mod_four (item : WireItem) : item.size % 4 = 0 := by
  cases item with
  | word value => simp only [size]
  | text t =>
    simp only [size, paddingSize]
    omega

end WireItem

def SpelledBy (items : List WireItem) (bs : Bytes) : Prop :=
  SpellsEach (fun _ => WireItem.Spells) 0 items bs

def itemsSize (items : List WireItem) : ℕ := (items.map WireItem.size).sum

lemma itemsSize_append (u v : List WireItem) :
    itemsSize (u ++ v) = itemsSize u + itemsSize v := by
  rw [itemsSize, map_append, List.sum_append]
  rfl

variable {items : List WireItem} {bs : Bytes}

lemma spelledBy_cons {item : WireItem} :
    SpelledBy (item :: items) bs ↔ ∃ u v, item.Spells u ∧ SpelledBy items v ∧ bs = u ++ v :=
  exists₂_congr fun _ _ => and_congr_right fun _ => and_congr_left fun _ => spellsEach_shift 0

lemma spelledBy_append {u v : List WireItem} :
    SpelledBy (u ++ v) bs ↔ ∃ a b, SpelledBy u a ∧ SpelledBy v b ∧ bs = a ++ b := by
  rw [SpelledBy, spellsEach_append]
  exact exists₂_congr fun _ _ => and_congr_right fun _ => and_congr_left fun _ =>
    spellsEach_shift 0

lemma spelledBy_bytes (items : List WireItem) :
    SpelledBy items (items.flatMap WireItem.bytes) := by
  induction items with
  | nil => rfl
  | cons item items ih =>
    exact spelledBy_cons.mpr ⟨item.bytes, _, item.spells_bytes, ih, rfl⟩

lemma SpelledBy.length_eq (h : SpelledBy items bs) : bs.length = itemsSize items := by
  induction items generalizing bs with
  | nil =>
    rw [h]
    rfl
  | cons item items ih =>
    obtain ⟨u, v, hu, hv, rfl⟩ := spelledBy_cons.mp h
    rw [length_append, hu.length_eq, ih hv]
    rfl

lemma itemsSize_mod_four (items : List WireItem) : itemsSize items % 4 = 0 := by
  induction items with
  | nil => rfl
  | cons item items ih =>
    have hfst := item.size_mod_four
    have hsum : itemsSize (item :: items) = item.size + itemsSize items := rfl
    omega

def BlobOk (s : ByteStream) : Prop := s.position % 4 = 0 ∧ s.position ≤ s.size

/-- The bytes of the items are in the stream, and the second position is behind them. -/
def BlobMoves (s : ByteStream) (items : List WireItem) (s' : ByteStream) : Prop :=
  ∃ bs, SpelledBy items bs ∧ slice s.data s.position bs.length = bs ∧ s' = s.advance bs.length

lemma blobMoves_nil {s s' : ByteStream} : BlobMoves s [] s' ↔ s' = s := by
  constructor
  · rintro ⟨bs, rfl, -, rfl⟩
    rfl
  · rintro rfl
    exact ⟨[], rfl, rfl, rfl⟩

lemma blobMoves_append {s s'' : ByteStream} {u v : List WireItem} :
    BlobMoves s (u ++ v) s'' ↔ ∃ s', BlobMoves s u s' ∧ BlobMoves s' v s'' := by
  constructor
  · rintro ⟨bs, hbs, hslice, rfl⟩
    obtain ⟨a, b, ha, hb, rfl⟩ := spelledBy_append.mp hbs
    rw [length_append, slice_add] at hslice
    have hle : a.length ≤ (s.data.drop s.position).length := by
      have := congrArg List.length hslice
      simp only [slice, length_append, length_take, length_drop] at this
      rw [length_drop]
      omega
    have hlength : (slice s.data s.position a.length).length = a.length := by
      rw [slice, length_take, Nat.min_eq_left hle]
    obtain ⟨hfirst, hsecond⟩ := append_inj hslice hlength
    refine ⟨s.advance a.length, ⟨a, ha, hfirst, rfl⟩, b, hb, hsecond, ?_⟩
    rw [length_append, advance_advance]
  · rintro ⟨s', ⟨a, ha, hfirst, rfl⟩, b, hb, hsecond, rfl⟩
    refine ⟨a ++ b, spelledBy_append.mpr ⟨a, b, ha, hb, rfl⟩, ?_, ?_⟩
    · rw [length_append, slice_add, hfirst]
      exact congrArg (a ++ ·) hsecond
    · rw [length_append, advance_advance]

lemma BlobOk.moves {s s' : ByteStream} {items : List WireItem} (hok : BlobOk s)
    (h : BlobMoves s items s') : BlobOk s' := by
  obtain ⟨haligned, hinside⟩ := hok
  obtain ⟨bs, hbs, hslice, rfl⟩ := h
  have hmod := itemsSize_mod_four items
  have hlength := hbs.length_eq
  have hle := congrArg List.length hslice
  simp only [slice, length_take, length_drop] at hle
  unfold BlobOk size at *
  rw [advance_position, advance_data]
  omega

/-- Between two items the position is a multiple of four. -/
def blobTape : Tape ByteStream WireItem where
  Ok := BlobOk
  Moves := BlobMoves
  moves_nil := blobMoves_nil
  moves_append := blobMoves_append
  ok_of_moves := BlobOk.moves

lemma itemsSize_le_of_moves {s s' : ByteStream} (h : blobTape.Moves s items s') :
    itemsSize items ≤ s.size - s.position := by
  obtain ⟨bs, hbs, hslice, -⟩ := h
  have hlen := hbs.length_eq
  have hle := congrArg List.length hslice
  simp only [slice, length_take, length_drop] at hle
  unfold size
  omega

/-! ## Words and texts -/

namespace ParameterBlob

variable (rt : UnityStream) (sz : SizeChecks)

lemma accepts_read_uint32 :
    blobTape.Accepts (read_uint32 rt) fun value items => items = [.word value] := by
  intro s hs value s'
  have hrun : (read_uint32 rt).run s = rt.stream_read_uint32 s := rfl
  rw [hrun, rt.stream_read_uint32_eq]
  constructor
  · intro h
    split at h
    case isTrue hinside =>
      cases h
      have hle : s.position + 4 ≤ s.data.length := by
        unfold size at hinside
        omega
      refine ⟨_, rfl, slice s.data s.position 4, ?_, ?_, ?_⟩
      · exact spelledBy_cons.mpr ⟨_, [], (leBytes_wordAt s.data s.position hle).symm, rfl,
          (append_nil _).symm⟩
      · rw [length_slice hle]
      · rw [length_slice hle]
    case isFalse => cases h
  · rintro ⟨items, rfl, bs, hbs, hslice, rfl⟩
    obtain ⟨u, v, rfl, rfl, rfl⟩ := spelledBy_cons.mp hbs
    rw [append_nil, length_leBytes] at hslice ⊢
    have hlen := congrArg List.length hslice
    simp only [slice, length_take, length_drop, length_leBytes] at hlen
    unfold size
    have hword : wordAt s.data s.position = value := by
      apply UInt32.toNat_inj.mp
      rw [wordAt_toNat (by omega), hslice, leValue_leBytes value.toNat_lt]
    rw [if_pos (by omega), hword]

lemma alignUp_text {position : ℕ} (h : position % 4 = 0) (t : Bytes) :
    alignUp (position + 4 + t.length) 4 = position + (WireItem.text t).size := by
  simp only [alignUp, WireItem.size, WireItem.paddingSize]
  omega

/-- The text behind a length, where the stream holds it and its padding. -/
theorem slice_text_iff {data : Bytes} {position : ℕ} {t : Bytes} (hlen : t.length < 2 ^ 32) :
    (∃ bs, (WireItem.text t).Spells bs ∧ slice data position bs.length = bs) ↔
      position + (WireItem.text t).size ≤ data.length ∧
        (wordAt data position).toNat = t.length ∧ slice data (position + 4) t.length = t := by
  have hsize : (WireItem.text t).size = 4 + (t.length + WireItem.paddingSize t.length) := rfl
  constructor
  · rintro ⟨bs, hbs, hslice⟩
    have hbnd : position + (WireItem.text t).size ≤ data.length := by
      have hle := congrArg List.length hslice
      rw [hbs.length_eq] at hle
      simp only [slice, length_take, length_drop] at hle
      omega
    obtain ⟨padding, hpad, rfl⟩ := hbs
    rw [length_append, length_append, length_leBytes, slice_add, slice_add] at hslice
    obtain ⟨hword, hrest⟩ := append_inj hslice (by
      rw [length_slice (by omega), length_leBytes])
    obtain ⟨htext, -⟩ := append_inj hrest (length_slice (by omega))
    refine ⟨hbnd, ?_, htext⟩
    rw [wordAt_toNat (by omega), hword, leValue_leBytes hlen]
  · rintro ⟨hbnd, hword, htext⟩
    refine ⟨slice data position (WireItem.text t).size,
      ⟨slice data (position + 4 + t.length) (WireItem.paddingSize t.length), ?_, ?_⟩, ?_⟩
    · exact length_slice (by omega)
    · rw [hsize, slice_add, slice_add, htext, ← hword, leBytes_wordAt data position (by omega)]
    · rw [length_slice hbnd]

lemma toCString_eq_some {bytes : Bytes} {str : CString} :
    toCString bytes = some str ↔ bytes = str.bytes := by
  unfold toCString
  constructor
  · intro h
    split at h
    · rw [← Option.some.inj h]
    · cases h
  · rintro rfl
    rw [dif_pos str.no_nul]

lemma run_read_string_bytes {s : ByteStream} (hs : s.position ≤ s.size) {len : UInt32}
    {bytes : Bytes} {s' : ByteStream} :
    (read_string_bytes rt len).run s = some (bytes, s') ↔
      s.position + len.toNat ≤ s.size ∧ bytes = slice s.data s.position len.toNat ∧
        s' = s.advance len.toNat := by
  unfold read_string_bytes
  by_cases hpos : 0 < len
  · rw [if_pos hpos]
    have hrun : StateT.run (rt.stream_read_bytes · len.toNat : BlobReader Bytes) s =
        rt.stream_read_bytes s len.toNat := rfl
    rw [hrun, rt.stream_read_bytes_eq]
    constructor
    · intro h
      split at h
      · cases h
        exact ⟨by omega, rfl, rfl⟩
      · cases h
    · rintro ⟨hle, rfl, rfl⟩
      rw [if_pos (by omega)]
      rfl
  · have hzero : len = 0 := UInt32.not_lt.mp hpos |> UInt32.le_zero_iff.mp
    subst hzero
    rw [if_neg hpos, run_pure_eq_some]
    constructor
    · intro h
      cases h
      exact ⟨hs, rfl, rfl⟩
    · rintro ⟨-, rfl, rfl⟩
      rfl

/-- What a successful read of a string takes: the length, that many bytes without a zero, and the
padding. -/
theorem run_read_pascal_string {s : ByteStream} (hs : blobTape.Ok s) {str : CString}
    {s' : ByteStream} : (read_pascal_string rt sz).run s = some (str, s') ↔
      str.bytes.length < 2 ^ 32 ∧ s.position + (WireItem.text str.bytes).size ≤ s.size ∧
        (wordAt s.data s.position).toNat = str.bytes.length ∧
        slice s.data (s.position + 4) str.bytes.length = str.bytes ∧
        s' = s.advance (WireItem.text str.bytes).size := by
  obtain ⟨haligned, hinside⟩ := hs
  have hsize : (WireItem.text str.bytes).size =
    4 + (str.bytes.length + WireItem.paddingSize str.bytes.length) := rfl
  have hread : (read_uint32 rt).run s = _ := rt.stream_read_uint32_eq s
  have halign : ∀ t : ByteStream, StateT.run (rt.stream_align · 4 : BlobReader Unit) t = _ :=
    fun t => rt.stream_align_eq t 4 (by decide)
  unfold read_pascal_string
  rw [run_bind_eq_some, hread]
  constructor
  · rintro ⟨len, s₁, hlen, hrest⟩
    split at hlen
    case isFalse => cases hlen
    case isTrue hword =>
      cases hlen
      obtain ⟨-, hrest⟩ := run_guard_bind_eq_some.mp (run_get_bind_eq_some.mp hrest)
      obtain ⟨bytes, s₂, hbytes, hrest⟩ := run_bind_eq_some.mp hrest
      obtain ⟨hle, rfl, rfl⟩ := (run_read_string_bytes rt (by
        rw [advance_position]
        unfold size at hword ⊢
        rw [advance_data]
        omega)).mp hbytes
      obtain ⟨str', hstr, hrest⟩ := run_lift_bind_eq_some.mp hrest
      obtain ⟨_, s₃, hskip, hrest⟩ := run_bind_eq_some.mp hrest
      cases run_pure_eq_some.mp hrest
      have hstr := toCString_eq_some.mp hstr
      have hlen : (wordAt s.data s.position).toNat = str.bytes.length := by
        rw [← hstr, length_slice hle]
      have hend : alignUp ((s.advance 4).advance (wordAt s.data s.position).toNat).position 4 =
          s.position + (WireItem.text str.bytes).size := by
        rw [advance_position, advance_position, hlen, alignUp_text haligned]
      rw [halign, hend] at hskip
      split at hskip
      case isFalse => cases hskip
      case isTrue hbnd =>
        cases hskip
        refine ⟨hlen ▸ UInt32.toNat_lt _, hbnd, hlen, ?_, rfl⟩
        rw [← hlen]
        exact hstr
  · rintro ⟨hlt, hbnd, hlen, hstr, rfl⟩
    have hword : s.position ≤ s.size ∧ 4 ≤ s.size - s.position := ⟨hinside, by omega⟩
    have hinside' : (s.advance 4).position ≤ (s.advance 4).size := by
      have hdata : (s.advance 4).size = s.size := rfl
      rw [hdata, advance_position]
      omega
    refine ⟨wordAt s.data s.position, s.advance 4, if_pos hword, ?_⟩
    refine run_get_bind_eq_some.mpr (run_guard_bind_eq_some.mpr ⟨?_, ?_⟩)
    · have hdata : (s.advance 4).size = s.size := rfl
      rw [rt.stream_remaining_eq, hlen, hdata, advance_position,
        sz.dxbc_size_add_overflows_eq, decide_eq_true_iff]
      unfold SIZE_MAX
      omega
    · refine run_bind_eq_some.mpr ⟨str.bytes, (s.advance 4).advance str.bytes.length, ?_, ?_⟩
      · refine (run_read_string_bytes rt hinside').mpr ⟨?_, ?_, ?_⟩
        · have hdata : (s.advance 4).size = s.size := rfl
          rw [hlen, hdata, advance_position]
          omega
        · rw [hlen]
          exact hstr.symm
        · rw [hlen]
      · refine run_lift_bind_eq_some.mpr ⟨str, toCString_eq_some.mpr rfl, ?_⟩
        refine run_bind_eq_some.mpr ⟨(), s.advance (WireItem.text str.bytes).size, ?_, rfl⟩
        have hend : alignUp ((s.advance 4).advance str.bytes.length).position 4 =
            s.position + (WireItem.text str.bytes).size := by
          rw [advance_position, advance_position, alignUp_text haligned]
        rw [halign, hend]
        exact if_pos hbnd

lemma accepts_read_pascal_string : blobTape.Accepts (read_pascal_string rt sz) fun str items =>
      str.bytes.length < 2 ^ 32 ∧ items = [.text str.bytes] := by
  intro s hs str s'
  rw [run_read_pascal_string rt sz hs]
  constructor
  · rintro ⟨hlt, hbnd, hlen, hstr, rfl⟩
    obtain ⟨bs, hbs, hslice⟩ := (slice_text_iff hlt).mpr ⟨hbnd, hlen, hstr⟩
    refine ⟨_, ⟨hlt, rfl⟩, bs, ?_, hslice, by rw [hbs.length_eq]⟩
    exact spelledBy_cons.mpr ⟨bs, [], hbs, rfl, (append_nil bs).symm⟩
  · rintro ⟨items, ⟨hlt, rfl⟩, bs, hbs, hslice, rfl⟩
    obtain ⟨u, v, hu, rfl, rfl⟩ := spelledBy_cons.mp hbs
    rw [append_nil] at hslice ⊢
    obtain ⟨hbnd, hlen, hstr⟩ := (slice_text_iff hlt).mp ⟨u, hu, hslice⟩
    exact ⟨hlt, hbnd, hlen, hstr, by rw [hu.length_eq]⟩

/-! ## Counted items -/

def Counted {α : Type} (Spells : ℕ → α → List WireItem → Prop) (xs : List α)
    (items : List WireItem) : Prop :=
  xs.length ≤ INT_MAX ∧ ∃ v, SpellsEach Spells 0 xs v ∧ items = .word (UInt32.ofNat xs.length) :: v

lemma wire_count_to_int_eq_some {count : UInt32} {remaining least n : ℕ} :
    wire_count_to_int count remaining least = some n ↔
      count.toNat = n ∧ n ≤ INT_MAX ∧ 0 < least ∧ n * least ≤ remaining := by
  unfold wire_count_to_int
  by_cases hleast : 0 < least
  · have hdiv := Nat.div_lt_iff_lt_mul (x := remaining) (y := count.toNat) hleast
    split_ifs with h
    · constructor
      · intro h'
        cases h'
      · rintro ⟨rfl, h'⟩
        rw [hdiv] at h
        omega
    · rw [Option.some_inj]
      rw [hdiv] at h
      constructor
      · rintro rfl
        omega
      · exact fun h' => h'.1
  · rw [if_pos (Or.inr (Or.inl (by omega)))]
    constructor
    · intro h'
      cases h'
    · exact fun h' => absurd h'.2.2.1 hleast

/-- Where every item takes at least the minimum, the check of the count refuses no spelling. -/
theorem accepts_read_items {α : Type} {item : ℕ → BlobReader α}
    {Spells : ℕ → α → List WireItem → Prop} {least : ℕ} (hpos : 0 < least)
    (hitem : ∀ i, blobTape.Accepts (item i) (Spells i))
    (hleast : ∀ i x items, Spells i x items → least ≤ itemsSize items) :
    blobTape.Accepts (read_items rt least item) (Counted Spells) := by
  intro s hs xs s''
  unfold read_items
  rw [run_bind_eq_some]
  constructor
  · rintro ⟨count, s', hcnt, hrest⟩
    obtain ⟨u, rfl, hmove⟩ := (accepts_read_uint32 rt hs count s').mp hcnt
    obtain ⟨n, hn, hrest⟩ := run_lift_bind_eq_some.mp (run_get_bind_eq_some.mp hrest)
    obtain ⟨rfl, hmax, -, -⟩ := wire_count_to_int_eq_some.mp hn
    obtain ⟨v, ⟨hlen, hv⟩, hmove'⟩ := (Tape.accepts_readItems hitem 0 _
      (blobTape.ok_of_moves hs hmove) xs s'').mp hrest
    refine ⟨[.word count] ++ v, ⟨hlen ▸ hmax, v, hv, ?_⟩,
      blobTape.moves_append.mpr ⟨s', hmove, hmove'⟩⟩
    rw [hlen, UInt32.ofNat_toNat]
    rfl
  · rintro ⟨items, ⟨hmax, v, hv, rfl⟩, hmoves⟩
    have hlen : (UInt32.ofNat xs.length).toNat = xs.length := by
      unfold INT_MAX at hmax
      exact ofNat_toNat (by omega)
    obtain ⟨s', hmove, hmove'⟩ := (blobTape.moves_append (u := [_])).mp hmoves
    have hok := blobTape.ok_of_moves hs hmove
    refine ⟨_, s', (accepts_read_uint32 rt hs _ s').mpr ⟨_, rfl, hmove⟩, ?_⟩
    refine run_get_bind_eq_some.mpr (run_lift_bind_eq_some.mpr ⟨xs.length, ?_, ?_⟩)
    · refine wire_count_to_int_eq_some.mpr ⟨hlen, hmax, hpos, ?_⟩
      rw [rt.stream_remaining_eq]
      exact Nat.le_trans (hv.le_size itemsSize_append hleast) (itemsSize_le_of_moves hmove')
    · exact (Tape.accepts_readItems hitem 0 _ hok xs s'').mpr ⟨v, ⟨rfl, hv⟩, hmove'⟩

def layoutItems {n : ℕ} (layout : Vector UInt32 n) : List WireItem :=
  layout.toList.map WireItem.word

lemma itemsSize_layoutItems {n : ℕ} (layout : Vector UInt32 n) :
    itemsSize (layoutItems layout) = 4 * n := by
  have hsize : WireItem.size ∘ WireItem.word = fun _ => 4 := rfl
  rw [itemsSize, layoutItems, List.map_map, hsize, List.map_const', List.sum_replicate_nat,
    Vector.length_toList, Nat.mul_comm]

lemma accepts_read_layout (n : ℕ) :
    blobTape.Accepts (read_layout rt n) fun layout items => items = layoutItems layout := by
  induction n with
  | zero =>
    apply (Tape.accepts_pure #v[]).congr
    intro layout items
    constructor
    · rintro ⟨rfl, rfl⟩
      rfl
    · rintro rfl
      obtain rfl : layout = #v[] := Vector.eq_empty
      exact ⟨rfl, rfl⟩
  | succ n ih =>
    apply (ih.bind fun layout => (accepts_read_uint32 rt).map layout.push).congr
    intro layout items
    constructor
    · rintro ⟨front, u, v, rfl, ⟨word, rfl, rfl⟩, rfl⟩
      rw [layoutItems, layoutItems, Vector.toList_push, map_append]
      rfl
    · rintro rfl
      refine ⟨layout.pop, _, _, rfl, ⟨layout.back, (Vector.push_pop_back layout).symm, rfl⟩, ?_⟩
      rw [layoutItems, layoutItems]
      conv_lhs => rw [← Vector.push_pop_back layout, Vector.toList_push, map_append]
      rfl

/-! ## The layout of a model -/

def nameItem (name : Option CString) : WireItem := .text (name.elim [] CString.bytes)

def arrayItems {α : Type} (element : α → List WireItem) (array : IntArray α) : List WireItem :=
  .word (UInt32.ofNat array.count.toNat) :: array.toList.flatMap element

def variableItems (field : SerializedVariable) : List WireItem :=
  nameItem field.name :: layoutItems field.layout

def structItems (value : SerializedStructParam) : List WireItem :=
  nameItem value.name :: (layoutItems value.layout ++ arrayItems variableItems value.members)

def bufferItems (buffer : SerializedConstantBuffer) : List WireItem :=
  nameItem buffer.name :: .word buffer.size ::
    (arrayItems variableItems buffer.vars ++ arrayItems structItems buffer.struct_params)

def resourceTypeCode : SerializedResourceType → UInt32
  | .texture => 0
  | .constantBuffer => 1
  | .buffer => 2
  | .uav => 3
  | .sampler => 4

variable (resource : SerializedResourceParam)

/-- The second extra word is only written for a texture. -/
def extraItems : List WireItem :=
  if resource.bind_type = .texture then [.word (resource.extra.get ⟨1, Nat.one_lt_two⟩)] else []

def resourceItems : List WireItem :=
  nameItem resource.name :: .word (resourceTypeCode resource.bind_type) ::
    .word resource.bind_index :: .word (resource.extra.get ⟨0, Nat.zero_lt_two⟩) :: extraItems resource

def parameterItems (parameters : SerializedProgramParameters) : List WireItem :=
  .word parameters.version :: (arrayItems bufferItems parameters.constant_buffers ++
      arrayItems resourceItems parameters.resources)

/-! ## Models that the wire carries -/

def WireName (name : Option CString) : Prop :=
  ∃ text : CString, name = some text ∧ text.bytes.length < 2 ^ 32

/-- An array whose count is an `int`, of elements that the wire carries. -/
def WireArray {α : Type} (Element : α → Prop) (array : IntArray α) : Prop :=
  array.invalid = false ∧ array.count ≤ INT_MAX ∧ ∀ x ∈ array.toList, Element x

def WireVariable (field : SerializedVariable) : Prop := WireName field.name

def WireStruct (value : SerializedStructParam) : Prop :=
  WireName value.name ∧ WireArray WireVariable value.members

/-- The wire has no word for a partial buffer. -/
def WireBuffer (buffer : SerializedConstantBuffer) : Prop :=
  WireName buffer.name ∧ buffer.has_is_partial = false ∧ buffer.is_partial = false ∧
    WireArray WireVariable buffer.vars ∧ WireArray WireStruct buffer.struct_params

/-- The fields of a resource are those that its words give. -/
def WireResource : Prop :=
  ∃ name : CString, name.bytes.length < 2 ^ 32 ∧
    (resource.bind_type ≠ .texture → resource.extra.get ⟨1, Nat.one_lt_two⟩ = 0) ∧
    resource = makeResource name resource.bind_type resource.bind_index resource.extra

/-- What the wire says of a buffer by its place: the first one is the loose parameter area. -/
def roleAt (cb_index : ℕ) : SerializedConstantBufferRole :=
  if cb_index = 0 then .looseParameters else .named

/-- The models that the wire carries. A first buffer without a name is not among them: that is
how the wire spells `$Globals`. -/
structure WireModel (parameters : SerializedProgramParameters) : Prop where
  version : parameters.version = UNITY_2021_3_PLAYER_BLOB_VERSION
  dialect : parameters.dialect = .unity_2021_3_35f1
  binary : parameters.is_binary = true
  buffers : WireArray WireBuffer parameters.constant_buffers
  resources : WireArray WireResource parameters.resources
  roles : ∀ cb_index buffer, parameters.constant_buffers.toList[cb_index]? = some buffer →
    buffer.role = roleAt cb_index
  first_name : ∀ buffer, parameters.constant_buffers.toList[0]? = some buffer →
    buffer.name ≠ some ⟨[], List.not_mem_nil⟩

def serialize_parameters (parameters : SerializedProgramParameters) : Bytes :=
  (parameterItems parameters).flatMap WireItem.bytes

/-! ## Arrays -/

section Arrays

variable {α : Type} (xs : List α)

@[simp] lemma toList_ofList : (IntArray.ofList xs).toList = xs := by
  cases xs with
  | nil => rfl
  | cons x xs => simp [IntArray.ofList, IntArray.toList]

@[simp] lemma count_ofList : (IntArray.ofList xs).count = xs.length := rfl

lemma invalid_ofList : (IntArray.ofList xs).invalid = false := by
  cases xs with
  | nil => rfl
  | cons x xs =>
    rw [IntArray.invalid, decide_eq_false_iff_not]
    rintro (h | ⟨-, h⟩)
    · rw [count_ofList] at h
      omega
    · cases h

/-- The elements of an array that is not refused are as many as its count says. -/
theorem length_toList_of_valid {array : IntArray α} (h : array.invalid = false) :
    (array.toList.length : ℤ) = array.count := by
  simp only [IntArray.invalid, decide_eq_false_iff_not, not_or, not_and] at h
  obtain ⟨hneg, hnull⟩ := h
  unfold IntArray.toList
  cases hvals : array.values with
  | none =>
    have hzero : array.count = 0 := by
      by_contra hne
      exact hnull hne hvals
    rw [hzero]
    rfl
  | some l =>
    have hlen := array.count_eq (by omega) l hvals
    rw [Option.getD_some, length_take]
    omega

lemma wireArray_ofList {Element : α → Prop} {xs : List α} :
    WireArray Element (.ofList xs) ↔ xs.length ≤ INT_MAX ∧ ∀ x ∈ xs, Element x := by
  unfold WireArray
  rw [count_ofList, toList_ofList, Int.ofNat_le]
  exact and_iff_right (invalid_ofList xs)

lemma counted_iff {Element : α → Prop} {element : α → List WireItem} {xs : List α}
    {items : List WireItem} :
    Counted (fun _ x u => Element x ∧ u = element x) xs items ↔
      WireArray Element (.ofList xs) ∧ items = arrayItems element (.ofList xs) := by
  rw [wireArray_ofList, arrayItems, toList_ofList, count_ofList, Int.toNat_natCast]
  unfold Counted
  constructor
  · rintro ⟨hmax, v, hv, rfl⟩
    obtain ⟨hall, rfl⟩ := (spellsEach_iff_flatMap (P := fun _ => Element)).mp hv
    refine ⟨⟨hmax, fun x hx => ?_⟩, rfl⟩
    obtain ⟨k, hk⟩ := List.mem_iff_getElem?.mp hx
    exact hall k x hk
  · rintro ⟨⟨hmax, hall⟩, rfl⟩
    refine ⟨hmax, _, (spellsEach_iff_flatMap (P := fun _ => Element)).mpr ⟨?_, rfl⟩, rfl⟩
    exact fun k x hx => hall x (List.mem_of_getElem? hx)

end Arrays

/-! ## Readers of the parts -/

lemma four_le_size (name : Option CString) : 4 ≤ (nameItem name).size := by
  simp only [nameItem, WireItem.size]
  omega

lemma itemsSize_cons (item : WireItem) (items : List WireItem) :
    itemsSize (item :: items) = item.size + itemsSize items := rfl

lemma four_le_arrayItems {α : Type} (element : α → List WireItem) (array : IntArray α) :
    4 ≤ itemsSize (arrayItems element array) := by
  rw [arrayItems, itemsSize_cons]
  exact Nat.le_add_right 4 _

lemma accepts_read_variable : blobTape.Accepts (read_variable rt sz) fun field items =>
      WireVariable field ∧ items = variableItems field := by
  apply ((accepts_read_pascal_string rt sz).bind fun name =>
    (accepts_read_layout rt 6).map (SerializedVariable.mk (some name))).congr
  intro field items
  constructor
  · rintro ⟨name, u, v, ⟨hname, rfl⟩, ⟨layout, rfl, rfl⟩, rfl⟩
    exact ⟨⟨name, rfl, hname⟩, rfl⟩
  · rintro ⟨⟨name, hname, hlen⟩, rfl⟩
    obtain ⟨_, layout⟩ := field
    subst hname
    exact ⟨name, _, _, ⟨hlen, rfl⟩, ⟨layout, rfl, rfl⟩, rfl⟩

lemma variable_size (field : SerializedVariable) : 28 ≤ itemsSize (variableItems field) := by
  have hname := four_le_size field.name
  rw [variableItems, itemsSize_cons, itemsSize_layoutItems]
  omega

lemma accepts_read_variables :
    blobTape.Accepts (read_items rt 28 fun _ => read_variable rt sz) fun fields items =>
      WireArray WireVariable (.ofList fields) ∧
        items = arrayItems variableItems (.ofList fields) := by
  apply (accepts_read_items rt (by decide) (fun _ => accepts_read_variable rt sz) ?_).congr
  · exact fun fields items => counted_iff
  · rintro _ field items ⟨-, rfl⟩
    exact variable_size field

lemma accepts_read_struct : blobTape.Accepts (read_struct rt sz) fun value items =>
      (WireStruct value ∧ ∃ members, value.members = .ofList members) ∧
        items = structItems value := by
  apply ((accepts_read_pascal_string rt sz).bind fun name =>
    (accepts_read_layout rt 3).bind fun layout =>
      (accepts_read_variables rt sz).map fun members =>
        SerializedStructParam.mk (some name) layout (.ofList members)).congr
  intro value items
  constructor
  · rintro ⟨name, u, v, ⟨hname, rfl⟩, ⟨layout, u', v', rfl, ⟨members, rfl, hmems, rfl⟩, rfl⟩, rfl⟩
    exact ⟨⟨⟨⟨name, rfl, hname⟩, hmems⟩, members, rfl⟩, rfl⟩
  · rintro ⟨⟨⟨⟨name, hname, hlen⟩, hmems⟩, members, hlist⟩, rfl⟩
    obtain ⟨_, layout, _⟩ := value
    subst hname hlist
    exact ⟨name, _, _, ⟨hlen, rfl⟩, ⟨layout, _, _, rfl, ⟨members, rfl, hmems, rfl⟩, rfl⟩, rfl⟩

lemma struct_size (value : SerializedStructParam) : 20 ≤ itemsSize (structItems value) := by
  have hname := four_le_size value.name
  have hmems := four_le_arrayItems variableItems value.members
  rw [structItems, itemsSize_cons, itemsSize_append, itemsSize_layoutItems]
  omega

/-- The array is as the reader makes it, and so are the arrays in its elements. -/
def ReadStructs (structs : IntArray SerializedStructParam) : Prop :=
  ∃ values : List SerializedStructParam, structs = .ofList values ∧
    ∀ value ∈ values, ∃ members, value.members = .ofList members

lemma accepts_read_structs :
    blobTape.Accepts (read_items rt 20 fun _ => read_struct rt sz) fun values items =>
      (WireArray WireStruct (.ofList values) ∧ ReadStructs (.ofList values)) ∧
        items = arrayItems structItems (.ofList values) := by
  apply (accepts_read_items rt (by decide) (fun _ => accepts_read_struct rt sz) ?_).congr
  · intro values items
    rw [counted_iff, wireArray_ofList, wireArray_ofList]
    apply and_congr_left
    intro _
    constructor
    · rintro ⟨hmax, hall⟩
      exact ⟨⟨hmax, fun x hx => (hall x hx).1⟩, values, rfl, fun x hx => (hall x hx).2⟩
    · rintro ⟨⟨hmax, hall⟩, values', hlist, hmems⟩
      obtain rfl : values = values' := by
        rw [← toList_ofList values, hlist, toList_ofList]
      exact ⟨hmax, fun x hx => ⟨hall x hx, hmems x hx⟩⟩
  · rintro _ value items ⟨-, rfl⟩
    exact struct_size value

variable (cb_index : ℕ)

def ReadBuffer (buffer : SerializedConstantBuffer) : Prop :=
  WireBuffer buffer ∧ buffer.role = roleAt cb_index ∧
    (∃ fields, buffer.vars = .ofList fields) ∧ ReadStructs buffer.struct_params

/-- The name that the reader gives the buffer at an index for a name of the wire. -/
def bufferName (name : CString) : CString :=
  if cb_index = 0 ∧ name.bytes = [] then globalsName else name

/-- A buffer may have a second spelling: the first one with no name. -/
def BufferSpells (buffer : SerializedConstantBuffer) (items : List WireItem) : Prop :=
  ReadBuffer cb_index buffer ∧ ∃ name : CString, name.bytes.length < 2 ^ 32 ∧
    buffer.name = some (bufferName cb_index name) ∧
    items = bufferItems { buffer with name := some name }

lemma wireName_bufferName {cb_index : ℕ} {name : CString} (h : name.bytes.length < 2 ^ 32) :
    WireName (some (bufferName cb_index name)) := by
  refine ⟨_, rfl, ?_⟩
  unfold bufferName
  split_ifs
  · decide
  · exact h

lemma makeBuffer_name (name : CString) (size : UInt32) (fields : List SerializedVariable)
    (values : List SerializedStructParam) :
    (makeBuffer cb_index name size fields values).name = some (bufferName cb_index name) := by
  unfold makeBuffer bufferName
  dsimp only
  split_ifs
  · rfl
  · rfl

lemma accepts_read_buffer :
    blobTape.Accepts (read_buffer rt sz cb_index) (BufferSpells cb_index) := by
  apply ((accepts_read_pascal_string rt sz).bind fun name =>
    (accepts_read_uint32 rt).bind fun size =>
      (accepts_read_variables rt sz).bind fun fields =>
        (accepts_read_structs rt sz).map (makeBuffer cb_index name size fields)).congr
  intro buffer items
  constructor
  · rintro ⟨name, _, _, ⟨hname, rfl⟩, ⟨size, _, _, rfl, ⟨fields, _, _, ⟨hflds, rfl⟩,
      ⟨values, rfl, ⟨hvals, hread⟩, rfl⟩, rfl⟩, rfl⟩, rfl⟩
    have hbuf := makeBuffer_name cb_index name size fields values
    refine ⟨⟨⟨?_, rfl, rfl, hflds, hvals⟩, rfl, ⟨fields, rfl⟩, hread⟩, name, hname, hbuf, rfl⟩
    rw [hbuf]
    exact wireName_bufferName hname
  · rintro ⟨⟨⟨-, hpart, hpart', hflds, hvals⟩, hrole, ⟨fields, hvars⟩, hread⟩, name,
      hlen, hname, rfl⟩
    obtain ⟨values, hstructs, -⟩ := id hread
    obtain ⟨_, _, size, _, _, _, _⟩ := buffer
    dsimp only at hname hrole hpart hpart' hvars hstructs
    subst hname hrole hpart hpart' hvars hstructs
    refine ⟨name, _, _, ⟨hlen, rfl⟩, ⟨size, _, _, rfl, ⟨fields, _, _, ⟨hflds, rfl⟩,
      ⟨values, ?_, ⟨hvals, hread⟩, rfl⟩, rfl⟩, rfl⟩, rfl⟩
    unfold makeBuffer bufferName roleAt
    congr 1
    split_ifs
    · rfl
    · rfl

lemma buffer_size {cb_index : ℕ} {buffer : SerializedConstantBuffer} {items : List WireItem}
    (h : BufferSpells cb_index buffer items) : 16 ≤ itemsSize items := by
  obtain ⟨-, name, -, -, rfl⟩ := h
  have hname := four_le_size (some name)
  have hvars := four_le_arrayItems variableItems buffer.vars
  have hstructs := four_le_arrayItems structItems buffer.struct_params
  rw [bufferItems, itemsSize_cons, itemsSize_cons, itemsSize_append]
  simp only [WireItem.size] at hname ⊢
  omega

lemma accepts_read_int32 : blobTape.Accepts (read_int32 rt) fun raw items =>
      ∃ value : UInt32, raw = value.toInt32 ∧ items = [.word value] := by
  intro s hs raw s'
  have hrun : (read_int32 rt).run s = _ := rt.stream_read_int32_eq s
  rw [hrun, Option.map_eq_some_iff]
  constructor
  · rintro ⟨⟨value, s''⟩, hread, heq⟩
    cases heq
    obtain ⟨items, rfl, hmoves⟩ := (accepts_read_uint32 rt hs value s'').mp hread
    exact ⟨_, ⟨value, rfl, rfl⟩, hmoves⟩
  · rintro ⟨items, ⟨value, rfl, rfl⟩, hmoves⟩
    exact ⟨(value, s'), (accepts_read_uint32 rt hs value s').mpr ⟨_, rfl, hmoves⟩, rfl⟩

lemma resource_type_eq_some {value : UInt32} {bind_type : SerializedResourceType} :
    resource_type value.toInt32 = some bind_type ↔ value = resourceTypeCode bind_type := by
  constructor
  · intro h
    have hinj : ∀ k : UInt32, value.toInt32.toInt = k.toInt32.toInt → value = k := by
      intro k hk
      have := Int32.toInt_inj.mp hk
      simpa using congrArg Int32.toUInt32 this
    unfold resource_type at h
    split at h
    case h_1 hraw => cases h; exact hinj 0 hraw
    case h_2 hraw => cases h; exact hinj 1 hraw
    case h_3 hraw => cases h; exact hinj 2 hraw
    case h_4 hraw => cases h; exact hinj 3 hraw
    case h_5 hraw => cases h; exact hinj 4 hraw
    case h_6 => cases h
  · rintro rfl
    cases bind_type <;> rfl

lemma accepts_read_extra (bind_type : SerializedResourceType) :
    blobTape.Accepts (read_extra rt bind_type) fun value items =>
      (bind_type ≠ .texture → value = 0) ∧
        items = if bind_type = .texture then [.word value] else [] := by
  unfold read_extra
  by_cases htexture : bind_type = .texture
  · rw [if_pos htexture]
    apply (accepts_read_uint32 rt).congr
    intro value items
    rw [if_pos htexture]
    exact (and_iff_right fun hne => absurd htexture hne).symm
  · rw [if_neg htexture]
    apply (Tape.accepts_pure 0).congr
    intro value items
    rw [if_neg htexture]
    exact and_congr_left fun _ => ⟨fun h _ => h, fun h => h htexture⟩

section Resources

variable (name : CString) (bind_type : SerializedResourceType) (bind_index : UInt32)
  (extra : Vector UInt32 2)

@[simp] lemma makeResource_name :
    (makeResource name bind_type bind_index extra).name = some name := by
  cases bind_type <;> rfl

@[simp] lemma makeResource_bind_type :
    (makeResource name bind_type bind_index extra).bind_type = bind_type := by
  cases bind_type <;> rfl

@[simp] lemma makeResource_bind_index :
    (makeResource name bind_type bind_index extra).bind_index = bind_index := by
  cases bind_type <;> rfl

@[simp] lemma makeResource_extra :
    (makeResource name bind_type bind_index extra).extra = extra := by
  cases bind_type <;> rfl

end Resources

lemma accepts_read_resource : blobTape.Accepts (read_resource rt sz) fun resource items =>
      WireResource resource ∧ items = resourceItems resource := by
  apply ((accepts_read_pascal_string rt sz).bind fun name =>
    (accepts_read_int32 rt).bind fun raw =>
      Tape.Accepts.lift_bind (o := resource_type raw) fun bind_type =>
        (accepts_read_uint32 rt).bind fun bind_index =>
          (accepts_read_uint32 rt).bind fun extra0 =>
            (accepts_read_extra rt bind_type).map fun extra1 =>
              makeResource name bind_type bind_index #v[extra0, extra1]).congr
  intro resource items
  constructor
  · rintro ⟨name, _, _, ⟨hname, rfl⟩, ⟨raw, _, _, ⟨value, rfl, rfl⟩, ⟨bind_type, hraw, bind_index,
      _, _, rfl, ⟨extra0, _, _, rfl, ⟨extra1, rfl, hextra, rfl⟩, rfl⟩, rfl⟩, rfl⟩, rfl⟩
    obtain rfl := resource_type_eq_some.mp hraw
    refine ⟨⟨name, hname, ?_, ?_⟩, ?_⟩
    · simpa [Vector.get] using hextra
    · simp
    · simp [resourceItems, extraItems, nameItem, Vector.get]
  · rintro ⟨⟨name, hlen, hextra, hresrc⟩, rfl⟩
    refine ⟨name, _, _, ⟨hlen, rfl⟩, ⟨_, _, _, ⟨resourceTypeCode resource.bind_type, rfl, rfl⟩,
      ⟨resource.bind_type, resource_type_eq_some.mpr rfl, resource.bind_index, _, _, rfl,
        ⟨resource.extra[0], _, _, rfl, ⟨resource.extra[1], ?_, hextra, rfl⟩, rfl⟩, rfl⟩, rfl⟩, ?_⟩
    · have hpair : #v[resource.extra[0], resource.extra[1]] = resource.extra := by
        ext i hi
        match i, hi with
        | 0, _ => rfl
        | 1, _ => rfl
      rw [hpair]
      exact hresrc
    · have hname : resource.name = some name := by
        rw [hresrc, makeResource_name]
      rw [resourceItems, hname]
      rfl

lemma resource_size (resource : SerializedResourceParam) :
    16 ≤ itemsSize (resourceItems resource) := by
  have hname := four_le_size resource.name
  simp only [resourceItems, itemsSize_cons, WireItem.size] at hname ⊢
  omega

end ParameterBlob

end DXBCSandbox
