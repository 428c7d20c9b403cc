/-
What a flat artifact file name looks like (`src/common/shader_artifact.c`).

The pieces that the copy takes from the shader name are followed to the end: the trimming takes off
whole pieces of one byte, and the escape puts one in front. So the name is portable exactly when the
pieces are, and when they do not spell a port with a superscript digit, which the escape misses.
-/
import DXBCSandbox.Common.ShaderArtifact
import DXBCSandbox.Lib.Decimal
import DXBCSandbox.Lib.Utf8

namespace DXBCSandbox

open List Option
open UInt8 (reduceToNat ofNat not_le)
open UInt8 (le_iff_toNat_le)

namespace ShaderArtifact

open Utf8

/-! ## Portable names -/

def isPortable (c : Char) : Prop :=
  ¬ IsControl c ∧ c ∉ ['<', '>', ':', '"', '/', '\\', '|', '?', '*']

instance (c : Char) : Decidable (isPortable c) := inferInstanceAs (Decidable (_ ∧ _))

def ports : List Bytes := ["com", "lpt"].map asciiBytes

/-- The device names that the code knows: the words and the numbered ports. -/
def IsKnownDevice (base : Bytes) : Prop :=
  base ∈ ["con", "prn", "aux", "nul", "clock$"].map asciiBytes ∨
  ∃ port ∈ ports, ∃ digit : UInt8, 49 ≤ digit ∧ digit ≤ 57 ∧ base = port ++ [digit]

/-- The superscript digits one, two and three. -/
def superscripts : List Bytes := [0xb9, 0xb2, 0xb3].map fun low => [0xc2, low]

def IsSuperscriptPort (base : Bytes) : Prop :=
  ∃ port ∈ ports, ∃ digit ∈ superscripts, base = port ++ digit

/-- The device names of Windows, in small letters. A superscript digit counts as a digit there. -/
def IsDeviceName (base : Bytes) : Prop := IsKnownDevice base ∨ IsSuperscriptPort base

/-- The name without its extensions, in small letters. -/
def deviceBase (name : Bytes) : Bytes := (name.takeWhile (· ≠ 46)).map ascii_lower

structure PortableName (name : Bytes) : Prop where
  chars : Spells isPortable name
  stem : ∃ stem, name = stem ++ asciiBytes ".shader" ∧ stem ≠ [] ∧
    (∀ last, stem.getLast? = some last → last ≠ 46 ∧ last ≠ 32) ∧ ¬ IsDeviceName (deviceBase stem)

/-! ## Pieces -/

def pieceWidth (cursor : Bytes) : ℕ :=
  if valid_utf8_width cursor = 0 then 1 else valid_utf8_width cursor

/-- The pieces of a shader name that fit into the limit. -/
def keptPieces : (fuel room : ℕ) → (cursor : Bytes) → List Bytes
  | 0, _, _ => []
  | _ + 1, _, [] => []
  | fuel + 1, room, value :: rest =>
    let width := pieceWidth (value :: rest)
    if width ≤ room then
      (value :: rest).take width :: keptPieces fuel (room - width) ((value :: rest).drop width)
    else []

def copiedPiece : Bytes → Bytes
  | [value] => if 0x80 ≤ value ∨ invalid value then asciiBytes "_" else [value]
  | piece => piece

/-- A single byte, or the shape of a character that has more. -/
def IsPiece (piece : Bytes) : Prop :=
  (∃ value, piece = [value]) ∨
  ∃ first rest, piece = first :: rest ∧ rest ≠ [] ∧ rest.length + 1 = sequenceWidth first ∧
    ∀ byte ∈ piece, 0x80 ≤ byte

variable {byte : UInt8}

section Width

variable {value : UInt8} {rest : Bytes}

lemma valid_utf8_width_of_small (h : ¬ 0x80 ≤ value) : valid_utf8_width (value :: rest) = 0 := by
  have hbyte : byteAt (value :: rest) 0 = value := rfl
  simp only [le_iff_toNat_le, reduceToNat] at h
  unfold valid_utf8_width
  simp only [hbyte, le_iff_toNat_le, reduceToNat]
  rw [if_pos]
  rw [if_neg (by omega), if_neg (by omega), if_neg (by omega)]

lemma le_of_and_mask (h : byte &&& 0xc0 = 0x80) : 0x80 ≤ byte := by
  rw [le_iff_toNat_le, ← h]
  exact Nat.and_le_left

lemma shape_of_width {width : ℕ} (hwidth : valid_utf8_width (value :: rest) = width)
    (hpos : width ≠ 0) :
    width ≤ rest.length + 1 ∧ 2 ≤ width ∧ width = sequenceWidth value ∧
      ∀ byte ∈ (value :: rest).take width, 0x80 ≤ byte := by
  have hbyte : byteAt (value :: rest) 0 = value := rfl
  unfold valid_utf8_width at hwidth
  rw [hbyte] at hwidth
  dsimp only at hwidth
  generalize hclass : (if 0xf0 ≤ value then 4 else if 0xe0 ≤ value then 3
    else if 0xc2 ≤ value then 2 else 0) = class_ at hwidth
  have hval : class_ ≠ 0 → 2 ≤ class_ ∧ 0x80 ≤ value ∧ class_ = sequenceWidth value := by
    intro hne
    rw [← hclass] at hne ⊢
    unfold sequenceWidth
    simp only [le_iff_toNat_le, reduceToNat] at hne ⊢
    split_ifs at hne ⊢ <;> omega
  split at hwidth
  · exact absurd hwidth.symm hpos
  · rename_i hne
    split at hwidth
    · rename_i hall
      obtain rfl := hwidth
      obtain ⟨htwo, hlead, hseq⟩ := hval hne
      rw [List.all_eq_true] at hall
      have htail : ∀ index, 1 ≤ index → index < class_ → index < rest.length + 1 ∧
          0x80 ≤ byteAt (value :: rest) index := by
        intro index hone hlt
        have hgood := hall index (by rw [mem_range'_1]; omega)
        rw [decide_eq_true_iff] at hgood
        refine ⟨?_, le_of_and_mask hgood.2⟩
        by_contra hge
        refine hgood.1 ?_
        rw [byteAt, getD_eq_default _ _ (by rw [length_cons]; omega)]
      have hlast := (htail (class_ - 1) (by omega) (by omega)).1
      refine ⟨by omega, htwo, hseq, ?_⟩
      intro byte hmem
      obtain ⟨index, hidx, rfl⟩ := getElem_of_mem hmem
      rw [length_take] at hidx
      rw [getElem_take]
      by_cases hzero : index = 0
      · subst hzero
        exact hlead
      · have hbnd := htail index (by omega) (by omega)
        rw [byteAt, getD_eq_getElem _ _ (by rw [length_cons]; omega)] at hbnd
        exact hbnd.2
    · exact absurd hwidth.symm hpos

lemma isPiece_take : IsPiece ((value :: rest).take (pieceWidth (value :: rest))) := by
  unfold pieceWidth
  split_ifs with hzero
  · exact .inl ⟨value, rfl⟩
  · obtain ⟨hle, htwo, hseq, hhigh⟩ := shape_of_width rfl hzero
    generalize valid_utf8_width (value :: rest) = width at hle htwo hseq hhigh
    obtain ⟨n, rfl⟩ : ∃ n, width = n + 1 := ⟨width - 1, by omega⟩
    rw [take_succ_cons] at hhigh ⊢
    have hlen : (rest.take n).length = n := by
      rw [length_take]
      omega
    refine .inr ⟨value, rest.take n, rfl, ?_, by omega, hhigh⟩
    intro hnil
    rw [hnil] at hlen
    have hn : 0 = n := hlen
    omega

end Width

lemma keptPieces_isPiece {fuel room : ℕ} {cursor : Bytes} :
    ∀ piece ∈ keptPieces fuel room cursor, IsPiece piece := by
  induction fuel generalizing room cursor with
  | zero => exact nofun
  | succ fuel ih =>
    cases cursor with
    | nil => exact nofun
    | cons value rest =>
      unfold keptPieces
      dsimp only
      split_ifs with hroom
      · intro piece hmem
        rcases mem_cons.mp hmem with rfl | hmem
        · exact isPiece_take
        · exact ih piece hmem
      · exact nofun

/-- **The copy** is the copies of the pieces. -/
theorem copy_safe_name_eq {fuel : ℕ} {cursor safe_name : Bytes}
    (hsize : safe_name.length ≤ MAX_FLAT_NAME_BYTES) :
    copy_safe_name fuel cursor safe_name = safe_name ++
      (keptPieces fuel (MAX_FLAT_NAME_BYTES - safe_name.length) cursor).flatMap copiedPiece := by
  induction fuel generalizing cursor safe_name with
  | zero => simp [copy_safe_name, keptPieces]
  | succ fuel ih =>
    cases cursor with
    | nil => simp [copy_safe_name, keptPieces]
    | cons value rest =>
      unfold copy_safe_name keptPieces
      dsimp only
      by_cases hfull : MAX_FLAT_NAME_BYTES ≤ safe_name.length
      · have hwidth : ¬ pieceWidth (value :: rest) ≤ MAX_FLAT_NAME_BYTES - safe_name.length := by
          unfold pieceWidth
          split_ifs <;> omega
        rw [if_pos hfull, if_neg hwidth, flatMap_nil, append_nil]
      rw [if_neg hfull]
      -- One byte is copied as itself or as an underscore.
      have hone : ∀ byte : UInt8, copiedPiece [value] = [byte] →
          valid_utf8_width (value :: rest) = 0 →
          copy_safe_name fuel rest (safe_name ++ [byte]) = safe_name ++
            (if pieceWidth (value :: rest) ≤ MAX_FLAT_NAME_BYTES - safe_name.length then
              (value :: rest).take (pieceWidth (value :: rest)) ::
                keptPieces fuel (MAX_FLAT_NAME_BYTES - safe_name.length -
                  pieceWidth (value :: rest)) ((value :: rest).drop (pieceWidth (value :: rest)))
              else []).flatMap copiedPiece := by
        intro byte hbyte hzero
        have hwidth : pieceWidth (value :: rest) = 1 := by rw [pieceWidth, if_pos hzero]
        rw [hwidth, if_pos (by omega), flatMap_cons, take_succ_cons, take_zero,
          hbyte, drop_succ_cons, drop_zero, ← append_assoc]
        rw [ih (by rw [length_append, length_singleton]; omega), length_append,
          length_singleton, Nat.sub_add_eq]
      by_cases hhigh : 0x80 ≤ value
      · rw [if_pos hhigh]
        by_cases hzero : valid_utf8_width (value :: rest) = 0
        · rw [if_pos hzero]
          exact hone 95 (by rw [copiedPiece, if_pos (.inl hhigh)]; rfl) hzero
        · obtain ⟨hle, htwo, -, -⟩ := shape_of_width rfl hzero
          have hwidth : pieceWidth (value :: rest) = valid_utf8_width (value :: rest) := by
            rw [pieceWidth, if_neg hzero]
          rw [if_neg hzero, hwidth]
          generalize valid_utf8_width (value :: rest) = width at hle htwo
          by_cases hlimit : MAX_FLAT_NAME_BYTES < safe_name.length + width
          · rw [if_pos hlimit, if_neg (by omega), flatMap_nil, append_nil]
          · have hlen : ((value :: rest).take width).length = width := by
              rw [length_take, length_cons]
              omega
            have hcopied : copiedPiece ((value :: rest).take width) =
                (value :: rest).take width := by
              obtain ⟨n, rfl⟩ : ∃ n, width = n + 2 := ⟨width - 2, by omega⟩
              cases rest with
              | nil => exact absurd hle (by rw [length_nil]; omega)
              | cons second rest => rfl
            rw [if_neg hlimit, if_pos (by omega), flatMap_cons, hcopied, ← append_assoc]
            rw [ih (by rw [length_append, hlen]; omega), length_append, hlen, Nat.sub_add_eq]
      · rw [if_neg hhigh]
        have hzero := @valid_utf8_width_of_small value rest hhigh
        by_cases hinv : invalid value = true
        · rw [if_pos hinv]
          exact hone 95 (by rw [copiedPiece, if_pos (.inr hinv)]; rfl) hzero
        · rw [if_neg hinv]
          exact hone value (by rw [copiedPiece, if_neg (by tauto)]) hzero

/-! ## Characters of the pieces -/

/-- The piece is a character that is no control character. A byte that is copied as an underscore
is fine. -/
def CleanPiece : Bytes → Prop
  | [value] => value ≠ 0x7f
  | piece => ∃ c, String.utf8EncodeChar c = piece ∧ ¬ IsControl c

variable {value : UInt8}

lemma exists_ascii (h : ¬ 0x80 ≤ value) :
    ∃ c : Char, String.utf8EncodeChar c = [value] ∧ c.val.toNat = value.toNat := by
  apply encode_of_isSequence
  simp only [le_iff_toNat_le, reduceToNat] at h
  simp only [isSequence, decide_eq_true_eq, le_iff_toNat_le, reduceToNat]
  omega

lemma isPortable_of_high {c : Char} (h : 0x80 ≤ c.val.toNat) : isPortable c ↔ ¬ IsControl c := by
  refine and_iff_left fun hmem => ?_
  simp only [mem_cons, not_mem_nil, or_false] at hmem
  rcases hmem with rfl | rfl | rfl | rfl | rfl | rfl | rfl | rfl | rfl <;> exact absurd h (by decide)

def portableByte (value : UInt8) : Bool := value < 0x80 ∧ invalid value = false ∧ value ≠ 0x7f

lemma isPortable_ascii :
    ∀ n : Fin 128, isPortable (Char.ofNat n) ↔ portableByte (ofNat n) = true := by
  decide +kernel

lemma isPortable_iff {c : Char} (hlow : ¬ 0x80 ≤ value) (hval : c.val.toNat = value.toNat) :
    isPortable c ↔ portableByte value = true := by
  simp only [le_iff_toNat_le, reduceToNat] at hlow
  have hc : Char.ofNat value.toNat = c := by
    rw [← hval]
    exact Char.ofNat_toNat c
  have hbyte : ofNat value.toNat = value := UInt8.ofNat_toNat
  have hall := isPortable_ascii ⟨value.toNat, by omega⟩
  rwa [hc, hbyte] at hall

lemma spells_portable {bytes : Bytes} (h : ∀ byte ∈ bytes, portableByte byte = true) :
    Spells isPortable bytes := by
  induction bytes with
  | nil => exact spells_nil
  | cons byte bytes ih =>
    have hbyte := h byte mem_cons_self
    have hlow : ¬ 0x80 ≤ byte := by
      rw [portableByte, decide_eq_true_iff] at hbyte
      exact not_le.mpr hbyte.1
    obtain ⟨c, hencode, hval⟩ := exists_ascii hlow
    have hhead := spells_encode ((isPortable_iff hlow hval).mpr hbyte)
    rw [hencode] at hhead
    exact hhead.append (ih (forall_mem_cons.mp h).2)

variable {piece : Bytes}

/-- **A piece in front.** The copy of a piece is portable exactly when the piece is clean. -/
theorem spells_copiedPiece_append_iff (h : IsPiece piece) (after : Bytes) :
    Spells isPortable (copiedPiece piece ++ after) ↔
      CleanPiece piece ∧ Spells isPortable after := by
  rcases h with ⟨value, rfl⟩ | ⟨first, rest, rfl, hrest, hwidth, hhigh⟩
  · by_cases hesc : 0x80 ≤ value ∨ invalid value = true
    · have hclean : value ≠ 0x7f := by
        rintro rfl
        exact absurd hesc (by decide)
      rw [copiedPiece, if_pos hesc]
      have hone : ([] : Bytes).length + 1 = sequenceWidth 95 := rfl
      refine (@spells_cons_append_iff _ _ [] _ hone).trans ?_
      refine and_congr_left fun _ => ⟨fun _ => hclean, fun _ => ?_⟩
      obtain ⟨c, hencode, hval⟩ := @exists_ascii 95 (by decide)
      exact ⟨c, hencode, (isPortable_iff (by decide) hval).mpr (by decide)⟩
    · have hlow : ¬ 0x80 ≤ value := fun hhigh => hesc (.inl hhigh)
      have hone : ([] : Bytes).length + 1 = sequenceWidth value := by
        have hle : value ≤ 0x7f := by
          simp only [le_iff_toNat_le, reduceToNat] at hlow ⊢
          omega
        rw [sequenceWidth, if_pos hle]
        rfl
      rw [copiedPiece, if_neg hesc]
      refine (@spells_cons_append_iff _ _ [] _ hone).trans ?_
      refine and_congr_left fun _ => ?_
      obtain ⟨c, hencode, hval⟩ := exists_ascii hlow
      have hport : isPortable c ↔ value ≠ 0x7f := by
        rw [isPortable_iff hlow hval, portableByte, decide_eq_true_iff]
        have hvalid : invalid value = false := by
          rw [← Bool.not_eq_true]
          exact fun hinv => hesc (.inr hinv)
        exact ⟨fun hall => hall.2.2, fun hne => ⟨not_le.mp hlow, hvalid, hne⟩⟩
      constructor
      · rintro ⟨d, hd, hportable_d⟩
        rw [← hencode] at hd
        rw [encode_injective hd] at hportable_d
        exact hport.mp hportable_d
      · exact fun hne => ⟨c, hencode, hport.mpr hne⟩
  · -- A character of more bytes is above all that is not portable but the controls.
    obtain ⟨second, more, rfl⟩ := exists_cons_of_ne_nil hrest
    have hcopied : copiedPiece (first :: second :: more) = first :: second :: more := rfl
    rw [hcopied, cons_append]
    refine (spells_cons_append_iff hwidth).trans (and_congr_left fun _ => ?_)
    refine exists_congr fun c => and_congr_right fun hencode => ?_
    apply isPortable_of_high
    by_contra hlow
    have hshort : String.utf8EncodeChar c = [ofNat c.val.toNat] := by
      rw [String.utf8EncodeChar, if_pos (by omega)]
    rw [hshort] at hencode
    cases (cons.inj hencode).2

variable {pieces : List Bytes}

lemma spells_pieces_iff (h : ∀ piece ∈ pieces, IsPiece piece) {after : Bytes}
    (hafter : Spells isPortable after) :
    Spells isPortable (pieces.flatMap copiedPiece ++ after) ↔
      ∀ piece ∈ pieces, CleanPiece piece := by
  induction pieces with
  | nil => simpa using hafter
  | cons piece pieces ih =>
    rw [flatMap_cons, append_assoc, spells_copiedPiece_append_iff (h piece mem_cons_self),
      ih (forall_mem_cons.mp h).2, forall_mem_cons]

/-! ## Trimming -/

def isTrimmedPiece (piece : Bytes) : Bool := piece = [46] ∨ piece = [32]

lemma rdropWhile_pieces (h : ∀ piece ∈ pieces, IsPiece piece) :
    (pieces.flatMap copiedPiece).rdropWhile isTrimmed =
      (pieces.rdropWhile isTrimmedPiece).flatMap copiedPiece := by
  induction pieces using reverseRecOn with
  | nil => rfl
  | append_singleton pieces piece ih =>
    have hpiece := h piece (mem_append_right _ mem_cons_self)
    rw [flatMap_append, flatMap_singleton]
    by_cases htrim : isTrimmedPiece piece = true
    · rw [rdropWhile_concat_pos _ _ _ htrim,
        ← ih (forall_mem_append.mp h).1]
      rw [isTrimmedPiece, decide_eq_true_iff] at htrim
      rcases htrim with rfl | rfl
      · exact rdropWhile_concat_pos _ _ _ (by decide)
      · exact rdropWhile_concat_pos _ _ _ (by decide)
    · rw [rdropWhile_concat_neg _ _ _ htrim, flatMap_append, flatMap_singleton]
      -- The last byte stays, so all of them do.
      have hlast : ∀ hne : copiedPiece piece ≠ [],
          ¬ isTrimmed ((copiedPiece piece).getLast hne) = true := by
        rcases hpiece with ⟨value, rfl⟩ | ⟨first, rest, rfl, hrest, -, hhigh⟩
        · intro hne hlast
          by_cases hesc : 0x80 ≤ value ∨ invalid value = true
          · simp only [copiedPiece, if_pos hesc] at hlast
            exact absurd hlast (show ¬ isTrimmed ([95].getLast (cons_ne_nil 95 [])) = true by
              decide)
          · simp only [copiedPiece, if_neg hesc, getLast_singleton] at hlast
            apply htrim
            rw [isTrimmed, decide_eq_true_iff] at hlast
            rw [isTrimmedPiece, decide_eq_true_iff]
            exact hlast.imp (congrArg fun v => [v]) (congrArg fun v => [v])
        · obtain ⟨second, more, rfl⟩ := exists_cons_of_ne_nil hrest
          intro hne hlast
          have hbyte := hhigh _ (getLast_mem hne)
          rw [isTrimmed, decide_eq_true_iff] at hlast
          rcases hlast with hdot | hspace
          · rw [hdot] at hbyte
            exact absurd hbyte (by decide)
          · rw [hspace] at hbyte
            exact absurd hbyte (by decide)
      apply (rdropWhile_eq_self_iff).mpr
      intro hne
      by_cases hnil : copiedPiece piece = []
      · rcases hpiece with ⟨value, rfl⟩ | ⟨first, rest, rfl, hrest, -, -⟩
        · rw [copiedPiece] at hnil
          split at hnil <;> nomatch hnil
        · obtain ⟨second, more, rfl⟩ := exists_cons_of_ne_nil hrest
          nomatch hnil
      · rw [getLast_append_of_ne_nil _ hnil]
        exact hlast hnil

lemma forall_rdropWhile_iff {α : Type} {p : α → Bool} {Q : α → Prop} {l : List α}
    (h : ∀ a, p a = true → Q a) : (∀ a ∈ l.rdropWhile p, Q a) ↔ ∀ a ∈ l, Q a := by
  induction l using reverseRecOn with
  | nil => rfl
  | append_singleton l a ih =>
    by_cases hp : p a = true
    · rw [rdropWhile_concat_pos _ _ _ hp, ih, forall_mem_append, forall_mem_singleton]
      exact (and_iff_left (h a hp)).symm
    · rw [rdropWhile_concat_neg _ _ _ hp]

lemma cleanPiece_of_isTrimmedPiece (h : isTrimmedPiece piece = true) : CleanPiece piece := by
  rw [isTrimmedPiece, decide_eq_true_iff] at h
  rcases h with rfl | rfl
  · exact (by decide : (46 : UInt8) ≠ 0x7f)
  · exact (by decide : (32 : UInt8) ≠ 0x7f)

/-! ## Devices -/

lemma ascii_lower_digit (h : 49 ≤ ascii_lower value ∧ ascii_lower value ≤ 57) :
    ascii_lower value = value := by
  unfold ascii_lower at h ⊢
  split_ifs at h ⊢ with hletter
  · simp only [le_iff_toNat_le, UInt8.toNat_add, reduceToNat] at h hletter
    omega
  · rfl

lemma ascii_lower_of_digit (h : 49 ≤ value ∧ value ≤ 57) : ascii_lower value = value := by
  unfold ascii_lower
  rw [if_neg]
  simp only [le_iff_toNat_le, reduceToNat] at h ⊢
  omega

/-- **The device test** is for the devices that the code knows. -/
theorem windows_device_basename_iff (value : Bytes) :
    windows_device_basename value = true ↔ IsKnownDevice (deviceBase value) := by
  have hequal : ∀ (v : Bytes) {name : String}, (asciiBytes name).map ascii_lower = asciiBytes name →
      (ascii_word_equal_ignore_case v (asciiBytes name) = true ↔
        v.map ascii_lower = asciiBytes name) := by
    intro v name hname
    rw [ascii_word_equal_ignore_case, decide_eq_true_iff, hname]
  have hspl := (takeWhile_append_dropWhile (p := fun byte : UInt8 => byte ≠ 46) (l := value)).symm
  unfold windows_device_basename IsKnownDevice ports deviceBase
  dsimp only
  generalize value.takeWhile (fun byte : UInt8 => byte ≠ 46) = base at hspl ⊢
  generalize value.dropWhile (fun byte : UInt8 => byte ≠ 46) = rest at hspl
  simp only [@hequal base "con" (by decide), @hequal base "prn" (by decide),
    @hequal base "aux" (by decide), @hequal base "nul" (by decide),
    @hequal base "clock$" (by decide), @hequal (value.take 3) "com" (by decide),
    @hequal (value.take 3) "lpt" (by decide)]
  simp only [map_cons, map_nil, mem_cons, not_mem_nil, or_false, exists_eq_or_imp, exists_eq_left]
  split_ifs with hword
  · exact iff_of_true rfl (.inl hword)
  · rw [or_iff_right hword, decide_eq_true_iff]
    -- Both sides say that the base has four bytes, of which three are the name of a port.
    have hfour : ∀ {port : Bytes} {digit : UInt8}, port.length = 3 →
        49 ≤ digit ∧ digit ≤ 57 → base.map ascii_lower = port ++ [digit] →
        base.length = 4 ∧ (value.take 3).map ascii_lower = port ∧ value.getD 3 0 = digit := by
      intro port digit hport hdigit hbase
      have hlen := congrArg length hbase
      rw [length_map, length_append, length_singleton, hport] at hlen
      obtain ⟨a, b, c, d, rfl⟩ : ∃ a b c d, base = [a, b, c, d] := by
        match base, hlen with
        | [a, b, c, d], _ => exact ⟨a, b, c, d, rfl⟩
      obtain ⟨x, y, z, rfl⟩ : ∃ x y z, port = [x, y, z] := by
        match port, hport with
        | [x, y, z], _ => exact ⟨x, y, z, rfl⟩
      simp only [map_cons, map_nil, cons_append, nil_append, cons.injEq, and_true] at hbase
      obtain ⟨hx, hy, hz, hd⟩ := hbase
      rw [hspl]
      refine ⟨rfl, ?_, ?_⟩
      · simp [hx, hy, hz]
      · rw [← hd] at hdigit
        rw [← hd, ascii_lower_digit hdigit]
        rfl
    constructor
    · rintro ⟨hlen, hport, hdigit⟩
      obtain ⟨a, b, c, d, rfl⟩ : ∃ a b c d, base = [a, b, c, d] := by
        match base, hlen with
        | [a, b, c, d], _ => exact ⟨a, b, c, d, rfl⟩
      rw [hspl] at hport hdigit
      have hd : 49 ≤ d ∧ d ≤ 57 := hdigit
      have hlower : [a, b, c, d].map ascii_lower = [a, b, c].map ascii_lower ++ [d] := by
        simp [ascii_lower_of_digit hd]
      rw [hlower]
      exact hport.imp (fun hcom => ⟨d, hd.1, hd.2, congrArg (· ++ [d]) hcom⟩)
        fun hlpt => ⟨d, hd.1, hd.2, congrArg (· ++ [d]) hlpt⟩
    · rintro (⟨digit, hlow, hhigh, hbase⟩ | ⟨digit, hlow, hhigh, hbase⟩)
      · obtain ⟨hlen, hport, hval⟩ := hfour rfl ⟨hlow, hhigh⟩ hbase
        rw [hval]
        exact ⟨hlen, .inl hport, hlow, hhigh⟩
      · obtain ⟨hlen, hport, hval⟩ := hfour rfl ⟨hlow, hhigh⟩ hbase
        rw [hval]
        exact ⟨hlen, .inr hport, hlow, hhigh⟩

lemma superscript_mem {base : Bytes} (h : IsSuperscriptPort base) : 0xc2 ∈ base := by
  obtain ⟨port, -, digit, hdigit, rfl⟩ := h
  obtain ⟨low, -, rfl⟩ := mem_map.mp hdigit
  simp

lemma notMem_of_known {base : Bytes} (h : IsKnownDevice base) : 95 ∉ base ∧ 0xc2 ∉ base := by
  rcases h with hword | ⟨port, hport, digit, -, hle, rfl⟩
  · simp only [map_cons, map_nil, mem_cons, not_mem_nil, or_false] at hword
    rcases hword with rfl | rfl | rfl | rfl | rfl <;> decide
  · have hne : (95 : UInt8) ≠ digit ∧ (0xc2 : UInt8) ≠ digit := by
      constructor <;> rintro rfl <;> exact absurd hle (by decide)
    simp only [ports, map_cons, map_nil, mem_cons, not_mem_nil, or_false] at hport
    simp only [mem_append, mem_singleton, not_or, hne, not_false_eq_true, and_true]
    rcases hport with rfl | rfl <;> decide

lemma underscore_notMem {base : Bytes} (h : IsDeviceName base) : 95 ∉ base := by
  rcases h with hknown | ⟨port, hport, digit, hdigit, rfl⟩
  · exact (notMem_of_known hknown).1
  · have hport : ∀ port ∈ ports, 95 ∉ port := by decide +kernel
    have hdigit : ∀ digit ∈ superscripts, 95 ∉ digit := by decide +kernel
    rw [mem_append, not_or]
    exact ⟨hport port ‹_›, hdigit digit ‹_›⟩

lemma not_device_of_underscore {stem : Bytes}
    (h : 95 ∈ stem.takeWhile fun byte : UInt8 => byte ≠ 46) : ¬ IsDeviceName (deviceBase stem) :=
  fun hdevice => underscore_notMem hdevice (mem_map.mpr ⟨95, h, by decide⟩)

/-! ### Ports with a superscript digit -/

/-- The pieces up to the first dot spell a port with a superscript digit, and they come to the base
of the file name: a dot follows, or no tag does. -/
def SuperscriptPieces (pieces : List Bytes) (tagged : Bool) : Prop :=
  (∃ port ∈ ports, ∃ digit ∈ superscripts,
    ((pieces.rdropWhile isTrimmedPiece).takeWhile (· ≠ [46])).map (·.map ascii_lower) =
      port.map ([·]) ++ [digit]) ∧
  (tagged = true → [46] ∈ pieces.rdropWhile isTrimmedPiece)

instance (pieces : List Bytes) (tagged : Bool) :
    Decidable (SuperscriptPieces pieces tagged) := inferInstanceAs (Decidable (_ ∧ _))

lemma dot_mem_copiedPiece (h : IsPiece piece) : 46 ∈ copiedPiece piece ↔ piece = [46] := by
  refine ⟨fun hmem => ?_, by rintro rfl; decide⟩
  rcases h with ⟨value, rfl⟩ | ⟨first, rest, rfl, hrest, -, hhigh⟩
  · rw [copiedPiece] at hmem
    split at hmem
    · exact absurd hmem (by decide)
    · rw [mem_singleton.mp hmem]
  · obtain ⟨second, more, rfl⟩ := exists_cons_of_ne_nil hrest
    exact absurd (hhigh 46 hmem) (by decide)

lemma takeWhile_copied (h : ∀ piece ∈ pieces, IsPiece piece) :
    (pieces.flatMap copiedPiece).takeWhile (fun byte : UInt8 => byte ≠ 46) =
      (pieces.takeWhile (· ≠ [46])).flatMap copiedPiece := by
  induction pieces with
  | nil => rfl
  | cons piece pieces ih =>
    have hdot := dot_mem_copiedPiece (h piece mem_cons_self)
    by_cases hpiece : piece = [46]
    · subst hpiece
      rfl
    · rw [flatMap_cons, takeWhile_append_of_pos fun byte hmem => decide_eq_true
        (by rintro rfl; exact hpiece (hdot.mp hmem)), ih (forall_mem_cons.mp h).2,
        takeWhile_cons_of_pos (by simpa using hpiece), flatMap_cons]

/-- As many bytes as the first one announces. -/
def IsCut (piece : Bytes) : Prop :=
  ∃ first rest, piece = first :: rest ∧ rest.length + 1 = sequenceWidth first

/-- Bytes are cut in one way. -/
theorem cut_unique {ps qs : List Bytes} (hp : ∀ p ∈ ps, IsCut p) (hq : ∀ q ∈ qs, IsCut q)
    (h : ps.flatten = qs.flatten) : ps = qs := by
  induction ps generalizing qs with
  | nil =>
    cases qs with
    | nil => rfl
    | cons q qs =>
      obtain ⟨first, rest, rfl, -⟩ := hq q mem_cons_self
      cases h
  | cons p ps ih =>
    obtain ⟨first, rest, rfl, hwidth⟩ := hp p mem_cons_self
    cases qs with
    | nil => cases h
    | cons q qs =>
      obtain ⟨first', rest', rfl, hwidth'⟩ := hq q mem_cons_self
      rw [flatten_cons, flatten_cons, cons_append, cons_append, cons.injEq] at h
      obtain ⟨rfl, h⟩ := h
      obtain ⟨rfl, htail⟩ := append_inj h (by omega)
      rw [ih (forall_mem_cons.mp hp).2
        (forall_mem_cons.mp hq).2 htail]

lemma lower_facts : ∀ n : Fin 256,
    sequenceWidth (ascii_lower (ofNat n)) = sequenceWidth (ofNat n) ∧
      (ascii_lower (ofNat n) ∈ ports.flatten →
        copiedPiece [ofNat n] = [ofNat n]) := by
  decide +kernel

lemma isCut_lower (h : IsPiece piece) (hcopy : copiedPiece piece = piece) :
    IsCut (piece.map ascii_lower) := by
  have hlower : ∀ first : UInt8, sequenceWidth (ascii_lower first) = sequenceWidth first :=
    fun first => by simpa using (lower_facts ⟨first.toNat, first.toNat_lt⟩).1
  rcases h with ⟨value, rfl⟩ | ⟨first, rest, rfl, -, hwidth, -⟩
  · refine ⟨_, [], rfl, ?_⟩
    rw [hlower, sequenceWidth_one, length_nil]
    by_contra hhigh
    rw [copiedPiece, if_pos (.inl (le_iff_toNat_le.mpr (Nat.not_le.mp hhigh)))] at hcopy
    obtain rfl : 95 = value := (cons.inj hcopy).1
    exact hhigh (by decide)
  · exact ⟨_, _, map_cons, by rw [length_map, hwidth, hlower]⟩

/-- The copy spells a port with a superscript digit where the pieces do. -/
theorem copied_port_iff (h : ∀ piece ∈ pieces, IsPiece piece) :
    IsSuperscriptPort ((pieces.flatMap copiedPiece).map ascii_lower) ↔
      ∃ port ∈ ports, ∃ digit ∈ superscripts,
        pieces.map (·.map ascii_lower) = port.map ([·]) ++ [digit] := by
  have hflat : (∀ piece ∈ pieces, copiedPiece piece = piece) →
      (pieces.flatMap copiedPiece).map ascii_lower = (pieces.map (·.map ascii_lower)).flatten := by
    intro hcopy
    rw [flatMap_def, (map_congr_left hcopy).trans (map_id' pieces), map_flatten]
  refine exists_congr fun port => and_congr_right fun hport => exists_congr fun digit =>
    and_congr_right fun hdigit => ?_
  have hbytes : (port.map ([·]) ++ [digit]).flatten = port ++ digit := by
    rw [flatten_append, ← flatMap_def, flatMap_singleton', flatten_singleton]
  have hcuts : ∀ q ∈ port.map ([·]) ++ [digit], IsCut q := by
    intro q hq
    rcases mem_append.mp hq with hletter | hlast
    · obtain ⟨letter, hmem, rfl⟩ := mem_map.mp hletter
      have hall : ∀ letter ∈ ports.flatten, 1 = sequenceWidth letter := by
        decide +kernel
      exact ⟨letter, [], rfl, hall letter (mem_flatten.mpr ⟨port, hport, hmem⟩)⟩
    · obtain ⟨low, -, rfl⟩ := mem_map.mp hdigit
      exact ⟨0xc2, [low], mem_singleton.mp hlast, rfl⟩
  constructor
  · intro hbase
    have hcopy : ∀ piece ∈ pieces, copiedPiece piece = piece := by
      intro piece hpiece
      rcases h piece hpiece with ⟨value, rfl⟩ | ⟨first, rest, rfl, hrest, -⟩
      · by_cases hesc : 0x80 ≤ value ∨ invalid value = true
        · have hmem : 95 ∈ (pieces.flatMap copiedPiece).map ascii_lower :=
            mem_map.mpr ⟨95, mem_flatMap.mpr ⟨_, hpiece, by rw [copiedPiece, if_pos hesc]; decide⟩,
              by decide⟩
          rw [hbase] at hmem
          exact absurd hmem (underscore_notMem (.inr ⟨port, hport, digit, hdigit, rfl⟩))
        · rw [copiedPiece, if_neg hesc]
      · obtain ⟨second, more, rfl⟩ := exists_cons_of_ne_nil hrest
        rfl
    refine cut_unique (fun p hp => ?_) hcuts (by rw [← hflat hcopy, hbase, hbytes])
    obtain ⟨piece, hpiece, rfl⟩ := mem_map.mp hp
    exact isCut_lower (h piece hpiece) (hcopy piece hpiece)
  · intro hpieces
    have hcopy : ∀ piece ∈ pieces, copiedPiece piece = piece := by
      intro piece hpiece
      rcases h piece hpiece with ⟨value, rfl⟩ | ⟨first, rest, rfl, hrest, -⟩
      · have hmem : [ascii_lower value] ∈ port.map ([·]) ++ [digit] := by
          rw [← hpieces]
          exact mem_map.mpr ⟨[value], hpiece, rfl⟩
        have hletter : ascii_lower value ∈ ports.flatten := by
          rcases mem_append.mp hmem with hmem | hlast
          · obtain ⟨letter, hletter, heq⟩ := mem_map.mp hmem
            rw [← (cons.inj heq).1]
            exact mem_flatten.mpr ⟨port, hport, hletter⟩
          · obtain ⟨low, -, rfl⟩ := mem_map.mp hdigit
            simpa using congrArg length (mem_singleton.mp hlast)
        simpa using (lower_facts ⟨value.toNat, value.toNat_lt⟩).2 (by simpa using hletter)
      · obtain ⟨second, more, rfl⟩ := exists_cons_of_ne_nil hrest
        rfl
    rw [hflat hcopy, hpieces, hbytes]

/-! ## The safe name -/

lemma isPiece_underscore : IsPiece [95] := .inl ⟨95, rfl⟩

/-- The safe name is made of pieces, which are clean exactly when those of the shader name are. -/
theorem flat_safe_name_pieces (shader_name : Bytes) :
    ∃ pieces : List Bytes, flat_safe_name shader_name = pieces.flatMap copiedPiece ∧
      (∀ piece ∈ pieces, IsPiece piece) ∧
      ((∀ piece ∈ pieces, CleanPiece piece) ↔
        ∀ piece ∈ keptPieces shader_name.length MAX_FLAT_NAME_BYTES shader_name,
          CleanPiece piece) := by
  have hkept := @keptPieces_isPiece shader_name.length MAX_FLAT_NAME_BYTES shader_name
  have hcopy := @copy_safe_name_eq shader_name.length shader_name [] (Nat.zero_le _)
  rw [nil_append, length_nil, Nat.sub_zero] at hcopy
  unfold flat_safe_name
  dsimp only
  rw [hcopy, rdropWhile_pieces hkept]
  generalize keptPieces shader_name.length MAX_FLAT_NAME_BYTES shader_name = kept at hkept
  rw [← forall_rdropWhile_iff fun piece => cleanPiece_of_isTrimmedPiece]
  have htrim : ∀ piece ∈ kept.rdropWhile isTrimmedPiece, IsPiece piece := fun piece hmem =>
    hkept piece (( rdropWhile_prefix _ kept).subset hmem)
  generalize kept.rdropWhile isTrimmedPiece = trimmed at htrim
  have hclean : CleanPiece [95] := (by decide : (95 : UInt8) ≠ 0x7f)
  -- An underscore in front, and one in the place of nothing.
  obtain ⟨body, hbody, hpieces, hsame⟩ : ∃ body : List Bytes,
      (if trimmed.flatMap copiedPiece = [] then asciiBytes "_" else trimmed.flatMap copiedPiece) =
        body.flatMap copiedPiece ∧ (∀ piece ∈ body, IsPiece piece) ∧
      ((∀ piece ∈ body, CleanPiece piece) ↔ ∀ piece ∈ trimmed, CleanPiece piece) := by
    split_ifs with hempty
    · refine ⟨[[95]], rfl, by simpa using isPiece_underscore, ?_⟩
      have hnone : trimmed = [] := by
        cases trimmed with
        | nil => rfl
        | cons piece rest =>
          rw [flatMap_cons] at hempty
          have hnil := (append_eq_nil_iff.mp hempty).1
          rcases htrim piece mem_cons_self with ⟨value, rfl⟩ | ⟨first, more, rfl, hmore, -⟩
          · rw [copiedPiece] at hnil
            split at hnil <;> nomatch hnil
          · obtain ⟨second, more, rfl⟩ := exists_cons_of_ne_nil hmore
            nomatch hnil
      rw [hnone]
      simpa using hclean
    · exact ⟨trimmed, rfl, htrim, Iff.rfl⟩
  rw [hbody]
  split_ifs
  · refine ⟨[95] :: body, rfl, ?_, ?_⟩
    · rw [forall_mem_cons]
      exact ⟨isPiece_underscore, hpieces⟩
    · rw [forall_mem_cons, hsame]
      exact and_iff_right hclean
  · exact ⟨body, rfl, hpieces, hsame⟩

lemma flat_safe_name_stem (shader_name : Bytes) : flat_safe_name shader_name ≠ [] ∧
    (∀ last, (flat_safe_name shader_name).getLast? = some last → last ≠ 46 ∧ last ≠ 32) := by
  unfold flat_safe_name
  dsimp only
  generalize copy_safe_name shader_name.length shader_name [] = copied
  have hbody : ∀ body, body = (if copied.rdropWhile isTrimmed = [] then asciiBytes "_"
      else copied.rdropWhile isTrimmed) → body ≠ [] ∧
      ∀ last, body.getLast? = some last → last ≠ 46 ∧ last ≠ 32 := by
    rintro body rfl
    split_ifs with hempty
    · refine ⟨by decide, fun last hlast => ?_⟩
      obtain rfl : 95 = last := some.inj hlast
      decide
    · refine ⟨hempty, fun last hlast => ?_⟩
      have hnot := rdropWhile_last_not isTrimmed copied hempty
      rw [getLast?_eq_some_getLast hempty] at hlast
      rw [some.inj hlast, isTrimmed, decide_eq_true_iff, not_or] at hnot
      exact hnot
  obtain ⟨hne, hlast⟩ := hbody _ rfl
  generalize (if copied.rdropWhile isTrimmed = [] then asciiBytes "_"
    else copied.rdropWhile isTrimmed) = body at hne hlast
  split_ifs
  · refine ⟨cons_ne_nil 95 body, fun last h => hlast last ?_⟩
    rwa [getLast?_append_of_ne_nil _ hne] at h
  · exact ⟨hne, hlast⟩

/-- The escape leaves no device but the ports with a superscript digit, and leaves these alone. -/
theorem flat_safe_name_device {shader_name trimmed : Bytes}
    (h : (copy_safe_name shader_name.length shader_name []).rdropWhile isTrimmed = trimmed) :
    (IsDeviceName (deviceBase (flat_safe_name shader_name)) ↔
        IsSuperscriptPort (deviceBase trimmed)) ∧
      (IsSuperscriptPort (deviceBase trimmed) → flat_safe_name shader_name = trimmed) := by
  have hnot : ∀ {base}, 0xc2 ∉ base → ¬ IsSuperscriptPort base := fun hmem hport =>
    hmem (superscript_mem hport)
  unfold flat_safe_name
  dsimp only
  rw [h]
  by_cases hempty : trimmed = []
  · subst hempty
    have hdevice : ¬ IsDeviceName (deviceBase [95]) := not_device_of_underscore (by decide)
    have hport : ¬ IsSuperscriptPort (deviceBase []) := hnot not_mem_nil
    exact ⟨iff_of_false hdevice hport, fun h => absurd h hport⟩
  rw [if_neg hempty]
  split_ifs with hesc
  · have hdevice : ¬ IsDeviceName (deviceBase (asciiBytes "_" ++ trimmed)) :=
      not_device_of_underscore mem_cons_self
    have hport : ¬ IsSuperscriptPort (deviceBase trimmed) := by
      rcases hesc with rfl | rfl | hknown
      · exact hnot not_mem_nil
      · exact hnot not_mem_nil
      · exact hnot (notMem_of_known ((windows_device_basename_iff trimmed).mp hknown)).2
    exact ⟨iff_of_false hdevice hport, fun h => absurd h hport⟩
  · refine ⟨or_iff_right fun hknown => hesc (.inr (.inr ?_)), fun _ => rfl⟩
    exact (windows_device_basename_iff trimmed).mpr hknown

/-! ## The file name -/

/-- What stands between the safe name and the extension. -/
def identityPart (identity_tag : Option CString) (path_id : Int64) : Bytes :=
  match identity_tag with
  | some tag => asciiBytes "__" ++ tag.bytes ++ asciiBytes "_" ++ signedBytes path_id
  | none => []

lemma portableByte_of_hex (h : (48 ≤ byte ∧ byte ≤ 57) ∨ (97 ≤ byte ∧ byte ≤ 102)) :
    portableByte byte = true := by
  simp only [le_iff_toNat_le, reduceToNat] at h
  simp [portableByte, invalid, asciiBytes, UInt8.lt_iff_toNat_lt, ← UInt8.toNat_inj]
  omega

lemma portableByte_signedBytes {value : Int64} (h : byte ∈ signedBytes value) :
    portableByte byte = true := by
  unfold signedBytes at h
  split at h
  · rcases mem_append.mp h with hsign | hdigit
    · rw [mem_singleton.mp hsign]
      decide
    · exact portableByte_of_hex (.inl (mem_decimalBytes hdigit))
  · exact portableByte_of_hex (.inl (mem_decimalBytes h))

lemma getLast_signedBytes {value : Int64} :
    ∃ digit, (signedBytes value).getLast? = some digit ∧ 48 ≤ digit ∧ digit ≤ 57 := by
  have hdigits : decimalBytes value.toInt.natAbs ≠ [] := decimalBytes_ne_nil _
  refine ⟨(decimalBytes value.toInt.natAbs).getLast hdigits, ?_,
    mem_decimalBytes (getLast_mem hdigits)⟩
  unfold signedBytes
  split
  · rw [getLast?_append_of_ne_nil _ hdigits, getLast?_eq_some_getLast hdigits]
  · exact getLast?_eq_some_getLast hdigits

variable {identity_tag : Option CString} {path_id : Int64}

lemma portableByte_identityPart
    (htag : identity_tag.any (fun tag => ! lowercase_hex_string tag) = false)
    (h : byte ∈ identityPart identity_tag path_id) : portableByte byte = true := by
  cases identity_tag with
  | none => nomatch h
  | some tag =>
    rw [identityPart, mem_append, mem_append, mem_append] at h
    rcases h with ((hline | hhex) | hline) | hnumber
    · have hbyte : byte = 95 := by simpa [asciiBytes] using hline
      rw [hbyte]
      decide
    · simp only [any_some, Bool.not_eq_false', lowercase_hex_string, decide_eq_true_iff] at htag
      exact portableByte_of_hex (htag.2 byte hhex)
    · have hbyte : byte = 95 := by simpa [asciiBytes] using hline
      rw [hbyte]
      decide
    · exact portableByte_signedBytes hnumber

lemma stem_of_parts {safe_name : Bytes} (hne : safe_name ≠ [])
    (hlast : ∀ last, safe_name.getLast? = some last → last ≠ 46 ∧ last ≠ 32) :
    let stem := safe_name ++ identityPart identity_tag path_id
    stem ≠ [] ∧ (∀ last, stem.getLast? = some last → last ≠ 46 ∧ last ≠ 32) ∧
      (IsDeviceName (deviceBase stem) ↔
        IsDeviceName (deviceBase safe_name) ∧ (identity_tag.isSome = true → 46 ∈ safe_name)) := by
  intro stem
  refine ⟨append_ne_nil_of_left_ne_nil hne _, ?_, ?_⟩
  · cases identity_tag with
    | none => rwa [show stem = safe_name from append_nil _]
    | some tag =>
      intro last h
      obtain ⟨digit, hdigit, hrange⟩ := @getLast_signedBytes path_id
      have hnumber : signedBytes path_id ≠ [] := by
        intro hnil
        rw [hnil] at hdigit
        nomatch hdigit
      rw [show stem = (safe_name ++ (asciiBytes "__" ++ tag.bytes ++ asciiBytes "_")) ++
        signedBytes path_id from by simp [stem, identityPart],
        getLast?_append_of_ne_nil _ hnumber, hdigit] at h
      obtain rfl := some.inj h
      constructor
      · rintro rfl
        exact absurd hrange (by decide)
      · rintro rfl
        exact absurd hrange (by decide)
  · cases identity_tag with
    | none =>
      rw [show stem = safe_name from append_nil _]
      exact (and_iff_left nofun).symm
    | some tag =>
      by_cases hdot : 46 ∈ safe_name
      · have hbase : deviceBase stem = deviceBase safe_name := by
          unfold deviceBase
          congr 1
          rw [takeWhile_append, if_neg]
          intro hlen
          rw [← ( takeWhile_prefix (p := fun byte : UInt8 => decide (byte ≠ 46))).eq_of_length
            hlen] at hdot
          exact absurd (mem_takeWhile_imp hdot) (by decide)
        rw [hbase]
        exact (and_iff_left fun _ => hdot).symm
      · -- Without a dot in the safe name, the base has the underscores behind it.
        refine iff_of_false (not_device_of_underscore ?_) fun h => hdot (h.2 rfl)
        rw [takeWhile_append_of_pos fun byte hmem => decide_eq_true
          (by rintro rfl; exact hdot hmem)]
        exact mem_append_right _ mem_cons_self

/-- The stem is a device name where the pieces of the shader name spell one that is not escaped. -/
theorem device_stem_iff (shader_name : Bytes) :
    IsDeviceName (deviceBase (flat_safe_name shader_name)) ∧
        (identity_tag.isSome = true → 46 ∈ flat_safe_name shader_name) ↔
      SuperscriptPieces (keptPieces shader_name.length MAX_FLAT_NAME_BYTES shader_name)
        identity_tag.isSome := by
  have hkept := @keptPieces_isPiece shader_name.length MAX_FLAT_NAME_BYTES shader_name
  have hcopy := @copy_safe_name_eq shader_name.length shader_name [] (Nat.zero_le _)
  rw [nil_append, length_nil, Nat.sub_zero] at hcopy
  obtain ⟨hdevice, hsame⟩ := @flat_safe_name_device shader_name _ (by rw [hcopy, rdropWhile_pieces hkept])
  unfold SuperscriptPieces
  generalize keptPieces shader_name.length MAX_FLAT_NAME_BYTES shader_name = kept at *
  have htrim : ∀ piece ∈ kept.rdropWhile isTrimmedPiece, IsPiece piece := fun piece hmem =>
    hkept piece (( rdropWhile_prefix _ kept).subset hmem)
  rw [← copied_port_iff fun piece hmem => htrim piece (( takeWhile_prefix _).subset hmem),
    ← takeWhile_copied htrim, hdevice]
  refine and_congr_right fun hport => ?_
  rw [hsame hport, mem_flatMap]
  refine forall_congr' fun _ => ⟨?_, fun hmem => ⟨_, hmem, by decide⟩⟩
  rintro ⟨piece, hpiece, hdot⟩
  rwa [(dot_mem_copiedPiece (htrim piece hpiece)).mp hdot] at hpiece

end ShaderArtifact

open ShaderArtifact Utf8

end DXBCSandbox
