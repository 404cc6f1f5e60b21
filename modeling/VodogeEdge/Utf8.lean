import Mathlib.Data.List.Basic
import VodogeEdge.Word

/-!
# Decoding of UTF-8

`fromUtf8` decodes the bytes of a text and nothing else. Lossy decoding
reads every list of bytes.

Bytes are decoded character by character; where no character starts, the
longest beginning of one that could have stood there is replaced by one
U+FFFD, and a byte that begins none is replaced by itself.
-/

namespace VodogeEdge

open List

/-! ## Strict decoding -/

def utf8Bytes (text : String) : Bytes := text.toUTF8.data.toList

def fromUtf8 (bytes : Bytes) : Option String := String.fromUTF8? bytes.toByteArray

variable (text : String) {rest : Bytes} {bytes : Bytes} {b : UInt8} {c : Char}

theorem toByteArray_utf8Bytes : (utf8Bytes text).toByteArray = text.toByteArray := by
  apply ByteArray.ext
  rw [data_toByteArray, utf8Bytes, String.toUTF8]

theorem fromUtf8_utf8Bytes : fromUtf8 (utf8Bytes text) = some text := by
  rw [fromUtf8, toByteArray_utf8Bytes, String.fromUTF8?, dif_pos text.isValidUTF8]
  exact congrArg some (String.toByteArray_inj.mp rfl)

theorem fromUtf8_eq_some_iff {text : String} :
    fromUtf8 bytes = some text ↔ utf8Bytes text = bytes := by
  constructor
  · intro h
    rw [fromUtf8, String.fromUTF8?] at h
    split at h
    · rw [Option.some_inj] at h
      rw [← h, utf8Bytes, String.toUTF8, String.fromUTF8, data_toByteArray]
    · cases h
  · rintro rfl
    exact fromUtf8_utf8Bytes text

/-! ## Lossy decoding -/

def replacement : Char := '�'

def utf8 (text : Chars) : Bytes := text.flatMap String.utf8EncodeChar

def decodeFirst (bytes : Bytes) : Option Char := bytes.toByteArray.utf8DecodeChar? 0

def isContinuation (b : UInt8) : Bool := 0x80 ≤ b && b ≤ 0xbf

/-- The first two bytes of some character of three. -/
def opensThree (b₀ b₁ : UInt8) : Bool :=
  (b₀ = 0xe0 && 0xa0 ≤ b₁ && b₁ ≤ 0xbf) || (0xe1 ≤ b₀ && b₀ ≤ 0xec && isContinuation b₁)
    || (b₀ = 0xed && 0x80 ≤ b₁ && b₁ ≤ 0x9f) || (0xee ≤ b₀ && b₀ ≤ 0xef && isContinuation b₁)

def opensFour (b₀ b₁ : UInt8) : Bool :=
  (b₀ = 0xf0 && 0x90 ≤ b₁ && b₁ ≤ 0xbf) || (0xf1 ≤ b₀ && b₀ ≤ 0xf3 && isContinuation b₁)
    || (b₀ = 0xf4 && 0x80 ≤ b₁ && b₁ ≤ 0x8f)

/-- How many bytes one replacement stands for, where no character starts. -/
def brokenLength : Bytes → Nat
  | b₀ :: b₁ :: rest =>
    if opensThree b₀ b₁ then 2
    else if opensFour b₀ b₁ then
      match rest with
      | b₂ :: _ => if isContinuation b₂ then 3 else 2
      | [] => 2
    else 1
  | _ => 1

theorem brokenLength_pos (bytes : Bytes) : 0 < brokenLength bytes := by
  fun_cases brokenLength bytes <;> exact Nat.succ_pos _

def decodeLossy : Bytes → Chars
  | [] => []
  | b :: rest =>
    match decodeFirst (b :: rest) with
    | some c => c :: decodeLossy ((b :: rest).drop c.utf8Size)
    | none => replacement :: decodeLossy ((b :: rest).drop (brokenLength (b :: rest)))
termination_by bytes => bytes.length
decreasing_by
  · have hpos := c.utf8Size_pos
    simp only [length_drop, length_cons]
    omega
  · have hpos := brokenLength_pos (b :: rest)
    simp only [length_drop, length_cons]
    omega

theorem decodeLossy_ne_nil (h : bytes ≠ []) : decodeLossy bytes ≠ [] := by
  obtain ⟨b, rest, rfl⟩ := exists_cons_of_ne_nil h
  rw [decodeLossy]
  split <;> exact cons_ne_nil _ _

/-! ## Whole characters -/

theorem utf8_append (text more : Chars) : utf8 (text ++ more) = utf8 text ++ utf8 more :=
  flatMap_append

theorem decodeFirst_encode_append (c : Char) (rest : Bytes) :
    decodeFirst (String.utf8EncodeChar c ++ rest) = some c := by
  rw [decodeFirst, toByteArray_append]
  exact ByteArray.utf8DecodeChar?_utf8EncodeChar_append

theorem decodeLossy_encode_append (c : Char) (rest : Bytes) :
    decodeLossy (String.utf8EncodeChar c ++ rest) = c :: decodeLossy rest := by
  have hdecode := decodeFirst_encode_append c rest
  obtain ⟨b, bytes, hbytes⟩ := exists_cons_of_ne_nil
    (append_ne_nil_of_left_ne_nil (String.utf8EncodeChar_ne_nil) rest)
  have hdrop : (b :: bytes).drop c.utf8Size = rest := by
    rw [← hbytes, ← String.length_utf8EncodeChar, drop_left]
  rw [hbytes] at hdecode
  rw [hbytes, decodeLossy, hdecode]
  dsimp only
  rw [hdrop]

theorem decodeLossy_utf8_append : ∀ text rest,
    decodeLossy (utf8 text ++ rest) = text ++ decodeLossy rest
  | [], _ => rfl
  | c :: text, rest => by
    rw [utf8, flatMap_cons, append_assoc, decodeLossy_encode_append]
    exact congrArg (c :: ·) (decodeLossy_utf8_append text rest)

theorem decodeLossy_utf8 (text : Chars) : decodeLossy (utf8 text) = text := by
  have h := decodeLossy_utf8_append text []
  rwa [append_nil, decodeLossy, append_nil] at h

/-! ## One byte a character -/

theorem length_utf8 : ∀ {text : Chars}, (∀ c ∈ text, c.utf8Size = 1) →
    (utf8 text).length = text.length
  | [], _ => rfl
  | c :: text, h => by
    have hrest := length_utf8 fun d hd => h d (mem_cons_of_mem c hd)
    rw [utf8, flatMap_cons, length_append, String.length_utf8EncodeChar,
      h c mem_cons_self, Nat.add_comm]
    exact congrArg (· + 1) hrest

theorem utf8_split {text : Chars} (htext : ∀ c ∈ text, c.utf8Size = 1)
    {chunk more after : Bytes} (h : chunk ++ more = utf8 text ++ after)
    (hle : chunk.length ≤ text.length) :
    chunk = utf8 (text.take chunk.length)
      ∧ more = utf8 (text.drop chunk.length) ++ after := by
  have htake : (utf8 (text.take chunk.length)).length = chunk.length := by
    rw [length_utf8 fun c hc => htext c (mem_of_mem_take hc), length_take]
    omega
  have hsplit : utf8 text = utf8 (text.take chunk.length) ++ utf8 (text.drop chunk.length) := by
    rw [← utf8_append, take_append_drop]
  rw [hsplit, append_assoc] at h
  exact append_inj h htake.symm

/-! ## Cut characters -/

theorem decodeLossy_of_none (h : decodeFirst (b :: rest) = none) :
    decodeLossy (b :: rest)
      = replacement :: decodeLossy ((b :: rest).drop (brokenLength (b :: rest))) := by
  rw [decodeLossy, h]

theorem decodeLossy_first (hc : String.utf8EncodeChar c = b :: rest)
    (hrest : rest ≠ []) : decodeLossy [b] = [replacement] := by
  have hnone : decodeFirst [b] = none := by
    rw [Option.eq_none_iff_forall_ne_some]
    intro d hd
    have hwhole : decodeFirst (b :: rest) = some d := by
      rw [← singleton_append, decodeFirst, toByteArray_append]
      exact ByteArray.utf8DecodeChar?_append_eq_some hd _
    have hcd : decodeFirst (b :: rest) = some c := by
      rw [← hc, ← append_nil (String.utf8EncodeChar c)]
      exact decodeFirst_encode_append c []
    obtain rfl : c = d := Option.some.inj (hcd.symm.trans hwhole)
    have hsize := ByteArray.le_size_of_utf8DecodeChar?_eq_some hd
    rw [← String.length_utf8EncodeChar, hc, size_toByteArray] at hsize
    have hpos := length_pos_of_ne_nil hrest
    simp only [length_cons, length_nil] at hsize
    omega
  rw [decodeLossy_of_none hnone]
  exact congrArg (replacement :: ·) decodeLossy.eq_1

theorem isUTF8FirstByte_of_opens {b₀ b₁ : UInt8}
    (h : opensThree b₀ b₁ ∨ opensFour b₀ b₁) : b₀.IsUTF8FirstByte := by
  have hmask : ∀ n < 256, (0xe0 ≤ n → n ≤ 0xef → n &&& 0xf0 = 0xe0)
      ∧ (0xf0 ≤ n → n ≤ 0xf4 → n &&& 0xf8 = 0xf0) := by decide +kernel
  obtain ⟨hthree, hfour⟩ := hmask b₀.toNat b₀.toNat_lt
  simp only [opensThree, opensFour, Bool.or_eq_true, Bool.and_eq_true, decide_eq_true_eq,
    UInt8.le_iff_toNat_le, ← UInt8.toNat_inj] at h
  simp only [UInt8.IsUTF8FirstByte, ← UInt8.toNat_inj]
  have hrange : (0xe0 ≤ b₀.toNat ∧ b₀.toNat ≤ 0xef) ∨ (0xf0 ≤ b₀.toNat ∧ b₀.toNat ≤ 0xf4) := by
    simp only [UInt8.reduceToNat] at h
    omega
  rcases hrange with ⟨hlow, hhigh⟩ | ⟨hlow, hhigh⟩
  · exact .inr (.inr (.inl (hthree hlow hhigh)))
  · exact .inr (.inr (.inr (hfour hlow hhigh)))

theorem decodeLossy_rest : ∀ {bytes : Bytes}, (∀ b ∈ bytes, ¬ b.IsUTF8FirstByte) →
    decodeLossy bytes = replicate bytes.length replacement
  | [], _ => decodeLossy.eq_1
  | b :: rest, h => by
    have hb : ¬ b.IsUTF8FirstByte := h b mem_cons_self
    have hnone : decodeFirst (b :: rest) = none := by
      rw [← Option.not_isSome_iff_eq_none]
      intro hsome
      have hfirst := ByteArray.isUTF8FirstByte_of_isSome_utf8DecodeChar? hsome
      exact hb (by simpa using hfirst)
    have hlength : brokenLength (b :: rest) = 1 := by
      cases rest with
      | nil => rfl
      | cons b₁ rest =>
        have hopens : ¬ (opensThree b b₁ ∨ opensFour b b₁) :=
          mt isUTF8FirstByte_of_opens hb
        rw [not_or] at hopens
        simp [brokenLength, hopens.1, hopens.2]
    rw [decodeLossy_of_none hnone, hlength, drop_one, tail_cons,
      decodeLossy_rest fun b' hb' => h b' (mem_cons_of_mem b hb')]
    rfl

/-- A character of more than one byte, cut behind its first. -/
theorem exists_cut (hc : c.utf8Size ≠ 1) :
    ∃ b rest, String.utf8EncodeChar c = b :: rest ∧ rest ≠ []
      ∧ decodeLossy [b] = [replacement]
      ∧ decodeLossy rest = replicate rest.length replacement := by
  obtain ⟨b, rest, hbytes⟩ := exists_cons_of_ne_nil (String.utf8EncodeChar_ne_nil)
  have hlength := String.length_utf8EncodeChar c
  rw [hbytes] at hlength
  have hrest : rest ≠ [] := by
    rintro rfl
    exact hc hlength.symm
  refine ⟨b, rest, hbytes, hrest, decodeLossy_first hbytes hrest, decodeLossy_rest ?_⟩
  intro b' hb'
  obtain ⟨i, hi, rfl⟩ := mem_iff_getElem.mp hb'
  have hi' : i + 1 < (String.utf8EncodeChar c).length := by
    rw [hbytes]
    exact Nat.succ_lt_succ hi
  have hother : ¬ (String.utf8EncodeChar c)[i + 1].IsUTF8FirstByte := by
    rw [UInt8.isUTF8FirstByte_getElem_utf8EncodeChar]
    exact Nat.succ_ne_zero i
  simpa [hbytes] using hother

end VodogeEdge
