import Mathlib.Tactic.Common
import VodogeEdge.CharCode

/-!
# UTF-16

`char::encode_utf16` and `String::from_utf16_lossy` of the source's
standard library. The reader shows a surrogate that has lost its other
half as U+FFFD.
-/

namespace VodogeEdge

open List

def utf16 (c : Char) : List Nat :=
  if c.toNat < 0x10000 then [c.toNat]
  else [0xd800 + (c.toNat - 0x10000) / 0x400, 0xdc00 + (c.toNat - 0x10000) % 0x400]

def isSurrogate (unit : Nat) : Bool := 0xd800 ≤ unit && unit ≤ 0xdfff

def isHighSurrogate (unit : Nat) : Bool := 0xd800 ≤ unit && unit ≤ 0xdbff

def isLowSurrogate (unit : Nat) : Bool := 0xdc00 ≤ unit && unit ≤ 0xdfff

def replacementCharacter : Char := '�'

/-- `String::from_utf16_lossy`: a surrogate without its partner is
replaced, and what follows it is read again. -/
def fromUtf16Lossy : List Nat → List Char
  | [] => []
  | [unit] => [if isSurrogate unit then replacementCharacter else Char.ofNat unit]
  | unit :: next :: rest =>
    if !isSurrogate unit then Char.ofNat unit :: fromUtf16Lossy (next :: rest)
    else if isHighSurrogate unit && isLowSurrogate next then
      Char.ofNat (0x10000 + (unit - 0xd800) * 0x400 + (next - 0xdc00)) :: fromUtf16Lossy rest
    else replacementCharacter :: fromUtf16Lossy (next :: rest)

theorem toNat_valid (c : Char) : c.toNat < 0xd800 ∨ 0xdfff < c.toNat ∧ c.toNat < 0x110000 :=
  c.valid

variable {c : Char}

theorem utf16_eq_single (h : c.toNat < 0x10000) : utf16 c = [c.toNat] := if_pos h

theorem utf16_eq_pair (h : ¬c.toNat < 0x10000) :
    utf16 c = [0xd800 + (c.toNat - 0x10000) / 0x400, 0xdc00 + (c.toNat - 0x10000) % 0x400] :=
  if_neg h

theorem lt_of_mem_utf16 {unit : Nat} (h : unit ∈ utf16 c) : unit < 0x10000 := by
  have hvalid := toNat_valid c
  by_cases hc : c.toNat < 0x10000
  · rw [utf16_eq_single hc, mem_singleton] at h
    omega
  · rw [utf16_eq_pair hc] at h
    simp only [mem_cons, not_mem_nil, or_false] at h
    omega

theorem fromUtf16Lossy_utf16 (c : Char) (units : List Nat) :
    fromUtf16Lossy (utf16 c ++ units) = c :: fromUtf16Lossy units := by
  have hvalid := toNat_valid c
  by_cases hc : c.toNat < 0x10000
  · have hplain : isSurrogate c.toNat = false := by
      simp only [isSurrogate, Bool.and_eq_false_iff, decide_eq_false_iff_not]
      omega
    rw [utf16_eq_single hc, singleton_append]
    cases units with
    | nil => simp [fromUtf16Lossy, hplain]
    | cons next rest =>
      rw [fromUtf16Lossy, hplain, Char.ofNat_toNat]
      rfl
  · have hhigh : isHighSurrogate (0xd800 + (c.toNat - 0x10000) / 0x400) := by
      simp only [isHighSurrogate, Bool.and_eq_true, decide_eq_true_eq]
      omega
    have hsurrogate : isSurrogate (0xd800 + (c.toNat - 0x10000) / 0x400) := by
      simp only [isSurrogate, Bool.and_eq_true, decide_eq_true_eq]
      omega
    have hlow : isLowSurrogate (0xdc00 + (c.toNat - 0x10000) % 0x400) := by
      simp only [isLowSurrogate, Bool.and_eq_true, decide_eq_true_eq]
      omega
    have hvalue : 0x10000 + (0xd800 + (c.toNat - 0x10000) / 0x400 - 0xd800) * 0x400
        + (0xdc00 + (c.toNat - 0x10000) % 0x400 - 0xdc00) = c.toNat := by omega
    rw [utf16_eq_pair hc, cons_append, singleton_append, fromUtf16Lossy, hsurrogate,
      hhigh, hlow, hvalue, Char.ofNat_toNat]
    rfl

theorem utf16_short (c : Char) : (∃ u, utf16 c = [u]) ∨ ∃ u v, utf16 c = [u, v] := by
  by_cases hc : c.toNat < 0x10000
  · exact .inl ⟨_, utf16_eq_single hc⟩
  · exact .inr ⟨_, _, utf16_eq_pair hc⟩

theorem fromUtf16Lossy_halves (c : Char) (u v : Nat) (units : List Nat) (h : utf16 c = [u, v]) :
    ∃ d tail, d ≠ id c ∧ fromUtf16Lossy [u] ++ fromUtf16Lossy (v :: units) = d :: tail := by
  have hvalid := toNat_valid c
  have hc : ¬c.toNat < 0x10000 := by
    intro hc
    rw [utf16_eq_single hc] at h
    exact absurd (congrArg List.length h) (by simp)
  rw [utf16_eq_pair hc] at h
  obtain ⟨rfl, -⟩ := List.cons.inj h
  have hsurrogate : isSurrogate (0xd800 + (c.toNat - 0x10000) / 0x400) := by
    simp only [isSurrogate, Bool.and_eq_true, decide_eq_true_eq]
    omega
  refine ⟨replacementCharacter, fromUtf16Lossy (v :: units), fun heq => ?_, ?_⟩
  · have hnat : replacementCharacter.toNat = c.toNat := congrArg Char.toNat heq
    exact hc (hnat ▸ by decide)
  · rw [fromUtf16Lossy, if_pos hsurrogate]
    rfl

def utf16Code : CharCode Char Nat Char where
  code := utf16
  shown := id
  read := fromUtf16Lossy
  shown_injective := Function.injective_id
  read_nil := rfl
  read_code := fromUtf16Lossy_utf16
  short := utf16_short
  halves := fromUtf16Lossy_halves

end VodogeEdge
