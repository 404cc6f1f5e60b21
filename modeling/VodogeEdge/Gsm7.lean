import VodogeEdge.CharCode
import VodogeEdge.Digits
import VodogeEdge.Word

/-!
# The seven-bit alphabet

`gsm7` of `edge-core`: the tables of GSM 03.38, septets out of packed
octets, and text out of septets.

Packed octets and the septets in them are the digits of one number in base
256 and in base 128. `unpackSeptets_eq` says that of the source's loop over
an accumulator; nothing later looks at the loop again.
-/

namespace VodogeEdge

open List Nat

namespace Gsm7

/-! ## Tables -/

/-- `BASIC`, table 1. -/
def basicTable : Chars :=
  ['@', '£', '$', '¥', 'è', 'é', 'ù', 'ì', 'ò', 'Ç', '\n', 'Ø', 'ø', '\r', 'Å', 'å',
    'Δ', '_', 'Φ', 'Γ', 'Λ', 'Ω', 'Π', 'Ψ', 'Σ', 'Θ', 'Ξ', '\x1b', 'Æ', 'æ', 'ß', 'É',
    ' ', '!', '\x22', '#', '¤', '%', '&', '\x27', '(', ')', '*', '+', ',', '-', '.', '/',
    '0', '1', '2', '3', '4', '5', '6', '7', '8', '9', ':', ';', '<', '=', '>', '?',
    '¡', 'A', 'B', 'C', 'D', 'E', 'F', 'G', 'H', 'I', 'J', 'K', 'L', 'M', 'N', 'O',
    'P', 'Q', 'R', 'S', 'T', 'U', 'V', 'W', 'X', 'Y', 'Z', 'Ä', 'Ö', 'Ñ', 'Ü', '§',
    '¿', 'a', 'b', 'c', 'd', 'e', 'f', 'g', 'h', 'i', 'j', 'k', 'l', 'm', 'n', 'o',
    'p', 'q', 'r', 's', 't', 'u', 'v', 'w', 'x', 'y', 'z', 'ä', 'ö', 'ñ', 'ü', 'à']

/-- `BASIC[usize::from(value & 0x7f)]`; the index is always in the table. -/
def basic (value : Nat) : Char := basicTable.getD (value &&& 0x7f) '@'

def escape : Nat := 0x1b

def extension (value : Nat) : Option Char :=
  match value with
  | 0x0a => some '\x0c'
  | 0x14 => some '^'
  | 0x28 => some '\x7b'
  | 0x29 => some '\x7d'
  | 0x2f => some '\x5c'
  | 0x3c => some '['
  | 0x3d => some '~'
  | 0x3e => some ']'
  | 0x40 => some '|'
  | 0x65 => some '€'
  | _ => none

/-! ## Septets -/

structure Unpack where
  acc : Nat
  bits : Nat
  taken : Nat
  septets : List Nat

/-- The inner loop. An error is the return in the middle of it; `fuel`
counts iterations, of which there are fewer than `bits`. -/
def Unpack.drain (skip wanted : Nat) : Nat → Unpack → Except (List Nat) Unpack
  | 0, state => .ok state
  | fuel + 1, state =>
    if state.bits ≥ 7 then
      if state.taken = wanted then .error state.septets
      else
        Unpack.drain skip wanted fuel ⟨state.acc >>> 7, state.bits - 7, state.taken + 1,
          if state.taken ≥ skip then state.septets ++ [state.acc &&& 0x7f] else state.septets⟩
    else .ok state

/-- One octet; the accumulator is a `u16`. -/
def Unpack.octet (skip wanted : Nat) (state : Unpack) (byte : UInt8) : Except (List Nat) Unpack :=
  Unpack.drain skip wanted (state.bits + 8)
    { state with acc := (state.acc ||| byte.toNat <<< state.bits) % 2 ^ 16, bits := state.bits + 8 }

def Unpack.result : Except (List Nat) Unpack → List Nat
  | .ok state => state.septets
  | .error septets => septets

def unpackSeptets (packed : Bytes) (skip count : Nat) : List Nat :=
  Unpack.result (packed.foldlM (Unpack.octet skip (skip + count)) ⟨0, 0, 0, []⟩)

/-- `(header_octets * 8).div_ceil(7)`. -/
def headerSeptets (headerOctets : Nat) : Nat := (headerOctets * 8 + 6) / 7

def decodeSeptets : List Nat → Chars
  | [] => []
  | value :: rest =>
    if value = escape then
      match rest with
      | [] => []
      | next :: rest => (extension next).getD (basic next) :: decodeSeptets rest
    else basic value :: decodeSeptets rest

def decode (userData : Bytes) (headerOctets udl : Nat) : String :=
  let skip := headerSeptets headerOctets
  let count := udl - skip
  String.ofList (decodeSeptets (unpackSeptets userData skip count))

example : decode [0xe8, 0x32, 0x9b, 0xfd, 0x46, 0x97, 0xd9, 0xec, 0x37] 0 10 = "hellohello" := by
  decide +kernel

variable {c : Char} (header : Bytes) {value : Nat} {septet : Nat} (septets : List Nat)

theorem decodeSeptets_basic (h : value ≠ escape) (rest : List Nat) :
    decodeSeptets (value :: rest) = basic value :: decodeSeptets rest := by
  rw [decodeSeptets.eq_def]
  exact if_neg h

theorem decodeSeptets_escape (next : Nat) (rest : List Nat) :
    decodeSeptets (escape :: next :: rest)
      = (extension next).getD (basic next) :: decodeSeptets rest := by
  exact if_pos rfl

/-! ## What the loop unpacks -/

theorem acc_or_shift {acc bits byte : Nat} (hbits : bits < 7) (hacc : acc < 2 ^ bits)
    (hbyte : byte < 256) : (acc ||| byte <<< bits) % 2 ^ 16 = acc + 2 ^ bits * byte := by
  have hsum : acc ||| byte <<< bits = acc + 2 ^ bits * byte := by
    rw [Nat.shiftLeft_eq, Nat.mul_comm, Nat.or_comm, ← Nat.two_pow_add_eq_or_of_lt hacc, add_comm]
  have hsmall : 2 ^ bits ≤ 2 ^ 6 := Nat.pow_le_pow_right (by decide) (by omega)
  have hfits : 2 ^ bits * byte ≤ 2 ^ 6 * 255 := Nat.mul_le_mul hsmall (by omega)
  rw [hsum, mod_eq_of_lt (by omega)]

theorem push_drop (skip taken septet : Nat) (septets rest : List Nat) :
    (if taken ≥ skip then septets ++ [septet] else septets) ++ rest.drop (skip - (taken + 1))
      = septets ++ (septet :: rest).drop (skip - taken) := by
  by_cases hpush : taken ≥ skip
  · have hnow : skip - taken = 0 := by omega
    have hnext : skip - (taken + 1) = 0 := by omega
    rw [if_pos hpush, hnow, hnext, append_assoc]
    rfl
  · have hlater : skip - taken = skip - (taken + 1) + 1 := by omega
    rw [if_neg hpush, hlater, drop_succ_cons]

/-- What draining takes: the lowest septets of the accumulator, as long as
more are wanted. -/
theorem drain_eq (skip wanted : Nat) : ∀ fuel state, state.bits ≤ fuel →
    state.taken ≤ wanted → Unpack.drain skip wanted fuel state
      = if state.taken + state.bits / 7 ≤ wanted then
          .ok ⟨state.acc / 128 ^ (state.bits / 7), state.bits % 7, state.taken + state.bits / 7,
            state.septets ++ (lowDigits 128 (state.bits / 7) state.acc).drop (skip - state.taken)⟩
        else .error (state.septets ++ ((lowDigits 128 (state.bits / 7) state.acc).take
          (wanted - state.taken)).drop (skip - state.taken))
  | 0, state, hfuel, htaken => by
    have hbits : state.bits = 0 := le_zero.mp hfuel
    obtain ⟨acc, bits, taken, septets⟩ := state
    subst hbits
    simp [Unpack.drain, htaken]
  | fuel + 1, state, hfuel, htaken => by
    obtain ⟨acc, bits, taken, septets⟩ := state
    dsimp only at hfuel htaken ⊢
    rw [Unpack.drain]
    by_cases hbits : bits ≥ 7
    · rw [if_pos hbits]
      have hmore : bits / 7 = (bits - 7) / 7 + 1 := by omega
      by_cases hdone : taken = wanted
      · rw [if_pos hdone, if_neg (by omega), hdone, Nat.sub_self]
        simp
      · rw [if_neg hdone, drain_eq skip wanted fuel _ (by dsimp only; omega) (by dsimp only; omega)]
        have hshift : acc >>> 7 = acc / 128 := shiftRight_eq_div_pow acc 7
        have hmask : acc &&& 0x7f = acc % 128 := and_two_pow_sub_one_eq_mod acc 7
        have htake : wanted - taken = wanted - (taken + 1) + 1 := by omega
        have hleft : (bits - 7) % 7 = bits % 7 := by omega
        have hcount : taken + 1 + (bits - 7) / 7 = taken + ((bits - 7) / 7 + 1) := by omega
        rw [hshift, hmask, push_drop, push_drop, hmore, lowDigits, htake, take_succ_cons,
          Nat.div_div_eq_div_mul, ← Nat.pow_succ', hleft, hcount]
    · rw [if_neg hbits]
      have hnone : bits / 7 = 0 := by omega
      rw [hnone, if_pos (by omega), mod_eq_of_lt (by omega)]
      simp

/-- The septets still to come: those of the accumulator and the octets
above it. -/
def stream (acc bits : Nat) (packed : Bytes) : List Nat :=
  lowDigits 128 ((bits + 8 * packed.length) / 7)
    (acc + 2 ^ bits * Nat.ofDigits 256 (packed.map UInt8.toNat))

theorem octet_pow (bits : Nat) :
    2 ^ bits * 256 = 128 ^ ((bits + 8) / 7) * 2 ^ ((bits + 8) % 7) := by
  rw [show (256) = 2 ^ 8 from rfl, show (128) = 2 ^ 7 from rfl, ← pow_mul,
    ← pow_add, ← pow_add, div_add_mod]

theorem septet_pow {octets septets : Nat} (h : 8 * octets ≤ 7 * septets) :
    128 ^ septets = 256 ^ octets * 2 ^ (7 * septets - 8 * octets) := by
  rw [show (256) = 2 ^ 8 from rfl, show (128) = 2 ^ 7 from rfl, ← Nat.pow_mul,
    ← Nat.pow_mul, ← Nat.pow_add, Nat.add_sub_cancel' h]

theorem octets_le_headerSeptets (octets : Nat) : 8 * octets ≤ 7 * headerSeptets octets := by
  rw [headerSeptets]
  omega

theorem stream_cons (acc bits : Nat) (byte : UInt8) (packed : Bytes) :
    stream acc bits (byte :: packed)
      = lowDigits 128 ((bits + 8) / 7) (acc + 2 ^ bits * byte.toNat)
        ++ stream ((acc + 2 ^ bits * byte.toNat) / 128 ^ ((bits + 8) / 7)) ((bits + 8) % 7)
          packed := by
  have hcount : (bits + 8 * (packed.length + 1)) / 7
      = (bits + 8) / 7 + ((bits + 8) % 7 + 8 * packed.length) / 7 := by omega
  have hvalue : acc + 2 ^ bits * Nat.ofDigits 256 ((byte :: packed).map UInt8.toNat)
      = acc + 2 ^ bits * byte.toNat + 128 ^ ((bits + 8) / 7)
        * (2 ^ ((bits + 8) % 7) * Nat.ofDigits 256 (packed.map UInt8.toNat)) := by
    rw [map_cons, Nat.ofDigits_cons, Nat.mul_add, ← Nat.mul_assoc, octet_pow,
      Nat.mul_assoc, Nat.add_assoc]
  rw [stream, length_cons, hcount, hvalue, lowDigits_add,
    lowDigits_add_mul (by decide), Nat.add_mul_div_left _ _ (Nat.pow_pos (by decide))]
  rfl

theorem foldlM_octet (skip wanted : Nat) (packed : Bytes) : ∀ state,
    state.bits < 7 → state.acc < 2 ^ state.bits → state.taken ≤ wanted →
      Unpack.result (packed.foldlM (Unpack.octet skip wanted) state)
        = state.septets ++ ((stream state.acc state.bits packed).take
          (wanted - state.taken)).drop (skip - state.taken) := by
  induction packed with
  | nil =>
    intro state hbits hacc htaken
    have hnone : (state.bits + 8 * 0) / 7 = 0 := by omega
    rw [stream, length_nil, hnone]
    simp [Unpack.result, pure, Except.pure]
  | cons byte packed ih =>
    intro state hbits hacc htaken
    obtain ⟨acc, bits, taken, septets⟩ := state
    dsimp only at hbits hacc htaken ⊢
    have hbyte : byte.toNat < 256 := byte.toNat_lt
    rw [foldlM_cons, stream_cons, Unpack.octet]
    rw [acc_or_shift hbits hacc hbyte, drain_eq skip wanted (bits + 8) _ (Nat.le_refl _) htaken]
    generalize hdigits : lowDigits 128 ((bits + 8) / 7) (acc + 2 ^ bits * byte.toNat) = digits
    have hlength : digits.length = (bits + 8) / 7 := by rw [← hdigits, length_lowDigits]
    by_cases hmore : taken + (bits + 8) / 7 ≤ wanted
    · rw [if_pos hmore]
      have hleft : (acc + 2 ^ bits * byte.toNat) / 128 ^ ((bits + 8) / 7)
          < 2 ^ ((bits + 8) % 7) := by
        refine Nat.div_lt_of_lt_mul ?_
        rw [← octet_pow]
        calc acc + 2 ^ bits * byte.toNat
          _ < 2 ^ bits + 2 ^ bits * byte.toNat := Nat.add_lt_add_right hacc _
          _ = 2 ^ bits * (byte.toNat + 1) := by ring
          _ ≤ 2 ^ bits * 256 := Nat.mul_le_mul_left _ hbyte
      have hrest := ih ⟨_, _, _, septets ++ digits.drop (skip - taken)⟩
        (Nat.mod_lt _ (by decide)) hleft hmore
      refine hrest.trans ?_
      have hall : digits.take (wanted - taken) = digits := take_of_length_le (by omega)
      rw [take_append, hall, drop_append, hlength, Nat.sub_sub, Nat.sub_sub, append_assoc]
    · -- the return in the middle of the octet
      rw [if_neg hmore, take_append_of_le_length (by omega)]
      rfl

/-- The loop reads the septets of the octets: after the first `skip`, as
many as are wanted and there. -/
theorem unpackSeptets_eq (packed : Bytes) (skip count : Nat) : unpackSeptets packed skip count
      = ((lowDigits 128 (8 * packed.length / 7)
        (ofDigits 256 (packed.map UInt8.toNat))).take (skip + count)).drop skip := by
  refine (foldlM_octet skip (skip + count) packed ⟨0, 0, 0, []⟩ (by decide) (by decide)
    (zero_le _)).trans ?_
  rw [stream]
  simp

/-! ## The code of a character -/

def basicPosition (c : Char) : Option Nat :=
  (List.range 128).find? fun value => value != escape && basic value == c

def extensionPosition (c : Char) : Option Nat :=
  (List.range 128).find? fun value => extension value == some c

/-- The septets of a character; a character of neither table has none. -/
def septetsOf (c : Char) : List Nat :=
  match basicPosition c, extensionPosition c with
  | some value, _ => [value]
  | none, some value => [escape, value]
  | none, none => []

def Gsm7Char : Type := { c : Char // septetsOf c ≠ [] }

theorem of_basicPosition (h : basicPosition c = some value) :
    value < 128 ∧ value ≠ escape ∧ basic value = c := by
  have hmem := mem_of_find?_eq_some h
  have hfound := List.find?_some h
  simp only [Bool.and_eq_true, bne_iff_ne, beq_iff_eq] at hfound
  exact ⟨mem_range.mp hmem, hfound⟩

theorem of_extensionPosition (h : extensionPosition c = some value) :
    value < 128 ∧ extension value = some c :=
  ⟨mem_range.mp (mem_of_find?_eq_some h), by simpa using List.find?_some h⟩

theorem basic_ne_of_position_none (h : basicPosition c = none) (hvalue : value < 128)
    (hescape : value ≠ escape) : basic value ≠ c := by
  intro hbasic
  have hnot := List.find?_eq_none.mp h value (mem_range.mpr hvalue)
  simp only [Bool.and_eq_true, bne_iff_ne, beq_iff_eq] at hnot
  exact hnot ⟨hescape, hbasic⟩

theorem septetsOf_cases (h : septetsOf c ≠ []) :
    (∃ value, basicPosition c = some value ∧ septetsOf c = [value])
      ∨ ∃ value, basicPosition c = none ∧ extensionPosition c = some value
        ∧ septetsOf c = [escape, value] := by
  cases hbasic : basicPosition c with
  | some value => exact .inl ⟨value, rfl, by rw [septetsOf, hbasic]⟩
  | none =>
    cases hextension : extensionPosition c with
    | some value => exact .inr ⟨value, rfl, rfl, by rw [septetsOf, hbasic, hextension]⟩
    | none => exact absurd (by rw [septetsOf, hbasic, hextension]) h

theorem lt_of_mem_septetsOf (h : septet ∈ septetsOf c) : septet < 128 := by
  rcases septetsOf_cases (ne_nil_of_mem h) with ⟨value, hbasic, hcode⟩ |
    ⟨value, -, hextension, hcode⟩
  · rw [hcode, mem_singleton] at h
    exact h ▸ (of_basicPosition hbasic).1
  · rw [hcode] at h
    rcases mem_cons.mp h with rfl | h
    · decide
    · exact mem_singleton.mp h ▸ (of_extensionPosition hextension).1

theorem decodeSeptets_septetsOf (c : Gsm7Char) (septets : List Nat) :
    decodeSeptets (septetsOf c.1 ++ septets) = c.1 :: decodeSeptets septets := by
  rcases septetsOf_cases c.2 with ⟨value, hbasic, hcode⟩ | ⟨value, -, hextension, hcode⟩
  · obtain ⟨-, hescape, hshown⟩ := of_basicPosition hbasic
    rw [hcode, singleton_append, decodeSeptets_basic hescape, hshown]
  · rw [hcode, cons_append, singleton_append, decodeSeptets_escape,
      (of_extensionPosition hextension).2, Option.getD_some]

theorem septetsOf_short (c : Gsm7Char) :
    (∃ u, septetsOf c.1 = [u]) ∨ ∃ u v, septetsOf c.1 = [u, v] := by
  rcases septetsOf_cases c.2 with ⟨value, -, hcode⟩ | ⟨value, -, -, hcode⟩
  · exact .inl ⟨value, hcode⟩
  · exact .inr ⟨escape, value, hcode⟩

/-- Cut off its escape, a character of table 2 reads as one of table 1. -/
theorem decodeSeptets_halves (c : Gsm7Char) (u v : Nat) (septets : List Nat)
    (h : septetsOf c.1 = [u, v]) :
    ∃ d tail, d ≠ c.1 ∧ decodeSeptets [u] ++ decodeSeptets (v :: septets) = d :: tail := by
  rcases septetsOf_cases c.2 with ⟨value, -, hcode⟩ | ⟨value, hbasic, hextension, hcode⟩
  · exact absurd (congrArg List.length (h.symm.trans hcode)) (by simp)
  · obtain ⟨rfl, hvalue⟩ := List.cons.inj (hcode.symm.trans h)
    obtain ⟨rfl, -⟩ := List.cons.inj hvalue
    obtain ⟨hseven, htable⟩ := of_extensionPosition hextension
    have hescape : value ≠ escape := by
      rintro rfl
      cases htable
    refine ⟨basic value, decodeSeptets septets, basic_ne_of_position_none hbasic hseven hescape, ?_⟩
    rw [decodeSeptets_basic hescape]
    rfl

def code : CharCode Gsm7Char Nat Char where
  code := fun c => septetsOf c.1
  shown := Subtype.val
  read := decodeSeptets
  shown_injective := Subtype.val_injective
  read_nil := rfl
  read_code := decodeSeptets_septetsOf
  short := septetsOf_short
  halves := decodeSeptets_halves

theorem lt_of_mem_encode {text : List Gsm7Char} (h : septet ∈ code.encode text) : septet < 128 := by
  obtain ⟨c, -, hc⟩ := mem_flatMap.mp h
  exact lt_of_mem_septetsOf hc

/-! ## Packing -/

/-- Septets as 23.038 packs them, from the septet boundary after some
octets; the bits up to it, and those after the last septet, are zero. -/
def pack (header : Bytes) (septets : List Nat) : Bytes :=
  let skip := headerSeptets header.length
  (lowDigits 256 ((7 * (skip + septets.length) + 7) / 8)
    (Nat.ofDigits 256 (header.map UInt8.toNat) + 128 ^ skip * Nat.ofDigits 128 septets)).map
    UInt8.ofNat

theorem length_pack :
    (pack header septets).length
      = (7 * (headerSeptets header.length + septets.length) + 7) / 8 := by
  rw [pack, length_map, length_lowDigits]

theorem map_toNat_ofNat {octets : List Nat} (h : ∀ octet ∈ octets, octet < 256) :
    (octets.map UInt8.ofNat).map UInt8.toNat = octets := by
  rw [map_map]
  refine (map_congr_left fun octet hoctet => ?_).trans (map_id octets)
  exact mod_eq_of_lt (h octet hoctet)

theorem lt_of_mem_map_toNat (octets : Bytes) : ∀ octet ∈ octets.map UInt8.toNat, octet < 256 := by
  intro octet hoctet
  obtain ⟨byte, -, rfl⟩ := mem_map.mp hoctet
  exact byte.toNat_lt

theorem octets_lt_septets :
    ofDigits 256 (header.map UInt8.toNat) < 128 ^ headerSeptets header.length := by
  have hvalue := ofDigits_lt_base_pow_length (by decide) (lt_of_mem_map_toNat header)
  rw [length_map] at hvalue
  refine lt_of_lt_of_le hvalue ?_
  rw [septet_pow (octets_le_headerSeptets header.length)]
  exact Nat.le_mul_of_pos_right _ (Nat.two_pow_pos _)

theorem unpackSeptets_pack {septets : List Nat} (h : ∀ septet ∈ septets, septet < 128) :
    unpackSeptets (pack header septets) (headerSeptets header.length) septets.length = septets := by
  obtain ⟨skip, hskip⟩ : ∃ skip, skip = headerSeptets header.length := ⟨_, rfl⟩
  obtain ⟨value, hvalue⟩ : ∃ value, value = ofDigits 256 (header.map UInt8.toNat)
    + 128 ^ skip * ofDigits 128 septets := ⟨_, rfl⟩
  have hheader : ofDigits 256 (header.map UInt8.toNat) < 128 ^ skip :=
    hskip ▸ octets_lt_septets header
  have htext : ofDigits 128 septets < 128 ^ septets.length :=
    ofDigits_lt_base_pow_length (by decide) h
  have hfits : value < 256 ^ ((7 * (skip + septets.length) + 7) / 8) := by
    calc value
      _ < 128 ^ skip * (ofDigits 128 septets + 1) := by rw [mul_succ]; omega
      _ ≤ 128 ^ skip * 128 ^ septets.length := mul_le_mul_left _ htext
      _ = 2 ^ (7 * (skip + septets.length)) := by
        rw [← pow_add, show (128) = 2 ^ 7 from rfl, ← pow_mul]
      _ ≤ 2 ^ (8 * ((7 * (skip + septets.length) + 7) / 8)) :=
        Nat.pow_le_pow_right (by decide) (by omega)
      _ = 256 ^ ((7 * (skip + septets.length) + 7) / 8) := by rw [Nat.pow_mul]
  have hoctets : (pack header septets).map UInt8.toNat
      = lowDigits 256 ((7 * (skip + septets.length) + 7) / 8) value := by
    rw [pack, ← hskip, ← hvalue]
    exact map_toNat_ofNat fun octet hoctet => lt_of_mem_lowDigits (by decide) hoctet
  have habove : value / 128 ^ skip = ofDigits 128 septets := by
    rw [hvalue, Nat.add_mul_div_left _ _ (Nat.pow_pos (by decide)), Nat.div_eq_of_lt hheader,
      zero_add]
  rw [unpackSeptets_eq, hoctets, ofDigits_lowDigits (by decide) hfits, length_pack, ← hskip,
    take_lowDigits (by omega), drop_lowDigits, habove]
  simpa using lowDigits_ofDigits h 0

theorem pack_eq_append : ∃ rest, pack header septets = header ++ rest := by
  obtain ⟨skip, hskip⟩ : ∃ skip, skip = headerSeptets header.length := ⟨_, rfl⟩
  have hboundary : 8 * header.length ≤ 7 * skip := hskip ▸ octets_le_headerSeptets _
  obtain ⟨more, hmore⟩ : ∃ more, (7 * (skip + septets.length) + 7) / 8 = header.length + more :=
    Nat.exists_eq_add_of_le (by omega)
  have hfront := lowDigits_ofDigits (lt_of_mem_map_toNat header)
    (2 ^ (7 * skip - 8 * header.length) * ofDigits 128 septets)
  rw [length_map] at hfront
  have hback : (header.map UInt8.toNat).map UInt8.ofNat = header := by
    rw [map_map]
    exact (map_congr_left fun byte _ => UInt8.ofNat_toNat).trans (map_id header)
  rw [pack, ← hskip, hmore, lowDigits_add, septet_pow hboundary, mul_assoc, hfront,
    map_append, hback]
  exact ⟨_, rfl⟩

end Gsm7

end VodogeEdge
