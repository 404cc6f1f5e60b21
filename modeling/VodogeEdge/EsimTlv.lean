import Mathlib.Data.List.Basic
import Mathlib.Data.Nat.Bitwise
import VodogeEdge.Text
import VodogeEdge.Word

/-!
# BER-TLV as the eUICC speaks it

The reader and the writer of `es10c`: one element is a tag of one or more
bytes, a length in the short form or in one to four bytes, and a value.
Everything the eUICC and the SM-DP+ send is walked with the same loop, one
element after the other until nothing is left or one does not read.

`elements` is the list such a loop meets, with the error it stops at;
`walk_fold` says what a loop makes of it. An element is read back from what
`tlv` writes, whatever follows it.
-/

namespace VodogeEdge.Esim

open List

inductive Es10cError where
  | truncated
  | unexpectedTag (expected actual : Bytes)
  | missingProfileList
  | invalidIccid
  | refused (code : UInt8) (reason : String)
  | payloadTooLarge (actual max : Nat)
  | emptyPayload
  | notificationsUnavailable (code : Nat)
  | missingField (name : String)
  | nicknameTooLong (bytes : Nat)
  | challengeLength (actual : Nat)
  | authenticationRefused (code : Nat) (reason : String)
  | downloadRefused (code : Nat) (reason : String)
  | sessionNotCancelled
  | invalidImei
deriving DecidableEq

def hex (bytes : Bytes) : String := String.join (bytes.map fun b => hexPadded 2 b.toNat)

def Es10cError.display : Es10cError → String
  | .truncated => "eUICC response is truncated"
  | .unexpectedTag expected actual => "expected tag " ++ hex expected ++ ", got " ++ hex actual
  | .missingProfileList => "response has no profile list"
  | .invalidIccid => "ICCID is not a digit string"
  | .nicknameTooLong bytes => "nickname is " ++ toString bytes ++ " bytes; SGP.22 allows 64"
  | .refused code reason =>
    "eUICC refused the request: " ++ reason ++ " (" ++ toString code.toNat ++ ")"
  | .payloadTooLarge actual max =>
    "ES10 payload is " ++ toString actual ++ " bytes, above the " ++ toString max
      ++ " a STORE DATA chain can carry"
  | .emptyPayload => "ES10 payload is empty"
  | .notificationsUnavailable code =>
    "eUICC returned notification list error " ++ toString code
      ++ (if code = 127 then " (undefined error)" else "")
  | .missingField name => "response has no " ++ name
  | .challengeLength actual =>
    "eUICC challenge is " ++ toString actual ++ " bytes, SGP.22 requires 16"
  | .authenticationRefused code reason =>
    "eUICC refused to authenticate the SM-DP+: " ++ reason ++ " (" ++ toString code ++ ")"
  | .downloadRefused code reason =>
    "eUICC refused to prepare the download: " ++ reason ++ " (" ++ toString code ++ ")"
  | .sessionNotCancelled => "eUICC refused to cancel the RSP session"
  | .invalidImei => "IMEI is not a digit string long enough to carry a TAC"

/-! ## One element -/

/-- One element; `raw` is all of it, from its tag to its last byte. -/
structure Tlv where
  tag : Bytes
  value : Bytes
  raw : Bytes
deriving DecidableEq

/-- The bytes after the first of a long tag: each sets bit 8 while more follow. -/
def readTagRest : Bytes → Except Es10cError (Bytes × Bytes)
  | [] => .error .truncated
  | next :: rest =>
    if next &&& 0x80 = 0 then .ok ([next], rest)
    else
      match readTagRest rest with
      | .error error => .error error
      | .ok (more, tail) => .ok (next :: more, tail)

def readTag : Bytes → Except Es10cError (Bytes × Bytes)
  | [] => .error .truncated
  | first :: rest =>
    if first &&& 0x1f = 0x1f then
      match readTagRest rest with
      | .error error => .error error
      | .ok (more, tail) => .ok (first :: more, tail)
    else .ok ([first], rest)

/-- `value << 8 | byte`, byte after byte. -/
def bigEndian (bytes : Bytes) : Nat :=
  bytes.foldl (fun value byte => value <<< 8 ||| byte.toNat) 0

def readLength : Bytes → Except Es10cError (Nat × Bytes)
  | [] => .error .truncated
  | lengthByte :: rest =>
    if lengthByte &&& 0x80 = 0 then .ok (lengthByte.toNat, rest)
    else
      let count := (lengthByte &&& 0x7f).toNat
      if count = 0 ∨ 4 < count then .error .truncated
      else if rest.length < count then .error .truncated
      else .ok (bigEndian (rest.take count), rest.drop count)

/-- `read_tlv`: one element, and the bytes after it. -/
def readTlv (bytes : Bytes) : Except Es10cError (Tlv × Bytes) :=
  match readTag bytes with
  | .error error => .error error
  | .ok (tag, afterTag) =>
    match readLength afterTag with
    | .error error => .error error
    | .ok (length, body) =>
      if body.length < length then .error .truncated
      else
        let tail := body.drop length
        .ok (⟨tag, body.take length, bytes.take (bytes.length - tail.length)⟩, tail)

/-! What a reader accepts it reads from its bytes alone, whatever follows. -/

/-- The bytes after the first of a long tag: all but the last set bit 8. -/
inductive IsTagRest : Bytes → Prop
  | last {next : UInt8} (h : next &&& 0x80 = 0) : IsTagRest [next]
  | more {next : UInt8} {more : Bytes} (h : next &&& 0x80 ≠ 0) (hmore : IsTagRest more) :
      IsTagRest (next :: more)

/-- One byte, or more if the low bits of the first are all ones. -/
inductive IsTag : Bytes → Prop
  | short {first : UInt8} (h : first &&& 0x1f ≠ 0x1f) : IsTag [first]
  | long {first : UInt8} {more : Bytes} (h : first &&& 0x1f = 0x1f)
      (hmore : IsTagRest more) : IsTag (first :: more)

/-- The length in one byte, or in the number of bytes that the first says. -/
inductive IsLength : Bytes → Nat → Prop
  | short {first : UInt8} (h : first &&& 0x80 = 0) : IsLength [first] first.toNat
  | long {first : UInt8} {octets : Bytes} (h : first &&& 0x80 ≠ 0)
      (hcount : (first &&& 0x7f).toNat = octets.length)
      (hsome : 1 ≤ octets.length ∧ octets.length ≤ 4) {length : Nat}
      (hlength : bigEndian octets = length) : IsLength (first :: octets) length

variable {bytes tail tag : Bytes} {length : Nat} {more header : Bytes} {tlv : Tlv}

theorem IsTag.ne_nil (h : IsTag tag) : tag ≠ [] := by
  cases h <;> exact cons_ne_nil _ _

theorem readTagRest_append (h : IsTagRest more) (rest : Bytes) :
    readTagRest (more ++ rest) = .ok (more, rest) := by
  induction h with
  | last h => exact if_pos h
  | more h _ ih => simp [readTagRest, if_neg h, ih]

theorem readTagRest_ok (h : readTagRest bytes = .ok (more, tail)) :
    IsTagRest more ∧ bytes = more ++ tail := by
  fun_induction readTagRest bytes generalizing more with
  | case1 | case3 => cases h
  | case2 next rest hlast =>
    cases h
    exact ⟨.last hlast, rfl⟩
  | case4 next rest hmore _ _ hread ih =>
    cases h
    obtain ⟨hrest, rfl⟩ := ih hread
    exact ⟨.more hmore hrest, rfl⟩

theorem readTag_append (h : IsTag tag) (rest : Bytes) :
    readTag (tag ++ rest) = .ok (tag, rest) := by
  cases h with
  | short h => exact if_neg h
  | long h hmore => simp [readTag, if_pos h, readTagRest_append hmore]

theorem readTag_ok (h : readTag bytes = .ok (tag, tail)) : IsTag tag ∧ bytes = tag ++ tail := by
  unfold readTag at h
  split at h
  · cases h
  split at h
  next hlong =>
    split at h
    · cases h
    next hread =>
      cases h
      obtain ⟨hmore, rfl⟩ := readTagRest_ok hread
      exact ⟨.long hlong hmore, rfl⟩
  next hshort =>
    cases h
    exact ⟨.short hshort, rfl⟩

theorem readLength_append (h : IsLength header length) (rest : Bytes) :
    readLength (header ++ rest) = .ok (length, rest) := by
  cases h with
  | short h => exact if_pos h
  | long h hcount hsome hlength =>
    rw [cons_append, readLength, if_neg h, hcount]
    rw [if_neg (by omega), if_neg (by rw [length_append]; omega), take_left, drop_left, hlength]

theorem readLength_ok (h : readLength bytes = .ok (length, tail)) :
    ∃ header, IsLength header length ∧ bytes = header ++ tail := by
  unfold readLength at h
  split at h
  · cases h
  next first rest =>
    split at h
    next hshort =>
      cases h
      exact ⟨[first], .short hshort, rfl⟩
    next hlong =>
      dsimp only at h
      split_ifs at h with hcount hfits
      cases h
      have htake : (first &&& 0x7f).toNat = (rest.take (first &&& 0x7f).toNat).length := by
        rw [length_take]
        omega
      refine ⟨_, .long hlong htake (by omega) rfl, ?_⟩
      rw [cons_append, take_append_drop]

theorem isLength_ofNat (h : length < 128) : IsLength [.ofNat length] length := by
  have htoNat : (UInt8.ofNat length).toNat = length := by
    rw [UInt8.toNat_ofNat']
    omega
  have hbit : UInt8.ofNat length &&& 0x80 = 0 := by
    rw [← UInt8.toNat_inj, UInt8.toNat_and, htoNat]
    change length &&& 2 ^ 7 = 0
    rw [Nat.and_two_pow, Nat.testBit_lt_two_pow h]
    rfl
  have hlength := IsLength.short hbit
  rwa [htoNat] at hlength

theorem readTlv_append {value : Bytes} (htag : IsTag tag)
    (hlength : IsLength header value.length) (rest : Bytes) :
    readTlv (tag ++ header ++ value ++ rest)
      = .ok (⟨tag, value, tag ++ header ++ value⟩, rest) := by
  have hraw : (tag ++ header ++ value ++ rest).take
      ((tag ++ header ++ value ++ rest).length - rest.length) = tag ++ header ++ value :=
    take_left' (by simp only [length_append]; omega)
  have henough : ¬ (value ++ rest).length < value.length := by
    rw [length_append]
    omega
  rw [readTlv]
  simp only [append_assoc, readTag_append htag, readLength_append hlength, henough, if_false,
    take_left, drop_left]
  simp only [append_assoc] at hraw
  rw [hraw]

/-- An element is its tag, its length and its value, and the bytes it was
read from start with it. -/
theorem readTlv_ok (h : readTlv bytes = .ok (tlv, tail)) :
    bytes = tlv.raw ++ tail ∧ IsTag tlv.tag ∧ ∃ header, IsLength header tlv.value.length ∧
      tlv.raw = tlv.tag ++ header ++ tlv.value := by
  have hread := h
  rw [readTlv] at h
  split at h
  · cases h
  next tag afterTag htag =>
    split at h
    · cases h
    next length body hlength =>
      split at h
      · cases h
      next hfits =>
        obtain ⟨hisTag, rfl⟩ := readTag_ok htag
        obtain ⟨header, hisLength, rfl⟩ := readLength_ok hlength
        have hvalue : (body.take length).length = length := by
          rw [length_take]
          omega
        rw [← hvalue] at hisLength
        have hsplit : tag ++ (header ++ body)
            = tag ++ header ++ body.take length ++ body.drop length := by
          rw [append_assoc, append_assoc, take_append_drop]
        rw [hsplit, readTlv_append hisTag hisLength] at hread
        cases hread
        exact ⟨hsplit, hisTag, header, hisLength, rfl⟩

theorem readTlv_split (h : readTlv bytes = .ok (tlv, tail)) :
    bytes = tlv.raw ++ tail ∧ (∃ header, header ≠ [] ∧ tlv.raw = header ++ tlv.value)
      ∧ ∀ rest, readTlv (tlv.raw ++ rest) = .ok (tlv, rest) := by
  obtain ⟨hbytes, htag, header, hlength, hraw⟩ := readTlv_ok h
  refine ⟨hbytes, ⟨_, append_ne_nil_of_left_ne_nil htag.ne_nil header, hraw⟩, fun rest => ?_⟩
  rw [hraw, readTlv_append htag hlength, ← hraw]

/-- An element takes at least one byte, so that every loop ends. -/
theorem length_readTlv_lt (h : readTlv bytes = .ok (tlv, tail)) : tail.length < bytes.length := by
  obtain ⟨hbytes, ⟨header, hne, hraw⟩, -⟩ := readTlv_split h
  have hpos := length_pos_iff.mpr hne
  rw [hbytes, hraw, length_append, length_append]
  omega

/-- `first_tlv`: the first complete element, tag and length included. -/
def firstTlv (bytes : Bytes) : Except Es10cError Bytes :=
  match readTlv bytes with
  | .error error => .error error
  | .ok (tlv, _) => .ok tlv.raw

def expectTag (bytes expected : Bytes) : Except Es10cError Bytes :=
  match readTlv bytes with
  | .error error => .error error
  | .ok (tlv, _) => if tlv.tag ≠ expected then .error (.unexpectedTag expected tlv.tag)
      else .ok tlv.value

/-- `integer`: at most eight bytes, big-endian. -/
def integer (value : Bytes) : Except Es10cError Nat :=
  if value.isEmpty ∨ 8 < value.length then .error .truncated else .ok (bigEndian value)

/-! ## Writing -/

def derLength (length : Nat) : Bytes :=
  if length < 0x80 then [UInt8.ofNat length]
  else if length ≤ 0xff then [0x81, UInt8.ofNat length]
  else if length ≤ 0xffff then [0x82, UInt8.ofNat (length >>> 8), UInt8.ofNat length]
  else [0x83, UInt8.ofNat (length >>> 16), UInt8.ofNat (length >>> 8), UInt8.ofNat length]

/-- `tlv`: a value wrapped in one element. -/
def wrap (tag value : Bytes) : Bytes := tag ++ derLength value.length ++ value

theorem bigEndian_three (a b c : UInt8) :
    bigEndian [a, b, c] = (a.toNat * 256 + b.toNat) * 256 + c.toNat := by
  have hstep : ∀ value (byte : UInt8), value <<< 8 ||| byte.toNat = value * 256 + byte.toNat := by
    intro value byte
    rw [← Nat.shiftLeft_add_eq_or_of_lt byte.toNat_lt, Nat.shiftLeft_eq]
  simp only [bigEndian, foldl_cons, foldl_nil, hstep]
  omega

theorem isLength_derLength (h : length < 2 ^ 24) : IsLength (derLength length) length := by
  rw [derLength]
  split_ifs with h1 h2 h3
  · exact isLength_ofNat h1
  · refine .long (by decide) (by simp) (by simp) ((bigEndian_three 0 0 _).trans ?_)
    simp
    omega
  · refine .long (by decide) (by simp) (by simp) ((bigEndian_three 0 _ _).trans ?_)
    simp
    omega
  · refine .long (by decide) (by simp) (by simp) ((bigEndian_three _ _ _).trans ?_)
    simp
    omega

/-- An element that is written is read back in front of anything. One that
is read is its tag, its length and its value: nothing before the rest is
lost. -/
theorem element_codec :
    (∀ tag value rest : Bytes, IsTag tag → value.length < 2 ^ 24 →
      readTlv (wrap tag value ++ rest) = .ok (⟨tag, value, wrap tag value⟩, rest)) ∧
    ∀ (bytes tail : Bytes) tlv, readTlv bytes = .ok (tlv, tail) →
      IsTag tlv.tag ∧ ∃ header, IsLength header tlv.value.length ∧
        bytes = tlv.tag ++ header ++ tlv.value ++ tail := by
  constructor
  · intro tag value rest htag hvalue
    exact readTlv_append htag (isLength_derLength hvalue) rest
  · intro bytes tail tlv h
    obtain ⟨hbytes, htag, header, hlength, hraw⟩ := readTlv_ok h
    exact ⟨htag, header, hlength, hraw ▸ hbytes⟩

theorem profileList_read_back :
    readTlv (wrap [0xbf, 0x2d] [0x5a] ++ [0]) =
      .ok (⟨[0xbf, 0x2d], [0x5a], [0xbf, 0x2d, 0x01, 0x5a]⟩, [0]) :=
  element_codec.1 _ _ _ (.long (by decide) (.last (by decide))) (by decide)

/-! ## Loops over the elements of a structure -/

section Loops

variable {σ : Type}

/-- `while !body.is_empty() { let (tag, value, tail) = read_tlv(body)?; body = tail; … }`,
with what the loop does with one element as `step`. -/
def walk (step : σ → Tlv → Except Es10cError σ) (state : σ) (body : Bytes) : Except Es10cError σ :=
  match body with
  | [] => .ok state
  | b :: rest =>
    match _ : readTlv (b :: rest) with
    | .error error => .error error
    | .ok (tlv, tail) =>
      match step state tlv with
      | .error error => .error error
      | .ok next => walk step next tail
termination_by body.length
decreasing_by exact length_readTlv_lt ‹_›

/-- `find_tag`: the value of the first child with this tag; a child that
does not read ends the search. -/
def findTag (body tag : Bytes) : Option Bytes :=
  match body with
  | [] => none
  | b :: rest =>
    match _ : readTlv (b :: rest) with
    | .error _ => none
    | .ok (tlv, tail) => if tlv.tag = tag then some tlv.value else findTag tail tag
termination_by body.length
decreasing_by exact length_readTlv_lt ‹_›

/-- The elements from the front of a body, and the error at the one that
does not read. -/
def elements (body : Bytes) : List Tlv × Option Es10cError :=
  match body with
  | [] => ([], none)
  | b :: rest =>
    match _ : readTlv (b :: rest) with
    | .error error => ([], some error)
    | .ok (tlv, tail) => (tlv :: (elements tail).1, (elements tail).2)
termination_by body.length
decreasing_by exact length_readTlv_lt ‹_›

/-- A loop takes its step for every element, and fails at one that does not
read. -/
theorem walk_eq (step : σ → Tlv → Except Es10cError σ) (state : σ) (body : Bytes) :
    walk step state body = (elements body).1.foldlM step state >>= fun final =>
      match (elements body).2 with
      | none => .ok final
      | some error => .error error := by
  fun_induction elements body generalizing state with
  | case1 => rw [walk]; rfl
  | case2 b rest error h => rw [walk, h]; rfl
  | case3 b rest tlv tail h ih =>
    rw [walk, h, foldlM_cons]
    dsimp only
    cases step state tlv with
    | error error => rfl
    | ok next => exact ih next

theorem walk_fold (f : σ → Tlv → σ) (state : σ) (body : Bytes) :
    walk (fun state tlv => .ok (f state tlv)) state body
      = match (elements body).2 with
        | none => .ok ((elements body).1.foldl f state)
        | some error => .error error := by
  rw [walk_eq]
  exact congrArg (· >>= _) (foldlM_pure)

theorem walk_ok_iff {step : σ → Tlv → Except Es10cError σ} {state final : σ} {body : Bytes} :
    walk step state body = .ok final ↔
      (elements body).2 = none ∧ (elements body).1.foldlM step state = .ok final := by
  rw [walk_eq]
  cases (elements body).2 <;> cases (elements body).1.foldlM step state <;> simp [bind, Except.bind]

end Loops

end VodogeEdge.Esim
