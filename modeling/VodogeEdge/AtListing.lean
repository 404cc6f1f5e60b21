import VodogeEdge.GateMatrix
import VodogeEdge.InboxCollect

/-!
# Listings of the message store

`parse_listing` of `edge-modem`: header lines and PDU lines, in turn. The
digits of a PDU are cut two octets at a time and handed to
`from_str_radix`. The cut panics inside a character of more octets, and
`from_str_radix` takes a plus sign for the first digit;
`listing_exact_iff` says that nothing else can go wrong.
-/

namespace VodogeEdge

open List UsbIdentity

namespace AtListing

/-- Numbers may have a plus sign. -/
def unsigned : Chars → Chars
  | '+' :: rest => rest
  | text => text

/-- `parse::<u32>`. -/
def parseU32 (text : Chars) : Option UInt32 :=
  let digits := unsigned text
  if digits = [] ∨ ¬ digits.all Char.isDigit then none
  else
    let value := digits.foldl (fun n c => 10 * n + (c.toNat - 48)) 0
    if value < 2 ^ 32 then some (UInt32.ofNat value) else none

def parseHeader (rest : Chars) : Option (UInt32 × String) :=
  match rest.splitOn ',' with
  | index :: status :: _ => do
    let index ← parseU32 (trimBy isWhitespace index)
    let status := trimBy (· = '"') (trimBy isWhitespace status)
    if status.isEmpty then none else some (index, String.ofList status)
  | _ => none

/-- `u8::from_str_radix(text, 16)`. -/
def parseHexU8 (text : Chars) : Option UInt8 :=
  let digits := unsigned text
  if digits.isEmpty then none
  else
    (digits.foldlM (fun value c => (hexDigit c).bind fun digit =>
      if value * 16 + digit < 256 then some (value * 16 + digit) else none) 0).map UInt8.ofNat

/-- The first two octets of a text and what follows them. They may not end
inside a character. -/
def cutTwo : Chars → Option (Chars × Chars)
  | [] => none
  | c :: rest =>
    if c.utf8Size = 2 then some ([c], rest)
    else if c.utf8Size = 1 then
      match rest with
      | d :: rest => if d.utf8Size = 1 then some ([c, d], rest) else none
      | [] => none
    else none

/-- The loop over the pairs of octets; `none` is a panic. -/
def hexPairs : Nat → Chars → Option (Option Bytes)
  | 0, _ => some (some [])
  | count + 1, value => do
    let (pair, rest) ← cutTwo value
    match parseHexU8 pair with
    | none => some none
    | some byte => (hexPairs count rest).map (Option.map (byte :: ·))

/-- `str::len`. -/
def octetLength (value : Chars) : Nat := (value.map Char.utf8Size).sum

def decodeHex (value : Chars) : Option (Option Bytes) :=
  let value := trimBy isWhitespace value
  if value.isEmpty ∨ octetLength value % 2 ≠ 0 then some none
  else hexPairs (octetLength value / 2) value

/-- `trimmed.strip_prefix("+CMGL:")`. -/
def headerRest (trimmed : Chars) : Option Chars :=
  if "+CMGL:".toList.isPrefixOf trimmed then some (trimmed.drop 6) else none

def parseListingFrom : Option (UInt32 × String) → List Chars → Option (List StoredMessage)
  | _, [] => some []
  | pending, line :: rest =>
    let trimmed := trimBy isWhitespace line
    match headerRest trimmed with
    | some header => parseListingFrom (parseHeader header) rest
    | none =>
      match pending with
      | none => parseListingFrom none rest
      | some (index, status) => do
        match ← decodeHex trimmed with
        | none => parseListingFrom none rest
        | some pdu => (parseListingFrom none rest).map (⟨index, status, pdu⟩ :: ·)

def parseListing (lines : List Chars) : Option (List StoredMessage) :=
  parseListingFrom none lines

/-! ## Pairs of octets -/

/-- The octets that pairs of characters are read as. -/
def readOctets : Chars → Option Bytes
  | [] => some []
  | [_] => none
  | a :: b :: rest => (parseHexU8 [a, b]).bind fun byte => (readOctets rest).map (byte :: ·)

/-- Behind pairs that are read, two octets end inside a character. -/
def torn : Chars → Bool
  | [] => false
  | [c] => 2 < c.utf8Size
  | c :: d :: rest => 2 < c.utf8Size || c.utf8Size = 1 && 1 < d.utf8Size
    || (parseHexU8 [c, d]).isSome && torn rest

variable {rest : Chars} (lines : List Chars) {c : Char}

theorem utf8Size_of_hexDigit (h : (hexDigit c).isSome) : c.utf8Size = 1 := by
  have hle : ∀ {d : Char}, c ≤ d → d.val ≤ 127 → c.val ≤ 127 := fun h h' => UInt32.le_trans h h'
  rw [Char.utf8Size_eq_one_iff]
  unfold hexDigit at h
  split at h
  next hc => exact hle hc.2 (by decide)
  · split at h
    next hc => exact hle hc.2 (by decide)
    · split at h
      next hc => exact hle hc.2 (by decide)
      · cases h

theorem unsigned_of_ne (h : c ≠ '+') (rest : Chars) : unsigned (c :: rest) = c :: rest := by
  unfold unsigned
  split
  next heq => exact absurd (cons.inj heq).1 h
  · rfl

theorem hexDigits_of_foldlM {bound : Nat} : ∀ (digits : Chars) {start value : Nat},
    digits.foldlM (fun value c => (hexDigit c).bind fun digit =>
      if value * 16 + digit < bound then some (value * 16 + digit) else none) start = some value →
      ∀ c ∈ digits, (hexDigit c).isSome
  | [], _, _, _ => by simp
  | c :: rest, start, value, h => by
    obtain ⟨next, hnext, hrest⟩ := Option.bind_eq_some_iff.mp h
    obtain ⟨digit, hdigit, -⟩ := Option.bind_eq_some_iff.mp hnext
    rw [forall_mem_cons, hdigit]
    exact ⟨rfl, hexDigits_of_foldlM rest hrest⟩

theorem hexDigits_of_parseHexU8 {byte : UInt8} (h : parseHexU8 (c :: rest) = some byte) :
    (c = '+' ∨ (hexDigit c).isSome) ∧ ∀ d ∈ rest, (hexDigit d).isSome := by
  rw [parseHexU8] at h
  split at h
  · cases h
  · obtain ⟨value, hvalue, -⟩ := Option.map_eq_some_iff.mp h
    have hdigits := hexDigits_of_foldlM _ hvalue
    by_cases hplus : c = '+'
    · rw [hplus] at hdigits
      exact ⟨.inl hplus, hdigits⟩
    · rw [unsigned_of_ne hplus, forall_mem_cons] at hdigits
      exact ⟨.inr hdigits.1, hdigits.2⟩

theorem parseHexU8_eq_none (h : c.utf8Size ≠ 1) : parseHexU8 (c :: rest) = none := by
  rw [Option.eq_none_iff_forall_ne_some]
  intro byte hbyte
  rcases (hexDigits_of_parseHexU8 hbyte).1 with rfl | hdigit
  · exact h (by decide)
  · exact h (utf8Size_of_hexDigit hdigit)

theorem hexPairs_eq : ∀ count {text : Chars}, octetLength text = 2 * count →
    hexPairs count text = if torn text then none else some (readOctets text)
  | 0, [], _ => rfl
  | 0, c :: rest, h => by
    have hpos := c.utf8Size_pos
    rw [octetLength, map_cons, sum_cons] at h
    omega
  | count + 1, [], h => by cases h
  | count + 1, [c], h => by
    by_cases htwo : c.utf8Size = 2
    · have hnone : parseHexU8 [c] = none := parseHexU8_eq_none (by omega)
      simp [hexPairs, cutTwo, torn, readOctets, htwo, hnone]
    · have hlong : 2 < c.utf8Size := by
        simp only [octetLength, map_cons, map_nil, sum_cons, sum_nil] at h
        omega
      simp [hexPairs, cutTwo, torn, htwo, hlong]
  | count + 1, c :: d :: rest, h => by
    simp only [octetLength, map_cons, sum_cons] at h
    by_cases hone : c.utf8Size = 1
    · by_cases hnext : d.utf8Size = 1
      · have ih : hexPairs count rest = _ := hexPairs_eq count (by rw [octetLength]; omega)
        cases hbyte : parseHexU8 [c, d] with
        | none => simp [hexPairs, cutTwo, torn, readOctets, hone, hnext, hbyte]
        | some byte =>
          cases htorn : torn rest <;>
            simp [hexPairs, cutTwo, torn, readOctets, hone, hnext, hbyte, ih, htorn]
      · have hlong : 1 < d.utf8Size := Nat.lt_of_le_of_ne d.utf8Size_pos (Ne.symm hnext)
        simp [hexPairs, cutTwo, torn, hone, hnext, hlong]
    · have hnone (text) : parseHexU8 (c :: text) = none := parseHexU8_eq_none hone
      by_cases htwo : c.utf8Size = 2
      · simp [hexPairs, cutTwo, torn, readOctets, htwo, hnone]
      · have hlong : 2 < c.utf8Size := by
          have hpos := c.utf8Size_pos
          omega
        simp [hexPairs, cutTwo, torn, hone, htwo, hlong]

variable {text : Chars}

theorem decodeHex_eq (htrim : trimBy isWhitespace text = text) :
    decodeHex text = if text = [] ∨ octetLength text % 2 ≠ 0 then some none
      else if torn text then none else some (readOctets text) := by
  simp only [decodeHex, htrim, List.isEmpty_iff]
  by_cases h : text = [] ∨ octetLength text % 2 ≠ 0
  · rw [if_pos h, if_pos h]
  · rw [if_neg h, if_neg h, hexPairs_eq]
    omega

/-- What is read whole is cut between characters, and with no plus sign in it
it is all digits. -/
theorem of_readOctets : ∀ {text : Chars} {bytes : Bytes},
    readOctets text = some bytes → octetLength text % 2 = 0 ∧ torn text = false
      ∧ ('+' ∉ text → ∀ c ∈ text, (hexDigit c).isSome)
  | [], _, _ => ⟨rfl, rfl, by simp⟩
  | [_], _, h => by cases h
  | a :: b :: rest, _, h => by
    obtain ⟨byte, hbyte, hmap⟩ := Option.bind_eq_some_iff.mp h
    obtain ⟨bytes, hrest, -⟩ := Option.map_eq_some_iff.mp hmap
    have ha : a.utf8Size = 1 := by
      by_contra hne
      rw [parseHexU8_eq_none hne] at hbyte
      cases hbyte
    obtain ⟨hfirst, hsecond⟩ := hexDigits_of_parseHexU8 hbyte
    have hb := utf8Size_of_hexDigit (hsecond b mem_cons_self)
    obtain ⟨heven, htorn, hdigits⟩ := of_readOctets hrest
    simp only [octetLength] at heven
    simp only [octetLength, map_cons, sum_cons, torn, ha, hb, htorn]
    refine ⟨by omega, by simp, fun hplus => ?_⟩
    simp only [mem_cons, not_or] at hplus
    simp only [forall_mem_cons]
    exact ⟨hfirst.resolve_left (Ne.symm hplus.1), hsecond b mem_cons_self, hdigits hplus.2.2⟩

/-- A line that is torn by a cut, or read with a plus sign in it. -/
def Misread (text : Chars) : Prop :=
  octetLength text % 2 = 0 ∧ (torn text ∨ '+' ∈ text ∧ (readOctets text).isSome)

/-- Hexadecimal digits and nothing else, two for each octet. -/
def Spells (text : Chars) (bytes : Bytes) : Prop :=
  text ≠ [] ∧ (∀ c ∈ text, (hexDigit c).isSome) ∧ readOctets text = some bytes

/-- A text is misread exactly if the loop panics, or reads a plus sign. -/
theorem misread_iff (htrim : trimBy isWhitespace text = text) :
    Misread text ↔ decodeHex text = none
      ∨ '+' ∈ text ∧ ∃ bytes, decodeHex text = some (some bytes) := by
  rw [Misread, decodeHex_eq htrim]
  by_cases hempty : text = []
  · simp [hempty, torn]
  by_cases heven : octetLength text % 2 = 0
  · cases torn text <;> simp [hempty, heven, Option.isSome_iff_exists]
  · simp [heven]

theorem spells_iff (htrim : trimBy isWhitespace text = text) {bytes : Bytes} :
    Spells text bytes ↔ decodeHex text = some (some bytes) ∧ '+' ∉ text := by
  rw [decodeHex_eq htrim]
  constructor
  · rintro ⟨hne, hdigits, hread⟩
    obtain ⟨heven, htorn, -⟩ := of_readOctets hread
    refine ⟨by simp [hne, heven, htorn, hread], fun hplus => ?_⟩
    exact absurd (hdigits _ hplus) (by decide)
  · rintro ⟨hdecode, hplus⟩
    split at hdecode
    · cases hdecode
    next hne =>
      split at hdecode
      · cases hdecode
      · have hread := Option.some.inj hdecode
        exact ⟨fun h => hne (.inl h), (of_readOctets hread).2.2 hplus, hread⟩

/-! ## The listing -/

/-- What a line leaves pending. -/
def pendingOf (line : Chars) : Option (UInt32 × String) :=
  (headerRest (trimBy isWhitespace line)).bind parseHeader

/-- What a line is read as, behind another. -/
def readPair (pair : Chars × Chars) : Option (Option StoredMessage) :=
  match headerRest (trimBy isWhitespace pair.2), pendingOf pair.1 with
  | none, some (index, status) =>
    (decodeHex (trimBy isWhitespace pair.2)).map (Option.map (⟨index, status, ·⟩))
  | _, _ => some none

theorem parseListingFrom_cons (before line : Chars) (rest : List Chars) :
    parseListingFrom (pendingOf before) (line :: rest)
      = (readPair (before, line)).bind fun found =>
        (parseListingFrom (pendingOf line) rest).map (found.toList ++ ·) := by
  rw [parseListingFrom.eq_def, readPair]
  cases hheader : headerRest (trimBy isWhitespace line) with
  | some header => simp [pendingOf, hheader]
  | none =>
    have hnone : pendingOf line = none := by rw [pendingOf, hheader]; rfl
    cases pendingOf before with
    | none => simp [hheader, hnone]
    | some pending =>
      cases hdecode : decodeHex (trimBy isWhitespace line) with
      | none => simp [hheader, hdecode]
      | some pdu => cases pdu <;> simp [hheader, hdecode, hnone]

theorem parseListingFrom_iff : ∀ before
    {messages : List StoredMessage},
    parseListingFrom (pendingOf before) lines = some messages ↔
      (∀ pair ∈ (before :: lines).zip lines, readPair pair ≠ none)
        ∧ messages = ((before :: lines).zip lines).filterMap fun pair => (readPair pair).join := by
  induction lines with
  | nil => simp [parseListingFrom.eq_def]
  | cons line rest ih =>
    intro before messages
    rw [parseListingFrom_cons, zip_cons_cons, forall_mem_cons, filterMap_cons]
    cases hread : readPair (before, line) with
    | none => simp
    | some found =>
      simp only [Option.bind_some, Option.map_eq_some_iff, ih, ne_eq, reduceCtorEq,
        not_false_eq_true, true_and]
      constructor
      · rintro ⟨_, ⟨hall, rfl⟩, rfl⟩
        cases found <;> exact ⟨hall, rfl⟩
      · rintro ⟨hall, rfl⟩
        cases found <;> exact ⟨_, ⟨hall, rfl⟩, rfl⟩

/-- The message has the index and the status of the header and the octets
of the line. -/
def Paired (message : StoredMessage) (pair : Chars × Chars) : Prop :=
  pendingOf pair.1 = some (message.index, message.status)
    ∧ Spells (trimBy isWhitespace pair.2) message.pdu

/-- A line behind a header that is torn or read with a plus sign. -/
def MisreadPair (pair : Chars × Chars) : Prop :=
  pendingOf pair.1 ≠ none ∧ headerRest (trimBy isWhitespace pair.2) = none
    ∧ Misread (trimBy isWhitespace pair.2)

variable {pair : Chars × Chars} {message : StoredMessage}

theorem paired_iff : Paired message pair ↔
    (readPair pair).join = some message ∧ '+' ∉ trimBy isWhitespace pair.2 := by
  rw [Paired, spells_iff (trimBy_trimBy _ _), readPair]
  cases hheader : headerRest (trimBy isWhitespace pair.2) with
  | some header =>
    have hplus : '+' ∈ trimBy isWhitespace pair.2 := by
      rw [headerRest] at hheader
      split at hheader
      next hstarts =>
        have hbegins := isPrefixOf_iff_prefix.mp hstarts
        exact hbegins.subset (by decide)
      · cases hheader
    simp [hplus]
  | none =>
    cases hpending : pendingOf pair.1 with
    | none => simp
    | some pending =>
      cases decodeHex (trimBy isWhitespace pair.2) with
      | none => simp
      | some pdu =>
        cases pdu with
        | none => simp
        | some pdu =>
          obtain ⟨index, status, octets⟩ := message
          simp [Prod.ext_iff, and_assoc]

theorem misreadPair_iff : MisreadPair pair ↔ readPair pair = none
    ∨ '+' ∈ trimBy isWhitespace pair.2 ∧ ∃ message, (readPair pair).join = some message := by
  rw [MisreadPair, misread_iff (trimBy_trimBy _ _), readPair]
  cases headerRest (trimBy isWhitespace pair.2) with
  | some header => simp
  | none =>
    cases pendingOf pair.1 with
    | none => simp
    | some pending =>
      cases decodeHex (trimBy isWhitespace pair.2) with
      | none => simp
      | some pdu => cases pdu <;> simp

theorem parseListing_iff {messages : List StoredMessage} :
    parseListing lines = some messages ↔
      (∀ pair ∈ lines.zip lines.tail, readPair pair ≠ none)
        ∧ messages = (lines.zip lines.tail).filterMap fun pair => (readPair pair).join := by
  have hfirst : ∀ line, readPair ([], line) = some none := by
    intro line
    rw [readPair]
    cases headerRest (trimBy isWhitespace line) <;> rfl
  refine (parseListingFrom_iff lines []).trans ?_
  cases lines with
  | nil => simp
  | cons line rest =>
    rw [zip_cons_cons, forall_mem_cons, filterMap_cons, hfirst]
    simp

theorem forall₂_filterMap {α β : Type*} {f : α → Option β} {R : β → α → Prop} : ∀ {items : List α},
    (∀ a ∈ items, ∀ b, f a = some b → R b a) →
      Forall₂ R (items.filterMap f) (items.filter fun a => (f a).isSome)
  | [], _ => .nil
  | a :: items, h => by
    obtain ⟨hfirst, hrest⟩ := forall_mem_cons.mp h
    have ih := forall₂_filterMap hrest
    cases hread : f a with
    | none => simpa [hread] using ih
    | some b => simpa [hread] using ⟨hfirst b hread, ih⟩

/-- Each message is of a header and the line of digits right behind it
exactly if no line behind a header is torn or read with a plus sign. -/
theorem listing_exact_iff (lines : List Chars) : (∃ messages, parseListing lines = some messages
      ∧ ∃ pairs, pairs <+ lines.zip lines.tail ∧ Forall₂ Paired messages pairs) ↔
      ∀ pair ∈ lines.zip lines.tail, ¬MisreadPair pair := by
  constructor
  · rintro ⟨messages, hparse, pairs, hsublist, hpaired⟩ pair hpair hmisread
    obtain ⟨hreturns, hmessages⟩ := (parseListing_iff lines).mp hparse
    obtain ⟨hlength, hget⟩ := forall₂_iff_get.mp hpaired
    have hread : ∀ pair ∈ pairs, ∃ message, Paired message pair := by
      intro pair hpair
      obtain ⟨i, hi, rfl⟩ := getElem_of_mem hpair
      exact ⟨_, hget i (hlength ▸ hi) hi⟩
    -- as many are paired as are read, so all that are read are paired
    have hall : pairs = (lines.zip lines.tail).filter fun pair => (readPair pair).join.isSome := by
      have hkept : pairs.filter (fun pair => (readPair pair).join.isSome) = pairs := by
        refine filter_eq_self.mpr fun pair hpair => ?_
        obtain ⟨message, hmessage⟩ := hread pair hpair
        rw [(paired_iff.mp hmessage).1]
        rfl
      refine (hkept ▸ hsublist.filter _).eq_of_length ?_
      rw [← hlength, hmessages, length_filterMap_eq_countP, countP_eq_length_filter]
    rcases misreadPair_iff.mp hmisread with hnone | ⟨hplus, message, hmessage⟩
    · exact hreturns pair hpair hnone
    · have hmem : pair ∈ pairs := by
        rw [hall, mem_filter, hmessage]
        exact ⟨hpair, rfl⟩
      obtain ⟨other, hother⟩ := hread pair hmem
      exact (paired_iff.mp hother).2 hplus
  · intro h
    refine ⟨_, (parseListing_iff lines).mpr ⟨fun pair hpair hnone => ?_, rfl⟩, _, filter_sublist,
      forall₂_filterMap fun pair hpair message hmessage => ?_⟩
    · exact h pair hpair (misreadPair_iff.mpr (.inl hnone))
    · refine paired_iff.mpr ⟨hmessage, fun hplus => ?_⟩
      exact h pair hpair (misreadPair_iff.mpr (.inr ⟨hplus, message, hmessage⟩))

/-- A replacement character behind a digit, and a sign for a digit. -/
theorem listing_misread :
    parseListing ["+CMGL: 1,0,,2".toList, ['0', '�']] = none
      ∧ parseListing ["+CMGL: 1,0,,2".toList, "+A".toList] = some [⟨1, "0", [0x0a]⟩] := by
  decide +kernel

end AtListing

end VodogeEdge
