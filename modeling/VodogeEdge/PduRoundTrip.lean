import VodogeEdge.PduEncode

/-!
# Reading what was encoded

`decode_deliver` gives back what the reference encoder was given: the
address, the part triple, the alphabet, the coding scheme and the units
(`decodeDeliver_encode`). Units that are the code of a text read as that
text (`Content.read_payload`).

Each field has one lemma, about the field and the source's reader for it;
`decodeDeliver_layout` puts them together.
-/

namespace VodogeEdge

open List

namespace Pdu

theorem toNat_ofNat {n : Nat} (h : n < 256) : (UInt8.ofNat n).toNat = n := Nat.mod_eq_of_lt h

/-! ## Addresses -/

theorem lowNibble_eq (byte : UInt8) : lowNibble byte = byte.toNat % 16 :=
  Nat.and_two_pow_sub_one_eq_mod byte.toNat 4

theorem highNibble_eq (byte : UInt8) : highNibble byte = byte.toNat / 16 :=
  Nat.shiftRight_eq_div_pow byte.toNat 4

theorem length_pairDigits (digits : List (Fin 10)) :
    (pairDigits digits).length = (digits.length + 1) / 2 := by
  fun_induction pairDigits digits with
  | case1 => rfl
  | case2 digit => simp
  | case3 first second rest ih =>
    simp only [length_cons]
    omega

theorem pushDigit_digit {total : Nat} {out : Chars} (digit : Fin 10) (h : out.length < total) :
    pushDigit total out digit = out ++ [Char.ofNat (0x30 + digit)] :=
  if_pos ⟨by omega, h⟩

theorem foldl_pushDigits (total : Nat) (digits : List (Fin 10)) : ∀ out,
    out.length + digits.length ≤ total → (pairDigits digits).foldl (pushDigits total) out
      = out ++ digits.map fun digit => Char.ofNat (0x30 + digit) := by
  fun_induction pairDigits digits with
  | case1 => intro out _; simp
  | case2 digit =>
    intro out hroom
    have hbyte : (UInt8.ofNat (0xf0 + digit)).toNat = 0xf0 + digit := toNat_ofNat (by omega)
    have hlow : lowNibble (UInt8.ofNat (0xf0 + digit)) = digit := by
      rw [lowNibble_eq]
      omega
    have hhigh : highNibble (UInt8.ofNat (0xf0 + digit)) = 15 := by
      rw [highNibble_eq]
      omega
    rw [foldl_cons, pushDigits, hlow, pushDigit_digit digit hroom, pushDigit, if_neg (by omega)]
    rfl
  | case3 first second rest ih =>
    intro out hroom
    have hbyte : (UInt8.ofNat (second * 16 + first)).toNat = second * 16 + first :=
      toNat_ofNat (by omega)
    have hlow : lowNibble (UInt8.ofNat (second * 16 + first)) = first := by
      rw [lowNibble_eq]
      omega
    have hhigh : highNibble (UInt8.ofNat (second * 16 + first)) = second := by
      rw [highNibble_eq]
      omega
    simp only [length_cons] at hroom
    rw [foldl_cons, pushDigits, hlow, hhigh, pushDigit_digit first (by omega),
      pushDigit_digit second (by simp; omega), ih _ (by simp; omega)]
    simp

namespace Address

variable (self : Address)

theorem length_lt : self.length < 256 := by
  cases self with
  | number _ _ _ short | name _ _ _ short => exact short

theorem length_octets : self.octets.length = (self.length + 1) / 2 := by
  cases self with
  | number toa digits _ _ => exact length_pairDigits digits
  | name toa text _ _ =>
    rw [octets, length, Gsm7.length_pack, semiOctets, length_nil, Gsm7.headerSeptets]
    omega

theorem decodeAddress_octets : decodeAddress self.octets self.length self.toa = self.shown := by
  cases self with
  | number toa digits numeric short =>
    have hdigits := foldl_pushDigits digits.length digits [] (by simp)
    rw [nil_append] at hdigits
    simp [decodeAddress, octets, length, Address.toa, if_neg numeric, hdigits, shown]
  | name toa text alphanumeric short =>
    have hcount : semiOctets (Gsm7.code.encode text).length * 4 / 7
        = (Gsm7.code.encode text).length := by
      rw [semiOctets]
      omega
    have hread : Gsm7.unpackSeptets (Gsm7.pack [] (Gsm7.code.encode text)) 0
        (Gsm7.code.encode text).length = Gsm7.code.encode text :=
      Gsm7.unpackSeptets_pack [] fun septet hseptet => Gsm7.lt_of_mem_encode hseptet
    simp only [decodeAddress, octets, length, Address.toa, if_pos alphanumeric, hcount, hread]
    exact congrArg String.ofList (Gsm7.code.read_encode_self text)

end Address

/-! ## The header -/

theorem concatElement_octets (element : Element) : ∃ iei value,
    element.octets = iei :: UInt8.ofNat value.length :: value ∧ value.length < 256
      ∧ concatElement iei value = element.concat := by
  cases element with
  | concat8 reference total sequence =>
    exact ⟨0x00, [reference, total, sequence], rfl, by simp, rfl⟩
  | concat16 reference total sequence =>
    refine ⟨0x08, [UInt8.ofNat (reference.toNat / 256), UInt8.ofNat (reference.toNat % 256),
      total, sequence], rfl, by simp, ?_⟩
    have hlt := reference.toNat_lt
    have hvalue : reference.toNat / 256 * 256 + reference.toNat % 256 = reference.toNat := by omega
    change some (_, _, _) = some (_, _, _)
    rw [toNat_ofNat (by omega), toNat_ofNat (by omega), hvalue]
  | other iei value notConcat short =>
    refine ⟨iei, value, rfl, short, ?_⟩
    have hzero : iei.toNat ≠ 0x00 := fun h => notConcat.1 (UInt8.toNat_inj.mp h)
    have height : iei.toNat ≠ 0x08 := fun h => notConcat.2 (UInt8.toNat_inj.mp h)
    rw [concatElement, Element.concat]
    · exact fun _ _ _ h _ => hzero h
    · exact fun _ _ _ _ h _ => height h

/-- The walk from an element boundary to the end; the last triple counts. -/
theorem walkElements_octets (header : Bytes) (elements : List Element) : ∀ fuel offset concat,
      header.drop offset = elements.flatMap Element.octets → offset ≤ header.length →
        header.length < fuel + offset → walkElements header fuel offset concat
          = some (elements.foldl (fun concat element => element.concat.or concat) concat) := by
  induction elements with
  | nil =>
    intro fuel offset concat hrest hoffset hfuel
    have hend := drop_eq_nil_iff.mp hrest
    obtain ⟨fuel, rfl⟩ := Nat.exists_eq_succ_of_ne_zero (show fuel ≠ 0 by omega)
    exact if_neg (by omega)
  | cons element elements ih =>
    intro fuel offset concat hrest hoffset hfuel
    obtain ⟨iei, value, hoctets, hshort, hconcat⟩ := concatElement_octets element
    rw [flatMap_cons, hoctets] at hrest
    have hlength := drop_succ_of_drop hrest
    have hvalue := drop_succ_of_drop hlength
    have hnext := drop_add_of_drop hvalue rfl
    have hroom := congrArg List.length hrest
    simp only [length_drop, length_append, length_cons] at hroom
    obtain ⟨fuel, rfl⟩ := Nat.exists_eq_succ_of_ne_zero (show fuel ≠ 0 by omega)
    rw [walkElements, if_pos (by omega), getElem?_of_drop hrest, getElem?_of_drop hlength]
    simp only [Option.bind_eq_bind, Option.bind_some, toNat_ofNat hshort]
    rw [if_neg (by omega), slice_of_drop hvalue rfl (by omega), Option.bind_some, hconcat,
      ih fuel _ _ hnext (by omega) (by omega)]
    rfl

theorem foldl_or_eq_getLast? {α β : Type*} (f : α → Option β) (items : List α) (found : Option β) :
    items.foldl (fun found item => (f item).or found) found
      = (items.filterMap f).getLast?.or found := by
  induction items generalizing found with
  | nil => rfl
  | cons item items ih =>
    rw [foldl_cons, ih]
    cases hitem : f item with
    | none => rw [filterMap_cons_none hitem, Option.none_or]
    | some value =>
      rw [filterMap_cons_some hitem, getLast?_cons]
      cases (items.filterMap f).getLast? <;> rfl

namespace Header

theorem foldl_concat (self : Header) :
    self.elements.foldl (fun concat element => element.concat.or concat) none = self.concat := by
  rw [foldl_or_eq_getLast?, concat]
  have hone := self.one
  match h : self.elements.filterMap Element.concat with
  | [] => rfl
  | [triple] => rfl
  | first :: second :: rest =>
    rw [h] at hone
    simp only [length_cons] at hone
    omega

theorem splitUserDataHeader_octets (self : Header) (payload : Bytes) :
    splitUserDataHeader true (self.octets ++ payload)
      = some (self.concat, self.octets.length, payload) := by
  obtain ⟨body, hbody⟩ : ∃ body, body = self.elements.flatMap Element.octets := ⟨_, rfl⟩
  have hshort : body.length < 256 := hbody ▸ self.short
  have hoctets : self.octets = UInt8.ofNat body.length :: body := by rw [octets, hbody]
  obtain ⟨ud, hud⟩ : ∃ ud, ud = self.octets ++ payload := ⟨_, rfl⟩
  have hlength : ud.length = 1 + body.length + payload.length := by
    rw [hud, hoctets, length_append, length_cons, Nat.add_comm 1]
  have hfirst : ud.drop 0 = UInt8.ofNat body.length :: (body ++ payload) := by
    rw [hud, hoctets]
    rfl
  have hheader := drop_succ_of_drop hfirst
  have hpayload := drop_add_of_drop hheader rfl
  have hwalk := walkElements_octets body self.elements (body.length + 1) 0 none hbody
    (Nat.zero_le _) (by omega)
  have hrest : slice ud (1 + body.length) ud.length = some payload := by
    rw [hlength]
    exact slice_of_drop (hpayload.trans (append_nil payload).symm) rfl (by omega)
  have hsome : (!true || ud.isEmpty) = false := by
    rw [hud]
    rfl
  rw [← hud, splitUserDataHeader, if_neg (by rw [hsome]; exact Bool.false_ne_true),
    getElem?_of_drop hfirst]
  simp only [Option.bind_eq_bind, Option.bind_some, toNat_ofNat hshort]
  rw [if_neg (by omega), slice_of_drop hheader rfl (by omega), Option.bind_some, hrest,
    Option.bind_some, hwalk, Option.bind_some, self.foldl_concat, hoctets, length_cons,
    Nat.add_comm]

end Header

/-! ## The text -/

theorem codeUnits_octets {units : List Nat} (h : ∀ unit ∈ units, unit < 65536) :
    codeUnits (units.flatMap fun unit => [UInt8.ofNat (unit / 256), UInt8.ofNat (unit % 256)])
      = units := by
  induction units with
  | nil => rfl
  | cons unit units ih =>
    have hunit := h unit mem_cons_self
    have hvalue : unit / 256 * 256 + unit % 256 = unit := by omega
    rw [flatMap_cons, cons_append, singleton_append, codeUnits,
      toNat_ofNat (by omega), toNat_ofNat (by omega), hvalue,
      ih fun unit hunit => h unit (mem_cons_of_mem _ hunit)]

namespace Payload

def shown (self : Payload) : String :=
  match self.alphabet with
  | .gsm7 => String.ofList (Gsm7.decodeSeptets self.units)
  | .eightBit => hex (self.units.map UInt8.ofNat)
  | .ucs2 => String.ofList (fromUtf16Lossy self.units)

theorem userData_eq_append (self : Payload) (header : Bytes) :
    ∃ rest, self.userData header = header ++ rest := by
  obtain ⟨alphabet, units, fits⟩ := self
  cases alphabet with
  | gsm7 => exact Gsm7.pack_eq_append header units
  | eightBit | ucs2 => exact ⟨_, rfl⟩

theorem decodeBody_userData (self : Payload) {header rest : Bytes} {dcs : UInt8}
    (hdcs : dcs &&& 0x0c = self.alphabet.bits) (hrest : self.userData header = header ++ rest) :
    decodeBody dcs (self.length header.length) (self.userData header) header.length rest
      = (self.shown, self.alphabet.label) := by
  obtain ⟨alphabet, units, fits⟩ := self
  rw [decodeBody, hdcs]
  cases alphabet with
  | gsm7 =>
    change (Gsm7.decode (Gsm7.pack header units) header.length
      (Gsm7.headerSeptets header.length + units.length), "gsm7") = _
    rw [Gsm7.decode, Nat.add_sub_cancel_left]
    rw [Gsm7.unpackSeptets_pack header fits]
    rfl
  | eightBit =>
    obtain rfl : units.map UInt8.ofNat = rest := append_cancel_left hrest
    rfl
  | ucs2 =>
    obtain rfl := append_cancel_left hrest
    rw [decodeUcs2, codeUnits_octets fits]
    rfl

end Payload

/-! ## The PDU -/

namespace SmsDeliver

def decoded (self : SmsDeliver) : Deliver where
  peer := self.address.shown
  body := self.payload.shown
  concat := self.header.bind Header.concat
  encoding := self.payload.alphabet.label
  dcs := some self.dcs
  receivedAt := decodeTimestamp self.scts

theorem splitUserDataHeader_userData (self : SmsDeliver) {rest : Bytes}
    (hrest : self.payload.userData self.headerOctets = self.headerOctets ++ rest) :
    splitUserDataHeader (self.first &&& 0x40 != 0) (self.payload.userData self.headerOctets)
      = some (self.header.bind Header.concat, self.headerOctets.length, rest) := by
  rw [self.udhi, hrest, headerOctets]
  cases self.header with
  | none => rfl
  | some header => exact header.splitUserDataHeader_octets rest

theorem decodeDeliver_encode (self : SmsDeliver) :
    decodeDeliver self.encode = some self.decoded := by
  obtain ⟨rest, hrest⟩ := self.payload.userData_eq_append self.headerOctets
  have hudl : (UInt8.ofNat self.udl).toNat = self.udl := toNat_ofNat self.udl_short
  rw [encode, decodeDeliver_layout (toNat_ofNat self.smsc_short).symm
      (by rw [self.address.length_octets, toNat_ofNat self.address.length_lt]) self.scts_length,
    self.splitUserDataHeader_userData hrest, Option.map_some,
    toNat_ofNat self.address.length_lt, self.address.decodeAddress_octets, hudl]
  rw [udl, self.payload.decodeBody_userData self.dcs_alphabet hrest]
  rfl

end SmsDeliver

/-! ## Texts -/

/-- What a message says: a text of the seven-bit alphabet, octets, or a
text in UTF-16. -/
inductive Content where
  | gsm7 (text : List Gsm7.Gsm7Char)
  | octets (data : Bytes)
  | ucs2 (text : Chars)

namespace Content

def alphabet : Content → Alphabet
  | gsm7 _ => .gsm7
  | octets _ => .eightBit
  | ucs2 _ => .ucs2

def units : Content → List Nat
  | gsm7 text => Gsm7.code.encode text
  | octets data => data.map UInt8.toNat
  | ucs2 text => utf16Code.encode text

theorem units_fit (self : Content) : ∀ unit ∈ self.units, unit < self.alphabet.size := by
  intro unit hunit
  cases self with
  | gsm7 text => exact Gsm7.lt_of_mem_encode hunit
  | octets data => exact Gsm7.lt_of_mem_map_toNat data unit hunit
  | ucs2 text =>
    obtain ⟨c, -, hc⟩ := mem_flatMap.mp hunit
    exact lt_of_mem_utf16 hc

def payload (self : Content) : Payload := ⟨self.alphabet, self.units, self.units_fit⟩

/-- The text; octets as two upper-case hexadecimal digits each. -/
def text : Content → String
  | gsm7 text => String.ofList (text.map Subtype.val)
  | octets data => String.ofList (data.flatMap fun byte =>
    [(Nat.digitChar (byte.toNat / 16)).toUpper, (Nat.digitChar (byte.toNat % 16)).toUpper])
  | ucs2 text => String.ofList text

theorem upperHexDigit_eq : ∀ n < 16, upperHexDigit n = (Nat.digitChar n).toUpper := by decide

theorem shown_payload (self : Content) : self.payload.shown = self.text := by
  cases self with
  | gsm7 text => exact congrArg String.ofList (Gsm7.code.read_encode_self text)
  | octets data =>
    have hback : (data.map UInt8.toNat).map UInt8.ofNat = data := by
      rw [map_map]
      exact (map_congr_left fun byte _ => UInt8.ofNat_toNat).trans (map_id data)
    change hex ((data.map UInt8.toNat).map UInt8.ofNat) = _
    rw [hback]
    refine congrArg String.ofList (flatMap_congr fun byte _ => ?_)
    have hbyte := byte.toNat_lt
    rw [upperHexDigit_eq _ (by omega), upperHexDigit_eq _ (by omega)]
  | ucs2 text =>
    refine congrArg String.ofList ((utf16Code.read_encode_self text).trans ?_)
    exact map_id text

end Content

/-- `decode_deliver` inverts the encoder: whatever the service centre
field, the address, the header and the coding scheme, a message is read
as what it says. -/
theorem decodeDeliver_inverts (message : SmsDeliver) (content : Content)
    (hcontent : message.payload = content.payload) :
    decodeDeliver message.encode
      = some ⟨message.address.shown, content.text, message.header.bind Header.concat,
        content.alphabet.label, some message.dcs, decodeTimestamp message.scts⟩ := by
  rw [message.decodeDeliver_encode, SmsDeliver.decoded, hcontent, content.shown_payload]
  rfl

theorem septetsOf_upperH : Gsm7.septetsOf 'H' ≠ [] := by decide +kernel

theorem septetsOf_euro : Gsm7.septetsOf '€' ≠ [] := by decide +kernel

def bothTables : Content := .gsm7 [⟨'H', septetsOf_upperH⟩, ⟨'€', septetsOf_euro⟩]

theorem typeOfNumber_international : typeOfNumber 0x91 ≠ typeAlphanumeric := by decide

theorem elevenDigits_short :
    ([1, 2, 0, 2, 5, 5, 5, 0, 1, 4, 3] : List (Fin 10)).length < 256 := by decide

theorem firstOfTwo_one :
    ([Element.concat8 0xd2 2 1].filterMap Element.concat).length ≤ 1 := by decide

theorem firstOfTwo_short : ([Element.concat8 0xd2 2 1].flatMap Element.octets).length < 256 := by
  decide

def firstOfTwo : Header := ⟨[.concat8 0xd2 2 1], firstOfTwo_one, firstOfTwo_short⟩

theorem bothTables_short : bothTables.payload.length firstOfTwo.octets.length < 256 := by
  decide +kernel

def bothTablesPart : SmsDeliver where
  smsc := []
  first := 0x44
  address := .number 0x91 [1, 2, 0, 2, 5, 5, 5, 0, 1, 4, 3] typeOfNumber_international
    elevenDigits_short
  pid := 0
  dcs := 0
  scts := [0x91, 0x60, 0x42, 0x11, 0x33, 0x12, 0x80]
  header := some firstOfTwo
  payload := bothTables.payload
  smsc_short := Nat.zero_lt_succ _
  udhi := rfl
  scts_length := rfl
  dcs_alphabet := rfl
  udl_short := bothTables_short

theorem bothTables_read : decodeDeliver bothTablesPart.encode
    = some ⟨"+12025550143", "H€", some (0xd2, 2, 1), "gsm7", some 0, some 1561368801000⟩ :=
  (decodeDeliver_inverts bothTablesPart bothTables rfl).trans (by decide +kernel)

end Pdu

end VodogeEdge
