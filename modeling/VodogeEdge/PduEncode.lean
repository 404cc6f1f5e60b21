import VodogeEdge.PduDecode

/-!
# A reference encoder

DELIVERs as 3GPP 23.040 lays them out, written for what the reader is to
be compared with. Nothing here is translated from the source.

The types carry what the standard asks of the fields: a length fits its
octet, the header says at most once which part of a longer message this
is, the coding scheme names the alphabet the units are of. So every value
is a DELIVER, and `SmsDeliver.encode` needs no side condition.
-/

namespace VodogeEdge

namespace Pdu

/-! ## Addresses -/

/-- Digits two to an octet, the first in the low half; the half left over
is all ones. -/
def pairDigits : List (Fin 10) → Bytes
  | [] => []
  | [digit] => [UInt8.ofNat (0xf0 + digit)]
  | first :: second :: rest => UInt8.ofNat (second * 16 + first) :: pairDigits rest

def semiOctets (septets : Nat) : Nat := (7 * septets + 3) / 4

inductive Address where
  | number (toa : UInt8) (digits : List (Fin 10))
      (numeric : typeOfNumber toa ≠ typeAlphanumeric) (short : digits.length < 256)
  | name (toa : UInt8) (text : List Gsm7.Gsm7Char)
      (alphanumeric : typeOfNumber toa = typeAlphanumeric)
      (short : semiOctets (Gsm7.code.encode text).length < 256)

namespace Address

def toa : Address → UInt8
  | number toa _ _ _ => toa
  | name toa _ _ _ => toa

def length : Address → Nat
  | number _ digits _ _ => digits.length
  | name _ text _ _ => semiOctets (Gsm7.code.encode text).length

def octets : Address → Bytes
  | number _ digits _ _ => pairDigits digits
  | name _ text _ _ => Gsm7.pack [] (Gsm7.code.encode text)

/-- What the address says. An international number without digits is no
number. -/
def shown : Address → String
  | number toa digits _ _ =>
    let digits := digits.map fun digit => Char.ofNat (0x30 + digit)
    if typeOfNumber toa = typeInternational ∧ digits ≠ [] then String.ofList ('+' :: digits)
    else String.ofList digits
  | name _ text _ _ => String.ofList (text.map Subtype.val)

end Address

/-! ## The user data header -/

/-- An information element; the two that number the parts of a longer
message, and any other. -/
inductive Element where
  | concat8 (reference total sequence : UInt8)
  | concat16 (reference : UInt16) (total sequence : UInt8)
  | other (iei : UInt8) (value : Bytes) (notConcat : iei ≠ 0x00 ∧ iei ≠ 0x08)
      (short : value.length < 256)

namespace Element

def octets : Element → Bytes
  | concat8 reference total sequence => [0x00, 0x03, reference, total, sequence]
  | concat16 reference total sequence =>
    [0x08, 0x04, UInt8.ofNat (reference.toNat / 256), UInt8.ofNat (reference.toNat % 256), total,
      sequence]
  | other iei value _ _ => iei :: UInt8.ofNat value.length :: value

def concat : Element → Option (Nat × Nat × Nat)
  | concat8 reference total sequence => some (reference.toNat, total.toNat, sequence.toNat)
  | concat16 reference total sequence => some (reference.toNat, total.toNat, sequence.toNat)
  | other _ _ _ _ => none

end Element

structure Header where
  elements : List Element
  one : (elements.filterMap Element.concat).length ≤ 1
  short : (elements.flatMap Element.octets).length < 256

namespace Header

def octets (self : Header) : Bytes :=
  UInt8.ofNat (self.elements.flatMap Element.octets).length :: self.elements.flatMap Element.octets

def concat (self : Header) : Option (Nat × Nat × Nat) :=
  (self.elements.filterMap Element.concat).head?

end Header

/-! ## The user data -/

inductive Alphabet where
  | gsm7
  | eightBit
  | ucs2

namespace Alphabet

def bits : Alphabet → UInt8
  | gsm7 => 0x00
  | eightBit => 0x04
  | ucs2 => 0x08

def label : Alphabet → String
  | gsm7 => "gsm7"
  | eightBit => "8bit"
  | ucs2 => "ucs2"

def size : Alphabet → Nat
  | gsm7 => 128
  | eightBit => 256
  | ucs2 => 65536

end Alphabet

/-- Units of an alphabet: septets, octets or UTF-16 code units. -/
structure Payload where
  alphabet : Alphabet
  units : List Nat
  fits : ∀ unit ∈ units, unit < alphabet.size

namespace Payload

/-- The user data: a header, if there is one, and the units. -/
def userData (self : Payload) (header : Bytes) : Bytes :=
  match self.alphabet with
  | .gsm7 => Gsm7.pack header self.units
  | .eightBit => header ++ self.units.map UInt8.ofNat
  | .ucs2 =>
    header ++ self.units.flatMap fun unit =>
      [UInt8.ofNat (unit / 256), UInt8.ofNat (unit % 256)]

/-- TP-UDL: septets in the seven-bit alphabet, octets in the others. -/
def length (self : Payload) (headerOctets : Nat) : Nat :=
  match self.alphabet with
  | .gsm7 => Gsm7.headerSeptets headerOctets + self.units.length
  | .eightBit => headerOctets + self.units.length
  | .ucs2 => headerOctets + 2 * self.units.length

end Payload

/-! ## The PDU -/

structure SmsDeliver where
  smsc : Bytes
  first : UInt8
  address : Address
  pid : UInt8
  dcs : UInt8
  scts : Bytes
  header : Option Header
  payload : Payload
  smsc_short : smsc.length < 256
  udhi : (first &&& 0x40 != 0) = header.isSome
  scts_length : scts.length = 7
  dcs_alphabet : dcs &&& 0x0c = payload.alphabet.bits
  udl_short : payload.length ((header.map Header.octets).getD []).length < 256

namespace SmsDeliver

def headerOctets (self : SmsDeliver) : Bytes := (self.header.map Header.octets).getD []

def udl (self : SmsDeliver) : Nat := self.payload.length self.headerOctets.length

def encode (self : SmsDeliver) : Bytes :=
  UInt8.ofNat self.smsc.length :: (self.smsc ++ self.first :: UInt8.ofNat self.address.length ::
    self.address.toa :: (self.address.octets ++ self.pid :: self.dcs :: (self.scts ++
      UInt8.ofNat self.udl :: self.payload.userData self.headerOctets)))

end SmsDeliver

end Pdu

end VodogeEdge
