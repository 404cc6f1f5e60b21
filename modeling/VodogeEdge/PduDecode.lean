import VodogeEdge.Gsm7
import VodogeEdge.Utf16

/-!
# Reading a DELIVER

`pdu` of `edge-core`: the walk over an SMS-DELIVER, its address, its time
stamp, its user data header and its text.

An index or a slice of the source that may be out of range is an `Option`
here, so `none` is a panic. What cannot be walked is no panic: it comes
back as the hexadecimal of the whole PDU. The main lemma is
`decodeDeliver_layout`, the walk over a PDU whose fields are as long as
they say.
-/

namespace VodogeEdge

open List

structure Deliver where
  peer : String
  body : String
  concat : Option (Nat × Nat × Nat)
  encoding : String
  dcs : Option UInt8
  receivedAt : Option Int
deriving DecidableEq

/-! ## Octets -/

/-- `&bytes[start..stop]`. -/
def Pdu.slice (bytes : Bytes) (start stop : Nat) : Option Bytes :=
  if start ≤ stop ∧ stop ≤ bytes.length then some ((bytes.take stop).drop start) else none

def Pdu.upperHexDigit (n : Nat) : Char := Char.ofNat (if n < 10 then 0x30 + n else 0x37 + n)

/-- `{byte:02X}`, octet after octet. -/
def Pdu.hex (bytes : Bytes) : String :=
  String.ofList (bytes.flatMap fun byte =>
    [Pdu.upperHexDigit (byte.toNat / 16), Pdu.upperHexDigit (byte.toNat % 16)])

def Deliver.undecodable (pdu : Bytes) : Deliver :=
  ⟨"", Pdu.hex pdu, none, "unknown", none, none⟩

namespace Pdu

def lowNibble (byte : UInt8) : Nat := (byte &&& 0x0f).toNat

def highNibble (byte : UInt8) : Nat := (byte >>> 4).toNat

/-! ## Time -/

/-- Days between 1970-01-01 and a proleptic Gregorian date. The source's
division cuts towards zero. -/
def daysFromCivil (year month day : Int) : Int :=
  let shifted := if month ≤ 2 then year - 1 else year
  let era := (if shifted ≥ 0 then shifted else shifted - 399).tdiv 400
  let yearOfEra := shifted - era * 400
  let dayOfYear := (153 * (if month > 2 then month - 3 else month + 9) + 2).tdiv 5 + day - 1
  let dayOfEra := yearOfEra * 365 + yearOfEra.tdiv 4 - yearOfEra.tdiv 100 + dayOfYear
  era * 146097 + dayOfEra - 719468

def swappedDigits (byte : UInt8) : Option Nat :=
  let first := lowNibble byte
  let second := highNibble byte
  if first > 9 ∨ second > 9 then none else some (first * 10 + second)

def decodeTimestamp (field : Bytes) : Option Int := do
  guard (7 ≤ field.length)
  let parts ← (field.take 6).mapM swappedDigits
  match parts, field[6]? with
  | [year, month, day, hour, minute, second], some zone => do
    guard (1 ≤ month ∧ month ≤ 12 ∧ 1 ≤ day ∧ day ≤ 31)
    -- a leap second is a real reading
    guard (hour ≤ 23 ∧ minute ≤ 59 ∧ second ≤ 60)
    let negative := zone &&& 0x08 ≠ 0
    let tens := (zone &&& 0x07).toNat
    let units := highNibble zone
    guard (units ≤ 9)
    let quarters : Int := tens * 10 + units
    let offsetMinutes := if negative then -quarters * 15 else quarters * 15
    let days := daysFromCivil (2000 + year) month day
    let seconds := days * 86400 + hour * 3600 + minute * 60 + second - offsetMinutes * 60
    some (seconds * 1000)
  | _, _ => none

/-! ## The address -/

def typeInternational : UInt8 := 0b001

def typeAlphanumeric : UInt8 := 0b101

def typeOfNumber (toa : UInt8) : UInt8 := (toa >>> 4) &&& 0b111

/-- One semi-octet of a number: a digit, unless there are enough. -/
def pushDigit (digits : Nat) (out : Chars) (nibble : Nat) : Chars :=
  if nibble ≤ 9 ∧ out.length < digits then out ++ [Char.ofNat (0x30 + nibble)] else out

def pushDigits (digits : Nat) (out : Chars) (byte : UInt8) : Chars :=
  pushDigit digits (pushDigit digits out (lowNibble byte)) (highNibble byte)

def decodeAddress (bytes : Bytes) (digits : Nat) (toa : UInt8) : String :=
  let kind := typeOfNumber toa
  if kind = typeAlphanumeric then
    let septets := digits * 4 / 7
    String.ofList (Gsm7.decodeSeptets (Gsm7.unpackSeptets bytes 0 septets))
  else
    let out := bytes.foldl (pushDigits digits) []
    if kind = typeInternational ∧ out ≠ [] then String.ofList ('+' :: out) else String.ofList out

/-! ## User data -/

/-- `u16::from_be_bytes` of every whole pair. -/
def codeUnits : Bytes → List Nat
  | high :: low :: rest => (high.toNat * 256 + low.toNat) :: codeUnits rest
  | _ => []

def decodeUcs2 (payload : Bytes) : String := String.ofList (fromUtf16Lossy (codeUnits payload))

/-- The concatenation triple of an information element, if it is one. -/
def concatElement (iei : UInt8) (value : Bytes) : Option (Nat × Nat × Nat) :=
  match iei.toNat, value with
  | 0x00, [reference, total, sequence] => some (reference.toNat, total.toNat, sequence.toNat)
  | 0x08, [high, low, total, sequence] =>
    some (high.toNat * 256 + low.toNat, total.toNat, sequence.toNat)
  | _, _ => none

/-- The walk over the information elements; each takes two octets at least,
so `fuel` is never used up. -/
def walkElements (header : Bytes) :
    Nat → Nat → Option (Nat × Nat × Nat) → Option (Option (Nat × Nat × Nat))
  | 0, _, _ => none
  | fuel + 1, offset, concat =>
    if offset + 2 ≤ header.length then do
      let iei ← header[offset]?
      let length := (← header[offset + 1]?).toNat
      let valueEnd := offset + 2 + length
      if valueEnd > header.length then some concat
      else
        let value ← slice header (offset + 2) valueEnd
        walkElements header fuel valueEnd ((concatElement iei value).or concat)
    else some concat

/-- The triple, the octets of the header, and what follows it. -/
def splitUserDataHeader (hasUdh : Bool) (ud : Bytes) :
    Option (Option (Nat × Nat × Nat) × Nat × Bytes) :=
  if !hasUdh || ud.isEmpty then some (none, 0, ud)
  else do
    let headerLen := (← ud[0]?).toNat
    let stop := 1 + headerLen
    if stop > ud.length then some (none, 0, [])
    else
      let header ← slice ud 1 stop
      let payload ← slice ud stop ud.length
      let concat ← walkElements header (header.length + 1) 0 none
      some (concat, stop, payload)

/-- The text and its label. In seven-bit text the header is skipped in
septets, from the start of the user data. -/
def decodeBody (dcs : UInt8) (udl : Nat) (ud : Bytes) (headerOctets : Nat)
    (payload : Bytes) : String × String :=
  if dcs &&& 0x0c = 0x08 then (decodeUcs2 payload, "ucs2")
  else if dcs &&& 0x0c = 0x04 then (hex payload, "8bit")
  else (Gsm7.decode ud headerOctets udl, "gsm7")

/-! ## The walk -/

def decodeDeliver (pdu : Bytes) : Option Deliver := do
  if pdu.isEmpty then return ⟨"", "", none, "unknown", none, none⟩
  let smscLen := (← pdu[0]?).toNat
  let i := if 1 + smscLen < pdu.length then 1 + smscLen else 0
  if i + 2 ≥ pdu.length then return .undecodable pdu
  let hasUdh := (← pdu[i]?) &&& 0x40 != 0
  let i := i + 1
  let oaDigits := (← pdu[i]?).toNat
  let i := i + 1
  if i ≥ pdu.length then return .undecodable pdu
  let toa ← pdu[i]?
  let i := i + 1
  let oaBytes := (oaDigits + 1) / 2
  -- the address, TP-PID, TP-DCS, the time stamp and TP-UDL
  if i + oaBytes + 10 > pdu.length then return .undecodable pdu
  let peer := decodeAddress (← slice pdu i (i + oaBytes)) oaDigits toa
  let i := i + oaBytes + 1
  let dcs ← pdu[i]?
  let i := i + 1
  let receivedAt := decodeTimestamp (← slice pdu i (i + 7))
  let i := i + 7
  let udl := (← pdu[i]?).toNat
  let i := i + 1
  let ud := if i ≤ pdu.length then pdu.drop i else []
  let (concat, headerOctets, payload) ← splitUserDataHeader hasUdh ud
  let (body, encoding) := decodeBody dcs udl ud headerOctets payload
  return ⟨peer, body, concat, encoding, some dcs, receivedAt⟩

example : decodeDeliver [0x07, 0x91, 0x44, 0x87, 0x20, 0x00, 0x30, 0x23, 0x24, 0x0c, 0x91, 0x44,
    0x77, 0x58, 0x10, 0x06, 0x50, 0x00, 0x00, 0x91, 0x60, 0x42, 0x11, 0x33, 0x12, 0x80, 0x0a, 0xe8,
    0x32, 0x9b, 0xfd, 0x46, 0x97, 0xd9, 0xec, 0x37]
      = some ⟨"+447785016005", "hellohello", none, "gsm7", some 0x00, some 1561368801000⟩ := by
  decide +kernel

def deliverOf (pdu : Bytes) : Deliver := (decodeDeliver pdu).getD (.undecodable pdu)

/-! ## A PDU whose fields are as long as they say -/

section
variable {bytes field rest : Bytes} {byte : UInt8} {i n : Nat}

theorem getElem?_of_drop (h : bytes.drop i = byte :: rest) : bytes[i]? = some byte := by
  rw [← List.head?_drop, h]
  rfl

theorem drop_succ_of_drop (h : bytes.drop i = byte :: rest) : bytes.drop (i + 1) = rest := by
  rw [← drop_drop, h]
  rfl

theorem slice_of_drop (h : bytes.drop i = field ++ rest) (hfield : field.length = n)
    (hend : i + n ≤ bytes.length) : slice bytes i (i + n) = some field := by
  rw [slice, if_pos ⟨Nat.le_add_right i n, hend⟩, drop_take, Nat.add_sub_cancel_left, h,
    take_left' hfield]

theorem drop_add_of_drop (h : bytes.drop i = field ++ rest) (hfield : field.length = n) :
    bytes.drop (i + n) = rest := by
  rw [← drop_drop, h, drop_left' hfield]

end

theorem decodeDeliver_layout {smsc address scts ud : Bytes} {smscLen first digits toa pid dcs
    udl : UInt8} (hsmsc : smsc.length = smscLen.toNat)
    (haddress : address.length = (digits.toNat + 1) / 2) (hscts : scts.length = 7) :
    decodeDeliver (smscLen :: (smsc ++ first :: digits :: toa :: (address ++ pid :: dcs ::
      (scts ++ udl :: ud))))
    = (splitUserDataHeader (first &&& 0x40 != 0) ud).map fun split =>
        let body := decodeBody dcs udl.toNat ud split.2.1 split.2.2
        ⟨decodeAddress address digits.toNat toa, body.1, split.1, body.2, some dcs,
          decodeTimestamp scts⟩ := by
  obtain ⟨pdu, hpdu⟩ : ∃ pdu, pdu = smscLen :: (smsc ++ first :: digits :: toa :: (address
    ++ pid :: dcs :: (scts ++ udl :: ud))) := ⟨_, rfl⟩
  have hlength : pdu.length = smscLen.toNat + 14 + (digits.toNat + 1) / 2 + ud.length := by
    rw [hpdu]
    simp only [length_append, length_cons]
    omega
  have hnonempty : ¬pdu.isEmpty := by rw [hpdu]; exact Bool.false_ne_true
  -- the cursor, field after field
  have hstart : pdu.drop 0 = smscLen :: (smsc ++ first :: digits :: toa :: (address ++ pid ::
    dcs :: (scts ++ udl :: ud))) := hpdu
  have hsmscField := drop_succ_of_drop hstart
  have hfirst := drop_add_of_drop hsmscField hsmsc
  have hdigits := drop_succ_of_drop hfirst
  have htoa := drop_succ_of_drop hdigits
  have hpeer := drop_succ_of_drop htoa
  have hpid := drop_add_of_drop hpeer haddress
  have hdcs := drop_succ_of_drop hpid
  have htime := drop_succ_of_drop hdcs
  have hudl := drop_add_of_drop htime hscts
  have hud := drop_succ_of_drop hudl
  -- no check fails
  have hskip : 1 + smscLen.toNat < pdu.length := by omega
  have hfew : ¬1 + smscLen.toNat + 2 ≥ pdu.length := by omega
  have hwhole : ¬1 + smscLen.toNat + 1 + 1 + 1 + (digits.toNat + 1) / 2 + 10 > pdu.length := by
    omega
  have hrest : 1 + smscLen.toNat + 1 + 1 + 1 + (digits.toNat + 1) / 2 + 1 + 1 + 7 + 1
      ≤ pdu.length := by omega
  rw [← hpdu, decodeDeliver, if_neg hnonempty, getElem?_of_drop hstart]
  simp only [Option.bind_eq_bind, Option.bind_some, if_pos hskip, if_neg hfew, if_neg hwhole,
    getElem?_of_drop hfirst, getElem?_of_drop hdigits, getElem?_of_drop htoa,
    slice_of_drop hpeer haddress (by omega), getElem?_of_drop hdcs,
    slice_of_drop htime hscts (by omega), getElem?_of_drop hudl, if_pos hrest, hud]
  cases splitUserDataHeader (first &&& 0x40 != 0) ud <;> rfl

end Pdu

end VodogeEdge
