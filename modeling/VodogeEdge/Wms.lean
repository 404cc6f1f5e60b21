import VodogeEdge.QmiFrame

/-!
# Messages on the module, over QMI

`parse_list_payload` and `parse_raw_message_value`: the two answers of the
messaging service that carry lengths of their own. A listing reserves room
for as many entries as it says it has, before it looks at one.
-/

namespace VodogeEdge.Wms

open List Qmi

inductive StorageType where
  | uim
  | nv
deriving DecidableEq

inductive MessageTag where
  | mtRead
  | mtUnread
  | moSent
  | moUnsent
  | unknown (value : UInt8)
deriving DecidableEq

namespace MessageTag

def fromWire : UInt8 → MessageTag
  | 0 => .mtRead
  | 1 => .mtUnread
  | 2 => .moSent
  | 3 => .moUnsent
  | other => .unknown other

def asU8 : MessageTag → UInt8
  | .mtRead => 0
  | .mtUnread => 1
  | .moSent => 2
  | .moUnsent => 3
  | .unknown value => value

def isKnown : MessageTag → Bool
  | .unknown _ => false
  | _ => true

theorem fromWire_asU8 {tag : MessageTag} (h : tag.isKnown) : fromWire tag.asU8 = tag := by
  cases tag with
  | unknown value => cases h
  | _ => rfl

end MessageTag

structure ListedMessage where
  index : UInt32
  tag : MessageTag
  storage : StorageType
deriving DecidableEq

structure RawMessage where
  tag : Option MessageTag
  format : UInt8
  pdu : Bytes
deriving DecidableEq

inductive WmsError where
  | truncatedList (actual : Nat)
  | truncatedRawMessage (actual : Nat)
deriving DecidableEq

/-! ## Listings -/

/-- `u32::from_le_bytes`. -/
def fromLeBytes32 (b₀ b₁ b₂ b₃ : UInt8) : UInt32 :=
  UInt32.ofNat (b₀.toNat + 256 * (b₁.toNat + 256 * (b₂.toNat + 256 * b₃.toNat)))

variable (storage : StorageType)

/-- The loop of `parse_list_payload` with this many entries to come, over what
is left of a value of `actual` bytes. -/
def parseEntries (actual : Nat) : Nat → Bytes → Except WmsError (List ListedMessage)
  | 0, _ => .ok []
  | left + 1, b₀ :: b₁ :: b₂ :: b₃ :: tag :: rest =>
    match parseEntries actual left rest with
    | .error error => .error error
    | .ok messages => .ok (⟨fromLeBytes32 b₀ b₁ b₂ b₃, .fromWire tag, storage⟩ :: messages)
  | _ + 1, _ => .error (.truncatedList actual)

/-- `parse_list_payload`: how many entries `Vec::with_capacity` reserves room
for, and what is returned. -/
def parseListPayload (value : Bytes) : Nat × Except WmsError (List ListedMessage) :=
  match value with
  | c₀ :: c₁ :: c₂ :: c₃ :: entries =>
    let count := (fromLeBytes32 c₀ c₁ c₂ c₃).toNat
    (count, parseEntries storage value.length count entries)
  | _ => (0, .error (.truncatedList value.length))

/-- How many entries the value declares, if it is long enough to. -/
def declaredEntries : Bytes → Option Nat
  | c₀ :: c₁ :: c₂ :: c₃ :: _ => some (fromLeBytes32 c₀ c₁ c₂ c₃).toNat
  | _ => none

/-- Each message is read from the five bytes in its place. -/
def FromEntries (entries : Bytes) (messages : List ListedMessage) : Prop :=
  ∀ i message, messages[i]? = some message → ∃ b₀ b₁ b₂ b₃ tag,
    (entries.drop (5 * i)).take 5 = [b₀, b₁, b₂, b₃, tag]
      ∧ message = ⟨fromLeBytes32 b₀ b₁ b₂ b₃, .fromWire tag, storage⟩

theorem parseEntries_ok {actual count : Nat} {entries : Bytes}
    {messages : List ListedMessage} (h : parseEntries storage actual count entries = .ok messages) :
    messages.length = count ∧ FromEntries storage entries messages := by
  fun_induction parseEntries storage actual count entries generalizing messages with
  | case1 =>
    cases h
    exact ⟨rfl, by simp [FromEntries]⟩
  | case2 => cases h
  | case3 left b₀ b₁ b₂ b₃ tag rest later hlater ih =>
    cases h
    obtain ⟨hlength, hread⟩ := ih hlater
    refine ⟨congrArg (· + 1) hlength, fun i message hmessage => ?_⟩
    cases i with
    | zero => exact ⟨b₀, b₁, b₂, b₃, tag, rfl, (Option.some.inj hmessage).symm⟩
    | succ i => simpa [Nat.mul_add] using hread i message hmessage
  | case4 => cases h

/-- What is returned is what is declared; what is reserved is bounded by the
value if and only if what it declares is. -/
theorem listing_bounded_iff (value : Bytes) : ((parseListPayload storage value).1 ≤ value.length
      ∧ ∀ messages, (parseListPayload storage value).2 = .ok messages →
        declaredEntries value = some messages.length
          ∧ FromEntries storage (value.drop 4) messages) ↔
      ∀ count, declaredEntries value = some count → count ≤ value.length := by
  unfold parseListPayload declaredEntries
  split
  · refine ⟨fun h count hcount => Option.some.inj hcount ▸ h.1, fun h => ⟨h _ rfl, ?_⟩⟩
    intro messages hmessages
    obtain ⟨hlength, hread⟩ := parseEntries_ok storage hmessages
    exact ⟨congrArg some hlength.symm, hread⟩
  · simp

/-- Four bytes that declare all the entries there can be. -/
theorem listing_unbounded :
    parseListPayload .uim [0xff, 0xff, 0xff, 0xff] = (4294967295, .error (.truncatedList 4)) := by
  decide +kernel

/-! ## Raw messages -/

/-- `parse_raw_message_value`: without a tag if the length fits there, with
one if it is known and the length fits behind it, and all of it otherwise. -/
def parseRawMessageValue (value : Bytes) : Except WmsError RawMessage :=
  match value with
  | b₀ :: b₁ :: b₂ :: pdu =>
    let untaggedLength := (fromLeBytes b₁ b₂).toNat
    if untaggedLength ≤ pdu.length then .ok ⟨none, b₀, pdu.take untaggedLength⟩
    else
      match pdu with
      | b₃ :: taggedPdu =>
        let taggedLength := (fromLeBytes b₂ b₃).toNat
        if (MessageTag.fromWire b₀).isKnown && decide (taggedLength ≤ taggedPdu.length) then
          .ok ⟨some (.fromWire b₀), b₁, taggedPdu.take taggedLength⟩
        else .ok ⟨none, b₀, pdu⟩
      | [] => .ok ⟨none, b₀, pdu⟩
  | _ => .error (.truncatedRawMessage value.length)

theorem toNat_fromLeBytes (low high : UInt8) :
    (fromLeBytes low high).toNat = low.toNat + 256 * high.toNat := by
  have hlow := low.toNat_lt
  have hhigh := high.toNat_lt
  rw [fromLeBytes, UInt16.toNat_ofNat']
  omega

/-- Both layouts are told apart for every PDU a short message can have: read
without its tag the tagged layout announces a longer PDU than there is. -/
theorem layouts_unambiguous (pdu : Bytes) (hpos : 0 < pdu.length) (hle : pdu.length ≤ 255)
    (format : UInt8) (tag : MessageTag) (htag : tag.isKnown) (trailing : Bytes) :
    let length := UInt16.ofNat pdu.length
    parseRawMessageValue (tag.asU8 :: format :: lowByte length :: highByte length :: pdu)
        = .ok ⟨some tag, format, pdu⟩
      ∧ parseRawMessageValue (format :: lowByte length :: highByte length :: (pdu ++ trailing))
        = .ok ⟨none, format, pdu⟩ := by
  intro length
  have hlength : length.toNat = pdu.length := by
    rw [UInt16.toNat_ofNat']
    omega
  have hlow : (lowByte length).toNat = pdu.length := by
    rw [lowByte, UInt8.toNat_ofNat']
    omega
  constructor
  · have hlong : pdu.length + 1 < (fromLeBytes format (lowByte length)).toNat := by
      rw [toNat_fromLeBytes]
      omega
    simp [parseRawMessageValue, hlong, fromLeBytes_bytes, hlength, MessageTag.fromWire_asU8, htag]
  · simp [parseRawMessageValue, fromLeBytes_bytes, hlength]

theorem layouts_unambiguous_unread :
    parseRawMessageValue [0x01, 0x06, 0x01, 0x00, 0x07] = .ok ⟨some .mtUnread, 0x06, [0x07]⟩
      ∧ parseRawMessageValue [0x06, 0x01, 0x00, 0x07, 0xff] = .ok ⟨none, 0x06, [0x07]⟩ :=
  layouts_unambiguous [0x07] (by decide) (by decide) 0x06 .mtUnread rfl [0xff]

end VodogeEdge.Wms
