import VodogeEdge.QmiCodec

/-!
# Reading QMUX frames

`read_qmux_frame` and what looks at its frames by position, written as the
source indexes: `none` is an index or a slice out of range, a panic. Decoding
never comes to one and is `QmiResponse.decode`; reading does when a length is
announced that is shorter than the length field itself.
-/

namespace VodogeEdge.Qmi

open List

inductive ReadError where
  | header
  | interfaceType (actual : UInt8)
  | payload
deriving DecidableEq

/-- `read_qmux_frame` on all the device will deliver: the frame, and what is
left. The buffer has one byte more than the length announces, and the header is
copied into its first three. -/
def readQmuxFrame : Bytes → Option (Except ReadError (Bytes × Bytes))
  | interface :: low :: high :: delivered =>
    if interface ≠ 0x01 then some (.error (.interfaceType interface))
    else
      let rest := (fromLeBytes low high).toNat
      if 1 + rest < 3 then none
      else if 2 < rest then
        let payload := 1 + rest - 3
        if delivered.length < payload then some (.error .payload)
        else some (.ok (interface :: low :: high :: delivered.take payload, delivered.drop payload))
      else some (.ok ([interface, low, high], delivered))
  | _ => some (.error .header)

/-! ## By position -/

def sliceFrom (bytes : Bytes) (start : Nat) : Option Bytes :=
  if start ≤ bytes.length then some (bytes.drop start) else none

def isIndication (frame : Bytes) : Option Bool :=
  if frame.length < 7 then some false
  else do
    let service ← frame[4]?
    let kind ← frame[6]?
    some (if service = 0 then kind = 0x02 else kind = 0x04)

def addressOf (frame : Bytes) : Option (Option (UInt8 × UInt8 × UInt16)) :=
  if frame.length < 8 then some none
  else do
    let service ← frame[4]?
    let client ← frame[5]?
    if service = 0 then
      let transaction ← frame[7]?
      some (some (service, client, transaction.toUInt16))
    else if frame.length < 9 then some none
    else
      let low ← frame[7]?
      let high ← frame[8]?
      some (some (service, client, fromLeBytes low high))

def answers (request frame : Bytes) : Option Bool := do
  let wanted ← addressOf request
  let got ← addressOf frame
  some (wanted.isSome && wanted == got)

namespace Indexed

def decodeQmuxResponse (frame : Bytes) : Option (Except WireError (ServiceId × ClientId × Bytes)) :=
  if frame.length < 6 then some (.error (.frameTooShort frame.length 6))
  else do
    let interface ← frame[0]?
    let low ← frame[1]?
    let high ← frame[2]?
    let flag ← frame[3]?
    let service ← frame[4]?
    let client ← frame[5]?
    let sdu ← sliceFrom frame 6
    let declared := (fromLeBytes low high).toNat + 1
    if interface ≠ 0x01 then some (.error (.invalidInterfaceType interface))
    else if declared ≠ frame.length then some (.error (.qmuxLengthMismatch declared frame.length))
    else if flag ≠ 0x80 then some (.error (.unexpectedQmuxControlFlag flag 0x80))
    else
      match validateAddress ⟨service⟩ ⟨client⟩ with
      | .error error => some (.error error)
      | .ok () => some (.ok (⟨service⟩, ⟨client⟩, sdu))

def decodeResponseSdu (service : ServiceId) (sdu : Bytes) :
    Option (Except WireError (TransactionId × MessageId × Bytes)) :=
  let headerLength := qmiHeaderLength service
  if sdu.length < headerLength then some (.error (.frameTooShort sdu.length headerLength))
  else do
    let kind ← sdu[0]?
    let first ← sdu[1]?
    let second ← sdu[2]?
    let (transaction, offset) :=
      if service.isControl then (first.toUInt16, 2) else (fromLeBytes first second, 3)
    let m₀ ← sdu[offset]?
    let m₁ ← sdu[offset + 1]?
    let l₀ ← sdu[offset + 2]?
    let l₁ ← sdu[offset + 3]?
    let payload ← sliceFrom sdu headerLength
    some (checkSdu service kind ⟨transaction⟩ ⟨fromLeBytes m₀ m₁⟩ (fromLeBytes l₀ l₁).toNat payload)

def decodeTlvs (payload : Bytes) : Option (Except WireError (List Tlv)) :=
  if payload.isEmpty then some (.ok [])
  else if hheader : payload.length < 3 then some (.error (.truncatedTlvHeader payload.length))
  else do
    let kind ← payload[0]?
    let low ← payload[1]?
    let high ← payload[2]?
    let valueLength := (fromLeBytes low high).toNat
    let available := payload.length - 3
    if available < valueLength then some (.error (.truncatedTlvValue kind valueLength available))
    else
      let value ← sliceFrom (payload.take (3 + valueLength)) 3
      match ← decodeTlvs (payload.drop (3 + valueLength)) with
      | .error error => some (.error error)
      | .ok tlvs => some (.ok (⟨kind, value⟩ :: tlvs))
termination_by payload.length
decreasing_by
  rw [length_drop]
  omega

def decode (frame : Bytes) : Option (Except WireError QmiResponse) := do
  match ← decodeQmuxResponse frame with
  | .error error => some (.error error)
  | .ok (service, clientId, sdu) =>
    match ← decodeResponseSdu service sdu with
    | .error error => some (.error error)
    | .ok (transaction, messageId, payload) =>
      match ← decodeTlvs payload with
      | .error error => some (.error error)
      | .ok _ => some (.ok ⟨service, clientId, transaction, messageId, payload⟩)

variable (frame : Bytes)

theorem decodeQmuxResponse_eq : decodeQmuxResponse frame = some (Qmi.decodeQmuxResponse frame) := by
  rcases frame with _ | ⟨interface, _ | ⟨low, _ | ⟨high, _ | ⟨flag, _ | ⟨service, _ |
    ⟨client, sdu⟩⟩⟩⟩⟩⟩
  case cons.cons.cons.cons.cons.cons =>
    rw [decodeQmuxResponse]
    simp [Qmi.decodeQmuxResponse, apply_ite some]
    cases validateAddress ⟨service⟩ ⟨client⟩ <;> rfl
  all_goals rfl

theorem decodeResponseSdu_eq (service : ServiceId) (sdu : Bytes) :
    decodeResponseSdu service sdu = some (Qmi.decodeResponseSdu service sdu) := by
  unfold decodeResponseSdu Qmi.decodeResponseSdu qmiHeaderLength
  cases service.isControl with
  | true =>
    rcases sdu with _ | ⟨kind, _ | ⟨t, _ | ⟨m₀, _ | ⟨m₁, _ | ⟨l₀, _ | ⟨l₁, payload⟩⟩⟩⟩⟩⟩
    case cons.cons.cons.cons.cons.cons =>
      rw [if_neg (by simp only [length_cons, reduceIte]; omega)]
      simp [sliceFrom]
    all_goals rfl
  | false =>
    rcases sdu with _ | ⟨kind, _ | ⟨t₀, _ | ⟨t₁, _ | ⟨m₀, _ | ⟨m₁, _ | ⟨l₀, _ | ⟨l₁, payload⟩⟩⟩⟩⟩⟩⟩
    case cons.cons.cons.cons.cons.cons.cons =>
      rw [if_neg (by simp only [length_cons, reduceIte, Bool.false_eq_true]; omega)]
      simp [sliceFrom]
    all_goals rfl

theorem decodeTlvs_eq (payload : Bytes) : decodeTlvs payload = some (Qmi.decodeTlvs payload) := by
  fun_induction Qmi.decodeTlvs payload with
  | case1 =>
    rw [decodeTlvs]
    rfl
  | case2 kind low high rest valueLength hshort =>
    rw [decodeTlvs]
    simp [hshort, valueLength]
  | case3 kind low high rest valueLength hfits error herror ih =>
    rw [decodeTlvs, dif_neg (by simp only [length_cons]; omega)]
    simp [hfits, valueLength, sliceFrom, Nat.add_comm 3, ih, herror]
  | case4 kind low high rest valueLength hfits tlvs htlvs ih =>
    rw [decodeTlvs]
    simp [hfits, valueLength, sliceFrom, Nat.add_comm 3, ih, htlvs]
  | case5 short hnil hlong =>
    rcases short with _ | ⟨a, _ | ⟨b, _ | ⟨c, rest⟩⟩⟩
    · exact absurd rfl hnil
    · rw [decodeTlvs]
      rfl
    · rw [decodeTlvs]
      rfl
    · exact absurd rfl (hlong a b c rest)

theorem decode_eq : decode frame = some (QmiResponse.decode frame) := by
  unfold decode QmiResponse.decode
  rw [decodeQmuxResponse_eq]
  cases Qmi.decodeQmuxResponse frame with
  | error error => rfl
  | ok parts =>
    obtain ⟨service, clientId, sdu⟩ := parts
    simp only [Option.bind_eq_bind, Option.bind_some, decodeResponseSdu_eq]
    cases Qmi.decodeResponseSdu service sdu with
    | error error => rfl
    | ok message =>
      simp only [decodeTlvs_eq]
      cases Qmi.decodeTlvs message.2.2 <;> rfl

end Indexed

variable (frame : Bytes)

theorem isIndication_isSome : (isIndication frame).isSome := by
  unfold isIndication
  split
  · rfl
  · rw [getElem?_eq_getElem (by omega), getElem?_eq_getElem (by omega)]
    rfl

theorem addressOf_isSome : (addressOf frame).isSome := by
  unfold addressOf
  split
  · rfl
  · rw [getElem?_eq_getElem (by omega), getElem?_eq_getElem (by omega),
      getElem?_eq_getElem (by omega)]
    simp only [Option.bind_eq_bind, Option.bind_some]
    split
    · rfl
    · split
      · rfl
      · rw [getElem?_eq_getElem (by omega)]
        rfl

theorem answers_isSome (request frame : Bytes) : (answers request frame).isSome := by
  obtain ⟨wanted, hwanted⟩ := Option.isSome_iff_exists.mp (addressOf_isSome request)
  obtain ⟨got, hgot⟩ := Option.isSome_iff_exists.mp (addressOf_isSome frame)
  simp [answers, hwanted, hgot]

/-- The header of a frame that announces less than its own length field. -/
def Undersized (delivered : Bytes) : Prop :=
  ∃ low high rest, delivered = 0x01 :: low :: high :: rest ∧ (fromLeBytes low high).toNat < 2

/-- No index is out of range, and a frame read is its header and as many bytes
as the length announces behind itself, exactly if the device does not announce
less than two. -/
theorem framing_total_iff (delivered : Bytes) : ((∃ result, readQmuxFrame delivered = some result
        ∧ ∀ frame rest, result = .ok (frame, rest) → delivered = frame ++ rest
          ∧ ∃ interface low high payload, frame = interface :: low :: high :: payload
            ∧ payload.length + 2 = (fromLeBytes low high).toNat)
      ∧ ∀ request frame, (isIndication frame).isSome ∧ (answers request frame).isSome
        ∧ Indexed.decode frame = some (QmiResponse.decode frame)) ↔ ¬ Undersized delivered := by
  rw [and_iff_left fun request frame => ⟨isIndication_isSome frame, answers_isSome request frame,
    Indexed.decode_eq frame⟩]
  constructor
  · rintro ⟨result, hresult, -⟩ ⟨low, high, rest, rfl, hshort⟩
    rw [readQmuxFrame, if_neg (by simp), if_pos (by omega)] at hresult
    cases hresult
  · intro h
    unfold readQmuxFrame
    split
    next interface low high rest =>
      by_cases hinterface : interface = 0x01
      · have hlong : ¬ (fromLeBytes low high).toNat < 2 := fun hshort =>
          h ⟨low, high, rest, by rw [hinterface], hshort⟩
        rw [if_neg (not_not.mpr hinterface), if_neg (by omega)]
        split
        · dsimp only
          split
          · exact ⟨_, rfl, by simp⟩
          next hfits =>
            refine ⟨_, rfl, fun frame left hframe => ?_⟩
            cases hframe
            refine ⟨by simp, interface, low, high, _, rfl, ?_⟩
            rw [length_take]
            omega
        next hsmall =>
          refine ⟨_, rfl, fun frame left hframe => ?_⟩
          cases hframe
          refine ⟨by simp, interface, low, high, [], rfl, ?_⟩
          rw [length_nil]
          omega
      · rw [if_pos hinterface]
        exact ⟨_, rfl, by simp⟩
    · exact ⟨_, rfl, by simp⟩

theorem undersized_panics :
    readQmuxFrame [0x01, 0x00, 0x00] = none ∧ readQmuxFrame [0x01, 0x01, 0x00] = none := by
  decide

end VodogeEdge.Qmi
