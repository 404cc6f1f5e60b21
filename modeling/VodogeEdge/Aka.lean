import VodogeEdge.Apdu
import VodogeEdge.Logged
import VodogeEdge.Text

/-!
# USIM AKA over the basic channel

`aka`: one challenge against the USIM a modem has selected. The FCP of the
current application is read first, the USIM is selected if the card says it
is not, and only then is the challenge sent. What stands behind the channel
is arbitrary: it answers by all it has been sent.
-/

namespace VodogeEdge.Aka

open List

inductive AkaOutcome where
  | success (res ck ik : Bytes) (kc : Option Bytes)
  | syncFailure (auts : Bytes)
  | authenticationFailure (sw1 sw2 : UInt8) (detail : String)
deriving DecidableEq

/-- Everything that can go wrong that is not the card answering a challenge. -/
inductive AkaError where
  | badChallengeLength (field : String) (actual : Nat)
  | transport (reason : String)
  | malformedCsim (reason : String)
  | statusRefused (sw1 sw2 : UInt8)
  | noSelectedApplication (fcp : String)
  | notUsimAdf (aid : String)
  | usimSelectRefused (sw1 sw2 : UInt8)
  | unknownStatusWord (sw1 sw2 : UInt8) (body : String)
  | malformedResponse (reason body : String)
  | tooManyGetResponseRounds (rounds : Nat)
deriving DecidableEq

def hexUpper (bytes : Bytes) : String :=
  (String.join (bytes.map fun byte => hexPadded 2 byte.toNat)).map Char.toUpper

/-! ## Elements -/

/-- The filler some cards put around an answer. -/
def isFiller (byte : UInt8) : Bool := byte = 0x00 || byte = 0xff

variable (data : Bytes) {tag : UInt8}

def stripLeadingPadding : Bytes := data.dropWhile isFiller

def isPadding : Bool := data.all isFiller

def readLength : Bytes → Option (Nat × Bytes)
  | [] => none
  | first :: rest =>
    if first = 0x81 then
      match rest with
      | length :: body => some (length.toNat, body)
      | [] => none
    else if first = 0x82 then
      match rest with
      | high :: low :: body => some (high.toNat * 256 + low.toNat, body)
      | _ => none
    else if first < 0x80 then some (first.toNat, rest)
    else none

/-- `read_tlv`: the tag and the value of one element, and the bytes after it. -/
def readTlv : Bytes → Option (UInt8 × Bytes × Bytes)
  | [] => none
  | tag :: rest =>
    match readLength rest with
    | none => none
    | some (length, body) =>
      if body.length < length then none else some (tag, body.take length, body.drop length)

/-! What an element looks like on the wire; the readers decide it. -/

def LengthBytes (length : Nat) (bytes : Bytes) : Prop :=
  (∃ short : UInt8, short < 0x80 ∧ short.toNat = length ∧ bytes = [short])
    ∨ (∃ byte : UInt8, byte.toNat = length ∧ bytes = [0x81, byte])
    ∨ ∃ high low : UInt8, high.toNat * 256 + low.toNat = length ∧ bytes = [0x82, high, low]

def Element (tag : UInt8) (value bytes : Bytes) : Prop :=
  ∃ length, LengthBytes value.length length ∧ bytes = tag :: (length ++ value)

theorem readLength_iff {bytes body : Bytes} {length : Nat} : readLength bytes = some (length, body)
      ↔ ∃ header, LengthBytes length header ∧ bytes = header ++ body := by
  constructor
  · intro h
    unfold readLength at h
    split at h
    · cases h
    next first rest =>
      split at h
      next hfirst =>
        split at h
        · cases h
          exact ⟨_, .inr (.inl ⟨_, rfl, rfl⟩), by rw [hfirst]; rfl⟩
        · cases h
      · split at h
        next hfirst =>
          split at h
          · cases h
            exact ⟨_, .inr (.inr ⟨_, _, rfl, rfl⟩), by rw [hfirst]; rfl⟩
          · cases h
        · split at h
          next hshort =>
            cases h
            exact ⟨_, .inl ⟨_, hshort, rfl, rfl⟩, rfl⟩
          · cases h
  · rintro ⟨header, ⟨short, hshort, rfl, rfl⟩ | ⟨byte, rfl, rfl⟩ | ⟨high, low, rfl, rfl⟩, rfl⟩
    · have hne : short ≠ 0x81 ∧ short ≠ 0x82 := by
        constructor <;> rintro rfl <;> exact absurd hshort (by decide)
      simp [readLength, hne.1, hne.2, hshort]
    · rfl
    · rfl

theorem readTlv_iff {data value rest : Bytes} : readTlv data = some (tag, value, rest)
      ↔ ∃ bytes, Element tag value bytes ∧ data = bytes ++ rest := by
  constructor
  · intro h
    unfold readTlv at h
    split at h
    · cases h
    · split at h
      · cases h
      next length body hlength =>
        split at h
        · cases h
        next hfits =>
          cases h
          obtain ⟨header, hheader, rfl⟩ := readLength_iff.mp hlength
          have hvalue : (body.take length).length = length := by
            rw [length_take]
            omega
          refine ⟨_, ⟨header, by rwa [hvalue], rfl⟩, ?_⟩
          rw [cons_append, append_assoc, take_append_drop]
  · rintro ⟨bytes, ⟨header, hheader, rfl⟩, rfl⟩
    have hlength : readLength (header ++ value ++ rest) = some (value.length, value ++ rest) :=
      readLength_iff.mpr ⟨header, hheader, append_assoc _ _ _⟩
    have hfits : ¬ (value ++ rest).length < value.length := by
      rw [length_append]
      omega
    rw [cons_append, readTlv]
    simp only [hlength, hfits, if_false, take_left, drop_left]

theorem length_readTlv_lt {data value rest : Bytes}
    (h : readTlv data = some (tag, value, rest)) : rest.length < data.length := by
  obtain ⟨_, ⟨header, -, rfl⟩, rfl⟩ := readTlv_iff.mp h
  simp only [length_cons, length_append]
  omega

/-- `find_tag`: the first value with this tag in a flat list of elements. -/
def findTag (data : Bytes) (tag : UInt8) : Option Bytes :=
  match data with
  | [] => none
  | byte :: tail =>
    if isFiller byte then findTag tail tag
    else
      match _ : readTlv (byte :: tail) with
      | none => none
      | some (found, value, rest) => if found = tag then some value else findTag rest tag
termination_by data.length
decreasing_by
  · exact Nat.lt_succ_self _
  · exact length_readTlv_lt ‹_›

/-- `split_tlv`: one element that is all of `data` apart from filler. -/
def splitTlv : Option (UInt8 × Bytes) :=
  match readTlv (stripLeadingPadding data) with
  | none => none
  | some (tag, value, rest) => if isPadding rest then some (tag, value) else none

def wrappedValue : Option Bytes := (splitTlv data).map Prod.snd

/-- The elements of an FCP. Some cards answer with the bare contents of the
template. -/
def contentsOf (fcp : Bytes) : Bytes :=
  let body := stripLeadingPadding fcp
  match splitTlv body with
  | some (tag, value) => if tag = 0x62 ∨ tag = 0x6f then value else body
  | none => body

def selectedAid (fcp : Bytes) : Except AkaError Bytes :=
  match findTag (contentsOf fcp) 0x84 with
  | some aid => .ok aid
  | none => .error (.noSelectedApplication (hexUpper fcp))

/-! ## Answers to a challenge -/

/-- `Cursor::take_lv`: a field with its length in front, and what follows. -/
def takeLv : Bytes → Option (Bytes × Bytes)
  | [] => none
  | length :: rest =>
    if rest.length < length.toNat then none
    else some (rest.take length.toNat, rest.drop length.toNat)

/-- `parse_success`: `<len RES> RES <len CK> CK <len IK> IK [<len Kc> Kc]`. -/
def parseSuccess (value body : Bytes) : Except AkaError AkaOutcome :=
  let malformed (reason : String) : Except AkaError AkaOutcome :=
    .error (.malformedResponse reason (hexUpper body))
  match takeLv value with
  | none => malformed "truncated RES"
  | some (res, afterRes) =>
    if res.length < 4 ∨ 16 < res.length then
      malformed ("RES length " ++ toString res.length ++ " out of range")
    else
      match takeLv afterRes with
      | none => malformed "truncated CK"
      | some (ck, afterCk) =>
        if ck.length ≠ 16 then
          malformed ("CK length " ++ toString ck.length ++ " is not 16")
        else
          match takeLv afterCk with
          | none => malformed "truncated IK"
          | some (ik, afterIk) =>
            if ik.length ≠ 16 then
              malformed ("IK length " ++ toString ik.length ++ " is not 16")
            else if isPadding afterIk then .ok (.success res ck ik none)
            else
              match takeLv afterIk with
              | none => malformed (toString afterIk.length ++ " unexplained trailing bytes")
              | some (kc, rest) =>
                if kc.length ≠ 8 then
                  malformed ("trailing field of " ++ toString kc.length
                    ++ " bytes is not a Kc")
                else if isPadding rest then .ok (.success res ck ik (some kc))
                else malformed (toString rest.length ++ " unexplained trailing bytes")

/-- `classify_body`: a success body is read plain first and as one element
if that fails. -/
def classifyBody (body : Bytes) : Except AkaError AkaOutcome :=
  let malformed (reason : String) : Except AkaError AkaOutcome :=
    .error (.malformedResponse reason (hexUpper body))
  let trimmed := stripLeadingPadding body
  match trimmed with
  | [] => malformed "AUTHENTICATE answered 9000 with an empty body"
  | tag :: rest =>
    if tag = 0xdb then
      match parseSuccess rest body with
      | .ok outcome => .ok outcome
      | .error _ =>
        match wrappedValue trimmed with
        | some value => parseSuccess value body
        | none => parseSuccess rest body
    else if tag = 0xdc then
      match wrappedValue trimmed with
      | none => malformed "truncated AUTS field"
      | some value =>
        if value.length ≠ 14 then
          malformed ("AUTS must be 14 bytes, got " ++ toString value.length)
        else .ok (.syncFailure value)
    else if tag = 0xdd ∧ (rest = [] ∨ wrappedValue trimmed = some []) then
      .ok (.authenticationFailure 0x90 0x00 "card rejected the challenge: body tag DD")
    else malformed ("unknown AUTHENTICATE body shape, tag " ++ hexUpper [tag])

def classifyAuthenticate (response : ApduResponse) : Except AkaError AkaOutcome :=
  if response.sw1 = 0x90 ∧ response.sw2 = 0x00 then classifyBody response.data
  else if response.sw1 = 0x98 ∧ response.sw2 = 0x62 then
    .ok (.authenticationFailure response.sw1 response.sw2
      "card rejected the challenge: incorrect MAC (SW 9862)")
  else .error (.unknownStatusWord response.sw1 response.sw2 (hexUpper response.data))

/-! ## APDUs -/

def statusFcpApdu : Bytes := [0x00, 0xf2, 0x00, 0x00, 0x00]

def usimAdfAidPrefix : Bytes := [0xa0, 0x00, 0x00, 0x00, 0x87, 0x10, 0x02]

def selectUsimAdfApdu : Bytes :=
  [0x00, 0xa4, 0x04, 0x04, UInt8.ofNat usimAdfAidPrefix.length] ++ usimAdfAidPrefix ++ [0x00]

def authenticateApdu (rand autn : Bytes) (includeLe : Bool) : Except AkaError Bytes :=
  if rand.length ≠ 16 then .error (.badChallengeLength "RAND" rand.length)
  else if autn.length ≠ 16 then .error (.badChallengeLength "AUTN" autn.length)
  else
    let data := [0x10] ++ rand ++ [0x10] ++ autn
    .ok ([0x00, 0x88, 0x00, 0x81, UInt8.ofNat data.length] ++ data
      ++ (if includeLe then [0x00] else []))

/-! ## One challenge -/

structure BasicChannel where
  /-- the answer to the last of these APDUs, or why there is none -/
  transmit : List Bytes → Except AkaError ApduResponse

/-- What goes over the channel, with all APDUs sent as the log. -/
abbrev Traffic (α : Type) := Logged Bytes AkaError α

variable (channel : BasicChannel)

def transmit (apdu : Bytes) : Traffic ApduResponse :=
  .ofAdded fun trace => (channel.transmit (trace ++ [apdu]), [apdu])

def withLe (apdu : Bytes) (le : UInt8) : Bytes := apdu.dropLast ++ [le]

/-- `exchange`: one retry if the card says `6C xx`, and the rest of the
answer while it says `61 xx`. -/
def exchange (apdu : Bytes) : Traffic ApduResponse := do
  let first ← transmit channel apdu
  let first ←
    if first.sw1 = 0x6c ∧ apdu ≠ [] then transmit channel (withLe apdu first.sw2)
    else pure first
  .ofAdded fun trace => drainGetResponse channel.transmit .tooManyGetResponseRounds
    maxGetResponseRounds trace first

/-- `usim_aid_of`: the one place an FCP is turned into "yes, that is the USIM
ADF". -/
def usimAidOf (fcp : Bytes) : Except AkaError Bytes :=
  match selectedAid fcp with
  | .error error => .error error
  | .ok aid =>
    if usimAdfAidPrefix.isPrefixOf aid then .ok aid else .error (.notUsimAdf (hexUpper aid))

def verifyUsimSelected : Traffic Bytes := do
  let response ← exchange channel statusFcpApdu
  if !response.isSuccess then .ofExcept (.error (.statusRefused response.sw1 response.sw2))
  else .ofExcept (usimAidOf response.data)

def selectUsimAdf : Traffic Bytes := do
  let response ← exchange channel selectUsimAdfApdu
  if !response.isSuccess then .ofExcept (.error (.usimSelectRefused response.sw1 response.sw2))
  else .ofExcept (usimAidOf response.data)

def AkaError.isSelectionVerdict : AkaError → Bool
  | .noSelectedApplication _ | .notUsimAdf _ | .statusRefused _ _ => true
  | _ => false

def ensureUsimSelected : Traffic Bytes := do
  match ← (verifyUsimSelected channel).attempt with
  | .ok aid => pure aid
  | .error error =>
    if error.isSelectionVerdict then selectUsimAdf channel else .ofExcept (.error error)

def usimAuthenticate (rand autn : Bytes) : Traffic AkaOutcome := do
  let apdu ← .ofExcept (authenticateApdu rand autn true)
  let _ ← ensureUsimSelected channel
  let response ← exchange channel apdu
  .ofExcept (classifyAuthenticate response)

end VodogeEdge.Aka
