import Mathlib.Data.List.Forall2
import VodogeEdge.EsimCommands
import VodogeEdge.Logged
import VodogeEdge.Nibbles

/-!
# Commands on one profile

`EnableProfile`, `DisableProfile`, `DeleteProfile` and `SetNickname` name
the profile by its ICCID. The card lists the ICCID as ten bytes of
nibble-swapped digits; the bytes become a text on the way in and bytes again
on the way out. The filler is dropped wherever it stands and put back at the
end only; `addresses_iff` says for which listings a command names the bytes
the card sent.
-/

namespace VodogeEdge.Esim

open List Nat

/-! ## Requests -/

/-- `encode_iccid`: nibble-swapped digits, padded to ten bytes with `f`. -/
def encodeIccid (iccid : String) : Except Es10cError Bytes :=
  let digits := trimBy isWhitespace iccid.toList
  if digits.isEmpty || digits.any (fun c => !c.isDigit) then .error .invalidIccid
  else
    match digits.mapM (toDigit 16) with
    | none => .error .invalidIccid
    | some values =>
      let bytes := packNibbles values
      .ok (bytes ++ List.replicate (10 - bytes.length) 0xff)

def shortTlv (tag value : Bytes) : Bytes := tag ++ UInt8.ofNat value.length :: value

def profileCommand (tag : Bytes) (iccid : String) (refresh : Bool) : Except Es10cError Bytes := do
  let iccid ← encodeIccid iccid
  let identifier := shortTlv [0x5a] iccid
  .ok (shortTlv tag (shortTlv [0xa0] identifier ++ [0x81, 0x01, if refresh then 0xff else 0x00]))

def tagEnableProfile : Bytes := [0xbf, 0x31]

def tagDisableProfile : Bytes := [0xbf, 0x32]

def tagSetNickname : Bytes := [0xbf, 0x29]

def tagDeleteProfile : Bytes := [0xbf, 0x33]

def nicknameMaxBytes : Nat := 64

def enableProfilePayload (iccid : String) (refresh : Bool) : Except Es10cError Bytes :=
  profileCommand tagEnableProfile iccid refresh

def disableProfilePayload (iccid : String) (refresh : Bool) : Except Es10cError Bytes :=
  profileCommand tagDisableProfile iccid refresh

def nicknameBytes (nickname : String) : Bytes :=
  utf8 (trimBy isWhitespace nickname.toList)

/-- The field is always sent, even empty. -/
def setNicknamePayload (iccid nickname : String) : Except Es10cError Bytes := do
  let iccid ← encodeIccid iccid
  let nickname := nicknameBytes nickname
  if nicknameMaxBytes < nickname.length then .error (.nicknameTooLong nickname.length)
  else .ok (shortTlv tagSetNickname (shortTlv [0x5a] iccid ++ shortTlv [0x90] nickname))

/-- The body is the ICCID itself, not wrapped as in the other commands. -/
def deleteProfilePayload (iccid : String) : Except Es10cError Bytes := do
  let iccid ← encodeIccid iccid
  .ok (shortTlv tagDeleteProfile (shortTlv [0x5a] iccid))

/-! ## What a request names -/

/-- The bytes are one element with this tag and value, and these bytes after
it. -/
def Holds (bytes tag value rest : Bytes) : Prop :=
  ∃ raw, readTlv bytes = .ok (⟨tag, value, raw⟩, rest)

def Switches (request tag iccid : Bytes) (refresh : Bool) : Prop :=
  ∃ body identifier flag, Holds request tag body [] ∧ Holds body [0xa0] identifier flag
    ∧ Holds identifier [0x5a] iccid [] ∧ Holds flag [0x81] [if refresh then 0xff else 0x00] []

def Deletes (request iccid : Bytes) : Prop :=
  ∃ body, Holds request tagDeleteProfile body [] ∧ Holds body [0x5a] iccid []

def Renames (request iccid nickname : Bytes) : Prop :=
  ∃ body name, Holds request tagSetNickname body [] ∧ Holds body [0x5a] iccid name
    ∧ Holds name [0x90] nickname []

/-- All four requests made from the text name these bytes, and all their
lengths are right. -/
structure Addresses (iccid : String) (value : Bytes) : Prop where
  enables : ∀ refresh, ∃ request, enableProfilePayload iccid refresh = .ok request
    ∧ Switches request tagEnableProfile value refresh
  disables : ∀ refresh, ∃ request, disableProfilePayload iccid refresh = .ok request
    ∧ Switches request tagDisableProfile value refresh
  deletes : ∃ request, deleteProfilePayload iccid = .ok request ∧ Deletes request value
  renames : ∀ nickname, (nicknameBytes nickname).length ≤ nicknameMaxBytes →
    ∃ request, setNicknamePayload iccid nickname = .ok request
      ∧ Renames request value (nicknameBytes nickname)

variable {tag value bytes : Bytes}

theorem holds_shortTlv (htag : ∀ rest, readTag (tag ++ rest) = .ok (tag, rest))
    (hshort : value.length < 128) (rest : Bytes) :
    Holds (shortTlv tag value ++ rest) tag value rest := by
  refine ⟨tag ++ [UInt8.ofNat value.length] ++ value, ?_⟩
  have hread := readTlv_append (readTag_ok (htag [])).1 (isLength_ofNat hshort) rest
  rwa [shortTlv, append_cons]

theorem Holds.unique {tag' value' rest rest' : Bytes} (h : Holds bytes tag value rest)
    (h' : Holds bytes tag' value' rest') : value' = value := by
  obtain ⟨raw, hread⟩ := h
  obtain ⟨raw', hread'⟩ := h'
  rw [hread] at hread'
  cases hread'
  rfl

theorem holds_shortTlv_nil (htag : ∀ rest, readTag (tag ++ rest) = .ok (tag, rest))
    (hshort : value.length < 128) : Holds (shortTlv tag value) tag value [] := by
  have hholds := holds_shortTlv htag hshort []
  rwa [append_nil] at hholds

theorem length_shortTlv (tag value : Bytes) :
    (shortTlv tag value).length = tag.length + 1 + value.length := by
  rw [shortTlv, length_append, length_cons]
  omega

variable {iccid : String} {number : String} {digits : List Nat} {children : List Tlv}
  {profile : Profile}

theorem switches_profileCommand (htag : ∀ rest, readTag (tag ++ rest) = .ok (tag, rest))
    (hencode : encodeIccid iccid = .ok bytes) (hten : bytes.length = 10) (refresh : Bool) :
    ∃ request, profileCommand tag iccid refresh = .ok request
      ∧ Switches request tag bytes refresh := by
  have hflag : Holds (shortTlv [0x81] [if refresh then 0xff else 0x00]) [0x81]
      [if refresh then 0xff else 0x00] [] :=
    holds_shortTlv_nil (fun _ => rfl) (succ_lt_succ (succ_pos _))
  refine ⟨_, by rw [profileCommand, hencode]; rfl, _, _, _, holds_shortTlv_nil htag ?_,
    holds_shortTlv (fun _ => rfl) ?_ _, holds_shortTlv_nil (fun _ => rfl) ?_, hflag⟩
  · simp only [length_append, length_shortTlv, hten, length_cons]
    decide
  · simp only [length_shortTlv, hten]
    decide
  · rw [hten]
    decide

/-- The requests name the bytes the text is encoded in, and no others. -/
theorem addresses_iff_encode (hencode : encodeIccid iccid = .ok bytes) (hten : bytes.length = 10)
    (value : Bytes) : Addresses iccid value ↔ bytes = value := by
  have hiccid : (shortTlv [0x5a] bytes).length < 128 := by
    rw [length_shortTlv, hten]
    decide
  have hdelete : Holds (shortTlv tagDeleteProfile (shortTlv [0x5a] bytes)) tagDeleteProfile
      (shortTlv [0x5a] bytes) [] := holds_shortTlv_nil (fun _ => rfl) hiccid
  have hbody : Holds (shortTlv [0x5a] bytes) [0x5a] bytes [] :=
    holds_shortTlv_nil (fun _ => rfl) (by rw [hten]; decide)
  have hpayload : deleteProfilePayload iccid
      = .ok (shortTlv tagDeleteProfile (shortTlv [0x5a] bytes)) := by
    rw [deleteProfilePayload, hencode]
    rfl
  constructor
  · intro h
    obtain ⟨request, hrequest, body, houter, hinner⟩ := h.deletes
    rw [hpayload] at hrequest
    obtain rfl := Except.ok.inj hrequest
    obtain rfl := hdelete.unique houter
    exact (hbody.unique hinner).symm
  · rintro rfl
    refine ⟨switches_profileCommand (fun _ => rfl) hencode hten,
      switches_profileCommand (fun _ => rfl) hencode hten, ⟨_, hpayload, _, hdelete, hbody⟩, ?_⟩
    intro nickname hnickname
    rw [nicknameMaxBytes] at hnickname
    refine ⟨shortTlv tagSetNickname
        (shortTlv [0x5a] bytes ++ shortTlv [0x90] (nicknameBytes nickname)), ?_, _, _,
      holds_shortTlv_nil (fun _ => rfl) ?_, holds_shortTlv (fun _ => rfl) ?_ _,
      holds_shortTlv_nil (fun _ => rfl) ?_⟩
    · rw [setNicknamePayload, hencode]
      exact if_neg (not_lt.mpr hnickname)
    · simp only [length_append, length_shortTlv, length_cons, length_nil]
      omega
    · rw [hten]
      decide
    · omega

/-! ## From bytes to text and back -/

def digitsOf (value : Bytes) : List Nat := (nibbles value).filter (· ≠ filler)

theorem digitChar_eq_f_iff : ∀ n < 16, digitChar n = 'f' ↔ n = filler := by decide

theorem isDigit_digitChar_iff : ∀ n < 16, (digitChar n).isDigit ↔ n < 10 := by decide

theorem toDigit_digitChar : ∀ n < 10, toDigit 16 (digitChar n) = some n := by decide

theorem isWhitespace_digitChar : ∀ n < 10, isWhitespace (digitChar n) = false := by decide

/-- What `decode_iccid` takes for a number. -/
def IsIccid (digits : List Nat) : Prop :=
  (∀ n ∈ digits, n < 10) ∧ 19 ≤ digits.length ∧ digits.length ≤ 20 ∧ [8, 9] <+: digits

theorem decodeIccid_ok_iff :
    decodeIccid value = .ok number ↔ IsIccid (digitsOf value)
      ∧ String.ofList ((digitsOf value).map digitChar) = number := by
  have hchars : (value.flatMap fun byte : UInt8 =>
      [digitChar (byte &&& 0x0f).toNat, digitChar (byte >>> 4).toNat]).filter (· ≠ 'f')
      = (digitsOf value).map digitChar := by
    have hmap : (value.flatMap fun byte : UInt8 =>
        [digitChar (byte &&& 0x0f).toNat, digitChar (byte >>> 4).toNat])
        = (nibbles value).map digitChar := by
      rw [nibbles, map_flatMap]
      rfl
    rw [hmap, filter_map]
    congr 1
    refine filter_congr fun n hn => ?_
    simp [digitChar_eq_f_iff _ (lt_of_mem_nibbles hn)]
  have hlt : ∀ n ∈ digitsOf value, n < 16 := fun n hn => lt_of_mem_nibbles (mem_filter.mp hn).1
  have hall : ((digitsOf value).map digitChar).all Char.isDigit ↔
      ∀ n ∈ digitsOf value, n < 10 := by
    rw [all_map, all_eq_true]
    exact forall₂_congr fun n hn => isDigit_digitChar_iff _ (hlt n hn)
  have hhead : ['8', '9'].isPrefixOf ((digitsOf value).map digitChar) ↔
      [8, 9] <+: digitsOf value := by
    have hfirst : ∀ n < 16, ('8' = digitChar n ↔ 8 = n) ∧ ('9' = digitChar n ↔ 9 = n) := by decide
    rcases hdigits : digitsOf value with _ | ⟨a, _ | ⟨b, rest⟩⟩
    · simp
    · simp
    · rw [hdigits] at hlt
      simp [hfirst a (hlt a (by simp)), hfirst b (hlt b (by simp))]
  unfold decodeIccid
  simp only [hchars, length_map, Bool.not_eq_true', ← Bool.not_eq_true, hall, hhead]
  split_ifs with hnil hdigits hform
  · refine iff_of_false nofun fun h => ?_
    rw [isEmpty_iff.mp hnil] at h
    exact absurd h.1.2.1 (by decide)
  · refine iff_of_false nofun fun h => ?_
    obtain ⟨-, hshort, hlong, hstarts⟩ := h.1
    rcases hform with hform | hform | hform
    · omega
    · omega
    · exact hform hstarts
  · simp only [not_or, not_lt, not_not] at hform
    rw [Except.ok.injEq]
    exact (and_iff_right ⟨hdigits, hform⟩).symm
  · exact iff_of_false nofun fun h => hdigits h.1.1

theorem mapM_toDigit (h : ∀ n ∈ digits, n < 10) :
    (digits.map digitChar).mapM (toDigit 16) = some digits := by
  induction digits with
  | nil => rfl
  | cons first rest ih =>
    rw [map_cons, mapM_cons, toDigit_digitChar _ (h first mem_cons_self),
      ih fun n hn => h n (mem_cons_of_mem _ hn)]
    rfl

theorem encodeIccid_digits (hne : digits ≠ []) (h : ∀ n ∈ digits, n < 10) :
    encodeIccid (String.ofList (digits.map digitChar))
      = .ok (packNibbles digits ++ replicate (10 - (packNibbles digits).length) 0xff) := by
  have htrim : trimBy isWhitespace (digits.map digitChar) = digits.map digitChar := by
    refine trimBy_eq_self fun c hc => ?_
    obtain ⟨n, hn, rfl⟩ := mem_map.mp hc
    exact isWhitespace_digitChar _ (h n hn)
  have hvalues : (digits.map digitChar).mapM (toDigit 16) = some digits :=
    mapM_toDigit h
  have hvalid : ((digits.map digitChar).isEmpty
      || (digits.map digitChar).any (fun c => !c.isDigit)) = false := by
    rw [Bool.or_eq_false_iff, isEmpty_eq_false_iff, any_eq_false]
    refine ⟨fun hnil => hne (map_eq_nil_iff.mp hnil), fun c hc => ?_⟩
    obtain ⟨n, hn, rfl⟩ := mem_map.mp hc
    have hlt := h n hn
    rw [(isDigit_digitChar_iff _ (by omega)).mpr hlt]
    exact Bool.false_ne_true
  simp only [encodeIccid, String.toList_ofList, htrim, hvalid, hvalues, Bool.false_eq_true,
    if_false]

def FillerLast (value : Bytes) : Prop :=
  ∃ count, nibbles value = digitsOf value ++ List.replicate count filler

/-- Ten bytes are the encoding of the text of other bytes when both have the
same digits and the filler of the ten bytes is last. -/
theorem encode_decode_eq_iff {other : Bytes} (hdecode : decodeIccid other = .ok number)
    (hencode : encodeIccid number = .ok bytes) (hten : value.length = 10) :
    bytes.length = 10
      ∧ (bytes = value ↔ FillerLast value ∧ digitsOf other = digitsOf value) := by
  obtain ⟨⟨hdigits, hshortest, hlongest, -⟩, rfl⟩ := decodeIccid_ok_iff.mp hdecode
  have hne : digitsOf other ≠ [] := ne_nil_of_length_pos (by omega)
  have hfilter : (digitsOf other).filter (· ≠ filler) = digitsOf other := by
    refine filter_eq_self.mpr fun n hn => ?_
    have hlt := hdigits n hn
    exact decide_eq_true (by rw [filler]; omega)
  rw [encodeIccid_digits hne hdigits] at hencode
  have hlength : (packNibbles (digitsOf other)).length = 10 := by
    rw [length_packNibbles]
    omega
  rw [hlength, replicate_zero, append_nil] at hencode
  obtain rfl := Except.ok.inj hencode
  refine ⟨hlength, ?_⟩
  have hpacked := nibbles_packNibbles fun n hn => (hdigits n hn).trans (by decide)
  constructor
  · rintro rfl
    have hsame : digitsOf (packNibbles (digitsOf other)) = digitsOf other := by
      rw [digitsOf, hpacked, filter_append, hfilter, filter_replicate_of_neg (by simp), append_nil]
    exact ⟨⟨(digitsOf other).length % 2, by rw [hsame, hpacked]⟩, hsame.symm⟩
  · rintro ⟨⟨count, hvalue⟩, hsame⟩
    have hcount := congrArg List.length hvalue
    rw [length_nibbles, length_append, length_replicate, ← hsame] at hcount
    refine nibbles_injective ?_
    rw [hpacked, hvalue]
    congr 2
    omega

/-! ## The card's listing -/

/-- The bodies of the profiles in a `GetProfilesInfo` response. -/
def profileElements (response : Bytes) : List Bytes :=
  match readTlv response with
  | .error _ => []
  | .ok (outer, _) =>
    match readTlv outer.value with
    | .error _ => []
    | .ok (list, _) =>
      ((elements list.value).1.filter fun child => child.tag = [0xe3]).map Tlv.value

def iccidElements (body : Bytes) : List Tlv :=
  (elements body).1.filter fun child => child.tag = [0x5a]

theorem forall₂_of_foldlM {α : Type} {parse : Bytes → Except Es10cError α} {out final : List α}
    (h : children.foldlM (fun out child =>
      if child.tag ≠ tag then .ok out else do .ok (out ++ [← parse child.value])) out
      = .ok final) :
    ∃ members, final = out ++ members ∧ List.Forall₂ (fun body member => parse body = .ok member)
      ((children.filter fun child => child.tag = tag).map Tlv.value) members := by
  induction children generalizing out with
  | nil =>
    cases h
    exact ⟨[], (append_nil _).symm, .nil⟩
  | cons child rest ih =>
    rw [foldlM_cons] at h
    by_cases htag : child.tag = tag
    · rw [if_neg (not_not.mpr htag)] at h
      obtain ⟨_, hstep, h⟩ := exists_ok_of_bind h
      obtain ⟨member, hparse, hstep⟩ := exists_ok_of_bind hstep
      cases hstep
      obtain ⟨members, rfl, hmembers⟩ := ih h
      refine ⟨member :: members, by rw [append_assoc]; rfl, ?_⟩
      rw [filter_cons_of_pos (by simpa using htag)]
      exact .cons hparse hmembers
    · rw [if_pos htag] at h
      rw [filter_cons_of_neg (by simpa using htag)]
      exact ih h

/-- The profiles of a listing are read off its elements, one by one. -/
theorem parseProfile_of_parseProfiles {response : Bytes} {profiles : List Profile}
    (h : parseProfiles response = .ok profiles) :
    List.Forall₂ (fun body profile => parseProfile body = .ok profile) (profileElements response)
      profiles := by
  obtain ⟨body, hexpect, h⟩ := exists_ok_of_bind h
  unfold expectTag at hexpect
  split at hexpect
  · cases hexpect
  next outer _ houter =>
    split at hexpect
    · cases hexpect
    · cases hexpect
      obtain ⟨⟨list, _⟩, hlist, h⟩ := exists_ok_of_bind h
      dsimp only at h
      split at h
      · cases h
      · obtain ⟨members, rfl, hmembers⟩ := forall₂_of_foldlM (walk_ok_iff.mp h).2
        rw [profileElements, houter]
        dsimp only
        rwa [hlist]

theorem assign_iccid {final : Profile} {child : Tlv} (h : profile.assign child = .ok final) :
    if child.tag = [0x5a] then decodeIccid child.value = .ok final.iccid
    else final.iccid = profile.iccid := by
  unfold Profile.assign at h
  split at h
  next htag =>
    obtain ⟨number, hdecode, h⟩ := exists_ok_of_bind h
    cases h
    rw [if_pos htag]
    exact mapError_eq_ok.mp hdecode
  all_goals
    cases h
    simp_all

/-- The ICCID of a profile is that of its last ICCID element, and every
such element decodes. -/
theorem iccid_of_foldlM (h : children.foldlM Profile.assign {} = .ok profile) :
    (∀ child ∈ children.filter fun child => child.tag = [0x5a],
        ∃ number, decodeIccid child.value = .ok number)
      ∧ ∀ last, (children.filter fun child => child.tag = [0x5a]).getLast? = some last →
        decodeIccid last.value = .ok profile.iccid := by
  induction children using reverseRecOn generalizing profile with
  | nil => exact ⟨fun child hc => absurd hc not_mem_nil, fun last hl => by cases hl⟩
  | append_singleton children child ih =>
    rw [foldlM_append] at h
    obtain ⟨before, hfold, h⟩ := exists_ok_of_bind h
    obtain ⟨next, hassign, h⟩ := exists_ok_of_bind h
    cases h
    obtain ⟨hall, hlast⟩ := ih hfold
    have hiccid := assign_iccid hassign
    rw [filter_append]
    by_cases htag : child.tag = [0x5a]
    · rw [if_pos htag] at hiccid
      rw [filter_cons_of_pos (by simpa using htag), filter_nil]
      refine ⟨fun other hother => ?_, fun last hl => ?_⟩
      · rcases mem_append.mp hother with hother | hother
        · exact hall other hother
        · rw [mem_singleton.mp hother]
          exact ⟨_, hiccid⟩
      · rw [getLast?_concat, Option.some_inj] at hl
        rwa [← hl]
    · rw [if_neg htag] at hiccid
      rw [filter_cons_of_neg (by simpa using htag), filter_nil, append_nil, hiccid]
      exact ⟨hall, hlast⟩

/-- The commands on a listed profile name the ICCID bytes the card sent exactly
if their filler is last and no later ICCID element has other digits. -/
theorem addresses_iff {response : Bytes} {profiles : List Profile}
    (hparse : parseProfiles response = .ok profiles) {index : Nat} {profile : Profile}
    {body : Bytes} (hprofile : profiles[index]? = some profile)
    (hbody : (profileElements response)[index]? = some body) {iccid : Tlv}
    (hiccid : iccid ∈ iccidElements body) (hten : iccid.value.length = 10) :
    Addresses profile.iccid iccid.value ↔ FillerLast iccid.value
      ∧ ∀ last, (iccidElements body).getLast? = some last →
        digitsOf last.value = digitsOf iccid.value := by
  have hread : parseProfile body = .ok profile := by
    obtain ⟨hlt, hget⟩ := List.getElem?_eq_some_iff.mp hprofile
    obtain ⟨hlt', hget'⟩ := List.getElem?_eq_some_iff.mp hbody
    have hforall := (parseProfile_of_parseProfiles hparse).get hlt' hlt
    rwa [get_eq_getElem, get_eq_getElem, hget, hget'] at hforall
  obtain ⟨-, hlast⟩ := iccid_of_foldlM (walk_ok_iff.mp hread).2
  have hsome := getLast?_eq_some_getLast (ne_nil_of_mem hiccid)
  have hdecode := hlast _ hsome
  obtain ⟨bytes, hencode⟩ : ∃ bytes, encodeIccid profile.iccid = .ok bytes := by
    obtain ⟨⟨hdigits, hshortest, -⟩, htext⟩ := decodeIccid_ok_iff.mp hdecode
    rw [← htext]
    exact ⟨_, encodeIccid_digits (ne_nil_of_length_pos (by omega)) hdigits⟩
  obtain ⟨hlength, hsame⟩ := encode_decode_eq_iff hdecode hencode hten
  rw [addresses_iff_encode hencode hlength, hsame, hsome]
  simp

/-- A listed profile whose filler is last. -/
theorem addresses_trailing_filler :
    Addresses "8985200014632179571"
      [0x98, 0x58, 0x02, 0x00, 0x41, 0x36, 0x12, 0x97, 0x75, 0xf1] := by
  have hparse : parseProfiles [0xbf, 0x2d, 0x10, 0xa0, 0x0e, 0xe3, 0x0c, 0x5a, 0x0a, 0x98, 0x58,
      0x02, 0x00, 0x41, 0x36, 0x12, 0x97, 0x75, 0xf1]
        = .ok [{ iccid := "8985200014632179571" }] := by decide +kernel
  have hbody : (profileElements [0xbf, 0x2d, 0x10, 0xa0, 0x0e, 0xe3, 0x0c, 0x5a, 0x0a, 0x98, 0x58,
      0x02, 0x00, 0x41, 0x36, 0x12, 0x97, 0x75, 0xf1])[0]?
        = some [0x5a, 0x0a, 0x98, 0x58, 0x02, 0x00, 0x41, 0x36, 0x12, 0x97, 0x75, 0xf1] := by
    decide +kernel
  have hiccid :
      iccidElements [0x5a, 0x0a, 0x98, 0x58, 0x02, 0x00, 0x41, 0x36, 0x12, 0x97, 0x75, 0xf1]
      = [⟨[0x5a], [0x98, 0x58, 0x02, 0x00, 0x41, 0x36, 0x12, 0x97, 0x75, 0xf1],
        [0x5a, 0x0a, 0x98, 0x58, 0x02, 0x00, 0x41, 0x36, 0x12, 0x97, 0x75, 0xf1]⟩] := by
    decide +kernel
  have hmem := mem_singleton_self (⟨[0x5a],
    [0x98, 0x58, 0x02, 0x00, 0x41, 0x36, 0x12, 0x97, 0x75, 0xf1],
    [0x5a, 0x0a, 0x98, 0x58, 0x02, 0x00, 0x41, 0x36, 0x12, 0x97, 0x75, 0xf1]⟩ : Tlv)
  rw [← hiccid] at hmem
  refine (addresses_iff hparse rfl hbody hmem rfl).mpr ⟨⟨1, by decide⟩, fun last hlast => ?_⟩
  rw [hiccid] at hlast
  cases hlast
  rfl

/-- A listed profile with its filler inside: the commands name another
number. -/
theorem filler_inside_missed :
    parseProfiles [0xbf, 0x2d, 0x10, 0xa0, 0x0e, 0xe3, 0x0c, 0x5a, 0x0a, 0x98, 0x68, 0x00, 0x3f,
      0x30, 0x41, 0x10, 0x77, 0x10, 0x60] = .ok [{ iccid := "8986003031401770106" }]
    ∧ ¬ Addresses "8986003031401770106"
      [0x98, 0x68, 0x00, 0x3f, 0x30, 0x41, 0x10, 0x77, 0x10, 0x60] := by
  refine ⟨by decide +kernel, ?_⟩
  have hencode : encodeIccid "8986003031401770106"
      = .ok [0x98, 0x68, 0x00, 0x03, 0x13, 0x04, 0x71, 0x07, 0x01, 0xf6] := by decide +kernel
  rw [addresses_iff_encode hencode rfl]
  decide

end VodogeEdge.Esim
