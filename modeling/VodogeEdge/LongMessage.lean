import VodogeEdge.InboxCollect
import VodogeEdge.InboxReassembly
import VodogeEdge.PduRoundTrip

/-!
# Long messages, end to end

A text is cut into parts, each part is sent as a DELIVER, `decode_deliver`
reads each for itself, and `assemble` puts the texts together.

The parts always come back as one message (`assemble_one_delivery`), but
the reading is done before the joining. So the text survives exactly if
no cut goes through a character: a surrogate pair, or an escape and the
septet after it (`LongMessage.reads_iff`).
-/

namespace VodogeEdge

open List

/-! ## One delivery -/

theorem eq_of_map_eq_of_nodup {α β : Type*} {f : α → β} {items whole : List α}
    (hlabels : items.map f = whole.map f) (hnodup : (whole.map f).Nodup)
    (hmem : ∀ item ∈ items, item ∈ whole) : items = whole := by
  refine ext_getElem? fun i => ?_
  have hlabel := congrArg (fun labels : List β => labels[i]?) hlabels
  simp only [getElem?_map] at hlabel
  cases hitem : items[i]? with
  | none =>
    rw [hitem, Option.map_none, eq_comm, Option.map_eq_none_iff] at hlabel
    exact hlabel.symm
  | some item =>
    rw [hitem, Option.map_some, eq_comm, Option.map_eq_some_iff] at hlabel
    obtain ⟨other, hother, hsame⟩ := hlabel
    rw [hother, inj_on_of_nodup_map hnodup (mem_of_getElem? hother)
      (hmem item (mem_of_getElem? hitem)) hsame]

section
variable {key : GroupKey} {sent arrived : List ConcatPart} (hkey : 1 < key.total)
  (hkeys : ∀ part ∈ sent, part.key = key)
  (hseqs : sent.map ConcatPart.seq = List.range' 1 key.total) (harrived : arrived.Perm sent)
include hkey hkeys hseqs harrived

theorem wholeCount_one_delivery : wholeCount (keyGroup arrived key) key.total = 1 := by
  obtain ⟨seq, hseq, hlength⟩ :=
    (wholeCount_spec (keyGroup arrived key) (Nat.zero_lt_of_lt hkey)).2
  have hone : (sent.map ConcatPart.seq).count seq = 1 := by
    rw [hseqs]
    exact count_eq_one_of_mem nodup_range' hseq
  rw [← hlength, length_queue_keyGroup arrived hkey hseq, harrived.countP_eq, ← hone,
    count_eq_countP, countP_map]
  refine countP_congr fun part hpart => ?_
  simp [hkeys part hpart]

/-- The parts of one delivery come back as one message, whatever order
they are listed in. -/
theorem assemble_one_delivery (nowMs graceMs : Int) :
    ∃ message, assemble arrived nowMs graceMs = ([message], [])
      ∧ message.body = String.join (sent.map ConcatPart.body) := by
  have hround : 0 < wholeCount (keyGroup arrived key) key.total := by
    rw [wholeCount_one_delivery hkey hkeys hseqs harrived]
    exact one_pos
  have hmem := whole_mem_assemble arrived nowMs graceMs (Nat.zero_lt_of_lt hkey) hround
  have hwhole := isWhole_round arrived hround
  obtain ⟨message, hmessage⟩ : ∃ message, message = wholeMessage key.sender key.total
    (roundOf (keyGroup arrived key) key.total 0) := ⟨_, rfl⟩
  rw [← hmessage] at hmem hwhole
  have hparts : sourceParts arrived message = sent := by
    refine eq_of_map_eq_of_nodup (hwhole.seqs.trans hseqs.symm)
      (hseqs ▸ nodup_range') fun part hpart => ?_
    obtain ⟨source, -, hread⟩ := mem_filterMap.mp hpart
    exact harrived.mem_iff.mp (mem_of_getElem? hread)
  refine ⟨message, ?_, by rw [hwhole.body, hparts]⟩
  -- its sources are all the positions there are
  have hsources : arrived.length ≤ message.sources.length := by
    rw [harrived.length_eq, ← hparts]
    exact length_filterMap_le _ _
  have hcount := (assemble_partition arrived nowMs graceMs).length_eq
  obtain ⟨before, after, hsplit⟩ := append_of_mem hmem
  have hother : ∀ other ∈ before ++ after, other.sources ≠ [] := by
    intro other hother
    refine (mem_assemble arrived nowMs graceMs ?_).sources_ne_nil
    rw [hsplit]
    rcases mem_append.mp hother with h | h
    · exact mem_append_left _ h
    · exact mem_append_right _ (mem_cons_of_mem _ h)
  rw [accounted, hsplit, flatMap_append, flatMap_cons] at hcount
  simp only [length_append, length_range] at hcount
  have hnone : (before ++ after).flatMap AssembledSms.sources = [] := by
    rw [← length_eq_zero_iff, flatMap_append, length_append]
    omega
  have hpending : (assemble arrived nowMs graceMs).2 = [] := by
    rw [← length_eq_zero_iff]
    omega
  have hempty : before ++ after = [] := by
    rw [flatMap_eq_nil_iff] at hnone
    exact eq_nil_iff_forall_not_mem.mpr fun other h => hother other h (hnone other h)
  obtain ⟨rfl, rfl⟩ := append_eq_nil_iff.mp hempty
  exact Prod.ext hsplit hpending

end

/-! ## A cut text -/

def Deliver.part (self : Deliver) : ConcatPart :=
  let (refId, total, seq) := self.concat.getD (0, 1, 1)
  ⟨self.peer, refId, total, seq, self.body, self.receivedAt⟩

open Pdu

/-- A text, cut between its units into 2 to 255 parts that are not empty, with
one sender, reference and time stamp; what else their DELIVERs carry is free. -/
structure LongMessage where
  content : Content
  sender : Address
  stamp : Bytes
  reference : Nat
  parts : List SmsDeliver
  text : content.alphabet ≠ .eightBit
  several : 2 ≤ parts.length
  few : parts.length ≤ 255
  nonempty : ∀ part ∈ parts, part.payload.units ≠ []
  alphabet : ∀ part ∈ parts, part.payload.alphabet = content.alphabet
  address : ∀ part ∈ parts, part.address = sender
  scts : ∀ part ∈ parts, part.scts = stamp
  numbered : (parts.map fun part => part.header.bind Header.concat)
    = (List.range' 1 parts.length).map fun seq => some (reference, parts.length, seq)
  cut : (parts.map fun part => part.payload.units).flatten = content.units

namespace LongMessage

variable (self : LongMessage) (seq : UInt8)

def received : Option (List ConcatPart) :=
  self.parts.mapM fun part => (decodeDeliver part.encode).map Deliver.part

def Arrived (arrived : List ConcatPart) : Prop :=
  ∃ received, self.received = some received ∧ arrived.Perm received

def Reads (arrived : List ConcatPart) (nowMs graceMs : Int) : Prop :=
  ∃ message, assemble arrived nowMs graceMs = ([message], [])
    ∧ message.body = self.content.text

def WholeCharacters : Prop :=
  ∀ part ∈ self.parts, ∃ piece : Content,
    piece.alphabet = self.content.alphabet ∧ part.payload.units = piece.units

def key : GroupKey := ⟨self.sender.shown, self.reference, self.parts.length⟩

theorem received_eq : self.received = some (self.parts.map fun part => part.decoded.part) := by
  unfold received
  simp only [SmsDeliver.decodeDeliver_encode]
  exact mapM_pure

theorem key_of_mem {part : SmsDeliver} (h : part ∈ self.parts) :
    part.decoded.part.key = self.key := by
  have hmem : part.header.bind Header.concat
      ∈ (range' 1 self.parts.length).map fun seq =>
        some (self.reference, self.parts.length, seq) := by
    rw [← self.numbered]
    exact mem_map_of_mem h
  obtain ⟨seq, -, hconcat⟩ := mem_map.mp hmem
  simp [SmsDeliver.decoded, Deliver.part, ConcatPart.key, key, ← hconcat, self.address part h]

theorem seqs_parts :
    (self.parts.map fun part => part.decoded.part).map ConcatPart.seq
      = range' 1 self.parts.length := by
  have hseqs := congrArg (List.map fun concat : Option (Nat × Nat × Nat) =>
    (concat.getD (0, 1, 1)).2.2) self.numbered
  rw [map_map, map_map] at hseqs
  rw [map_map]
  exact hseqs.trans (map_id _)

theorem join_ofList {α : Type*} (f : α → Chars) (items : List α) :
    String.join (items.map fun item => String.ofList (f item))
      = String.ofList (items.flatMap f) := by
  refine String.toList_inj.mp ?_
  rw [String.toList_join, flatMap_map]
  simp

/-- Parts that a code reads one by one say the text exactly if each is
the code of a text. -/
theorem join_read_iff {χ : Type*} (C : CharCode χ Nat Char) {text : List χ}
    (hread : ∀ part ∈ self.parts, part.payload.shown = String.ofList (C.read part.payload.units))
    (hcut : (self.parts.map fun part => part.payload.units).flatten = C.encode text) :
    String.join (self.parts.map fun part => part.payload.shown) = String.ofList (text.map C.shown)
      ↔ ∀ part ∈ self.parts, ∃ piece, part.payload.units = C.encode piece := by
  have hnonempty : ∀ piece ∈ self.parts.map fun part => part.payload.units, piece ≠ [] := by
    intro piece hpiece
    obtain ⟨part, hpart, rfl⟩ := mem_map.mp hpiece
    exact self.nonempty part hpart
  have hpieces := C.read_pieces_iff hcut hnonempty
  rw [flatMap_map, forall_mem_map] at hpieces
  rwa [map_congr_left hread, join_ofList, String.ofList_inj]

/-- The parts say the text, one after the other, exactly if no cut goes
through a character. -/
theorem join_shown_iff :
    String.join (self.parts.map fun part => part.payload.shown) = self.content.text
      ↔ self.WholeCharacters := by
  have halphabet := self.alphabet
  have hcut := self.cut
  have htext := self.text
  unfold WholeCharacters
  cases hcontent : self.content with
  | gsm7 text =>
    rw [hcontent] at halphabet hcut
    have hread : ∀ part ∈ self.parts,
        part.payload.shown = String.ofList (Gsm7.code.read part.payload.units) := by
      intro part hpart
      rw [Payload.shown, halphabet part hpart]
      rfl
    refine (self.join_read_iff Gsm7.code hread hcut).trans (forall₂_congr fun part _ => ⟨?_, ?_⟩)
    · rintro ⟨piece, hpiece⟩
      exact ⟨.gsm7 piece, rfl, hpiece⟩
    · rintro ⟨piece, hsame, hpiece⟩
      cases piece with
      | gsm7 piece => exact ⟨piece, hpiece⟩
      | octets | ucs2 => cases hsame
  | octets data => exact absurd (congrArg Content.alphabet hcontent) htext
  | ucs2 text =>
    rw [hcontent] at halphabet hcut
    have hread : ∀ part ∈ self.parts,
        part.payload.shown = String.ofList (utf16Code.read part.payload.units) := by
      intro part hpart
      rw [Payload.shown, halphabet part hpart]
      rfl
    have hsay := self.join_read_iff utf16Code hread hcut
    rw [show text.map utf16Code.shown = text from map_id text] at hsay
    refine hsay.trans (forall₂_congr fun part _ => ⟨?_, ?_⟩)
    · rintro ⟨piece, hpiece⟩
      exact ⟨.ucs2 piece, rfl, hpiece⟩
    · rintro ⟨piece, hsame, hpiece⟩
      cases piece with
      | gsm7 | octets => cases hsame
      | ucs2 piece => exact ⟨piece, hpiece⟩

/-- A long message is read as it was sent exactly if every part is whole
characters. -/
theorem reads_iff (message : LongMessage) {arrived : List ConcatPart}
    (harrived : message.Arrived arrived) (nowMs graceMs : Int) :
    message.Reads arrived nowMs graceMs ↔ message.WholeCharacters := by
  obtain ⟨received, hreceived, hperm⟩ := harrived
  rw [message.received_eq, Option.some.injEq] at hreceived
  subst hreceived
  have hkeys : ∀ part ∈ message.parts.map fun part => part.decoded.part,
      part.key = message.key := by
    intro part hpart
    obtain ⟨sms, hsms, rfl⟩ := mem_map.mp hpart
    exact message.key_of_mem hsms
  have hkey : 1 < message.key.total := message.several
  obtain ⟨whole, hassemble, hbody⟩ := assemble_one_delivery hkey hkeys message.seqs_parts hperm
    nowMs graceMs
  rw [map_map, show ConcatPart.body ∘ _ = fun part => part.payload.shown from rfl] at hbody
  rw [← message.join_shown_iff, ← hbody, Reads, hassemble]
  constructor
  · rintro ⟨other, hsame, hsays⟩
    obtain rfl := singleton_inj.mp (Prod.mk.inj hsame).1
    exact hsays
  · exact fun hsays => ⟨whole, rfl, hsays⟩

/-! ## A cut between characters and one inside -/

theorem ofTwo_one : ([Element.concat8 7 2 seq].filterMap Element.concat).length ≤ 1 := le_refl 1

theorem ofTwo_short : ([Element.concat8 7 2 seq].flatMap Element.octets).length < 256 :=
  show 5 < 256 by decide

def ofTwo (seq : UInt8) : Header := ⟨[.concat8 7 2 seq], ofTwo_one seq, ofTwo_short seq⟩

theorem codeUnit_fits (unit : UInt16) : ∀ value ∈ [unit.toNat], value < Alphabet.ucs2.size := by
  intro value hvalue
  rw [mem_singleton.mp hvalue]
  exact unit.toNat_lt

def unitPart (seq : UInt8) (unit : UInt16) : SmsDeliver :=
  { bothTablesPart with
    dcs := 0x08
    header := some (ofTwo seq)
    payload := ⟨.ucs2, [unit.toNat], codeUnit_fits unit⟩
    udhi := bothTablesPart.udhi
    dcs_alphabet := rfl
    udl_short := show 6 + 2 * 1 < 256 by decide }

theorem forall_mem_pair {α : Type*} {P : α → Prop} {first second : α} (hfirst : P first)
    (hsecond : P second) : ∀ item ∈ [first, second], P item :=
  forall_mem_cons.mpr ⟨hfirst, forall_mem_singleton.mpr hsecond⟩

def twoUnits (text : Chars) (first second : UInt16)
    (hcut : [first.toNat, second.toNat] = utf16Code.encode text) : LongMessage where
  content := .ucs2 text
  sender := bothTablesPart.address
  stamp := bothTablesPart.scts
  reference := 7
  parts := [unitPart 1 first, unitPart 2 second]
  text := Alphabet.noConfusion
  several := Nat.le_refl 2
  few := show 2 ≤ 255 by decide
  nonempty := forall_mem_pair (cons_ne_nil _ _) (cons_ne_nil _ _)
  alphabet := forall_mem_pair rfl rfl
  address := forall_mem_pair rfl rfl
  scts := forall_mem_pair rfl rfl
  numbered := rfl
  cut := hcut

theorem hi_units :
    [(0x68 : UInt16).toNat, (0x69 : UInt16).toNat] = utf16Code.encode ['h', 'i'] := by
  decide

def hi : LongMessage := twoUnits ['h', 'i'] 0x68 0x69 hi_units

theorem hi_arrived : hi.Arrived [(unitPart 2 0x69).decoded.part, (unitPart 1 0x68).decoded.part] :=
  ⟨_, hi.received_eq, List.Perm.swap _ _ _⟩

theorem hi_wholeCharacters : hi.WholeCharacters :=
  forall_mem_pair ⟨.ucs2 ['h'], rfl, rfl⟩ ⟨.ucs2 ['i'], rfl, rfl⟩

theorem hi_read :
    hi.Reads [(unitPart 2 0x69).decoded.part, (unitPart 1 0x68).decoded.part] 0 fragmentGraceMs :=
  (reads_iff hi hi_arrived 0 fragmentGraceMs).mpr hi_wholeCharacters

theorem grin_units :
    [(0xd83d : UInt16).toNat, (0xde00 : UInt16).toNat] = utf16Code.encode ['😀'] := by
  decide

/-- One character of two code units, cut in the middle. -/
def grin : LongMessage := twoUnits ['😀'] 0xd83d 0xde00 grin_units

theorem grin_arrived :
    grin.Arrived [(unitPart 1 0xd83d).decoded.part, (unitPart 2 0xde00).decoded.part] :=
  ⟨_, grin.received_eq, List.Perm.refl _⟩

theorem grin_assembled :
    (assemble [(unitPart 1 0xd83d).decoded.part, (unitPart 2 0xde00).decoded.part] 0
      fragmentGraceMs).1.map AssembledSms.body = ["��"] := by
  decide +kernel

theorem grin_misread : ∃ arrived, grin.Arrived arrived ∧ ¬grin.Reads arrived 0 fragmentGraceMs := by
  refine ⟨_, grin_arrived, ?_⟩
  rintro ⟨message, hassemble, hbody⟩
  have hbodies := grin_assembled
  rw [hassemble, map_singleton, hbody] at hbodies
  exact absurd hbodies (by decide +kernel)

end LongMessage

end VodogeEdge
