import VodogeEdge.AtPort

/-!
# Where an AT answer is cut

The module sends lines, each ended by CRLF, and a last one that is a result
code. The port may get the bytes in any reads of at most `READ_CHUNK`. What
it returns does not depend on the cuts exactly when the answer is
`Unbroken`: the first point at which the line so far is a result code comes
before any character of more than one byte, and what follows it is white
space, to the end of the answer or for longer than one read can pass.

This module has the one way, an induction over the reads
(`listen_unbroken`).
-/

namespace VodogeEdge

open List

def readChunk : Nat := 512

def Splits (bytes : Bytes) (reads : List Bytes) : Prop :=
  reads.flatten = bytes ∧ ∀ chunk ∈ reads, chunk ≠ [] ∧ chunk.length ≤ readChunk

instance (bytes : Bytes) (reads : List Bytes) : Decidable (Splits bytes reads) :=
  inferInstanceAs (Decidable (_ ∧ _))

/-- What a module answers: lines that are no result codes, and one that is. -/
structure ModuleAnswer where
  lines : List Chars
  final : Chars
  oneLine : ∀ line ∈ lines ++ [final], '\n' ∉ line
  noCode : ∀ line ∈ lines, isResultCode (trimBy isWhitespace line) = false
  code : isResultCode (trimBy isWhitespace final)

namespace ModuleAnswer

def text (answer : ModuleAnswer) : Chars :=
  (answer.lines ++ [answer.final]).flatMap (· ++ ['\r', '\n'])

end ModuleAnswer

/-- The text ends in a result code and does so for the first time. -/
structure FirstCode (text : Chars) : Prop where
  code : endsInCode text
  before : ∀ beginning, beginning <+: text → beginning ≠ text → endsInCode beginning = false

variable (text : Chars)

/-- Up to the first result code and through the white space behind it all is
single bytes; and that goes on to the end, or past any read across the code. -/
def Unbroken : Prop :=
  ∃ head gap rest, text = head ++ gap ++ rest ∧ FirstCode head
    ∧ (∀ c ∈ head ++ gap, c.utf8Size = 1) ∧ (∀ c ∈ gap, isWhitespace c)
    ∧ (rest = [] ∨ readChunk ≤ gap.length + 1)

/-! ## Unbroken answers -/

namespace FirstCode

variable {head : Chars}

/-- Before the first code there is nothing to end the exchange. -/
theorem terminalCode_before (h : FirstCode head) {beginning : Chars}
    (hbegins : beginning <+: head) (hne : beginning ≠ head) : terminalCode beginning = none := by
  apply terminalCode_eq_none
  intro shorter hshorter
  apply h.before shorter (hshorter.trans hbegins)
  rintro rfl
  exact hne (hbegins.eq_of_length_le hshorter.length_le)

end FirstCode

/-- From anywhere before the first code of an unbroken answer, the reads
stop at the code. -/
theorem listen_unbroken {head gap rest : Chars} (hfirst : FirstCode head)
    (hsingle : ∀ c ∈ head ++ gap, c.utf8Size = 1) (hblank : ∀ c ∈ gap, isWhitespace c)
    (hroom : rest = [] ∨ readChunk ≤ gap.length + 1) (command : Chars) :
    ∀ reads got ahead, got ++ ahead = head → ahead ≠ [] →
      Splits (utf8 (ahead ++ gap ++ rest)) reads →
        listen command got reads = .ok (exchangeAt command head)
  | [], got, ahead, hhead, hahead, ⟨hflat, _⟩ => by
    have hempty : ahead = [] := by
      have hlength := congrArg List.length hflat
      rw [append_assoc, utf8_append, length_append, length_utf8] at hlength
      · exact eq_nil_of_length_eq_zero (by simp at hlength; omega)
      · intro c hc
        exact hsingle c (mem_append_left _ (hhead ▸ mem_append_right _ hc))
    exact absurd hempty hahead
  | chunk :: reads, got, ahead, hhead, hahead, ⟨hflat, hsizes⟩ => by
    obtain ⟨hchunk, hsize⟩ := hsizes chunk mem_cons_self
    have hothers : ∀ chunk ∈ reads, chunk ≠ [] ∧ chunk.length ≤ readChunk :=
      fun other hother => hsizes other (mem_cons_of_mem _ hother)
    have hbytes : ∀ c ∈ ahead ++ gap, c.utf8Size = 1 := by
      intro c hc
      apply hsingle
      rw [← hhead, append_assoc]
      exact mem_append_right _ hc
    rw [flatten_cons] at hflat
    by_cases hshort : chunk.length < ahead.length
    · -- the code is not reached
      rw [append_assoc, utf8_append] at hflat
      obtain ⟨hpart, hmore⟩ := utf8_split
        (fun c hc => hbytes c (mem_append_left _ hc)) hflat hshort.le
      have hdecode : decodeLossy chunk = ahead.take chunk.length := by
        conv_lhs => rw [hpart]
        exact decodeLossy_utf8 _
      have hsplit : got ++ ahead.take chunk.length ++ ahead.drop chunk.length = head := by
        rw [append_assoc, take_append_drop, hhead]
      have hleft : ahead.drop chunk.length ≠ [] := by
        rw [Ne, drop_eq_nil_iff]
        omega
      have hne : got ++ ahead.take chunk.length ≠ head := by
        rw [← hsplit]
        intro h
        exact hleft (self_eq_append_right.mp h)
      rw [listen_of_none hchunk, hdecode]
      · apply listen_unbroken hfirst hsingle hblank hroom command reads _ _ hsplit hleft
        exact ⟨by rw [hmore, append_assoc, ← utf8_append], hothers⟩
      · rw [hdecode]
        exact hfirst.terminalCode_before ⟨_, hsplit⟩ hne
    · -- the read ends at the code or in the white space behind it
      have hle : chunk.length ≤ (ahead ++ gap).length := by
        have hpos := length_pos_of_ne_nil hahead
        rw [length_append]
        rcases hroom with rfl | hroom
        · have hlength := congrArg List.length hflat
          rw [append_nil, length_utf8 hbytes, length_append, length_append]
            at hlength
          omega
        · omega
      rw [utf8_append] at hflat
      obtain ⟨hpart, -⟩ := utf8_split hbytes hflat hle
      have hbuffer : got ++ decodeLossy chunk = head ++ gap.take (chunk.length - ahead.length) := by
        conv_lhs => rw [hpart]
        rw [decodeLossy_utf8, take_append, take_of_length_le (by omega), ← append_assoc, hhead]
      exact listen_at_code hchunk hbuffer hfirst.code fun c hc => hblank c (mem_of_mem_take hc)

/-! ## Reading up to a point -/

def charReads : List Bytes := text.map String.utf8EncodeChar

theorem decode_charReads : ((charReads text).map decodeLossy).flatten = text := by
  induction text with
  | nil => rfl
  | cons c text ih =>
    have hc := decodeLossy_utf8 [c]
    rw [utf8, flatMap_singleton] at hc
    rw [charReads, map_cons, map_cons, hc]
    exact congrArg (c :: ·) ih

theorem splits_charReads : Splits (utf8 text) (charReads text) := by
  refine ⟨flatMap_def.symm, ?_⟩
  intro chunk hchunk
  obtain ⟨c, -, rfl⟩ := mem_map.mp hchunk
  refine ⟨String.utf8EncodeChar_ne_nil, ?_⟩
  rw [String.length_utf8EncodeChar, readChunk]
  have hsize := c.utf8Size_le_four
  omega

theorem Splits.append {bytes more : Bytes} {reads others : List Bytes}
    (h : Splits bytes reads) (hmore : Splits more others) :
    Splits (bytes ++ more) (reads ++ others) := by
  refine ⟨by rw [flatten_append, h.1, hmore.1], ?_⟩
  intro chunk hchunk
  rcases mem_append.mp hchunk with hchunk | hchunk
  · exact h.2 chunk hchunk
  · exact hmore.2 chunk hchunk

theorem Splits.cons {chunk more : Bytes} {reads : List Bytes} (hchunk : chunk ≠ [])
    (hsize : chunk.length ≤ readChunk) (h : Splits more reads) :
    Splits (chunk ++ more) (chunk :: reads) := by
  refine ⟨by rw [flatten_cons, h.1], ?_⟩
  intro other hother
  rcases mem_cons.mp hother with rfl | hother
  · exact ⟨hchunk, hsize⟩
  · exact h.2 other hother

namespace FirstCode

variable {head : Chars}

theorem listen_before (h : FirstCode head) (command : Chars) (more : List Bytes) :
    ∀ reads got, (∀ chunk ∈ reads, chunk ≠ []) →
      got ++ (reads.map decodeLossy).flatten <+: head →
      got ++ (reads.map decodeLossy).flatten ≠ head →
        listen command got (reads ++ more)
          = listen command (got ++ (reads.map decodeLossy).flatten) more
  | [], got, _, _, _ => by simp
  | chunk :: reads, got, hreads, hbegins, hne => by
    rw [map_cons, flatten_cons, ← append_assoc] at hbegins hne ⊢
    have hchunk := (prefix_append _ _).trans hbegins
    have hshort : got ++ decodeLossy chunk ≠ head := by
      rintro rfl
      exact hne (hbegins.eq_of_length_le (prefix_append _ _).length_le)
    rw [cons_append, listen_of_none (hreads chunk mem_cons_self)
      (h.terminalCode_before hchunk hshort)]
    exact listen_before h command more reads _
      (fun other hother => hreads other (mem_cons_of_mem _ hother)) hbegins hne

theorem listen_exact (h : FirstCode head) (command : Chars) (reads : List Bytes)
    (chunk : Bytes) (hreads : ∀ r ∈ reads ++ [chunk], r ≠ [])
    (hhead : ((reads ++ [chunk]).map decodeLossy).flatten = head) (more : List Bytes) :
    listen command [] (reads ++ chunk :: more) = .ok (exchangeAt command head) := by
  have hchunk : chunk ≠ [] := hreads chunk (mem_append_right _ (mem_singleton_self _))
  have hsplit : (reads.map decodeLossy).flatten ++ decodeLossy chunk = head := by simpa using hhead
  have hne : [] ++ (reads.map decodeLossy).flatten ≠ head := by
    rw [← hsplit]
    intro heq
    exact decodeLossy_ne_nil hchunk (self_eq_append_right.mp heq)
  rw [h.listen_before command _ reads [] (fun r hr => hreads r (mem_append_left _ hr))
    ⟨_, hsplit⟩ hne]
  have hbuffer : [] ++ (reads.map decodeLossy).flatten ++ decodeLossy chunk = head ++ [] := by
    rw [nil_append, hsplit, append_nil]
  exact listen_at_code hchunk hbuffer h.code nofun

end FirstCode

end VodogeEdge
