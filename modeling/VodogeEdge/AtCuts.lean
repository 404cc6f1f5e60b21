import VodogeEdge.AtBoundaries
import VodogeEdge.Logged

/-!
# Cuts that show

The other way of the result on read boundaries: an answer that is not
unbroken is returned differently for two ways of cutting it.

One cuts at every character and ends at the first code. The other cuts
inside a character of more than one byte, or reads across the code. Then
the open line can be no code any more, however it goes on: the port is
`Stuck` with it, and whatever it returns has one line more. Where the line
ends before the code, only the replacements in it tell the two apart; and
where the code has a number, the longer read has more of it.
-/

namespace VodogeEdge

open List

/-! ## A line that is no code any more -/

/-- No ended line is a code, and the open one is no code and not blank
however it goes on. -/
structure Stuck (text : Chars) : Prop where
  done : ∀ line ∈ (linesOf isNewline text).done, isResultCode (trimBy isWhitespace line) = false
  current : ∀ more, isResultCode
    (trimBy isWhitespace ((linesOf isNewline text).current ++ more)) = false
  nonblank : ∀ more, trimBy isWhitespace ((linesOf isNewline text).current ++ more) ≠ []

theorem keepLines_unechoed (terminator : Chars) : ∀ {lines : List Chars},
    (∀ line ∈ lines, line ≠ []) → keepLines [] terminator false lines
      = lines.filter (· ≠ terminator)
  | [], _ => rfl
  | line :: rest, h => by
    have hecho : isEcho line [] = false := by simpa [isEcho] using h line mem_cons_self
    rw [keepLines, hecho, keepLines_unechoed terminator fun other hother =>
      h other (mem_cons_of_mem _ hother)]
    by_cases hline : line = terminator <;> simp [hline]

variable {head : Chars} {lines : List Chars} {line : Chars}
  {terminator code start : Chars} {c : Char} {tail : Bytes} {gap : Chars}

theorem ne_nil_of_mem_lineTexts (h : line ∈ lineTexts lines) : line ≠ [] := by
  simpa using (mem_filter.mp h).2

theorem not_code_of_mem_lineTexts
    (hlines : ∀ line ∈ lines, isResultCode (trimBy isWhitespace line) = false)
    (h : line ∈ lineTexts lines) : isResultCode line = false := by
  obtain ⟨raw, hraw, rfl⟩ := mem_map.mp (mem_filter.mp h).1
  exact hlines raw hraw

theorem ne_of_code (hline : isResultCode line = false)
    (hcode : isResultCode terminator) : line ≠ terminator := by
  rintro rfl
  exact Bool.false_ne_true (hline.symm.trans hcode)

theorem filter_terminator (hlines : ∀ line ∈ lines, isResultCode line = false)
    (hcode : isResultCode terminator) : lines.filter (· ≠ terminator) = lines := by
  rw [filter_eq_self]
  intro line hline
  simpa using ne_of_code (hlines line hline) hcode

namespace Stuck

variable {text : Chars}

theorem heard_append (h : Stuck text) (more : Chars) :
    ∃ line after, isResultCode line = false ∧ heard (text ++ more)
      = lineTexts (linesOf isNewline text).done ++ line :: after := by
  obtain ⟨grown, after, hall⟩ := exists_all_append isNewline more text
  refine ⟨_, lineTexts after, h.current grown, ?_⟩
  rw [heard, hall, lineTexts_append, lineTexts_cons, if_neg (h.nonblank grown)]

theorem terminalCode_eq_none (h : Stuck text) : terminalCode text = none := by
  rw [terminalCode_eq, List.find?_eq_none]
  intro line hline
  have hcurrent := h.current []
  have hnonblank := h.nonblank []
  rw [append_nil] at hcurrent hnonblank
  rw [mem_reverse, heard, Lines.all, lineTexts_append, lineTexts_cons, if_neg hnonblank,
    mem_append] at hline
  rw [Bool.not_eq_true]
  rcases hline with hline | hline
  · exact not_code_of_mem_lineTexts h.done hline
  · rwa [mem_singleton.mp hline]

theorem length_lines_lt (h : Stuck text) : ∀ {reads : List Bytes} {buffer : Chars}
    {exchange : AtExchange}, text <+: buffer → listen [] buffer reads = .ok exchange →
      (lineTexts (linesOf isNewline text).done).length < exchange.lines.length
  | [], _, _, _, hok => by cases hok
  | chunk :: reads, buffer, exchange, hbuffer, hok => by
    rw [listen] at hok
    split at hok
    · exact length_lines_lt h hbuffer hok
    have hnext : text <+: buffer ++ decodeLossy chunk := hbuffer.trans (prefix_append _ _)
    dsimp only at hok
    split at hok
    next terminator hterminal =>
      have hcode : isResultCode terminator := by
        rw [terminalCode_eq] at hterminal
        exact List.find?_some hterminal
      obtain ⟨more, hmore⟩ := hnext
      obtain ⟨line, after, hline, hheard⟩ := h.heard_append more
      have hkept : exchange.lines = (heard (text ++ more)).filter (· ≠ terminator) := by
        rw [← Except.ok.inj hok, ← hmore, responseLines_eq]
        exact keepLines_unechoed terminator fun _ => ne_nil_of_mem_lineTexts
      rw [hkept, hheard, filter_append,
        filter_terminator (fun _ => not_code_of_mem_lineTexts h.done) hcode]
      simp [ne_of_code hline hcode]
    · exact length_lines_lt h hnext hok

theorem listen_ne (h : Stuck text)
    (hdone : (linesOf isNewline head).done = (linesOf isNewline text).done)
    (reads : List Bytes) : listen [] text reads ≠ .ok (exchangeAt [] head) := by
  intro hok
  have hmore := h.length_lines_lt (prefix_refl _) hok
  rw [exchangeAt, keepLines_unechoed _ fun _ => ne_nil_of_mem_lineTexts, hdone] at hmore
  exact absurd (length_filter_le _ _) (not_le.mpr hmore)

end Stuck

/-! ## Result codes -/

theorem isResultCode_iff :
    isResultCode line ↔ line ∈ wordCodes ∨ ∃ code ∈ headCodes, code <+: line := by
  simp [isResultCode]

theorem headCodes_last (h : code ∈ headCodes) : ∃ start, code = start ++ [':'] := by
  have hlast : ∀ code ∈ headCodes, code.getLast? = some ':' := by decide
  exact getLast?_eq_some_iff.mp (hlast code h)

/-- A replacement in a line makes it no code that it was not before. -/
theorem not_code_of_replacement (h : isResultCode (trimBy isWhitespace line) = false)
    (more : Chars) :
    isResultCode (trimBy isWhitespace (line ++ replacement :: more)) = false := by
  have hplain : ∀ code ∈ wordCodes ++ headCodes, replacement ∉ code := by decide
  rw [trimBy_append_of_last line rfl]
  rw [← Bool.not_eq_true, isResultCode_iff] at h ⊢
  rintro (hword | ⟨code, hcode, hstarts⟩)
  · refine hplain _ (mem_append_left _ hword) ?_
    exact mem_append_right _ mem_cons_self
  · -- the code stands before the replacement, and no white space is behind it
    have hmissing := hplain code (mem_append_right _ hcode)
    have hbefore : code <+: line.dropWhile isWhitespace := by
      have hthrough : line.dropWhile isWhitespace ++ [replacement]
          <+: line.dropWhile isWhitespace ++ replacement :: more.rdropWhile isWhitespace :=
        ⟨_, append_assoc _ _ _⟩
      rcases prefix_or_prefix_of_prefix hstarts hthrough with hle | hle
      · rcases prefix_concat_iff.mp hle with rfl | hbefore
        · exact absurd (mem_append_right _ (mem_singleton_self _)) hmissing
        · exact hbefore
      · exact absurd (hle.subset (mem_append_right _ (mem_singleton_self _))) hmissing
    obtain ⟨start, rfl⟩ := headCodes_last hcode
    obtain ⟨rest, hrest⟩ := hbefore
    refine h (.inr ⟨_, hcode, rest.rdropWhile isWhitespace, ?_⟩)
    have hkept : (start ++ ':' :: rest).rdropWhile isWhitespace
        = start ++ ':' :: rest.rdropWhile isWhitespace := rdropWhile_append_of_last start rfl rest
    rw [trimBy, ← hrest, append_assoc, singleton_append, append_assoc, singleton_append, hkept]

theorem not_code_of_word (h : code ∈ wordCodes) {more : Chars}
    (hmore : more ≠ []) : isResultCode (code ++ more) = false := by
  have hwords : ∀ code ∈ wordCodes, ∀ other ∈ wordCodes, code <+: other → code = other := by decide
  have hheads : ∀ code ∈ wordCodes, ∀ other ∈ headCodes,
      ¬ code <+: other ∧ ¬ other <+: code := by decide
  rw [← Bool.not_eq_true, isResultCode_iff]
  rintro (hword | ⟨other, hother, hstarts⟩)
  · have hsame := hwords code h _ hword (prefix_append _ _)
    exact hmore (self_eq_append_right.mp hsame)
  · rcases prefix_or_prefix_of_prefix (prefix_append code more) hstarts with hle | hle
    · exact (hheads code h other hother).1 hle
    · exact (hheads code h other hother).2 hle

/-! ## A cut inside a character -/

theorem exists_snoc {α : Type} {l : List α} (h : l ≠ []) : ∃ init last, l = init ++ [last] :=
  ⟨_, _, (dropLast_append_getLast h).symm⟩

theorem FirstCode.ne_nil (h : FirstCode head) : head ≠ [] := by
  rintro rfl
  exact absurd h.code (by decide)

theorem FirstCode.done_not_code {beginning : Chars} (h : FirstCode head)
    (hbegins : beginning <+: head) :
    ∀ line ∈ (linesOf isNewline beginning).done,
      isResultCode (trimBy isWhitespace line) = false := by
  intro line hline
  obtain ⟨before, a, hbefore, -, rfl⟩ := exists_of_mem_done hline
  have hshort := hbefore.trans hbegins
  apply h.before before ((prefix_append _ _).trans hshort)
  rintro rfl
  exact absurd hshort.length_le (by simp)

/-- A replacement before the first code: the open line is none any more. -/
theorem FirstCode.stuck_replaced (h : FirstCode head)
    (hstarts : start <+: head) (hne : start ≠ head) : Stuck (start ++ [replacement]) := by
  have hlines : linesOf isNewline (start ++ [replacement])
      = ⟨(linesOf isNewline start).done, (linesOf isNewline start).current ++ [replacement]⟩ :=
    linesOf_append_open start (isNewline_of_not_mem (by decide))
  refine ⟨?_, ?_, ?_⟩
  · rw [hlines]
    exact h.done_not_code hstarts
  · intro more
    rw [hlines, append_assoc]
    exact not_code_of_replacement (h.before start hstarts hne) more
  · intro more
    rw [hlines, append_assoc, singleton_append, trimBy_append_of_last _ rfl]
    simp

variable {rest : Chars}

/-- With the character replaced in an earlier line the first code stays
where it is. -/
theorem FirstCode.replaced (h : FirstCode (start ++ c :: rest)) (hline : '\n' ∈ rest) (k : Nat) :
    FirstCode (start ++ replicate (k + 1) replacement ++ rest) := by
  have hcurrent : ∀ {shorter : Chars}, '\n' ∈ shorter →
      endsInCode (start ++ replicate (k + 1) replacement ++ shorter)
        = endsInCode (start ++ c :: shorter) := by
    intro shorter hmem
    rw [endsInCode, endsInCode, append_cons, current_append ⟨'\n', hmem, rfl⟩]
  have hstart : start ≠ start ++ c :: rest := by simp
  have hopen : ∀ {more : Chars}, '\n' ∉ more →
      ∀ j, endsInCode (start ++ replicate (j + 1) replacement ++ more) = false := by
    intro more hmore j
    have hnone : '\n' ∉ replicate (j + 1) replacement ++ more := by
      rw [mem_append, not_or]
      exact ⟨fun hmem => absurd (eq_of_mem_replicate hmem) (by decide), hmore⟩
    rw [endsInCode, append_assoc, linesOf_append_open start (isNewline_of_not_mem hnone),
      replicate_succ]
    exact not_code_of_replacement (h.before start (prefix_append _ _) hstart) _
  refine ⟨(hcurrent hline).trans h.code, ?_⟩
  intro beginning hbegins hne
  rcases prefix_append_cases hbegins with hbegins | ⟨more, hmore, rfl⟩
  · rcases prefix_append_cases hbegins with hbegins | ⟨more, hmore, rfl⟩
    · apply h.before beginning (hbegins.trans (prefix_append _ _))
      rintro rfl
      exact absurd hbegins.length_le (by simp)
    · obtain ⟨-, hmore⟩ := prefix_replicate_iff.mp hmore
      rw [hmore]
      cases more.length with
      | zero =>
        rw [replicate_zero, append_nil]
        exact h.before start (prefix_append _ _) hstart
      | succ j =>
        rw [← append_nil (start ++ _)]
        exact hopen not_mem_nil j
  · by_cases hmem : '\n' ∈ more
    · rw [hcurrent hmem]
      apply h.before
      · exact (prefix_append_right_inj start).mpr (cons_prefix_cons.mpr ⟨rfl, hmore⟩)
      · intro heq
        exact hne (by rw [(List.cons.inj (append_cancel_left heq)).2])
    · exact hopen hmem k

/-! ### Counting replacements -/

theorem count_replacement_lineTexts : ∀ lines,
    (lineTexts lines).flatten.count replacement = lines.flatten.count replacement
  | [] => rfl
  | line :: rest => by
    have hline : (trimBy isWhitespace line).count replacement = line.count replacement :=
      count_trimBy rfl line
    rw [lineTexts_cons, flatten_cons, count_append, ← hline, ← count_replacement_lineTexts rest]
    split
    next hempty =>
      rw [hempty]
      simp
    · rw [flatten_cons, count_append]

theorem count_replacement_done (text : Chars) :
    text.count replacement = (lineTexts (linesOf isNewline text).done).flatten.count replacement
      + (linesOf isNewline text).current.count replacement := by
  have hall := congrArg (List.count replacement) (flatten_all isNewline text)
  rw [count_filter rfl, Lines.all, flatten_append] at hall
  rw [count_replacement_lineTexts, ← hall]
  simp

theorem FirstCode.exchangeAt_lines (h : FirstCode head) :
    (exchangeAt [] head).lines = lineTexts (linesOf isNewline head).done := by
  rw [exchangeAt, keepLines_unechoed _ fun _ => ne_nil_of_mem_lineTexts]
  exact filter_terminator (fun _ => not_code_of_mem_lineTexts
    (h.done_not_code (prefix_refl _))) h.code

theorem FirstCode.exchangeAt_replaced_ne (h : FirstCode (start ++ c :: rest))
    (hline : '\n' ∈ rest) (k : Nat) :
    exchangeAt [] (start ++ replicate (k + 2) replacement ++ rest)
      ≠ exchangeAt [] (start ++ c :: rest) := by
  intro heq
  have hlines := congrArg AtExchange.lines heq
  rw [(h.replaced hline (k + 1)).exchangeAt_lines, h.exchangeAt_lines] at hlines
  have hcurrent : (linesOf isNewline (start ++ replicate (k + 2) replacement ++ rest)).current
      = (linesOf isNewline (start ++ c :: rest)).current := by
    rw [append_cons]
    exact current_append ⟨'\n', hline, rfl⟩ _ _
  have hcount : (start ++ replicate (k + 2) replacement ++ rest).count replacement
      = (start ++ c :: rest).count replacement := by
    rw [count_replacement_done, count_replacement_done (start ++ c :: rest), hlines, hcurrent]
  have hone : [c].count replacement ≤ 1 := count_le_length
  rw [append_cons] at hcount
  simp only [count_append, count_replicate_self] at hcount
  omega

theorem utf8_append_cons (start rest : Chars) (c : Char) :
    utf8 (start ++ c :: rest) = utf8 start ++ (String.utf8EncodeChar c ++ utf8 rest) := by
  rw [utf8_append]
  rfl

theorem charReads_ne_nil (text : Chars) : ∀ chunk ∈ charReads text, chunk ≠ [] :=
  fun chunk hchunk => ((splits_charReads text).2 chunk hchunk).1

theorem FirstCode.listen_charReads (h : FirstCode (start ++ c :: rest))
    (more : List Bytes) : listen [] [] (charReads start ++ more) = listen [] start more := by
  have hread := h.listen_before [] more (charReads start) [] (charReads_ne_nil start)
  rw [decode_charReads] at hread
  exact hread (prefix_append _ _) (by simp)

theorem length_tail_le {b : UInt8}
    (h : String.utf8EncodeChar c = b :: tail) : tail.length ≤ readChunk := by
  have hlength := String.length_utf8EncodeChar c
  have hfour := c.utf8Size_le_four
  rw [h, length_cons] at hlength
  rw [readChunk]
  omega

theorem FirstCode.exists_cut (h : FirstCode head) (hmem : c ∈ head)
    (hc : c.utf8Size ≠ 1) (after : Chars) :
    ∃ reads, Splits (utf8 (head ++ after)) reads
      ∧ listen [] [] reads ≠ .ok (exchangeAt [] head) := by
  obtain ⟨start, rest, rfl⟩ := append_of_mem hmem
  obtain ⟨b, tail, hbytes, htail, hfirst, hothers⟩ := VodogeEdge.exists_cut hc
  refine ⟨charReads start ++ [b] :: tail :: charReads (rest ++ after), ?_, ?_⟩
  · rw [append_assoc, cons_append, utf8_append_cons, hbytes]
    have hone : [b].length ≤ readChunk := by
      rw [length_singleton, readChunk]
      omega
    exact (splits_charReads start).append
      (.cons (cons_ne_nil _ _) hone (.cons htail (length_tail_le hbytes) (splits_charReads _)))
  by_cases hline : '\n' ∈ rest
  · -- the code comes in a later line, behind the two parts
    obtain ⟨j, hj⟩ := Nat.exists_eq_succ_of_ne_zero (mt eq_nil_of_length_eq_zero htail)
    rw [hj] at hothers
    obtain ⟨init, last, rfl⟩ := exists_snoc (ne_nil_of_mem hline)
    have hreads : charReads start ++ [b] :: tail :: charReads (init ++ [last] ++ after)
        = (charReads start ++ [b] :: tail :: charReads init)
          ++ String.utf8EncodeChar last :: charReads after := by
      simp [charReads]
    have hexact := (h.replaced hline (j + 1)).listen_exact []
      (charReads start ++ [b] :: tail :: charReads init) (String.utf8EncodeChar last) ?_ ?_
      (charReads after)
    · rw [hreads, hexact]
      intro heq
      exact h.exchangeAt_replaced_ne hline j (Except.ok.inj heq)
    · intro r hr
      simp only [mem_append, mem_cons, not_mem_nil, or_false] at hr
      rcases hr with (hr | rfl | rfl | hr) | rfl
      · exact charReads_ne_nil start r hr
      · exact cons_ne_nil _ _
      · exact htail
      · exact charReads_ne_nil init r hr
      · exact String.utf8EncodeChar_ne_nil
    · have hlast := decodeLossy_utf8 [last]
      rw [utf8, flatMap_singleton] at hlast
      simp only [map_append, map_cons, flatten_append,
        flatten_cons, decode_charReads, hfirst, hothers, hlast]
      simp [replicate_succ]
  · -- the code would be in the line that is broken now
    have hopen : '\n' ∉ c :: rest := by
      rw [mem_cons, not_or]
      exact ⟨by rintro rfl; exact hc rfl, hline⟩
    have hstuck := h.stuck_replaced (prefix_append start (c :: rest)) (by simp)
    rw [h.listen_charReads, listen_of_none (cons_ne_nil _ _)
      (by rw [hfirst]; exact hstuck.terminalCode_eq_none), hfirst]
    apply hstuck.listen_ne
    rw [linesOf_append_open start (isNewline_of_not_mem hopen),
      linesOf_append_open start (isNewline_of_not_mem (by decide))]

/-! ## A read across the code -/

/-- What the first byte of a character decodes to is white space only if the
character is, in one byte. -/
theorem exists_first_byte (hc : ¬ (c.utf8Size = 1 ∧ isWhitespace c)) :
    ∃ b tail d, String.utf8EncodeChar c = b :: tail ∧ decodeLossy [b] = [d]
      ∧ isWhitespace d = false := by
  by_cases hsize : c.utf8Size = 1
  · obtain ⟨b, hbytes⟩ := length_eq_one_iff.mp ((String.length_utf8EncodeChar c).trans hsize)
    have hdecode := decodeLossy_utf8 [c]
    rw [utf8, flatMap_singleton, hbytes] at hdecode
    refine ⟨b, [], c, hbytes, hdecode, ?_⟩
    rw [← Bool.not_eq_true]
    exact fun hblank => hc ⟨hsize, hblank⟩
  · obtain ⟨b, tail, hbytes, -, hfirst, -⟩ := VodogeEdge.exists_cut hsize
    exact ⟨b, tail, replacement, hbytes, hfirst, rfl⟩

theorem exists_splits_append (h : tail.length ≤ readChunk)
    (rest : Chars) : ∃ reads, Splits (tail ++ utf8 rest) reads := by
  by_cases htail : tail = []
  · exact ⟨charReads rest, by rw [htail]; exact splits_charReads rest⟩
  · exact ⟨tail :: charReads rest, .cons htail h (splits_charReads rest)⟩

/-- Something behind white space behind a code belongs to its line. -/
theorem exists_trimBy_passed (hcode : isResultCode (trimBy isWhitespace line)) {d : Char}
    (hd : isWhitespace d = false) (gap : Chars) :
    ∃ between, ∀ more, trimBy isWhitespace (line ++ (gap ++ [d]) ++ more)
      = trimBy isWhitespace line ++ (between ++ d :: more.rdropWhile isWhitespace) := by
  have hne : line.dropWhile isWhitespace ≠ [] := by
    intro hempty
    apply ne_nil_of_isResultCode hcode
    rw [trimBy, hempty]
    rfl
  obtain ⟨blank, hblank⟩ := rdropWhile_prefix isWhitespace (l := line.dropWhile isWhitespace)
  refine ⟨blank ++ gap, fun more => ?_⟩
  have hsplit : line ++ (gap ++ [d]) ++ more = (line ++ gap) ++ d :: more := by simp
  have hdrop : (line ++ gap).dropWhile isWhitespace
      = trimBy isWhitespace line ++ (blank ++ gap) := by
    rw [dropWhile_append, if_neg (by simpa using hne), ← append_assoc, trimBy, hblank]
  rw [hsplit, trimBy_append_of_last _ hd, hdrop, append_assoc]

theorem FirstCode.exists_pass (h : FirstCode head) (hsingle : ∀ c ∈ head ++ gap, c.utf8Size = 1)
    (hline : '\n' ∉ gap) (hc : ¬ (c.utf8Size = 1 ∧ isWhitespace c))
    (hroom : gap.length + 2 ≤ readChunk) (rest : Chars) :
    ∃ reads, Splits (utf8 (head ++ gap ++ c :: rest)) reads
      ∧ listen [] [] reads ≠ .ok (exchangeAt [] head) := by
  obtain ⟨b, tail, d, hbytes, hdecode, hd⟩ := exists_first_byte hc
  obtain ⟨others, hothers⟩ := exists_splits_append (length_tail_le hbytes) rest
  obtain ⟨init, last, rfl⟩ := exists_snoc h.ne_nil
  have hpart : ∀ c ∈ last :: gap, c.utf8Size = 1 := by
    intro c hc
    apply hsingle
    rw [append_assoc]
    exact mem_append_right _ hc
  have hchunk : utf8 (last :: gap) ++ [b] ≠ [] :=
    append_ne_nil_of_right_ne_nil _ (cons_ne_nil _ _)
  have hbuffer : init ++ decodeLossy (utf8 (last :: gap) ++ [b])
      = init ++ [last] ++ (gap ++ [d]) := by
    rw [decodeLossy_utf8_append, hdecode]
    simp
  have hopen : '\n' ∉ gap ++ [d] := by
    rw [mem_append, mem_singleton, not_or]
    exact ⟨hline, by rintro rfl; cases hd⟩
  have hlines := linesOf_append_open (init ++ [last]) (isNewline_of_not_mem hopen)
  obtain ⟨between, hpassed⟩ := exists_trimBy_passed h.code hd gap
  refine ⟨charReads init ++ (utf8 (last :: gap) ++ [b]) :: others, ?_, ?_⟩
  · have hall : utf8 (init ++ [last] ++ gap ++ c :: rest)
        = utf8 init ++ ((utf8 (last :: gap) ++ [b]) ++ (tail ++ utf8 rest)) := by
      rw [utf8_append_cons, hbytes, append_assoc, utf8_append]
      simp
    rw [hall]
    refine (splits_charReads init).append (.cons hchunk ?_ hothers)
    rw [length_append, length_utf8 hpart]
    omega
  rw [h.listen_charReads]
  rcases isResultCode_iff.mp h.code with hword | ⟨code, hcode, hstarts⟩
  · -- the line is longer than the code now, and stays
    have hstuck : Stuck (init ++ [last] ++ (gap ++ [d])) := by
      refine ⟨?_, ?_, ?_⟩
      · rw [hlines]
        exact h.done_not_code (prefix_refl _)
      · intro more
        rw [hlines, hpassed]
        exact not_code_of_word hword (by simp)
      · intro more
        rw [hlines, hpassed]
        simp
    rw [listen_of_none hchunk (by rw [hbuffer]; exact hstuck.terminalCode_eq_none), hbuffer]
    apply hstuck.listen_ne
    rw [hlines]
  · -- more of the number has been read
    have hlonger := hpassed []
    rw [append_nil] at hlonger
    have hends : endsInCode (init ++ [last] ++ (gap ++ [d])) := by
      rw [endsInCode, hlines, hlonger, isResultCode_iff]
      exact .inr ⟨code, hcode, hstarts.trans (prefix_append _ _)⟩
    rw [listen_at_code hchunk (hbuffer.trans (append_nil _).symm) hends fun c hc =>
      absurd hc not_mem_nil]
    intro heq
    have hsame := congrArg AtExchange.terminator (Except.ok.inj heq)
    rw [exchangeAt, hlines, hlonger] at hsame
    exact absurd (append_right_eq_self.mp hsame) (by simp)

/-! ## Answers -/

theorem exists_firstCode {text : Chars}
    (h : ∃ beginning, beginning <+: text ∧ endsInCode beginning) :
    ∃ head, head <+: text ∧ FirstCode head := by
  induction text using reverseRecOn with
  | nil =>
    obtain ⟨_, hnil, hcode⟩ := h
    rw [prefix_nil.mp hnil] at hcode
    exact absurd hcode (by decide)
  | append_singleton text c ih =>
    by_cases hearlier : ∃ beginning, beginning <+: text ∧ endsInCode beginning
    · obtain ⟨head, hhead, hfirst⟩ := ih hearlier
      exact ⟨head, hhead.trans (prefix_append _ _), hfirst⟩
    · have hbefore : ∀ shorter, shorter <+: text → endsInCode shorter = false := fun shorter hle =>
        Bool.not_eq_true _ ▸ fun hcode => hearlier ⟨shorter, hle, hcode⟩
      obtain ⟨beginning, hbegins, hcode⟩ := h
      obtain rfl | hbegins := prefix_concat_iff.mp hbegins
      · exact ⟨_, prefix_rfl, hcode, fun shorter hshorter hne =>
          hbefore shorter ((prefix_concat_iff.mp hshorter).resolve_left hne)⟩
      · exact absurd ⟨beginning, hbegins, hcode⟩ hearlier

theorem linesOf_sent (h : ∀ line ∈ lines, '\n' ∉ line) :
    linesOf isNewline (lines.flatMap (· ++ ['\r', '\n'])) = ⟨lines.map (· ++ ['\r']), []⟩ := by
  induction lines using reverseRecOn with
  | nil => rfl
  | append_singleton lines line ih =>
    have hline : '\n' ∉ line ++ ['\r'] := by
      rw [mem_append, not_or]
      exact ⟨h line (mem_append_right _ (mem_singleton_self _)), by decide⟩
    have hsent : (lines ++ [line]).flatMap (· ++ ['\r', '\n'])
        = lines.flatMap (· ++ ['\r', '\n']) ++ (line ++ ['\r']) ++ ['\n'] := by
      simp
    rw [hsent, linesOf_snoc_end rfl, linesOf_append_open _ (isNewline_of_not_mem hline),
      ih fun other hother => h other (mem_append_left _ hother)]
    simp [Lines.all]

namespace ModuleAnswer

variable (answer : ModuleAnswer)

theorem linesOf_text :
    linesOf isNewline answer.text = ⟨(answer.lines ++ [answer.final]).map (· ++ ['\r']), []⟩ :=
  linesOf_sent answer.oneLine

/-- The answer comes to a code, in its last line at the latest. -/
theorem exists_code : ∃ beginning, beginning <+: answer.text ∧ endsInCode beginning := by
  refine ⟨answer.lines.flatMap (· ++ ['\r', '\n']) ++ answer.final, ?_, ?_⟩
  · exact ⟨['\r', '\n'], by simp [text]⟩
  · have hopen := answer.oneLine _ (mem_append_right _ (mem_singleton_self _))
    rw [endsInCode, linesOf_append_open _ (isNewline_of_not_mem hopen),
      linesOf_sent fun line hline => answer.oneLine line (mem_append_left _ hline)]
    exact answer.code

/-- The white space behind a code goes on past the end of its line only in
the last line, and then to the end of the answer. -/
theorem not_mem_gap (htext : answer.text = head ++ gap ++ rest) (hcode : endsInCode head)
    (hblank : ∀ c ∈ gap, isWhitespace c) (hrest : rest ≠ []) : '\n' ∉ gap := by
  intro hmem
  obtain ⟨first, second, rfl, hfirst⟩ := eq_append_cons_of_mem hmem
  have hcurrent : isResultCode
      (trimBy isWhitespace ((linesOf isNewline head).current ++ first)) := by
    rwa [trimBy_append_right _ fun c hc => hblank c (mem_append_left _ hc)]
  have hended : linesOf isNewline (head ++ first ++ ['\n'])
      = ⟨(linesOf isNewline head).done ++ [(linesOf isNewline head).current ++ first], []⟩ := by
    rw [linesOf_snoc_end rfl, linesOf_append_open head (isNewline_of_not_mem hfirst)]
    rfl
  have hsplit : answer.text = head ++ first ++ ['\n'] ++ (second ++ rest) := by
    rw [htext]
    simp
  -- the line with the code is an ended line of the answer, so it is the last
  obtain ⟨grown, after, hall⟩ :=
    exists_all_append isNewline (second ++ rest) (head ++ first ++ ['\n'])
  rw [← hsplit, hended, answer.linesOf_text, map_append] at hall
  have hbegins : (linesOf isNewline head).done ++ [(linesOf isNewline head).current ++ first]
      <+: answer.lines.map (· ++ ['\r']) ++ [answer.final ++ ['\r']] ++ [[]] :=
    ⟨_, hall.symm⟩
  have hlast : (linesOf isNewline head).done ++ [(linesOf isNewline head).current ++ first]
      = (linesOf isNewline answer.text).done := by
    rw [answer.linesOf_text, map_append]
    rcases prefix_concat_iff.mp hbegins with heq | hbegins
    · have hempty := (append_inj' heq rfl).2
      rw [singleton_inj.mp hempty] at hcurrent
      exact absurd hcurrent (by decide)
    rcases prefix_concat_iff.mp hbegins with heq | hbegins
    · exact heq
    · obtain ⟨line, hline, heq⟩ := mem_map.mp
        (hbegins.subset (mem_append_right _ (mem_singleton_self _)))
      rw [← heq, trimBy_append_right line isWhitespace_cr, answer.noCode line hline] at hcurrent
      cases hcurrent
  -- so no line ends behind it, but the answer ends in a line feed
  have hcount := congrArg List.length hlast
  rw [length_done, hsplit, countP_append, ← length_done, hended] at hcount
  have hnone : (second ++ rest).countP isNewline = 0 := by
    dsimp only at hcount
    omega
  have hend : '\n' ∈ rest := by
    have hgetLast : answer.text.getLast? = some '\n' := by simp [text]
    rw [htext, getLast?_append_of_ne_nil _ hrest] at hgetLast
    exact mem_of_getLast? hgetLast
  rw [countP_eq_zero] at hnone
  exact hnone '\n' (mem_append_right _ hend) rfl

end ModuleAnswer

def isBlankByte (c : Char) : Bool := decide (c.utf8Size = 1) && isWhitespace c

theorem FirstCode.listen_text (h : FirstCode head) (after : Chars) :
    listen [] [] (charReads (head ++ after)) = .ok (exchangeAt [] head) := by
  obtain ⟨init, last, rfl⟩ := exists_snoc h.ne_nil
  have hreads : charReads (init ++ [last] ++ after)
      = charReads init ++ String.utf8EncodeChar last :: charReads after := by
    simp [charReads]
  have hwhole : charReads init ++ [String.utf8EncodeChar last] = charReads (init ++ [last]) := by
    simp [charReads]
  rw [hreads]
  apply h.listen_exact
  · rw [hwhole]
    exact charReads_ne_nil _
  · rw [hwhole]
    exact decode_charReads _

/-- What the port returns for an answer does not depend on how the reads
cut it, whatever the command, exactly when the answer is unbroken. -/
theorem boundary_free_iff (answer : ModuleAnswer) :
    (∀ command reads reads', Splits (utf8 answer.text) reads → Splits (utf8 answer.text) reads' →
      AtPort.command command reads = AtPort.command command reads') ↔ Unbroken answer.text := by
  constructor
  · intro hsame
    obtain ⟨head, ⟨after, htext⟩, hfirst⟩ := exists_firstCode answer.exists_code
    have hcanonical : ∀ reads, Splits (utf8 (head ++ after)) reads →
        listen [] [] reads = .ok (exchangeAt [] head) := by
      intro reads hreads
      rw [htext] at hreads
      have hchars := splits_charReads answer.text
      rw [← hfirst.listen_text, htext]
      exact hsame "" reads _ hreads hchars
    have hsingle : ∀ c ∈ head, c.utf8Size = 1 := by
      intro c hc
      by_contra hsize
      obtain ⟨reads, hreads, hne⟩ := hfirst.exists_cut hc hsize after
      exact hne (hcanonical reads hreads)
    have hgap : ∀ c ∈ after.takeWhile isBlankByte, c.utf8Size = 1 ∧ isWhitespace c := by
      intro c hc
      simpa [isBlankByte] using mem_takeWhile_imp hc
    have hboth : ∀ c ∈ head ++ after.takeWhile isBlankByte, c.utf8Size = 1 := by
      intro c hc
      rcases mem_append.mp hc with hc | hc
      · exact hsingle c hc
      · exact (hgap c hc).1
    have hsplit : answer.text
        = head ++ after.takeWhile isBlankByte ++ after.dropWhile isBlankByte := by
      rw [append_assoc, takeWhile_append_dropWhile, htext]
    refine ⟨head, _, _, hsplit, hfirst, hboth, fun c hc => (hgap c hc).2, ?_⟩
    by_contra hshort
    rw [not_or, not_le] at hshort
    obtain ⟨c, rest, hrest⟩ := exists_cons_of_ne_nil hshort.1
    have hc : ¬ (c.utf8Size = 1 ∧ isWhitespace c) := by
      have hstop := List.head?_dropWhile_not isBlankByte after
      rw [hrest] at hstop
      simpa [isBlankByte] using hstop
    have hline := answer.not_mem_gap hsplit hfirst.code (fun c hc => (hgap c hc).2) hshort.1
    obtain ⟨reads, hreads, hne⟩ := hfirst.exists_pass hboth hline hc hshort.2 rest
    rw [← hrest, append_assoc, takeWhile_append_dropWhile] at hreads
    exact hne (hcanonical reads hreads)
  · rintro ⟨head, gap, rest, htext, hfirst, hsingle, hblank, hroom⟩ command reads reads' h h'
    rw [htext] at h h'
    rw [AtPort.command, AtPort.command,
      listen_unbroken hfirst hsingle hblank hroom _ reads [] head rfl hfirst.ne_nil h,
      listen_unbroken hfirst hsingle hblank hroom _ reads' [] head rfl hfirst.ne_nil h']

def numberedError : ModuleAnswer where
  lines := []
  final := "+CME ERROR: 100".toList
  oneLine := by decide
  noCode := by decide
  code := by decide

def accentedLine : ModuleAnswer where
  lines := ["é".toList]
  final := "OK".toList
  oneLine := by decide
  noCode := by decide
  code := by decide

/-- Cut behind the first digit the error is another one; cut inside the
character the line is two replacements. -/
theorem cut_changes_answer :
    Splits (utf8 numberedError.text) [utf8 "+CME ERROR: 100\r\n".toList]
      ∧ Splits (utf8 numberedError.text) [utf8 "+CME ERROR: 1".toList, utf8 "00\r\n".toList]
      ∧ AtPort.command "AT+CPIN?" [utf8 "+CME ERROR: 100\r\n".toList]
        = .ok ⟨"AT+CPIN?".toList, [], "+CME ERROR: 100".toList⟩
      ∧ AtPort.command "AT+CPIN?" [utf8 "+CME ERROR: 1".toList, utf8 "00\r\n".toList]
        = .ok ⟨"AT+CPIN?".toList, [], "+CME ERROR: 1".toList⟩
      ∧ Splits (utf8 accentedLine.text) [utf8 "é\r\nOK\r\n".toList]
      ∧ Splits (utf8 accentedLine.text) [[0xc3], 0xa9 :: utf8 "\r\nOK\r\n".toList]
      ∧ AtPort.command "AT+COPS?" [utf8 "é\r\nOK\r\n".toList]
        = .ok ⟨"AT+COPS?".toList, ["é".toList], "OK".toList⟩
      ∧ AtPort.command "AT+COPS?" [[0xc3], 0xa9 :: utf8 "\r\nOK\r\n".toList]
        = .ok ⟨"AT+COPS?".toList, [[replacement, replacement]], "OK".toList⟩ := by
  decide +kernel

end VodogeEdge
