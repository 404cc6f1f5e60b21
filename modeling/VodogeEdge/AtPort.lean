import VodogeEdge.LineBreaks
import VodogeEdge.Text
import VodogeEdge.Utf8

/-!
# Reading an AT answer

`AtPort::command` reads until the buffer holds a result code. Every read is
decoded by itself and appended; after every read the whole buffer is looked
at again, the last line included when it has not ended yet.

Both functions that look at the buffer see its lines trimmed and without
the blank ones (`heard`).
-/

namespace VodogeEdge

open List

/-! ## The model -/

/-- The codes that are a whole line: the final ones, `CALL_PROGRESS_CODES`
and the prompt. -/
def wordCodes : List Chars :=
  ["OK".toList, "ERROR".toList, "ABORTED".toList, "NO CARRIER".toList, "BUSY".toList,
   "NO ANSWER".toList, "NO DIALTONE".toList, ">".toList]

def headCodes : List Chars := ["+CME ERROR:".toList, "+CMS ERROR:".toList]

def isResultCode (line : Chars) : Bool :=
  decide (line ∈ wordCodes) || headCodes.any (·.isPrefixOf line)

def isNewline (c : Char) : Bool := c = '\n'

variable {text : Chars} {chunk : Bytes} {reads : List Bytes} (line : Chars)
  (buffer : Chars) {blank : Chars}

theorem isNewline_of_not_mem (h : '\n' ∉ text) : ∀ c ∈ text, isNewline c = false := by
  intro c hc
  have hne : c ≠ '\n' := fun heq => h (heq ▸ hc)
  simpa [isNewline] using hne

/-- A carriage return before a line feed belongs to the line end. -/
def stripCr (line : Chars) : Chars :=
  if line.getLast? = some '\r' then line.dropLast else line

/-- `str::lines`: what follows the last line feed is a line unless it is
empty. -/
def strLines (text : Chars) : List Chars :=
  let lines := linesOf isNewline text
  lines.done.map stripCr ++ (if lines.current = [] then [] else [lines.current])

/-- `terminal_code`: the last line that is a result code. -/
def terminalCode (buffer : Chars) : Option Chars :=
  (strLines buffer).reverse.findSome? fun line =>
    let line := trimBy isWhitespace line
    if line.isEmpty then none
    else if isResultCode line then some line
    else none

/-- `eq_ignore_ascii_case`: the module sends the command back. -/
def isEcho (line command : Chars) : Bool := line.map Char.toLower = command.map Char.toLower

def responseLinesFrom (command terminator : Chars) : Bool → List Chars → List Chars
  | _, [] => []
  | skippedEcho, raw :: rest =>
    let line := trimBy isWhitespace (raw.rdropWhile (· = '\r'))
    if line.isEmpty then responseLinesFrom command terminator skippedEcho rest
    else if !skippedEcho && isEcho line command then
      responseLinesFrom command terminator true rest
    else if line = terminator then responseLinesFrom command terminator skippedEcho rest
    else line :: responseLinesFrom command terminator skippedEcho rest

def responseLines (buffer command terminator : Chars) : List Chars :=
  responseLinesFrom command terminator false (strLines buffer)

structure AtExchange where
  command : Chars
  lines : List Chars
  terminator : Chars
deriving DecidableEq

inductive AtError where
  | timeout (command : Chars)
deriving DecidableEq

/-- The loop of `AtPort::command` over the reads until the timeout. -/
def listen (command buffer : Chars) : List Bytes → Except AtError AtExchange
  | [] => .error (.timeout command)
  | chunk :: reads =>
    if chunk.isEmpty then listen command buffer reads
    else
      let buffer := buffer ++ decodeLossy chunk
      match terminalCode buffer with
      | some terminator => .ok ⟨command, responseLines buffer command terminator, terminator⟩
      | none => listen command buffer reads

/-- `AtPort::command` behind the write. -/
def AtPort.command (command : String) (reads : List Bytes) : Except AtError AtExchange :=
  listen (trimBy isWhitespace command.toList) [] reads

/-! ## What both functions see -/

def lineTexts (lines : List Chars) : List Chars :=
  (lines.map (trimBy isWhitespace)).filter (· ≠ [])

def heard (buffer : Chars) : List Chars := lineTexts (linesOf isNewline buffer).all

def keepLines (command terminator : Chars) : Bool → List Chars → List Chars
  | _, [] => []
  | skippedEcho, line :: rest =>
    if !skippedEcho && isEcho line command then keepLines command terminator true rest
    else if line = terminator then keepLines command terminator skippedEcho rest
    else line :: keepLines command terminator skippedEcho rest

theorem lineTexts_append (lines more : List Chars) :
    lineTexts (lines ++ more) = lineTexts lines ++ lineTexts more := by
  rw [lineTexts, map_append, filter_append]
  rfl

theorem lineTexts_cons (rest : List Chars) : lineTexts (line :: rest)
      = if trimBy isWhitespace line = [] then lineTexts rest
        else trimBy isWhitespace line :: lineTexts rest := by
  split_ifs <;> simp_all [lineTexts]

theorem isWhitespace_cr : ∀ c ∈ ['\r'], isWhitespace c := by
  intro c hc
  rw [mem_singleton.mp hc]
  rfl

theorem trimBy_stripCr : trimBy isWhitespace (stripCr line) = trimBy isWhitespace line := by
  unfold stripCr
  split
  next hlast =>
    obtain ⟨init, rfl⟩ := getLast?_eq_some_iff.mp hlast
    rw [dropLast_concat, trimBy_append_right init isWhitespace_cr]
  · rfl

theorem trimBy_rdropWhile_cr :
    trimBy isWhitespace (line.rdropWhile (· = '\r')) = trimBy isWhitespace line := by
  have hline := rdropWhile_append_rtakeWhile (p := (· = '\r')) (l := line)
  conv_rhs => rw [← hline]
  rw [trimBy_append_right]
  intro c hc
  have hcr : c = '\r' := by simpa using mem_rtakeWhile_imp hc
  rw [hcr]
  rfl

/-- `str::lines` and the lines of the buffer trim to the same texts. -/
theorem lineTexts_strLines : lineTexts (strLines buffer) = heard buffer := by
  have hdone : ∀ lines, lineTexts (lines.map stripCr) = lineTexts lines := by
    intro lines
    simp only [lineTexts, map_map]
    congr 2
    funext line
    exact trimBy_stripCr line
  rw [strLines, heard, Lines.all, lineTexts_append, lineTexts_append, hdone]
  split
  next hcurrent =>
    rw [hcurrent]
    rfl
  · rfl

theorem findSome?_code (lines : List Chars) : (lines.findSome? fun line =>
        let line := trimBy isWhitespace line
        if line.isEmpty then none else if isResultCode line then some line else none)
      = (lineTexts lines).find? isResultCode := by
  induction lines with
  | nil => rfl
  | cons line rest ih =>
    rw [findSome?_cons, lineTexts_cons, ih]
    by_cases hempty : trimBy isWhitespace line = []
    · simp [hempty]
    · cases hcode : isResultCode (trimBy isWhitespace line) <;> simp [hempty, hcode]

theorem terminalCode_eq : terminalCode buffer = (heard buffer).reverse.find? isResultCode := by
  have hreverse : lineTexts (strLines buffer).reverse = (heard buffer).reverse := by
    rw [← lineTexts_strLines, lineTexts, lineTexts, map_reverse, filter_reverse]
  rw [terminalCode, findSome?_code, hreverse]

theorem responseLinesFrom_eq (command terminator : Chars) : ∀ lines skippedEcho,
      responseLinesFrom command terminator skippedEcho lines
        = keepLines command terminator skippedEcho (lineTexts lines)
  | [], _ => rfl
  | raw :: rest, skippedEcho => by
    have ih := responseLinesFrom_eq command terminator rest
    simp only [responseLinesFrom, trimBy_rdropWhile_cr, lineTexts_cons, ih]
    by_cases hempty : trimBy isWhitespace raw = []
    · simp [hempty]
    · simp [hempty, keepLines]

theorem responseLines_eq (buffer command terminator : Chars) :
    responseLines buffer command terminator
      = keepLines command terminator false (heard buffer) := by
  rw [responseLines, responseLinesFrom_eq, lineTexts_strLines]

/-- White space at the end of the buffer is not heard, line feeds included. -/
theorem heard_append_blank (h : ∀ c ∈ blank, isWhitespace c) :
    heard (buffer ++ blank) = heard buffer := by
  induction blank using reverseRecOn with
  | nil => rw [append_nil]
  | append_singleton blank c ih =>
    rw [← ih fun d hd => h d (mem_append_left _ hd), ← append_assoc]
    have hc : ∀ d ∈ [c], isWhitespace d := fun d hd => h d (mem_append_right _ hd)
    rw [heard, linesOf_snoc, Lines.push]
    split
    · rw [Lines.all, lineTexts_append]
      exact append_nil _
    · rw [heard, Lines.all, Lines.all, lineTexts_append, lineTexts_append, lineTexts_cons,
        lineTexts_cons, trimBy_append_right _ hc]

/-! ## A buffer that ends in a result code -/

def endsInCode (text : Chars) : Bool :=
  isResultCode (trimBy isWhitespace (linesOf isNewline text).current)

def exchangeAt (command text : Chars) : AtExchange :=
  let lines := linesOf isNewline text
  let code := trimBy isWhitespace lines.current
  ⟨command, keepLines command code false (lineTexts lines.done), code⟩

theorem ne_nil_of_isResultCode {line : Chars} (h : isResultCode line) : line ≠ [] := by
  rintro rfl
  revert h
  decide

theorem keepLines_snoc (command terminator : Chars) : ∀ lines skippedEcho,
      keepLines command terminator skippedEcho (lines ++ [terminator])
        = keepLines command terminator skippedEcho lines
  | [], skippedEcho => by simp [keepLines]
  | line :: rest, skippedEcho => by
    rw [cons_append, keepLines, keepLines, keepLines_snoc, keepLines_snoc]

/-- A read that completes a result code, up to white space, ends the
exchange. -/
theorem listen_at_code {command buffer : Chars} (hchunk : chunk ≠ [])
    (hbuffer : buffer ++ decodeLossy chunk = text ++ blank) (hcode : endsInCode text)
    (hblank : ∀ c ∈ blank, isWhitespace c) :
    listen command buffer (chunk :: reads) = .ok (exchangeAt command text) := by
  have hheard : heard (text ++ blank) = lineTexts (linesOf isNewline text).done
      ++ [trimBy isWhitespace (linesOf isNewline text).current] := by
    rw [heard_append_blank text hblank, heard, Lines.all, lineTexts_append, lineTexts_cons,
      if_neg (ne_nil_of_isResultCode hcode)]
    rfl
  have hterminal : terminalCode (text ++ blank)
      = some (trimBy isWhitespace (linesOf isNewline text).current) := by
    rw [terminalCode_eq, hheard, reverse_append]
    exact List.find?_cons_of_pos hcode
  rw [listen, if_neg (by simpa using hchunk)]
  dsimp only
  rw [hbuffer, hterminal]
  dsimp only
  rw [responseLines_eq, hheard, keepLines_snoc]
  rfl

/-- As long as no beginning of the buffer ended in a code, there is none. -/
theorem terminalCode_eq_none {buffer : Chars}
    (h : ∀ beginning, beginning <+: buffer → endsInCode beginning = false) :
    terminalCode buffer = none := by
  rw [terminalCode_eq, List.find?_eq_none]
  intro line hline
  rw [mem_reverse, heard, lineTexts, mem_filter, mem_map] at hline
  obtain ⟨⟨raw, hraw, rfl⟩, -⟩ := hline
  rw [Bool.not_eq_true]
  rcases mem_append.mp hraw with hdone | hcurrent
  · obtain ⟨before, a, hbefore, -, rfl⟩ := exists_of_mem_done hdone
    exact h before ((prefix_append _ _).trans hbefore)
  · rw [mem_singleton.mp hcurrent]
    exact h buffer (prefix_refl _)

theorem listen_of_none {command buffer : Chars} (hchunk : chunk ≠ [])
    (hnone : terminalCode (buffer ++ decodeLossy chunk) = none) :
    listen command buffer (chunk :: reads)
      = listen command (buffer ++ decodeLossy chunk) reads := by
  rw [listen, if_neg (by simpa using hchunk)]
  dsimp only
  rw [hnone]

end VodogeEdge
