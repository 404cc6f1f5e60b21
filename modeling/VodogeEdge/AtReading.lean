import VodogeEdge.AtPolicy

/-!
# What a module reads

The policy classifies one string. The module reads what the port writes by
rules of its own: carriage return and line feed end a command line, a line
starts with `AT`, blanks and letter case do not matter outside quotes,
semicolons separate extended commands, and basic commands follow one
another without a separator. `reading` is that reading.

The policy looks at the first line only, at the first command of every
piece of it, and at that command as it is spelled. `console_clean_iff`
says that this is all it misses.
-/

namespace VodogeEdge

open List

/-- A command as the module reads it; the number of a basic command does
not matter here. -/
inductive AtCommand where
  | basic (name : Chars)
  | extended (name tail : Chars)

namespace AtCommand

def setForm : Chars → Bool
  | '=' :: value => trimBy isWhitespace value ≠ ['?']
  | _ => false

/-- The set form of a name in the write table, or a bare risk. -/
def disruptive : AtCommand → Bool
  | .basic name => bareRisks.any fun entry => entry.1.toList = name
  | .extended name tail => (writeRisks.any fun entry => entry.1.toList = name) && setForm tail

end AtCommand

/-! ## The reading -/

def isLineEnd (c : Char) : Bool := c = '\r' || c = '\n'

/-- What `AtPort::command` writes. -/
def written (command : String) : Chars := trimmed command ++ ['\r']

def pieces : Bool → Chars → List Chars
  | _, [] => [[]]
  | quoted, c :: rest =>
    if c = ';' ∧ quoted = false then [] :: pieces false rest
    else (pieces (if c = '"' then !quoted else quoted) rest).modifyHead (c :: ·)

def squeeze : Bool → Chars → Chars
  | _, [] => []
  | true, c :: rest => c :: squeeze (c ≠ '"') rest
  | false, c :: rest =>
    if c = ' ' then squeeze false rest else c.toUpper :: squeeze (c = '"') rest

/-- The commands of one piece: basic ones, then at most one extended one,
which takes the rest. What starts no command ends the reading. -/
def readPiece : Bool → Chars → List AtCommand
  | _, [] => []
  | _, '+' :: rest =>
    [.extended (rest.takeWhile Char.isAlphanum) (rest.dropWhile Char.isAlphanum)]
  | _, '&' :: c :: rest => if c.isAlpha then .basic ['&', c] :: readPiece true rest else []
  | behind, c :: rest =>
    if c.isAlpha then .basic [c] :: readPiece true rest
    else if behind && c.isDigit then readPiece true rest
    else []

def readLine (line : Chars) : List AtCommand :=
  match pieces false line with
  | [] => []
  | first :: rest =>
    match squeeze false first with
    | 'A' :: 'T' :: body =>
      readPiece false body ++ rest.flatMap fun piece => readPiece false (squeeze false piece)
    | _ => []

def reading (text : Chars) : List AtCommand := (text.splitOnP isLineEnd).flatMap readLine

/-! ## Where the policy looks -/

def firstPieces (command : String) : List Chars :=
  pieces false (((trimmed command).takeWhile (! isLineEnd ·)).drop 2)

/-- The piece starts with the command letter by letter, behind blanks at
most, and an extended one has its value on the line. -/
def SpelledOut (piece : Chars) : AtCommand → Prop
  | .basic name => ∃ blanks rest, (∀ b ∈ blanks, b = ' ')
      ∧ piece.map Char.toUpper = blanks ++ name ++ rest
  | .extended name _ => ∃ blanks value, (∀ b ∈ blanks, b = ' ')
      ∧ (∃ v ∈ value, isWhitespace v = false)
      ∧ piece.map Char.toUpper = blanks ++ '+' :: name ++ '=' :: value

/-- No disruptive command is where the policy does not look: on a later
line, behind another command of its piece, or spelled with blanks. -/
structure InPlainSight (command : String) : Prop where
  later : ∀ line ∈ ((written command).splitOnP isLineEnd).tail, ∀ c ∈ readLine line,
    c.disruptive = false
  behind : ∀ piece ∈ firstPieces command, ∀ c ∈ (readPiece false (squeeze false piece)).tail,
    c.disruptive = false
  spelled : ∀ piece ∈ firstPieces command, ∀ c ∈ (readPiece false (squeeze false piece)).head?,
    c.disruptive → SpelledOut piece c

/-! ## Letter case -/

variable {c d : Char} {command : String} {entry : String × DisruptiveKind} {piece : Chars}

theorem isLower_iff : c.isLower ↔ 'a'.val ≤ c.val ∧ c.val ≤ 'z'.val :=
  Bool.and_eq_true_iff.trans (and_congr decide_eq_true_iff decide_eq_true_iff)

theorem isUpper_toUpper (h : c.isLower) : c.toUpper.isUpper := by
  have hrange := isLower_iff.mp h
  have hupper : c.toUpper.val = c.val + ('A'.val - 'a'.val) := by
    change (dite _ _ _ : Char).val = _
    rw [dif_pos hrange]
  obtain ⟨hlow, hhigh⟩ := hrange
  refine decide_eq_true ?_
  rw [hupper]
  simp only [ge_iff_le, UInt32.le_iff_toNat_le, UInt32.toNat_add] at hlow hhigh ⊢
  simp at hlow hhigh ⊢
  omega

theorem toUpper_eq_iff (hupper : d.isUpper = false) (hlower : d.isLower = false) :
    c.toUpper = d ↔ c = d := by
  cases hc : c.isLower with
  | true =>
    constructor
    · rintro rfl
      rw [isUpper_toUpper hc] at hupper
      cases hupper
    · rintro rfl
      rw [hc] at hlower
      cases hlower
  | false =>
    have hsame : c.toUpper = c := by
      refine dif_neg fun hlower => ?_
      rw [isLower_iff.mpr hlower] at hc
      cases hc
    rw [hsame]

theorem splitOn_semicolon_cons (c : Char) (rest : Chars) : (c :: rest).splitOn ';'
      = if c = ';' then [] :: rest.splitOn ';' else (rest.splitOn ';').modifyHead (c :: ·) := by
  rw [List.splitOn, splitOnP_cons_eq_if_modifyHead]
  simp only [beq_iff_eq]
  rfl

theorem map_toUpper_splitOn : ∀ text : Chars,
    (text.map Char.toUpper).splitOn ';' = (text.splitOn ';').map (List.map Char.toUpper)
  | [] => rfl
  | c :: rest => by
    rw [map_cons, splitOn_semicolon_cons, splitOn_semicolon_cons, map_toUpper_splitOn]
    simp only [toUpper_eq_iff (d := ';') rfl rfl]
    split
    · rfl
    · cases rest.splitOn ';' <;> rfl

theorem map_toUpper_takeWhile (text : Chars) :
    (text.takeWhile (· ≠ ';')).map Char.toUpper = (text.map Char.toUpper).takeWhile (· ≠ ';') := by
  rw [takeWhile_map]
  congr 2
  funext c
  simp [toUpper_eq_iff]

theorem squeeze_unquoted : ∀ {text : Chars}, '"' ∉ text →
    squeeze false text = (text.map Char.toUpper).filter (· ≠ ' ')
  | [], _ => rfl
  | c :: rest, hquote => by
    obtain ⟨hc, hrest⟩ := not_or.mp (mt mem_cons.mpr hquote)
    have hblank : c.toUpper = ' ' ↔ c = ' ' := toUpper_eq_iff rfl rfl
    rw [squeeze, map_cons, squeeze_unquoted hrest]
    by_cases h : c = ' '
    · simp [h]
    · simp [h, hblank, Ne.symm hc, squeeze_unquoted hrest]

/-! ## Pieces and segments -/

/-- Every piece of a line starts, up to its first semicolon, like a segment
of the text; and a piece with a semicolon in it has a quote before that. -/
theorem pieces_cover (after : Chars) : ∀ line quoted,
    ∃ head tail segment segments, pieces quoted line = head :: tail
      ∧ (line ++ after).splitOn ';' = segment :: segments
      ∧ head.takeWhile (· ≠ ';') <+: segment
      ∧ (quoted = false → ';' ∈ head → '"' ∈ head.takeWhile (· ≠ ';'))
      ∧ ∀ piece ∈ tail, (∃ found ∈ segments, piece.takeWhile (· ≠ ';') <+: found)
        ∧ (';' ∈ piece → '"' ∈ piece.takeWhile (· ≠ ';'))
  | [], quoted => by
    obtain ⟨segment, segments, hsplit⟩ :=
      exists_cons_of_ne_nil (splitOnP_ne_nil (· == ';') after)
    exact ⟨[], [], segment, segments, rfl, hsplit, nil_prefix, nofun, nofun⟩
  | c :: rest, quoted => by
    by_cases hcut : c = ';' ∧ quoted = false
    · obtain ⟨rfl, rfl⟩ := hcut
      obtain ⟨head, tail, segment, segments, hpieces, hsplit, hhead, hquote, htail⟩ :=
        pieces_cover after rest false
      refine ⟨[], head :: tail, [], segment :: segments, ?_, ?_, nil_prefix, nofun, ?_⟩
      · rw [pieces, if_pos ⟨rfl, rfl⟩, hpieces]
      · rw [cons_append, splitOn_semicolon_cons, if_pos rfl, hsplit]
      · intro piece hpiece
        rcases mem_cons.mp hpiece with rfl | hpiece
        · exact ⟨⟨segment, mem_cons_self, hhead⟩, hquote rfl⟩
        · obtain ⟨⟨found, hfound, hstarts⟩, hquoted⟩ := htail piece hpiece
          exact ⟨⟨found, mem_cons_of_mem _ hfound, hstarts⟩, hquoted⟩
    · obtain ⟨head, tail, segment, segments, hpieces, hsplit, hhead, hquote, htail⟩ :=
        pieces_cover after rest (if c = '"' then !quoted else quoted)
      have hpieces' : pieces quoted (c :: rest) = (c :: head) :: tail := by
        rw [pieces, if_neg hcut, hpieces]
        rfl
      by_cases hc : c = ';'
      · -- a semicolon in quotes: the segments go on without it
        subst hc
        have hquoted : quoted := by simpa using hcut
        refine ⟨';' :: head, tail, [], segment :: segments, hpieces', ?_, by simp,
          fun hfalse => absurd hfalse (by simp [hquoted]), ?_⟩
        · rw [cons_append, splitOn_semicolon_cons, if_pos rfl, hsplit]
        · intro piece hpiece
          obtain ⟨⟨found, hfound, hstarts⟩, hkept⟩ := htail piece hpiece
          exact ⟨⟨found, mem_cons_of_mem _ hfound, hstarts⟩, hkept⟩
      · have htake : (c :: head).takeWhile (· ≠ ';') = c :: head.takeWhile (· ≠ ';') :=
          takeWhile_cons_of_pos (by simpa using hc)
        refine ⟨c :: head, tail, c :: segment, segments, hpieces', ?_, ?_, ?_, htail⟩
        · rw [cons_append, splitOn_semicolon_cons, if_neg hc, hsplit]
          rfl
        · rw [htake]
          exact cons_prefix_cons.mpr ⟨rfl, hhead⟩
        · rintro rfl hmem
          rw [htake]
          by_cases hopen : c = '"'
          · exact mem_cons.mpr (.inl hopen.symm)
          · rw [if_neg hopen] at hquote
            have hrest : ';' ∈ head := (mem_cons.mp hmem).resolve_left (Ne.symm hc)
            exact mem_cons_of_mem _ (hquote rfl hrest)

theorem segment_of_piece (line after : Chars) (hpiece : piece ∈ pieces false line) :
    (∃ segment ∈ (line ++ after).splitOn ';', piece.takeWhile (· ≠ ';') <+: segment)
      ∧ (';' ∈ piece → '"' ∈ piece.takeWhile (· ≠ ';')) := by
  obtain ⟨head, tail, segment, segments, hpieces, hsplit, hhead, hquote, htail⟩ :=
    pieces_cover after line false
  rw [hpieces] at hpiece
  rw [hsplit]
  rcases mem_cons.mp hpiece with rfl | hpiece
  · exact ⟨⟨segment, mem_cons_self, hhead⟩, hquote rfl⟩
  · obtain ⟨⟨found, hfound, hstarts⟩, hquoted⟩ := htail piece hpiece
    exact ⟨⟨found, mem_cons_of_mem _ hfound, hstarts⟩, hquoted⟩

/-! ## What the policy sees -/

theorem writeRisks_plain (h : entry ∈ writeRisks) :
    ∀ c ∈ entry.1.toList, c.isAlphanum ∧ isWhitespace c = false ∧ c ≠ ';' ∧ c ≠ '"'
      ∧ c ≠ ' ' := by
  have hall : writeRisks.all (fun entry => entry.1.toList.all fun c => c.isAlphanum
      && !isWhitespace c && c ≠ ';' && c ≠ '"' && c ≠ ' ') := by decide
  intro c hc
  simpa [and_assoc] using all_eq_true.mp (all_eq_true.mp hall entry h) c hc

/-- The bare names are not empty, hold no blank and no semicolon, and do
not look like an extended command. -/
theorem bareRisks_plain (h : entry ∈ bareRisks) :
    entry.1.toList ≠ [] ∧ entry.1.toList.head? ≠ some '+'
      ∧ ∀ c ∈ entry.1.toList, isWhitespace c = false ∧ c ≠ ';' := by
  have hstart : ∀ entry ∈ bareRisks,
      entry.1.toList ≠ [] ∧ entry.1.toList.head? ≠ some '+' := by decide
  have hall : bareRisks.all (fun entry => entry.1.toList.all fun c =>
      !isWhitespace c && c ≠ ';') := by decide
  refine ⟨(hstart entry h).1, (hstart entry h).2, fun c hc => ?_⟩
  simpa using all_eq_true.mp (all_eq_true.mp hall entry h) c hc

section

variable {blanks : Chars} (hblanks : ∀ b ∈ blanks, b = ' ')
include hblanks

theorem isWhitespace_of_blank : ∀ b ∈ blanks, isWhitespace b := by
  rintro b hb
  rw [hblanks b hb]
  rfl

/-- A text that starts, behind blanks, with `head` has a segment that does:
`head` holds no semicolon. -/
theorem takeWhile_semicolon {head : Chars} (hhead : ∀ c ∈ head, c ≠ ';') (rest : Chars) :
    (blanks ++ head ++ rest).takeWhile (· ≠ ';') = blanks ++ head ++ rest.takeWhile (· ≠ ';') := by
  refine takeWhile_append_of_pos fun c hc => ?_
  rcases mem_append.mp hc with hc | hc
  · rw [hblanks c hc]
    rfl
  · simpa using hhead c hc

theorem segmentRisk_basic {name rest : Chars} (hdisruptive : (AtCommand.basic name).disruptive) :
    segmentRisk (blanks ++ name ++ rest) ≠ none := by
  obtain ⟨entry, hentry, hname⟩ := any_eq_true.mp hdisruptive
  rw [decide_eq_true_eq] at hname
  obtain ⟨hne, hplus, hplain⟩ := bareRisks_plain hentry
  rw [hname] at hne hplus hplain
  have htrim : trimBy isWhitespace (blanks ++ name ++ rest)
      = name ++ rest.rdropWhile isWhitespace := by
    obtain ⟨init, last, rfl⟩ : ∃ init last, name = init ++ [last] :=
      ⟨name.dropLast, name.getLast hne, (dropLast_append_getLast hne).symm⟩
    have hsplit : blanks ++ (init ++ [last]) ++ rest = blanks ++ init ++ last :: rest := by simp
    rw [hsplit, trimBy_append (isWhitespace_of_blank hblanks)
      (fun c hc => (hplain c (mem_append_left _ hc)).1)
      (hplain last (mem_append_right _ (mem_singleton_self _))).1]
    simp
  obtain ⟨first, others, rfl⟩ := exists_cons_of_ne_nil hne
  rw [segmentRisk_of_bare htrim fun hfirst => hplus (congrArg some hfirst), Ne,
    bareRisk_eq_none_iff]
  intro hnone
  exact hnone entry hentry (hname ▸ prefix_append _ _)

/-- The only way past an extended risk spelled out at the head of a segment
is that the segment goes on as a test. -/
theorem segmentRisk_extended {name tail value : Chars}
    (hdisruptive : (AtCommand.extended name tail).disruptive)
    (hnone : segmentRisk (blanks ++ '+' :: name ++ '=' :: value) = none) :
    ∃ before after, (∀ c ∈ before, isWhitespace c) ∧ (∀ c ∈ after, isWhitespace c)
      ∧ value = before ++ '?' :: after := by
  obtain ⟨hlisted, -⟩ := Bool.and_eq_true_iff.mp hdisruptive
  obtain ⟨entry, hentry, hname⟩ := any_eq_true.mp hlisted
  rw [decide_eq_true_eq] at hname
  have hplain := writeRisks_plain hentry
  rw [hname] at hplain
  have htrim : trimBy isWhitespace (blanks ++ '+' :: name ++ '=' :: value)
      = '+' :: name ++ '=' :: value.rdropWhile isWhitespace := by
    refine trimBy_append (isWhitespace_of_blank hblanks) (fun c hc => ?_) rfl value
    rcases mem_cons.mp hc with rfl | hc
    · rfl
    · exact (hplain c hc).2.1
  rw [segmentRisk_of_extended htrim fun c hc => (hplain c hc).1] at hnone
  split at hnone
  · rw [Option.map_eq_none_iff, List.find?_eq_none] at hnone
    exact absurd hname (by simpa using hnone entry hentry)
  next hread =>
    have htest : trimBy isWhitespace (value.rdropWhile isWhitespace) = ['?'] := by
      simpa [isWrite] using hread
    obtain ⟨before, after, hbefore, hafter, hvalue⟩ :=
      exists_append_trimBy isWhitespace (value.rdropWhile isWhitespace)
    rw [htest] at hvalue
    refine ⟨before, after ++ value.rtakeWhile isWhitespace, hbefore, ?_, ?_⟩
    · intro c hc
      rcases mem_append.mp hc with hc | hc
      · exact hafter c hc
      · exact mem_rtakeWhile_imp hc
    · calc value = value.rdropWhile isWhitespace ++ value.rtakeWhile isWhitespace :=
            rdropWhile_append_rtakeWhile.symm
        _ = before ++ '?' :: (after ++ value.rtakeWhile isWhitespace) := by
            rw [hvalue]
            simp

theorem readPiece_test {piece name before after : Chars}
    (hname : ∀ c ∈ name, c.isAlphanum ∧ isWhitespace c = false ∧ c ≠ ';' ∧ c ≠ '"'
      ∧ c ≠ ' ') (hbefore : ∀ c ∈ before, isWhitespace c)
    (hafter : ∀ c ∈ after, isWhitespace c) (hquote : '"' ∉ piece)
    (hpiece : piece.map Char.toUpper = blanks ++ '+' :: name ++ '=' :: (before ++ '?' :: after)) :
    ∃ tail, readPiece false (squeeze false piece) = [.extended name tail]
      ∧ AtCommand.setForm tail = false := by
  have hnone : blanks.filter (· ≠ ' ') = [] := by
    rw [filter_eq_nil_iff]
    intro b hb
    simp [hblanks b hb]
  have hkept : name.filter (· ≠ ' ') = name := by
    rw [filter_eq_self]
    intro c hc
    simpa using (hname c hc).2.2.2.2
  have hsqueeze : squeeze false piece
      = '+' :: (name ++ '=' :: (before.filter (· ≠ ' ') ++ '?' :: after.filter (· ≠ ' '))) := by
    rw [squeeze_unquoted hquote, hpiece, filter_append, filter_append, hnone,
      filter_cons_of_pos rfl, hkept, filter_cons_of_pos rfl, filter_append]
    rfl
  have hletters : ∀ c ∈ name, c.isAlphanum := fun c hc => (hname c hc).1
  refine ⟨'=' :: (before.filter (· ≠ ' ') ++ '?' :: after.filter (· ≠ ' ')), ?_, ?_⟩
  · rw [hsqueeze, readPiece, takeWhile_append_of_pos hletters, dropWhile_append_of_pos hletters]
    simp
  · have htrim : trimBy isWhitespace (before.filter (· ≠ ' ') ++ '?' :: after.filter (· ≠ ' '))
        = ['?'] := by
      rw [trimBy_append_of_last _ rfl,
        dropWhile_eq_nil_iff.mpr fun c hc => hbefore c (mem_filter.mp hc).1,
        rdropWhile_eq_nil_iff.mpr fun c hc => hafter c (mem_filter.mp hc).1]
      rfl
    rw [AtCommand.setForm, htrim]
    rfl

end

theorem test_of_append {value ending before after : Chars} {v : Char}
    (hbefore : ∀ c ∈ before, isWhitespace c) (hv : v ∈ value)
    (hvalue : isWhitespace v = false) (hseen : value ++ ending = before ++ '?' :: after) :
    ∃ after', value = before ++ '?' :: after' ∧ after' <+: after := by
  have hinside : v ∉ before := by
    intro h
    rw [hbefore v h] at hvalue
    cases hvalue
  rcases append_eq_append_iff.mp hseen with ⟨gap, rfl, -⟩ | ⟨gap, rfl, hrest⟩
  · exact absurd (mem_append_left gap hv) hinside
  · cases gap with
    | nil => exact absurd (append_nil before ▸ hv) hinside
    | cons first gap =>
      obtain ⟨rfl, hafter⟩ := List.cons.inj hrest
      exact ⟨gap, rfl, ending, hafter.symm⟩

/-- A disruptive command that heads its piece and is spelled out is a risk
of the segment there. -/
theorem segmentRisk_of_spelledOut {segment : Chars} {c : AtCommand}
    (hstarts : (piece.map Char.toUpper).takeWhile (· ≠ ';') <+: segment)
    (hquoted : ';' ∈ piece → '"' ∈ piece.takeWhile (· ≠ ';'))
    (hread : c ∈ (readPiece false (squeeze false piece)).head?) (hdisruptive : c.disruptive)
    (hspelled : SpelledOut piece c) : segmentRisk segment ≠ none := by
  obtain ⟨ending, rfl⟩ := hstarts
  cases c with
  | basic name =>
    obtain ⟨blanks, rest, hblanks, hpiece⟩ := hspelled
    obtain ⟨entry, hentry, hname⟩ := any_eq_true.mp hdisruptive
    rw [decide_eq_true_eq] at hname
    have hplain : ∀ c ∈ name, c ≠ ';' := fun c hc => ((bareRisks_plain hentry).2.2 c (hname ▸ hc)).2
    rw [hpiece, takeWhile_semicolon hblanks hplain, append_assoc]
    exact segmentRisk_basic hblanks hdisruptive
  | extended name tail =>
    obtain ⟨blanks, value, hblanks, ⟨v, hv, hvalue⟩, hpiece⟩ := hspelled
    obtain ⟨hlisted, hset⟩ := Bool.and_eq_true_iff.mp hdisruptive
    obtain ⟨entry, hentry, hname⟩ := any_eq_true.mp hlisted
    rw [decide_eq_true_eq] at hname
    have hplain := writeRisks_plain hentry
    rw [hname] at hplain
    have htake : (piece.map Char.toUpper).takeWhile (· ≠ ';')
        = blanks ++ '+' :: name ++ '=' :: value.takeWhile (· ≠ ';') := by
      have hhead : ∀ c ∈ '+' :: name ++ ['='], c ≠ ';' := by
        intro c hc
        simp only [cons_append, mem_cons, mem_append, not_mem_nil, or_false] at hc
        rcases hc with rfl | hc | rfl
        · decide
        · exact (hplain c hc).2.2.1
        · decide
      have hsplit := takeWhile_semicolon hblanks hhead value
      simpa [hpiece] using hsplit
    intro hnone
    rw [htake, append_assoc] at hnone
    obtain ⟨before, after, hbefore, hafter, hseen⟩ :=
      segmentRisk_extended hblanks hdisruptive hnone
    -- no quote in what the policy took for a test, so the piece ends there too
    have hclosed : '"' ∉ piece.takeWhile (· ≠ ';') := by
      intro hmem
      have hupper := mem_map_of_mem (f := Char.toUpper) hmem
      rw [map_toUpper_takeWhile, htake] at hupper
      simp only [append_assoc, cons_append, mem_append, mem_cons] at hupper
      rcases hupper with h | h | h | h | h
      · exact absurd (hblanks _ h) (by decide)
      · exact absurd h (by decide)
      · exact (hplain _ h).2.2.2.1 rfl
      · exact absurd h (by decide)
      · have hin : '"' ∈ before ++ '?' :: after := hseen ▸ mem_append_left ending h
        simp only [mem_append, mem_cons] at hin
        rcases hin with h | h | h
        · exact absurd (hbefore _ h) (by decide)
        · exact absurd h (by decide)
        · exact absurd (hafter _ h) (by decide)
    have hwhole : piece.takeWhile (· ≠ ';') = piece := by
      rw [takeWhile_eq_self_iff]
      intro c hc
      have hne : c ≠ ';' := fun h => hclosed (hquoted (h ▸ hc))
      simpa using hne
    have hvalue' : value.takeWhile (· ≠ ';') = value := by
      have h := htake
      rw [← map_toUpper_takeWhile, hwhole, hpiece] at h
      simpa using h.symm
    rw [hwhole] at hclosed
    rw [hvalue'] at hseen
    obtain ⟨after', hshort, hless⟩ := test_of_append hbefore hv hvalue hseen
    obtain ⟨tail', hpieceRead, htest⟩ := readPiece_test hblanks hplain hbefore
      (fun c hc => hafter c (hless.subset hc)) hclosed (hshort ▸ hpiece)
    rw [hpieceRead] at hread
    obtain ⟨-, rfl⟩ := AtCommand.extended.inj (Option.some.inj hread)
    rw [htest] at hset
    cases hset

/-! ## The first line -/

theorem splitOnP_eq_cons (p : Char → Bool) : ∀ text : Chars,
    ∃ rest, text.splitOnP p = text.takeWhile (! p ·) :: rest
  | [] => ⟨[], rfl⟩
  | c :: text => by
    rw [splitOnP_cons_eq_if_modifyHead]
    cases hc : p c with
    | true => exact ⟨text.splitOnP p, by simp [hc]⟩
    | false =>
      obtain ⟨rest, hrest⟩ := splitOnP_eq_cons p text
      exact ⟨rest, by simp [hc, hrest]⟩

theorem written_takeWhile (command : String) :
    (written command).takeWhile (! isLineEnd ·) = (trimmed command).takeWhile (! isLineEnd ·) := by
  rw [written, takeWhile_append]
  split
  next hlength =>
    have hbegins : (trimmed command).takeWhile (! isLineEnd ·) <+: trimmed command :=
      takeWhile_prefix _
    rw [hbegins.eq_of_length hlength]
    exact append_nil _
  · rfl

theorem plain_of_toUpper (h : c.toUpper = d) (hd : d.isUpper) :
    isLineEnd c = false ∧ c ≠ ';' ∧ c ≠ '"' ∧ c ≠ ' ' := by
  have hne : ∀ e, e.toUpper.isUpper = false → c ≠ e := by
    rintro e he rfl
    rw [h, hd] at he
    cases he
  refine ⟨?_, hne _ rfl, hne _ rfl, hne _ rfl⟩
  simp [isLineEnd, hne '\r' rfl, hne '\n' rfl]

theorem readLine_at {a t : Char} (ha : a.toUpper = 'A') (ht : t.toUpper = 'T') (line : Chars) :
    readLine (a :: t :: line)
      = (pieces false line).flatMap fun piece => readPiece false (squeeze false piece) := by
  obtain ⟨-, hasemi, haquote, hablank⟩ := plain_of_toUpper ha rfl
  obtain ⟨-, htsemi, htquote, htblank⟩ := plain_of_toUpper ht rfl
  obtain ⟨head, tail, -, -, hpieces, -⟩ := pieces_cover [] line false
  have hline : pieces false (a :: t :: line) = (a :: t :: head) :: tail := by
    simp [pieces, hasemi, haquote, htsemi, htquote, hpieces]
  have hhead : squeeze false (a :: t :: head) = 'A' :: 'T' :: squeeze false head := by
    simp [squeeze, hablank, haquote, htblank, htquote, ha, ht]
  rw [readLine, hline, hpieces]
  simp only [hhead]
  rfl

theorem stripAtPrefix_eq_some {text body : Chars} (h : stripAtPrefix text = some body) :
    text = 'A' :: 'T' :: body := by
  unfold stripAtPrefix at h
  split at h
  · cases h
  · cases h
    rfl
  · cases h

theorem trimmed_of_safe (hsafe : classify command = .safe) :
    ∃ a t rest, a.toUpper = 'A' ∧ t.toUpper = 'T' ∧ trimmed command = a :: t :: rest
      ∧ ∀ segment ∈ rest.splitOn ';', segmentRisk (segment.map Char.toUpper) = none := by
  obtain ⟨body, hstrip, hnone⟩ := classify_safe_iff.mp hsafe
  obtain ⟨a, _, htrim, ha, hrest⟩ := map_eq_cons_iff.mp (stripAtPrefix_eq_some hstrip)
  obtain ⟨t, rest, rfl, ht, rfl⟩ := map_eq_cons_iff.mp hrest
  refine ⟨a, t, rest, ha, ht, htrim, ?_⟩
  intro segment hsegment
  apply hnone
  rw [map_toUpper_splitOn]
  exact mem_map_of_mem hsegment

/-- The first line of a safe command is read piece by piece, and a piece
that starts with a disruptive command spelled out would have been found. -/
theorem firstPieces_of_safe (hsafe : classify command = .safe) :
    (∃ later, (written command).splitOnP isLineEnd
        = (trimmed command).takeWhile (! isLineEnd ·) :: later)
      ∧ readLine ((trimmed command).takeWhile (! isLineEnd ·))
        = (firstPieces command).flatMap (fun piece => readPiece false (squeeze false piece))
      ∧ ∀ piece ∈ firstPieces command, ∀ c ∈ (readPiece false (squeeze false piece)).head?,
        c.disruptive → ¬ SpelledOut piece c := by
  obtain ⟨a, t, rest, ha, ht, htrim, hnone⟩ := trimmed_of_safe hsafe
  have hline : (trimmed command).takeWhile (! isLineEnd ·)
      = a :: t :: rest.takeWhile (! isLineEnd ·) := by
    rw [htrim]
    simp [(plain_of_toUpper ha rfl).1, (plain_of_toUpper ht rfl).1]
  have hfirst : firstPieces command = pieces false (rest.takeWhile (! isLineEnd ·)) := by
    rw [firstPieces, hline]
    rfl
  refine ⟨?_, ?_, ?_⟩
  · rw [← written_takeWhile]
    exact splitOnP_eq_cons isLineEnd (written command)
  · rw [hline, hfirst, readLine_at ha ht]
  · intro piece hpiece c hc hdisruptive hspelled
    rw [hfirst] at hpiece
    obtain ⟨⟨segment, hsegment, hstarts⟩, hquoted⟩ :=
      segment_of_piece _ (rest.dropWhile (! isLineEnd ·)) hpiece
    rw [takeWhile_append_dropWhile] at hsegment
    have hupper := hstarts.map Char.toUpper
    rw [map_toUpper_takeWhile] at hupper
    exact segmentRisk_of_spelledOut hupper hquoted hc hdisruptive hspelled (hnone segment hsegment)

/-- A command the policy calls safe makes the module do nothing disruptive
exactly when nothing disruptive stands where the policy does not look. -/
theorem console_clean_iff {command : String} (hsafe : classify command = .safe) :
    (∀ c ∈ reading (written command), c.disruptive = false) ↔ InPlainSight command := by
  obtain ⟨⟨later, hlines⟩, hfirst, hseen⟩ := firstPieces_of_safe hsafe
  have hreading : reading (written command)
      = (firstPieces command).flatMap (fun piece => readPiece false (squeeze false piece))
        ++ later.flatMap readLine := by
    rw [reading, hlines, flatMap_cons, hfirst]
  constructor
  · intro hclean
    have hpiece : ∀ piece ∈ firstPieces command, ∀ c ∈ readPiece false (squeeze false piece),
        c.disruptive = false := by
      intro piece hpiece c hc
      apply hclean
      rw [hreading]
      exact mem_append_left _ (mem_flatMap.mpr ⟨piece, hpiece, hc⟩)
    refine ⟨?_, ?_, ?_⟩
    · intro line hline c hc
      rw [hlines] at hline
      apply hclean
      rw [hreading]
      exact mem_append_right _ (mem_flatMap.mpr ⟨line, hline, hc⟩)
    · intro piece hmem c hc
      exact hpiece piece hmem c (mem_of_mem_tail hc)
    · intro piece hmem c hc hdisruptive
      rw [hpiece piece hmem c (mem_of_mem_head? hc)] at hdisruptive
      cases hdisruptive
  · intro hsight c hc
    rw [hreading, mem_append, mem_flatMap, mem_flatMap] at hc
    rcases hc with ⟨piece, hpiece, hc⟩ | ⟨line, hline, hc⟩
    · cases hread : readPiece false (squeeze false piece) with
      | nil => exact absurd (hread ▸ hc) not_mem_nil
      | cons first others =>
        rw [hread] at hc
        rcases mem_cons.mp hc with rfl | hc
        · have hhead : c ∈ (readPiece false (squeeze false piece)).head? := by
            rw [hread]
            rfl
          rw [← Bool.not_eq_true]
          intro hdisruptive
          exact hseen piece hpiece c hhead hdisruptive
            (hsight.spelled piece hpiece c hhead hdisruptive)
        · exact hsight.behind piece hpiece c (by rw [hread]; exact hc)
    · exact hsight.later line (by rw [hlines]; exact hline) c hc

/-- A read command: nothing is out of sight. -/
theorem signalQuery_clean :
    classify "AT+CSQ" = .safe ∧ (∀ c ∈ reading (written "AT+CSQ"), c.disruptive = false)
      ∧ InPlainSight "AT+CSQ" := by
  have hsafe : classify "AT+CSQ" = .safe := by decide
  have hclean : ∀ c ∈ reading (written "AT+CSQ"), c.disruptive = false := by decide
  exact ⟨hsafe, hclean, (console_clean_iff hsafe).mp hclean⟩

/-- The policy calls safe: a second line that switches the radio off, a blank
before the equals sign, and a dial behind the echo command. -/
theorem console_smuggles :
    (classify "AT+CSQ\rAT+CFUN=0" = .safe
        ∧ ∃ c ∈ reading (written "AT+CSQ\rAT+CFUN=0"), c.disruptive)
      ∧ (classify "AT+CFUN =0" = .safe
        ∧ ∃ c ∈ reading (written "AT+CFUN =0"), c.disruptive)
      ∧ (classify "ATE0D10086" = .safe
        ∧ ∃ c ∈ reading (written "ATE0D10086"), c.disruptive) := by
  decide

end VodogeEdge
