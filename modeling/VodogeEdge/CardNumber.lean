import VodogeEdge.EsimProfiles

/-!
# One card, two readers

The number of a card is read over QMI as the bytes of `EF_ICCID` and over
AT as the text of `+QCCID`. The AT reader drops the filler behind the
number and asks for digits only; the QMI reader drops filler anywhere and
asks for a number that begins with 89 and has 19 or 20 digits. For which
bytes both come to the same is `readers_agree_iff`.
-/

namespace VodogeEdge.Esim

open List

/-- `line.trim().strip_prefix(head)` of the first line that has it. -/
def fieldAfter (lines : List Chars) (head : Chars) : Option Chars :=
  (lines.findSome? fun line => (trimBy isWhitespace line).dropPrefix? head).map
    (trimBy isWhitespace)

def parsePrefixed (lines : List Chars) (head : Chars) : Option Chars :=
  (fieldAfter lines head).map (trimBy (· = '"'))

def parseIccid (lines : List Chars) : Option Chars := do
  let raw ← parsePrefixed lines "+QCCID:".toList
  let trimmed := raw.rdropWhile fun c => c = 'F' || c = 'f'
  if trimmed.isEmpty || !trimmed.all Char.isDigit then none else some trimmed

/-! ## What a module prints -/

theorem rdropWhile_map {α β : Type*} {f : α → β} {p : β → Bool} {q : α → Bool} {l : List α}
    (h : ∀ a ∈ l, p (f a) = q a) : (l.map f).rdropWhile p = (l.rdropWhile q).map f := by
  induction l using List.reverseRecOn with
  | nil => rfl
  | append_singleton l a ih =>
    rw [map_append, map_singleton, rdropWhile_concat, rdropWhile_concat,
      h a (mem_append_right _ (mem_singleton_self a))]
    split
    · exact ih fun b hb => h b (mem_append_left _ hb)
    · rw [map_append, map_singleton]

def printNibble (n : Nat) : Char := (Nat.digitChar n).toUpper

/-- The nibble-swapped digits behind `+QCCID:`, filler included. -/
def qccidLine (bytes : Bytes) : Chars :=
  "+QCCID: ".toList ++ (nibbles bytes).map printNibble

theorem printNibble_plain : ∀ n < 16, isWhitespace (printNibble n) = false
    ∧ printNibble n ≠ '"'
    ∧ ((printNibble n = 'F' ∨ printNibble n = 'f') ↔ n = filler)
    ∧ ((printNibble n).isDigit ↔ n < 10)
    ∧ (n < 10 → printNibble n = Nat.digitChar n) := by decide

variable {bytes : Bytes}

theorem parsePrefixed_qccidLine (bytes : Bytes) :
    parsePrefixed [qccidLine bytes] "+QCCID:".toList = some ((nibbles bytes).map printNibble) := by
  have hplain : ∀ c ∈ (nibbles bytes).map printNibble, isWhitespace c = false ∧ c ≠ '"' := by
    intro c hc
    obtain ⟨n, hn, rfl⟩ := mem_map.mp hc
    have h := printNibble_plain _ (lt_of_mem_nibbles hn)
    exact ⟨h.1, h.2.1⟩
  unfold qccidLine
  generalize (nibbles bytes).map printNibble = text at hplain ⊢
  have hline : trimBy isWhitespace ("+QCCID: ".toList ++ text)
      = "+QCCID:".toList ++ (' ' :: text).rdropWhile isWhitespace :=
    trimBy_append_of_last "+QCCID".toList (show isWhitespace ':' = false from rfl) (' ' :: text)
  have hrest : trimBy isWhitespace ((' ' :: text).rdropWhile isWhitespace) = text := by
    rcases eq_nil_or_concat' text with rfl | ⟨init, last, rfl⟩
    · rfl
    · have hlast := (hplain last (mem_append_right _ (mem_singleton_self _))).1
      have hkept : (' ' :: (init ++ [last])).rdropWhile isWhitespace = ' ' :: (init ++ [last]) :=
        rdropWhile_append_of_last (' ' :: init) hlast []
      rw [hkept, trimBy]
      exact trimBy_eq_self fun c hc => (hplain c hc).1
  have hquote : trimBy (fun c => decide (c = '"')) text = text :=
    trimBy_eq_self fun c hc => decide_eq_false (hplain c hc).2
  simp only [parsePrefixed, fieldAfter, findSome?_cons, hline,
    dropPrefix?_append_of_beq _ (beq_self_eq_true _), Option.map_some, hrest, hquote]

/-- The nibbles in front of the filler at the end. -/
def numberOf (bytes : Bytes) : List Nat := (nibbles bytes).rdropWhile (· = filler)

theorem lt_of_mem_numberOf {n : Nat} (h : n ∈ numberOf bytes) : n < 16 := by
  have hbegins : numberOf bytes <+: nibbles bytes := rdropWhile_prefix _ _
  exact lt_of_mem_nibbles (hbegins.subset h)

theorem parseIccid_qccidLine (bytes : Bytes) : parseIccid [qccidLine bytes]
      = if numberOf bytes ≠ [] ∧ ∀ n ∈ numberOf bytes, n < 10 then
          some ((numberOf bytes).map Nat.digitChar)
        else none := by
  have hcut : ((nibbles bytes).map printNibble).rdropWhile (fun c => c = 'F' || c = 'f')
      = (numberOf bytes).map printNibble := by
    refine rdropWhile_map fun n hn => ?_
    rw [← Bool.decide_or]
    exact decide_eq_decide.mpr (printNibble_plain _ (lt_of_mem_nibbles hn)).2.2.1
  have hdigits : ((numberOf bytes).map printNibble).all Char.isDigit ↔
      ∀ n ∈ numberOf bytes, n < 10 := by
    rw [all_map, all_eq_true]
    exact forall₂_congr fun n hn => (printNibble_plain _ (lt_of_mem_numberOf hn)).2.2.2.1
  simp only [parseIccid, parsePrefixed_qccidLine, Option.bind_eq_bind, Option.bind_some, hcut]
  by_cases hnumber : numberOf bytes ≠ [] ∧ ∀ n ∈ numberOf bytes, n < 10
  · have hplain : (numberOf bytes).map printNibble = (numberOf bytes).map Nat.digitChar :=
      map_congr_left fun n hn =>
        (printNibble_plain _ (lt_of_mem_numberOf hn)).2.2.2.2 (hnumber.2 n hn)
    rw [if_pos hnumber, hdigits.mpr hnumber.2, if_neg (by simpa using hnumber.1), hplain]
  · rw [if_neg hnumber]
    rw [← hdigits] at hnumber
    by_cases hempty : numberOf bytes = []
    · simp [hempty]
    · simpa using hnumber

/-- What is in front of the filler at the end is no number or one that can be
an ICCID, and what has filler in the middle is none without it. -/
structure OneNumber (bytes : Bytes) : Prop where
  number : (∀ n ∈ numberOf bytes, n < 10) → numberOf bytes = [] ∨ IsIccid (numberOf bytes)
  filled : (∃ n ∈ numberOf bytes, 10 ≤ n) → ¬IsIccid (digitsOf bytes)

/-- With nothing but digits in front of the filler at the end, these are all
the digits there are. -/
theorem digitsOf_eq_numberOf (h : ∀ n ∈ numberOf bytes, n < 10) :
    digitsOf bytes = numberOf bytes := by
  have hsplit : nibbles bytes = numberOf bytes ++ (nibbles bytes).rtakeWhile (· = filler) :=
    rdropWhile_append_rtakeWhile.symm
  rw [digitsOf, hsplit, filter_append, filter_eq_self.mpr, filter_eq_nil_iff.mpr, append_nil]
  · intro n hn
    simpa using mem_rtakeWhile_imp hn
  · intro n hn
    have hlt := h n hn
    exact decide_eq_true (by rw [filler]; omega)

/-- Both readers accept the same number, or none, exactly for such bytes. -/
theorem readers_agree_iff (bytes : Bytes) :
    (parseIccid [qccidLine bytes]).map String.ofList = (decodeIccid bytes).toOption ↔
      OneNumber bytes := by
  have hnone : ¬IsIccid (digitsOf bytes) → (decodeIccid bytes).toOption = none := by
    intro hnot
    cases hread : decodeIccid bytes with
    | error => rfl
    | ok number => exact absurd (decodeIccid_ok_iff.mp hread).1 hnot
  have hsome (hnumber : IsIccid (digitsOf bytes)) : (decodeIccid bytes).toOption
      = some (String.ofList ((digitsOf bytes).map Nat.digitChar)) := by
    rw [decodeIccid_ok_iff.mpr ⟨hnumber, rfl⟩]
    rfl
  rw [parseIccid_qccidLine]
  by_cases hdigits : ∀ n ∈ numberOf bytes, n < 10
  · have hfilled : ¬∃ n ∈ numberOf bytes, 10 ≤ n := by simpa using hdigits
    rw [digitsOf_eq_numberOf hdigits] at hnone hsome
    by_cases hnumber : IsIccid (numberOf bytes)
    · have hne : numberOf bytes ≠ [] := ne_nil_of_length_pos (by have := hnumber.2.1; omega)
      rw [if_pos ⟨hne, hdigits⟩, hsome hnumber]
      exact iff_of_true rfl ⟨fun _ => .inr hnumber, fun h => absurd h hfilled⟩
    · rw [hnone hnumber]
      by_cases hempty : numberOf bytes = []
      · rw [if_neg fun h => h.1 hempty]
        exact iff_of_true rfl ⟨fun _ => .inl hempty, fun h => absurd h hfilled⟩
      · rw [if_pos ⟨hempty, hdigits⟩]
        exact iff_of_false nofun fun h => (h.number hdigits).elim hempty hnumber
  · have hfilled : ∃ n ∈ numberOf bytes, 10 ≤ n := by simpa using hdigits
    rw [if_neg fun h => hdigits h.2]
    by_cases hnumber : IsIccid (digitsOf bytes)
    · rw [hsome hnumber]
      exact iff_of_false nofun fun h => h.filled hfilled hnumber
    · rw [hnone hnumber]
      exact iff_of_true rfl ⟨fun h => absurd h hdigits, fun _ => hnumber⟩

/-- A filler in the middle, and a number that does not begin with 89. -/
theorem readers_disagree :
    parseIccid [qccidLine [0x98, 0x68, 0x00, 0x3f, 0x30, 0x41, 0x10, 0x77, 0x10, 0x60]] = none
      ∧ decodeIccid [0x98, 0x68, 0x00, 0x3f, 0x30, 0x41, 0x10, 0x77, 0x10, 0x60]
        = .ok "8986003031401770106"
      ∧ parseIccid [qccidLine (replicate 10 0x11)] = some (replicate 20 '1')
      ∧ decodeIccid (replicate 10 0x11) = .error .emptyIccid := by
  decide +kernel

end VodogeEdge.Esim
