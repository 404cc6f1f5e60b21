import VodogeEdge.Apn

/-!
# A context in one line

A context whose values hold no quote is written in one line, the line splits
into the five fields again, and each field gives back its value. So a write
says one context, and a row shows the one it was printed from.
-/

namespace VodogeEdge.Apn

open List PdpContext

/-! ## Splitting -/

/-- A field is taken whole: it has no comma outside its quotes, and its quotes
are closed. -/
def Whole (field : Chars) : Prop :=
  ∀ current rest, splitFieldsFrom false current (field ++ rest)
    = splitFieldsFrom false (current ++ field) rest

variable {field : Chars} {value : Chars} (n : UInt8) {context : PdpContext}

theorem splitFieldsFrom_quoted (h : '"' ∉ value) (current rest : Chars) :
    splitFieldsFrom true current (value ++ rest)
      = splitFieldsFrom true (current ++ value) rest := by
  induction value generalizing current with
  | nil => rw [append_nil, nil_append]
  | cons c value ih =>
    rw [mem_cons, not_or] at h
    obtain ⟨hc, hvalue⟩ := h
    rw [cons_append, splitFieldsFrom, if_neg (Ne.symm hc), if_neg (by simp), ih hvalue,
      append_assoc]
    rfl

theorem whole_quote (h : '"' ∉ value) : Whole (quote value) := by
  intro current rest
  rw [quote, cons_append, splitFieldsFrom, append_assoc,
    show (!false) = true from rfl, splitFieldsFrom_quoted h, singleton_append, splitFieldsFrom]
  simp

theorem whole_of_plain (h : ∀ c ∈ field, c ≠ '"' ∧ c ≠ ',') : Whole field := by
  intro current rest
  induction field generalizing current with
  | nil => rw [append_nil, nil_append]
  | cons c field ih =>
    obtain ⟨⟨hquote, hcomma⟩, hfield⟩ := forall_mem_cons.mp h
    rw [cons_append, splitFieldsFrom, if_neg hquote, if_neg fun h => hcomma h.1, ih hfield,
      append_assoc]
    rfl

theorem splitFieldsFrom_intercalate {fields : List Chars} (hfield : Whole field)
    (hfields : ∀ f ∈ fields, Whole f) (current : Chars) :
    splitFieldsFrom false current ([','].intercalate (field :: fields))
      = (current ++ field) :: fields := by
  induction fields generalizing field current with
  | nil =>
    have hend := hfield current []
    rw [append_nil] at hend
    rw [intercalate_singleton, hend, splitFieldsFrom]
  | cons next fields ih =>
    obtain ⟨hnext, hlater⟩ := forall_mem_cons.mp hfields
    rw [intercalate_cons_cons, append_assoc, hfield, singleton_append,
      splitFieldsFrom, if_neg (by decide), if_pos ⟨rfl, rfl⟩, ih hnext hlater, nil_append]

/-! ## Numbers -/

theorem parseU8_toDigits (n : Nat) :
    parseU8 (Nat.toDigits 10 n) = if n ≤ 255 then some (UInt8.ofNat n) else none := by
  have hdigit : ∀ c ∈ Nat.toDigits 10 n, c.isDigit :=
    fun c => Nat.isDigit_of_mem_toDigits (by decide) (by decide)
  have hvalue : (Nat.toDigits 10 n).foldl (fun n c => 10 * n + (c.toNat - 48)) 0 = n :=
    Nat.ofDigitChars_toDigits (by decide) (by decide)
  unfold parseU8
  split
  next rest heq => cases hdigit '+' (heq ▸ mem_cons_self)
  next => simp [hvalue, show (Nat.toDigits 10 n).all Char.isDigit from
      all_eq_true.mpr hdigit]

theorem parseU8_decimal : parseU8 (decimal n) = some n := by
  rw [decimal, parseU8_toDigits, if_pos (Nat.le_of_lt_succ n.toNat_lt), UInt8.ofNat_toNat]

theorem decimal_injective : Function.Injective decimal := by
  intro n m h
  have hparsed := congrArg parseU8 h
  rw [parseU8_decimal, parseU8_decimal] at hparsed
  exact Option.some.inj hparsed

theorem isDigit_of_mem_decimal : ∀ c ∈ decimal n, c.isDigit :=
  fun _ => Nat.isDigit_of_mem_toDigits (by decide) (by decide)

theorem whole_decimal : Whole (decimal n) := by
  refine whole_of_plain fun c hc => ?_
  have hdigit := isDigit_of_mem_decimal n c hc
  constructor
  · rintro rfl
    cases hdigit
  · rintro rfl
    cases hdigit

theorem not_isWhitespace_of_isDigit {c : Char} (h : c.isDigit) : isWhitespace c = false := by
  simp only [Char.isDigit, Bool.and_eq_true, decide_eq_true_eq] at h
  obtain ⟨hlow, hhigh⟩ := h
  have h1 : 48 ≤ c.toNat := hlow
  have h2 : c.toNat ≤ 57 := hhigh
  simp [isWhitespace]
  omega

/-! ## The five fields -/

structure PdpContext.NoQuotes (context : PdpContext) : Prop where
  apn : '"' ∉ context.apn
  username : '"' ∉ context.username
  password : '"' ∉ context.password

def PdpContext.text (context : PdpContext) : Chars := [','].intercalate context.fields

section
variable {other : PdpContext}

theorem splitFieldsFrom_text (h : context.NoQuotes) (current : Chars) :
    splitFieldsFrom false current context.text
      = (current ++ decimal context.contextType) :: context.fields.tail := by
  refine splitFieldsFrom_intercalate (whole_decimal _) ?_ current
  intro field hfield
  simp only [mem_cons, not_mem_nil, or_false] at hfield
  rcases hfield with rfl | rfl | rfl | rfl
  · exact whole_quote h.apn
  · exact whole_quote h.username
  · exact whole_quote h.password
  · exact whole_decimal _

theorem quote_injective : Function.Injective quote := by
  intro value other h
  exact append_cancel_right (List.cons.inj h).2

theorem fields_injective : Function.Injective fields := by
  rintro ⟨type, apn, username, password, auth⟩ ⟨type', apn', username', password', auth'⟩ h
  simp only [fields, List.cons.injEq, and_true] at h
  obtain ⟨htype, hapn, husername, hpassword, hauth⟩ := h
  rw [decimal_injective htype, quote_injective hapn, quote_injective husername,
    quote_injective hpassword, decimal_injective hauth]

theorem text_eq (context : PdpContext) :
    context.text = decimal context.contextType ++ ',' :: (quote context.apn
      ++ ',' :: (quote context.username ++ ',' :: (quote context.password
      ++ ',' :: decimal context.auth))) := by
  simp [PdpContext.text, fields]

theorem count_decimal (n : UInt8) : (decimal n).count '"' = 0 := by
  refine count_eq_zero.mpr fun h => ?_
  cases isDigit_of_mem_decimal n '"' h

theorem count_text (context : PdpContext) :
    context.text.count '"' = 6 + context.apn.count '"' + context.username.count '"'
      + context.password.count '"' := by
  rw [text_eq]
  simp [quote, count_decimal]
  omega

theorem noQuotes_iff_count : context.NoQuotes ↔ context.text.count '"' = 6 := by
  rw [count_text]
  constructor
  · rintro ⟨hapn, husername, hpassword⟩
    rw [count_eq_zero.mpr hapn, count_eq_zero.mpr husername, count_eq_zero.mpr hpassword]
  · intro h
    exact ⟨count_eq_zero.mp (by omega), count_eq_zero.mp (by omega), count_eq_zero.mp (by omega)⟩

theorem eq_of_text_eq (h : context.text = other.text) (hother : other.NoQuotes) :
    context = other := by
  have hcontext : context.NoQuotes := by
    rw [noQuotes_iff_count, h]
    exact noQuotes_iff_count.mp hother
  have hsplit := congrArg (splitFieldsFrom false []) h
  rw [splitFieldsFrom_text hcontext, splitFieldsFrom_text hother] at hsplit
  exact fields_injective hsplit

theorem writeCommand_ne_readCommand (cid : UInt8) (context : PdpContext) :
    writeCommand cid context ≠ readCommand cid := by
  intro h
  cases append_right_eq_self.mp h

end

/-! ## The row of a context -/

def PdpContext.row (context : PdpContext) : Chars := rowStart ++ ' ' :: context.text

theorem row_eq (context : PdpContext) :
    context.row = '+' :: ("QICSGP:".toList ++ ' ' :: context.text) := by
  have hstart : rowStart = '+' :: "QICSGP:".toList := by decide +kernel
  rw [PdpContext.row, hstart, cons_append]

theorem trimBy_quote (value : Chars) : trimBy isWhitespace (quote value) = quote value := by
  have hne : quote value ≠ [] := cons_ne_nil _ _
  have hlast : (quote value).getLast hne = '"' := by simp [quote]
  have hblank : isWhitespace '"' = false := by decide
  refine trimBy_eq_self_of_ends hne hblank ?_
  rw [hlast, hblank]

theorem unquote_quote (h : '"' ∉ value) : unquote (quote value) = value := by
  have hdrop : (quote value).dropWhile (· = '"') = (value ++ ['"']).dropWhile (· = '"') :=
    dropWhile_cons_of_pos (by decide)
  rw [unquote, trimBy_quote, hdrop]
  cases value with
  | nil => rfl
  | cons c value =>
    rw [mem_cons, not_or] at h
    rw [cons_append, dropWhile_cons_of_neg (by simpa using Ne.symm h.1),
      ← cons_append, rdropWhile_concat_pos _ _ _ (by decide),
      rdropWhile_eq_self_iff]
    intro hne hlast
    have hmem := getLast_mem hne
    rw [of_decide_eq_true hlast] at hmem
    rcases mem_cons.mp hmem with hmem | hmem
    · exact h.1 hmem
    · exact h.2 hmem

theorem trimBy_decimal (n : UInt8) : trimBy isWhitespace (decimal n) = decimal n :=
  trimBy_eq_self fun c hc => not_isWhitespace_of_isDigit (isDigit_of_mem_decimal n c hc)

theorem trimBy_row (context : PdpContext) : trimBy isWhitespace context.row = context.row := by
  -- the row ends in the code of its method
  have hend : ∃ front, context.row = '+' :: front ++ decimal context.auth := by
    rw [row_eq, text_eq]
    refine ⟨"QICSGP:".toList ++ ' ' :: (decimal context.contextType ++ ',' :: (quote context.apn
      ++ ',' :: (quote context.username ++ ',' :: (quote context.password ++ [','])))), ?_⟩
    simp
  obtain ⟨front, hfront⟩ := hend
  rw [hfront]
  have hne : '+' :: front ++ decimal context.auth ≠ [] := cons_ne_nil _ _
  refine trimBy_eq_self_of_ends hne (show isWhitespace '+' = false by decide) ?_
  rw [getLast_append_of_ne_nil hne (Nat.toDigits_ne_nil)]
  exact not_isWhitespace_of_isDigit (isDigit_of_mem_decimal _ _ (getLast_mem _))

def PdpContext.credentials (context : PdpContext) : ApnCredentials where
  apn := context.apn
  username := context.username
  hasPassword := context.password ≠ []
  auth := ApnAuth.fromCode context.auth
  contextType := some context.contextType
  password := context.password

theorem credentialsOf_fields (h : context.NoQuotes) :
    credentialsOf ((' ' :: decimal context.contextType) :: context.fields.tail)
      = context.credentials := by
  have htype : trimBy isWhitespace (' ' :: decimal context.contextType)
      = decimal context.contextType := trimBy_decimal context.contextType
  simp [credentialsOf, credentials, fields, unquote_quote h.apn,
    unquote_quote h.username, unquote_quote h.password, trimBy_decimal, htype, parseU8_decimal]

theorem parseQicsgp_row (h : context.NoQuotes) (lines : List Chars) :
    parseQicsgp (context.row :: lines) = some context.credentials := by
  have hstrip : strip rowStart context.row = some (' ' :: context.text) := by
    have hstarts : rowStart.isPrefixOf context.row :=
      isPrefixOf_iff_prefix.mpr (prefix_append _ _)
    rw [strip, if_pos hstarts, PdpContext.row, drop_left]
  rw [parseQicsgp, trimBy_row, hstrip]
  dsimp only
  rw [splitFields, splitFieldsFrom, if_neg (by decide), if_neg (by decide),
    splitFieldsFrom_text h, ← credentialsOf_fields h]
  rfl

end VodogeEdge.Apn
