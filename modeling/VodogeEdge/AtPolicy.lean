import VodogeEdge.AgentCommand

/-!
# The AT console policy

`at_policy` of `edge-core`: which console commands are sent without the
caller saying `force`. The string is read once, as one line: after the
`AT` every segment between semicolons is classified by its first command.
-/

namespace VodogeEdge

open List

inductive DisruptiveKind where
  | radio
  | call
  | message
  | ussd
  | card
  | config
  | unrecognised
deriving DecidableEq

inductive AtRisk where
  | safe
  | disruptive (kind : DisruptiveKind)
deriving DecidableEq

/-- `WRITE_RISKS`: disruptive in their write form. -/
def writeRisks : List (String × DisruptiveKind) :=
  [("CFUN", .radio), ("COPS", .radio), ("CGATT", .radio), ("CEREG", .radio), ("CREG", .radio),
   ("QCFG", .config), ("CGACT", .radio), ("QIACT", .radio), ("QIDEACT", .radio),
   ("CNMI", .message), ("CMGS", .message), ("CMGW", .message), ("CMSS", .message),
   ("CMGD", .message), ("CNMA", .message), ("QCMGS", .message), ("CUSD", .ussd),
   ("CPIN", .card), ("CLCK", .card), ("CPWD", .card), ("CSIM", .card), ("CRSM", .card),
   ("CCHO", .card), ("CCHC", .card), ("CGLA", .card), ("QCCID", .card), ("EGMR", .config),
   ("QNVW", .config), ("QNVFW", .config), ("QFDEL", .config), ("QFUPL", .config),
   ("QLINUXCMD", .config), ("CGDCONT", .config), ("QPRTPARA", .config), ("QPOWD", .config),
   ("CRESET", .config), ("QFOTADL", .config), ("CSCA", .config)]

/-- `BARE_RISKS`: disruptive in any form. -/
def bareRisks : List (String × DisruptiveKind) :=
  [("D", .call), ("A", .call), ("H", .call), ("O", .call), ("&F", .config), ("&W", .config),
   ("Z", .config)]

/-- `AT` and what follows it; `A/` and `AT/` are not accepted. -/
def stripAtPrefix : Chars → Option Chars
  | 'A' :: 'T' :: '/' :: _ => none
  | 'A' :: 'T' :: rest => some rest
  | _ => none

/-- `CFUN=0` is `CFUN` and `=0`. -/
def splitName (extended : Chars) : Chars × Chars :=
  (extended.takeWhile Char.isAlphanum, extended.dropWhile Char.isAlphanum)

/-- What follows the name sets something: `=?` does not. -/
def isWrite : Chars → Bool
  | '=' :: value => trimBy isWhitespace value ≠ ['?']
  | _ => false

/-- One step of `max_by_key` on the length of the name: a later entry of
the same length wins. -/
def longer : Option (String × DisruptiveKind) → String × DisruptiveKind →
    Option (String × DisruptiveKind)
  | none, entry => some entry
  | some kept, entry => if kept.1.length ≤ entry.1.length then some entry else some kept

def longest (matching : List (String × DisruptiveKind)) : Option (String × DisruptiveKind) :=
  matching.foldl longer none

def bareRisk (segment : Chars) : Option DisruptiveKind :=
  (longest (bareRisks.filter fun entry => entry.1.toList.isPrefixOf segment)).map Prod.snd

def segmentRisk (segment : Chars) : Option DisruptiveKind :=
  match trimBy isWhitespace segment with
  | [] => none
  | '+' :: extended =>
    let (name, rest) := splitName extended
    if !isWrite rest then none
    else (writeRisks.find? fun entry => entry.1.toList = name).map Prod.snd
  | bare => bareRisk bare

/-- The command as both the policy and the port take it. -/
def trimmed (command : String) : Chars := trimBy isWhitespace command.toList

def classify (command : String) : AtRisk :=
  match stripAtPrefix ((trimmed command).map Char.toUpper) with
  | none => .disruptive .unrecognised
  | some body =>
    if body.isEmpty then .safe
    else
      match (body.splitOn ';').findSome? segmentRisk with
      | some kind => .disruptive kind
      | none => .safe

/-! ## What a safe command is -/

theorem isSome_foldl_longer : ∀ (matching : List (String × DisruptiveKind))
    kept, (matching.foldl longer (some kept)).isSome
  | [], _ => rfl
  | entry :: rest, kept => by
    rw [foldl_cons, longer]
    split
    · exact isSome_foldl_longer rest entry
    · exact isSome_foldl_longer rest kept

theorem longest_eq_none_iff {matching : List (String × DisruptiveKind)} :
    longest matching = none ↔ matching = [] := by
  cases matching with
  | nil => simp [longest]
  | cons first rest =>
    have hsome : (longest (first :: rest)).isSome := isSome_foldl_longer rest first
    simp only [reduceCtorEq, iff_false]
    exact Option.isSome_iff_ne_none.mp hsome

variable {segment : Chars}

theorem bareRisk_eq_none_iff :
    bareRisk segment = none ↔ ∀ entry ∈ bareRisks, ¬ entry.1.toList <+: segment := by
  simp only [bareRisk, Option.map_eq_none_iff, longest_eq_none_iff, filter_eq_nil_iff,
    isPrefixOf_iff_prefix]

theorem segmentRisk_of_bare {first : Char} {rest : Chars}
    (h : trimBy isWhitespace segment = first :: rest) (hfirst : first ≠ '+') :
    segmentRisk segment = bareRisk (first :: rest) := by
  unfold segmentRisk
  rw [h]
  split
  next hnil => cases hnil
  next hplus => exact absurd (List.cons.inj hplus).1 hfirst
  · rfl

theorem segmentRisk_of_extended {name value : Chars}
    (h : trimBy isWhitespace segment = '+' :: name ++ '=' :: value)
    (hname : ∀ c ∈ name, c.isAlphanum) :
    segmentRisk segment
      = if isWrite ('=' :: value) then
          (writeRisks.find? fun entry => entry.1.toList = name).map Prod.snd
        else none := by
  have htake : (name ++ '=' :: value).takeWhile Char.isAlphanum = name := by
    rw [takeWhile_append_of_pos hname]
    exact append_nil name
  have hdrop : (name ++ '=' :: value).dropWhile Char.isAlphanum = '=' :: value := by
    rw [dropWhile_append_of_pos hname]
    rfl
  unfold segmentRisk
  rw [h, cons_append]
  simp only [splitName, htake, hdrop]
  cases isWrite ('=' :: value) <;> rfl

theorem classify_safe_iff {command : String} :
    classify command = .safe ↔
      ∃ body, stripAtPrefix ((trimmed command).map Char.toUpper) = some body
        ∧ ∀ segment ∈ body.splitOn ';', segmentRisk segment = none := by
  unfold classify
  cases hstrip : stripAtPrefix ((trimmed command).map Char.toUpper) with
  | none => simp
  | some body =>
    dsimp only
    split
    next hempty =>
      rw [List.isEmpty_iff] at hempty
      subst hempty
      simp [segmentRisk, trimBy]
    · cases hrisk : (body.splitOn ';').findSome? segmentRisk with
      | some kind =>
        obtain ⟨segment, hmem, hkind⟩ := exists_of_findSome?_eq_some hrisk
        simp only [reduceCtorEq, false_iff, not_exists, not_and, Option.some_inj]
        rintro body rfl hnone
        rw [hnone segment hmem] at hkind
        cases hkind
      | none =>
        simp only [true_iff]
        exact ⟨body, rfl, findSome?_eq_none_iff.mp hrisk⟩

end VodogeEdge
