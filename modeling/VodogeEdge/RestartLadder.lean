import VodogeEdge.Restart

/-!
# What a restart keeps to

Every run of `restartRadio`, against any module, is a climb and a read-back:
the climb asks for nothing but low power and online and follows an accepted
`AT+CFUN=0` with `AT+CFUN=1`, and what comes behind the last `AT+CFUN?` only
reads. Each rung is shown to be so by itself, whatever happened before it.
-/

namespace VodogeEdge.Restart

open List

open Logged

/-! ## Kinds of interactions -/

def Interaction.IsRead : Interaction → Prop
  | .operatingMode _ | .readFunctionality _ | .readCardState _ | .readCardEvidence _ => True
  | _ => False

def Interaction.IsPause : Interaction → Prop
  | .pause _ => True
  | _ => False

def Interaction.ReadsFunctionality : Interaction → Prop
  | .readFunctionality _ => True
  | _ => False

/-- No mode but low power and online, no functionality but 0 and 1. -/
def Interaction.Allowed : Interaction → Prop
  | .setOperatingMode mode _ => mode = .lowPower ∨ mode = .online
  | .writeFunctionality value _ => value = cfunMinimum ∨ value = cfunFull
  | _ => True

/-- Every accepted `AT+CFUN=0` is followed by an `AT+CFUN=1`, taken or not. -/
def Relit (log : List Interaction) : Prop :=
  ∀ before after, log = before ++ .writeFunctionality cfunMinimum (.ok true) :: after →
    ∃ answer, .writeFunctionality cfunFull answer ∈ after

/-! ## Climbs -/

structure Climbs (bound : Nat) (log : List Interaction) : Prop where
  length_le : log.length ≤ bound
  allowed : ∀ interaction ∈ log, interaction.Allowed
  relit : Relit log

theorem climbs_nil : Climbs 0 [] where
  length_le := Nat.le_refl 0
  allowed _ hmem := absurd hmem not_mem_nil
  relit before after h := absurd h (by simp)

variable {α : Type} {P : α → Prop} {log : List Interaction} {bound more : Nat}
  {interaction : Interaction} {report : RestartReport}

theorem Climbs.weaken (h : Climbs bound log) (hle : bound ≤ more) : Climbs more log :=
  { h with length_le := Nat.le_trans h.length_le hle }

/-- What a climb may do at any time. -/
def Interaction.climbs : Interaction → Bool
  | .setOperatingMode mode _ => mode = .lowPower || mode = .online
  | .writeFunctionality value _ => value = cfunFull
  | _ => true

theorem Climbs.cons (h : Climbs bound log)
    (hclimbs : interaction.climbs) : Climbs (bound + 1) (interaction :: log) where
  length_le := Nat.succ_le_succ h.length_le
  allowed := by
    refine forall_mem_cons.mpr ⟨?_, h.allowed⟩
    cases interaction with
    | setOperatingMode => simpa [Interaction.climbs, Interaction.Allowed] using hclimbs
    | writeFunctionality => exact .inr (of_decide_eq_true hclimbs)
    | _ => trivial
  relit before after hsplit := by
    cases before with
    | nil =>
      rw [(List.cons.inj hsplit).1] at hclimbs
      cases hclimbs
    | cons first before => exact h.relit before after (List.cons.inj hsplit).2

theorem Climbs.cycle (h : Climbs bound log) {answer : Except String Bool}
    (hmem : .writeFunctionality cfunFull answer ∈ log) :
    Climbs (bound + 1) (.writeFunctionality cfunMinimum (.ok true) :: log) where
  length_le := Nat.succ_le_succ h.length_le
  allowed := forall_mem_cons.mpr ⟨.inl rfl, h.allowed⟩
  relit before after hsplit := by
    cases before with
    | nil =>
      cases hsplit
      exact ⟨answer, hmem⟩
    | cons first before => exact h.relit before after (List.cons.inj hsplit).2

theorem Climbs.append {log later : List Interaction} (h : Climbs bound log)
    (hlater : Climbs more later) : Climbs (more + bound) (log ++ later) where
  length_le := by
    rw [length_append, Nat.add_comm]
    exact Nat.add_le_add hlater.length_le h.length_le
  allowed interaction hmem :=
    (mem_append.mp hmem).elim (h.allowed interaction) (hlater.allowed interaction)
  relit before after hsplit := by
    rcases append_eq_append_iff.mp hsplit with ⟨more, rfl, hmore⟩ | ⟨rest, rfl, hrest⟩
    · exact hlater.relit more after hmore
    · cases rest with
      | nil => exact hlater.relit [] after hrest.symm
      | cons first rest =>
        cases hrest
        obtain ⟨answer, hmem⟩ := h.relit before rest rfl
        exact ⟨answer, mem_append_left _ hmem⟩

/-! ## Rungs -/

theorem adds_ask (answer : List Interaction → α) (entry : α → Interaction) :
    Adds (fun added result => ∃ a, added = [entry a] ∧ result = .ok a) (ask answer entry) :=
  fun log => ⟨[entry (answer log)], rfl, answer log, rfl, rfl⟩

/-- A part of the ladder: a climb that does not fail, with a result that is
so. -/
def Rung {α : Type} (P : α → Prop) (bound : Nat) (added : List Interaction)
    (result : Except RestartError α) : Prop :=
  Climbs bound added ∧ ∃ value, result = .ok value ∧ P value

theorem Rung.weaken {added : List Interaction} {result : Except RestartError α}
    (h : Rung P bound added result) (hle : bound ≤ more) : Rung P more added result :=
  ⟨h.1.weaken hle, h.2⟩

theorem Adds.rung {α β : Type} {P : α → Prop} {Q : β → Prop} {m : Ladder α} {next : α → Ladder β}
    (hm : Adds (Rung P bound) m) (hnext : ∀ value, P value → Adds (Rung Q more) (next value)) :
    Adds (Rung Q (more + bound)) (m >>= next) := by
  refine hm.bind ?_ ?_
  · rintro added error ⟨-, value, ⟨⟩, -⟩
  · rintro first value ⟨hfirst, _, ⟨⟩, hvalue⟩
    refine (hnext value hvalue).mono ?_
    rintro added result ⟨hclimbs, hok⟩
    exact ⟨hfirst.append hclimbs, hok⟩

theorem adds_rung_pure (bound : Nat) {value : α} (h : P value) :
    Adds (Rung P bound) (pure value : Ladder α) :=
  adds_pure ⟨climbs_nil.weaken (Nat.zero_le _), value, rfl, h⟩

theorem adds_climb {answer : List Interaction → α} {entry : α → Interaction}
    (h : ∀ a, (entry a).climbs) : Adds (Rung (fun _ => True) 1) (ask answer entry) := by
  refine (adds_ask _ _).mono ?_
  rintro _ _ ⟨a, rfl, rfl⟩
  exact ⟨climbs_nil.cons (h a), a, rfl, trivial⟩

def RestartReport.Unread (report : RestartReport) : Prop := report.modeAfter = none

theorem RestartReport.Unread.push (h : report.Unread) (step : String) :
    (report.push step).Unread := h

section Rungs

variable (radio : ModuleRadio)

theorem adds_pollFull : ∀ left {report : RestartReport}, report.Unread →
    Adds (Rung (fun value : Bool × RestartReport => value.2.Unread) (2 * left - 1))
      (pollFull radio left report)
  | 0, report, hreport => adds_rung_pure _ hreport
  | left + 1, report, hreport => by
    have hbound : Adds (Rung (fun value : Bool × RestartReport => value.2.Unread) (2 * left + 1))
        (pollFull radio (left + 1) report) := by
      refine Adds.rung (adds_climb fun _ => rfl) fun answer _ => ?_
      split
      · exact adds_rung_pure _ (hreport.push _)
      · split
        · exact adds_rung_pure _ hreport
        · split
          next hleft =>
            rw [show 2 * left = 2 * left - 1 + 1 by omega]
            exact Adds.rung (adds_climb fun _ => rfl) fun _ _ => adds_pollFull left hreport
          next hleft => exact (adds_pollFull left hreport).mono fun _ _ h => h.weaken (by omega)
    exact hbound.mono fun _ _ h => h.weaken (by omega)

variable (hreport : report.Unread)
include hreport

theorem adds_waitForFull :
    Adds (Rung (fun value : Bool × RestartReport => value.2.Unread) 15)
      (waitForFull radio report) :=
  adds_pollFull radio settleAttempts hreport

theorem adds_waitForFull_report :
    Adds (Rung RestartReport.Unread 15) (do
      let (_, report) ← waitForFull radio report
      pure report) :=
  Adds.rung (adds_waitForFull radio hreport) fun _ hvalue => adds_rung_pure 0 hvalue

theorem adds_waitForFull_or {next : RestartReport → Ladder RestartReport}
    (hnext : ∀ {report : RestartReport}, report.Unread →
      Adds (Rung RestartReport.Unread bound) (next report)) :
    Adds (Rung RestartReport.Unread (bound + 15)) (do
      let (full, report) ← waitForFull radio report
      if full then pure report else next report) := by
  refine Adds.rung (adds_waitForFull radio hreport) fun value hvalue => ?_
  dsimp only
  split
  · exact adds_rung_pure _ hvalue
  · exact hnext hvalue

/-- The cycle: whatever becomes of it, `AT+CFUN=1` follows `AT+CFUN=0`. -/
theorem adds_cycleFunctionality :
    Adds (Rung RestartReport.Unread 18) (cycleFunctionality radio report) := by
  refine Adds.entry (adds_ask _ _) fun answer => ?_
  have hrefused (hanswer : answer ≠ .ok true) {report : RestartReport} (hreport : report.Unread) :
      Adds (fun later => Rung RestartReport.Unread 18
        (.writeFunctionality cfunMinimum answer :: later))
        (pure report) := by
    refine adds_pure ⟨⟨by simp, forall_mem_singleton.mpr (.inl rfl), fun before after hsplit => ?_⟩,
      report, rfl, hreport⟩
    have hmem : Interaction.writeFunctionality cfunMinimum (.ok true)
        ∈ [Interaction.writeFunctionality cfunMinimum answer] := hsplit ▸ mem_append_cons_self
    exact absurd (Interaction.writeFunctionality.inj (mem_singleton.mp hmem)).2.symm hanswer
  split
  · exact hrefused (by simp) (hreport.push _)
  · exact hrefused (by simp) (hreport.push _)
  · refine Adds.entry (adds_ask _ _) fun _ => Adds.entry (adds_ask _ _) fun full => ?_
    have hcycle {bound : Nat} {added : List Interaction} (hbound : bound ≤ 15)
        (h : Climbs bound added) : Climbs 18 (.writeFunctionality cfunMinimum (.ok true)
          :: .pause cfunCycleGap :: .writeFunctionality cfunFull full :: added) :=
      (((h.cons rfl).cons rfl).cycle (mem_cons_of_mem _ mem_cons_self)).weaken (by omega)
    split
    · exact (adds_waitForFull_report radio ((hreport.push _).push _)).mono fun added result h =>
        ⟨hcycle (by decide) h.1, h.2⟩
    · exact adds_pure ⟨hcycle (by decide) climbs_nil, _, rfl, hreport⟩
    · exact adds_pure ⟨hcycle (by decide) climbs_nil, _, rfl, hreport⟩

theorem adds_plainFunctionality :
    Adds (Rung RestartReport.Unread 34) (plainFunctionality radio report) := by
  refine Adds.rung (adds_climb fun _ => rfl) fun answer _ => ?_
  split
  · exact adds_waitForFull_or radio (hreport.push _) (adds_cycleFunctionality radio)
  · exact (adds_cycleFunctionality radio (hreport.push _)).mono fun _ _ h => h.weaken (by decide)
  · exact adds_rung_pure _ (hreport.push _)

theorem adds_climbBack : Adds (Rung RestartReport.Unread 51) (climbBack radio report) := by
  refine Adds.rung (adds_climb fun _ => rfl) fun _ _ =>
    Adds.rung (adds_climb fun _ => rfl) fun answer _ => ?_
  split
  · exact adds_waitForFull_or radio (hreport.push _) (adds_plainFunctionality radio)
  · exact (adds_plainFunctionality radio (hreport.push _)).mono fun _ _ h => h.weaken (by decide)

theorem adds_bringUp : Adds (Rung RestartReport.Unread 67) (bringUp radio report) := by
  refine Adds.rung (adds_climb fun _ => rfl) fun answer _ => ?_
  split
  · exact (adds_climbBack radio (hreport.push _)).mono fun _ _ h => h.weaken (by decide)
  · exact adds_waitForFull_or radio (hreport.push _) (adds_climbBack radio)

end Rungs

/-! ## The read-back -/

def Interaction.IsQuiet (interaction : Interaction) : Prop :=
  (interaction.IsRead ∨ interaction.IsPause) ∧ ¬ interaction.ReadsFunctionality

/-- Reads of the card: how many, and that `READY` was read if it is what is
returned. -/
def ReadsCard (bound : Nat) (added : List Interaction)
    (result : Except RestartError (Except String CardState × RestartReport)) : Prop :=
  added.length ≤ bound ∧ (∀ interaction ∈ added, interaction.IsQuiet)
    ∧ ∃ answer report, result = .ok (answer, report)
      ∧ (answer = .ok .ready → .readCardState (.ok .ready) ∈ added)

theorem isQuiet_readCardState (answer : Except String CardState) :
    (Interaction.readCardState answer).IsQuiet := ⟨.inl trivial, not_false⟩

theorem isQuiet_pause (milliseconds : Nat) : (Interaction.pause milliseconds).IsQuiet :=
  ⟨.inr trivial, not_false⟩

variable {added : List Interaction}
  {result : Except RestartError (Except String CardState × RestartReport)}

theorem ReadsCard.cons (h : ReadsCard bound added result) (hquiet : interaction.IsQuiet) :
    ReadsCard (bound + 1) (interaction :: added) result := by
  obtain ⟨hlength, hquiets, answer, report, hresult, hready⟩ := h
  exact ⟨Nat.succ_le_succ hlength, forall_mem_cons.mpr ⟨hquiet, hquiets⟩, answer, report,
    hresult, fun h => mem_cons_of_mem _ (hready h)⟩

theorem ReadsCard.weaken (h : ReadsCard bound added result)
    (hle : bound ≤ more) : ReadsCard more added result :=
  ⟨Nat.le_trans h.1 hle, h.2⟩

theorem isReady_iff {state : CardState} : state.isReady ↔ state = .ready := by
  cases state <;> simp [CardState.isReady]

theorem adds_pollCard (radio : ModuleRadio) : ∀ left {last : Option CardState}
    report, last ≠ some .ready →
    Adds (ReadsCard (2 * left - 1)) (pollCard radio left last report)
  | 0, last, report, hlast => by
    refine adds_pure ⟨Nat.le_refl 0, by simp, _, _, rfl, ?_⟩
    cases last with
    | none => simp
    | some state => exact fun h => absurd (congrArg some (Except.ok.inj h)) hlast
  | left + 1, last, report, hlast => by
    refine Adds.entry (adds_ask _ _) fun answer => ?_
    cases answer with
    | error reason =>
      refine adds_pure ⟨?_, forall_mem_singleton.mpr (isQuiet_readCardState _), _, _, rfl, by simp⟩
      rw [length_singleton]
      omega
    | ok state =>
      dsimp only
      split
      · refine adds_pure ⟨?_, forall_mem_singleton.mpr (isQuiet_readCardState _), _, _, rfl, ?_⟩
        · rw [length_singleton]
          omega
        · rintro ⟨⟩
          exact mem_singleton_self _
      next hwaits =>
        have hnext : some state ≠ some CardState.ready := by
          rintro ⟨⟩
          exact hwaits rfl
        split
        next hleft =>
          refine Adds.entry (adds_ask _ _) fun _ => (adds_pollCard radio left _ hnext).mono ?_
          exact fun _ _ h => ((h.cons (isQuiet_pause _)).cons
            (isQuiet_readCardState _)).weaken (by omega)
        next hleft =>
          refine (adds_pollCard radio left _ hnext).mono fun _ _ h => ?_
          exact (h.cons (isQuiet_readCardState _)).weaken (by omega)

def Quiet (bound : Nat) (added : List Interaction) (result : Except RestartError RestartReport) :
    Prop :=
  added.length ≤ bound ∧ (∀ interaction ∈ added, interaction.IsQuiet)
    ∧ ∀ report, result = .ok report → .readCardState (.ok .ready) ∈ added

theorem adds_checkCard (radio : ModuleRadio) (report : RestartReport) :
    Adds (Quiet 40) (checkCard radio report) := by
  refine Adds.bind (adds_pollCard radio cardAttempts report (by simp)) ?_ ?_
  · rintro added error ⟨-, -, _, _, ⟨⟩, -⟩
  · rintro added _ ⟨hlength, hquiet, answer, report, ⟨⟩, hready⟩
    have hlength : added.length ≤ 39 := hlength
    cases answer with
    | error reason =>
      refine adds_ofExcept ⟨?_, ?_, by simp⟩
      · rw [append_nil]
        omega
      · rwa [append_nil]
    | ok card =>
      refine Adds.entry (adds_ask _ _) fun evidence => ?_
      have hcount : (added ++ [Interaction.readCardEvidence evidence]).length ≤ 40 := by
        rw [length_append, length_singleton]
        omega
      have hquiets : ∀ interaction ∈ added ++ [Interaction.readCardEvidence evidence],
          interaction.IsQuiet := by
        refine forall_mem_append.mpr ⟨hquiet, forall_mem_singleton.mpr ?_⟩
        exact ⟨.inl trivial, not_false⟩
      split
      next hcard =>
        refine adds_pure ⟨hcount, hquiets, fun _ _ => mem_append_left _ (hready ?_)⟩
        rw [isReady_iff.mp hcard]
      · exact adds_ofExcept ⟨hcount, hquiets, by simp⟩

/-- The last `AT+CFUN?` and what follows: nothing that changes anything, and
no `Ok` and no word of a radio that is back without both readings. -/
def ReadsBack (added : List Interaction) (result : Except RestartError RestartReport) : Prop :=
  ∃ reading tail, added = .readFunctionality reading :: tail ∧ tail.length ≤ 41
    ∧ (∀ interaction ∈ tail, interaction.IsQuiet)
    ∧ (∀ report, result = .ok report → reading = .ok (some cfunFull)
      ∧ ∃ between card, tail = between ++ .operatingMode (.ok .online) :: card
        ∧ .readCardState (.ok .ready) ∈ card)
    ∧ ∀ error, result = .error error → error.radioRestored →
      reading = .ok (some cfunFull) ∧ .operatingMode (.ok .online) ∈ tail

theorem readsBack_alone (reading : Except String (Option UInt8)) {error : RestartError}
    (h : error.radioRestored = false) : ReadsBack [.readFunctionality reading] (.error error) := by
  refine ⟨reading, [], rfl, Nat.zero_le _, by simp, by simp, ?_⟩
  rintro _ ⟨⟩ hrestored
  rw [h] at hrestored
  cases hrestored

theorem adds_readBack (radio : ModuleRadio) (hreport : report.Unread) :
    Adds ReadsBack (readBack radio report) := by
  refine Adds.entry (adds_ask _ _) fun reading => ?_
  cases reading with
  | error reason => exact adds_ofExcept (readsBack_alone _ rfl)
  | ok after =>
    refine Adds.entry (adds_ask _ _) fun mode => ?_
    have hmode : (Interaction.operatingMode mode).IsQuiet := ⟨.inl trivial, not_false⟩
    -- the readings say that the radio is not back
    have hfailed {error : RestartError} (herror : error.radioRestored = false) :
        Adds (fun later => ReadsBack (.readFunctionality (.ok after) :: .operatingMode mode
          :: later)) (.ofExcept (.error error)) := by
      refine adds_ofExcept ⟨_, _, rfl, by simp, forall_mem_singleton.mpr hmode, by simp, ?_⟩
      rintro _ ⟨⟩ hrestored
      rw [herror] at hrestored
      cases hrestored
    by_cases hoffline : after = some cfunOffline
    · rw [if_pos hoffline]
      exact hfailed rfl
    rw [if_neg hoffline]
    by_cases hfull : after = some cfunFull
    · rw [if_neg (not_not.mpr hfull)]
      cases mode with
      | error reason =>
        dsimp only
        split
        · exact hfailed rfl
        next hboth => exact absurd (hreport.symm.trans (not_not.mp hboth)) (by simp)
      | ok mode =>
        dsimp only
        split
        · exact hfailed rfl
        next hboth =>
          obtain rfl : mode = .online := Option.some.inj (not_not.mp hboth)
          subst hfull
          refine (adds_checkCard radio _).mono ?_
          rintro added result ⟨hlength, hquiets, hready⟩
          refine ⟨_, _, rfl, Nat.succ_le_succ hlength, forall_mem_cons.mpr ⟨hmode, hquiets⟩, ?_, ?_⟩
          · exact fun report hok => ⟨rfl, [], added, rfl, hready report hok⟩
          · exact fun _ _ _ => ⟨rfl, mem_cons_self⟩
    · rw [if_pos hfull]
      exact hfailed rfl

/-! ## Whole restarts -/

theorem climbs_of_isQuiet (h : ∀ interaction ∈ log, interaction.IsQuiet) :
    Climbs log.length log := by
  induction log with
  | nil => exact climbs_nil
  | cons interaction log ih =>
    obtain ⟨⟨hquiet, -⟩, hlog⟩ := forall_mem_cons.mp h
    refine (ih hlog).cons ?_
    cases interaction with
    | setOperatingMode | writeFunctionality =>
      exact absurd hquiet (not_or.mpr ⟨not_false, not_false⟩)
    | _ => rfl

def KeepsWord (log : List Interaction) (result : Except RestartError RestartReport) : Prop :=
  ∃ front back, log = front ++ back ∧ Climbs 69 front ∧ ReadsBack back result

theorem adds_restartRadio (radio : ModuleRadio) : Adds KeepsWord (restartRadio radio) := by
  refine Adds.entry (adds_ask _ _) fun before => ?_
  cases before with
  | error reason =>
    exact adds_ofExcept ⟨[], _, rfl, climbs_nil.weaken (by decide), readsBack_alone _ rfl⟩
  | ok before =>
    dsimp only
    split
    · exact adds_ofExcept ⟨[], _, rfl, climbs_nil.weaken (by decide), readsBack_alone _ rfl⟩
    · refine Adds.entry (adds_ask _ _) fun lowered => ?_
      cases lowered with
      | error reason =>
        refine Adds.entry (adds_ask _ _) fun after => adds_ofExcept ?_
        exact ⟨[_, _], _, rfl, ((climbs_nil.cons rfl).cons rfl).weaken (by decide),
          readsBack_alone _ rfl⟩
      | ok lowered =>
        have hreport : (({ cfunBefore := before } : RestartReport).push
            ("before " ++ describeCfun before)).Unread := rfl
        refine (adds_bringUp radio (hreport.push _)).bind ?_ ?_
        · rintro added error ⟨-, _, ⟨⟩, -⟩
        · rintro added report ⟨hclimbs, _, ⟨⟩, hunread⟩
          refine (adds_readBack radio hunread).mono fun back result hback => ?_
          exact ⟨_ :: _ :: added, back, rfl, (hclimbs.cons rfl).cons rfl, hback⟩

/-- Whatever the module answers: the log ends with a last `AT+CFUN?` and
nothing but reads and pauses behind it; `Ok` is returned only if it read
`+CFUN: 1`, the mode online behind it and the card ready behind that, and an
error says that the radio is back only with the same two readings. Only low
power, online, `AT+CFUN=0` and `AT+CFUN=1` are asked for, an accepted
`AT+CFUN=0` is followed by an `AT+CFUN=1`, in at most 111 interactions. -/
theorem restartRadio_keeps_word (radio : ModuleRadio) :
    ∃ log result, (restartRadio radio).run [] = (result, log)
      ∧ log.length ≤ 111
      ∧ (∀ interaction ∈ log, interaction.Allowed)
      ∧ Relit log
      ∧ ∃ front reading tail, log = front ++ .readFunctionality reading :: tail
        ∧ (∀ interaction ∈ tail, (interaction.IsRead ∨ interaction.IsPause)
          ∧ ¬ interaction.ReadsFunctionality)
        ∧ (∀ report, result = .ok report → reading = .ok (some cfunFull)
          ∧ ∃ between card, tail = between ++ .operatingMode (.ok .online) :: card
            ∧ .readCardState (.ok .ready) ∈ card)
        ∧ ∀ error, result = .error error → error.radioRestored →
          reading = .ok (some cfunFull) ∧ .operatingMode (.ok .online) ∈ tail := by
  obtain ⟨front, back, hlog, hfront, reading, tail, rfl, hlength, hquiet, hok, herror⟩ :=
    (adds_restartRadio radio).run_nil
  have hback : Climbs 42 (.readFunctionality reading :: tail) :=
    ((climbs_of_isQuiet hquiet).cons rfl).weaken (Nat.succ_le_succ hlength)
  have hclimbs := hfront.append hback
  have hrun : (restartRadio radio).run []
      = (((restartRadio radio).run []).1, front ++ .readFunctionality reading :: tail) :=
    Prod.ext rfl hlog
  exact ⟨_, _, hrun, hclimbs.length_le, hclimbs.allowed, hclimbs.relit, front, reading, tail, rfl,
    hquiet, hok, herror⟩

/-! ## What is sent, and what was read before it -/

def Interaction.Changes : Interaction → Prop
  | .setOperatingMode _ _ | .writeFunctionality _ _ => True
  | _ => False

/-- All that is sent to the radio comes behind an `AT+CFUN?` that was
answered with a value, and not with 7. -/
def Checked (log : List Interaction) : Prop :=
  ∀ before change after, log = before ++ change :: after → change.Changes →
    ∃ value, value ≠ cfunOffline ∧ .readFunctionality (.ok (some value)) ∈ before

theorem checked_of_not_changes (h : ∀ interaction ∈ log, ¬ interaction.Changes) : Checked log := by
  intro before change after hlog hchange
  exact absurd hchange (h change (hlog ▸ mem_append_cons_self))

theorem checked_cons {value : UInt8} (h : value ≠ cfunOffline) (rest : List Interaction) :
    Checked (.readFunctionality (.ok (some value)) :: rest) := by
  intro before change after hlog hchange
  cases before with
  | nil =>
    cases hlog
    exact hchange.elim
  | cons first before =>
    cases hlog
    exact ⟨value, h, mem_cons_self⟩

/-- A module without a `+CFUN` line in its first answer is taken to low power
all the same; only an answer that cannot be read keeps the radio as it is. -/
theorem restartRadio_checked_iff (radio : ModuleRadio) :
    (Checked ((restartRadio radio).run []).2
      ∧ ((∀ value, radio.readFunctionality [] ≠ .ok (some value)) →
        ∀ interaction ∈ ((restartRadio radio).run []).2, ¬ interaction.Changes)) ↔
      radio.readFunctionality [] ≠ .ok none := by
  have hfirst : (readFunctionality radio).run [] = (.ok (radio.readFunctionality []),
      [.readFunctionality (radio.readFunctionality [])]) := rfl
  have hquiet : ∀ answer, ∀ interaction ∈ [Interaction.readFunctionality answer],
      ¬ interaction.Changes := by simp [Interaction.Changes]
  unfold restartRadio
  rw [run_bind_of_ok hfirst]
  rcases radio.readFunctionality [] with reason | _ | value
  · exact iff_of_true ⟨checked_of_not_changes (hquiet _), fun _ => hquiet _⟩ (by simp)
  · -- low power is the second thing that goes to the module
    refine iff_of_false (fun ⟨_, hnothing⟩ => ?_) (by simp)
    have hsent : Interaction.setOperatingMode .lowPower _
        ∈ ((setOperatingMode radio .lowPower).run [.readFunctionality (.ok none)]).2 :=
      mem_append_right _ mem_cons_self
    exact hnothing (by simp) _ (mem_bind_of_mem hsent _) trivial
  · refine iff_of_true ⟨?_, fun h => absurd rfl (h value)⟩ (by simp)
    by_cases hoffline : value = cfunOffline
    · simpa [hoffline] using checked_of_not_changes (hquiet _)
    · obtain ⟨rest, hrest⟩ := Logged.keeps _ _
      rw [← hrest]
      exact checked_cons hoffline rest

/-- A module that answers everything and never prints a `+CFUN` line. -/
theorem lowPower_unchecked : let radio : ModuleRadio := {
      operatingMode := fun _ => .ok .online
      setOperatingMode := fun _ _ => .ok ()
      readFunctionality := fun _ => .ok none
      writeFunctionality := fun _ _ => .ok true
      readCardState := fun _ => .ok .ready
      readCardEvidence := fun _ => {} }
    ((restartRadio radio).run []).2.take 2
      = [.readFunctionality (.ok none), .setOperatingMode .lowPower (.ok ())] := by
  decide +kernel

end VodogeEdge.Restart
