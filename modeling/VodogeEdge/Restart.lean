import VodogeEdge.Logged

/-!
# A radio restart

`restart_radio`: one module is taken to low power and brought back, over QMI
and AT, and read back before anything is believed. The module is arbitrary:
every answer it gives is a function of all that happened before. What goes
between it and the ladder is the log.
-/

namespace VodogeEdge.Restart

inductive OperatingMode where
  | online
  | lowPower
  | factoryTest
  | offline
  | resetting
  | shuttingDown
  | persistentLowPower
  | modeOnlyLowPower
  | unknown (value : UInt8)
deriving DecidableEq

/-- What the card says about itself, as read from `AT+CPIN?`. -/
inductive CardState where
  | ready
  | initialising
  | absent (code : UInt16)
  | locked (code : String)
  | unknown (text : String)
deriving DecidableEq

def CardState.isReady : CardState → Bool
  | .ready => true
  | _ => false

/-- Whether polling again could plausibly change the answer. -/
def CardState.waitingCanHelp : CardState → Bool
  | .ready | .locked _ => false
  | _ => true

def CardState.display : CardState → String
  | .ready => "+CPIN: READY"
  | .initialising => "+CME ERROR: 14 (SIM busy, initialising)"
  | .absent code => "+CME ERROR: " ++ toString code.toNat ++ " (no usable card)"
  | .locked code => "+CPIN: " ++ code ++ " (waiting for a code)"
  | .unknown text => "unrecognised +CPIN answer: " ++ text

structure CardEvidence where
  inserted : Option Bool := none
  initStatus : Option UInt8 := none
deriving DecidableEq

/-! ## The module -/

inductive Interaction where
  | operatingMode (answer : Except String OperatingMode)
  | setOperatingMode (mode : OperatingMode) (answer : Except String Unit)
  | readFunctionality (answer : Except String (Option UInt8))
  | writeFunctionality (value : UInt8) (answer : Except String Bool)
  | readCardState (answer : Except String CardState)
  | readCardEvidence (answer : CardEvidence)
  | pause (milliseconds : Nat)
deriving DecidableEq

/-- The two control paths of one module; each answer depends on all that
happened before it. -/
structure ModuleRadio where
  operatingMode : List Interaction → Except String OperatingMode
  setOperatingMode : List Interaction → OperatingMode → Except String Unit
  readFunctionality : List Interaction → Except String (Option UInt8)
  writeFunctionality : List Interaction → UInt8 → Except String Bool
  readCardState : List Interaction → Except String CardState
  readCardEvidence : List Interaction → CardEvidence

structure RestartReport where
  cfunBefore : Option UInt8 := none
  cfunAfter : Option UInt8 := none
  modeAfter : Option OperatingMode := none
  cardAfter : Option CardState := none
  cardEvidence : CardEvidence := {}
  steps : List String := []
deriving DecidableEq

def RestartReport.push (report : RestartReport) (step : String) : RestartReport :=
  { report with steps := report.steps ++ [step] }

inductive RestartError where
  | unverifiable (reason : String)
  | port (step reason : String) (report : RestartReport)
  | alreadyStranded (report : RestartReport)
  | stranded (report : RestartReport)
  | notRestored (report : RestartReport)
  | cardNotReady (report : RestartReport)
deriving DecidableEq

def RestartError.radioRestored : RestartError → Bool
  | .cardNotReady _ => true
  | _ => false

abbrev Ladder (α : Type) := Logged Interaction RestartError α

def ask {α : Type} (answer : List Interaction → α) (entry : α → Interaction) : Ladder α :=
  .ofAdded fun log => (.ok (answer log), [entry (answer log)])

section Calls

variable (radio : ModuleRadio)

def operatingMode : Ladder (Except String OperatingMode) :=
  ask radio.operatingMode .operatingMode

def setOperatingMode (mode : OperatingMode) : Ladder (Except String Unit) :=
  ask (radio.setOperatingMode · mode) (.setOperatingMode mode)

def readFunctionality : Ladder (Except String (Option UInt8)) :=
  ask radio.readFunctionality .readFunctionality

def writeFunctionality (value : UInt8) : Ladder (Except String Bool) :=
  ask (radio.writeFunctionality · value) (.writeFunctionality value)

def readCardState : Ladder (Except String CardState) := ask radio.readCardState .readCardState

def readCardEvidence : Ladder CardEvidence := ask radio.readCardEvidence .readCardEvidence

def pause (milliseconds : Nat) : Ladder Unit := ask (fun _ => ()) fun _ => .pause milliseconds

end Calls

/-! ## The ladder -/

def cfunMinimum : UInt8 := 0
def cfunFull : UInt8 := 1
def cfunDisableRf : UInt8 := 4
def cfunOffline : UInt8 := 7

def settleStep : Nat := 1500

def settleAttempts : Nat := 8

def cfunCycleGap : Nat := 3000

def cardAttempts : Nat := 20

def describeCfun : Option UInt8 → String
  | none => "no +CFUN line"
  | some value =>
    if value = cfunMinimum then "+CFUN: 0 (minimum)"
    else if value = cfunFull then "+CFUN: 1 (full)"
    else if value = cfunDisableRf then "+CFUN: 4 (radio off)"
    else if value = cfunOffline then "+CFUN: 7 (offline, stranded)"
    else "+CFUN: " ++ toString value.toNat

/-- The loop of `wait_for_full` with this many attempts left. -/
def pollFull (radio : ModuleRadio) : Nat → RestartReport → Ladder (Bool × RestartReport)
  | 0, report => pure (false, report)
  | left + 1, report => do
    match ← readFunctionality radio with
    | .error reason => pure (false, report.push ("AT+CFUN? unreadable: " ++ reason))
    | .ok value =>
      if value = some cfunFull then pure (true, report)
      else if 0 < left then do
        pause settleStep
        pollFull radio left report
      else pollFull radio left report

variable (radio : ModuleRadio)

/-- `wait_for_full`: poll `AT+CFUN?` until it reads full functionality, or
give up. -/
def waitForFull (report : RestartReport) : Ladder (Bool × RestartReport) :=
  pollFull radio settleAttempts report

/-- The last rung of `climb_back`: `AT+CFUN=0`, then `AT+CFUN=1`. -/
def cycleFunctionality (report : RestartReport) : Ladder RestartReport := do
  match ← writeFunctionality radio cfunMinimum with
  | .ok false => pure (report.push "AT+CFUN=0 rejected")
  | .error reason => pure (report.push ("AT+CFUN=0 unusable: " ++ reason))
  | .ok true =>
    let report := report.push "AT+CFUN=0 accepted"
    pause cfunCycleGap
    match ← writeFunctionality radio cfunFull with
    | .ok true => do
      let (_, report) ← waitForFull radio (report.push "AT+CFUN=1 accepted after AT+CFUN=0")
      pure report
    | .ok false => pure (report.push "AT+CFUN=1 rejected after AT+CFUN=0")
    | .error reason => pure (report.push ("AT+CFUN=1 unusable after AT+CFUN=0: " ++ reason))

/-- The middle rung of `climb_back`: plain `AT+CFUN=1`. -/
def plainFunctionality (report : RestartReport) : Ladder RestartReport := do
  match ← writeFunctionality radio cfunFull with
  | .ok true => do
    let (full, report) ← waitForFull radio (report.push "AT+CFUN=1 accepted")
    if full then pure report else cycleFunctionality radio report
  | .ok false => cycleFunctionality radio (report.push "AT+CFUN=1 rejected")
  | .error reason => pure (report.push ("AT+CFUN=1 unusable: " ++ reason))

/-- `climb_back`: everything that can be tried to bring a module back without
resetting it. -/
def climbBack (report : RestartReport) : Ladder RestartReport := do
  pause settleStep
  match ← setOperatingMode radio .online with
  | .ok () => do
    let (full, report) ← waitForFull radio (report.push "QMI online accepted on retry")
    if full then pure report else plainFunctionality radio report
  | .error reason => plainFunctionality radio (report.push ("QMI online refused again: " ++ reason))

/-- The loop of `wait_for_card` with this many attempts left and the state
read last; only transitions are reported. -/
def pollCard (radio : ModuleRadio) : Nat → Option CardState → RestartReport →
    Ladder (Except String CardState × RestartReport)
  | 0, last, report => pure (.ok (last.getD (.unknown "never read")), report)
  | left + 1, last, report => do
    match ← readCardState radio with
    | .error reason => pure (.error reason, report)
    | .ok state =>
      let report :=
        if last ≠ some state then report.push ("card " ++ state.display) else report
      if state.isReady || !state.waitingCanHelp then pure (.ok state, report)
      else if 0 < left then do
        pause settleStep
        pollCard radio left (some state) report
      else pollCard radio left (some state) report

/-- `wait_for_card`: poll `AT+CPIN?` until the card is initialised, or until
patience runs out. -/
def waitForCard (report : RestartReport) : Ladder (Except String CardState × RestartReport) :=
  pollCard radio cardAttempts none report

/-! ## The restart -/

/-- The last part: the radio is back, and nothing but reads follows. -/
def checkCard (report : RestartReport) : Ladder RestartReport := do
  match ← waitForCard radio report with
  | (.error reason, report) => .ofExcept (.error (.port "card_read_back" reason report))
  | (.ok card, report) =>
    let evidence ← readCardEvidence radio
    let report := { report with cardEvidence := evidence, cardAfter := some card }
    if card.isReady then pure report else .ofExcept (.error (.cardNotReady report))

/-- The read-back: both readings have to agree that the radio is up. -/
def readBack (report : RestartReport) : Ladder RestartReport := do
  match ← readFunctionality radio with
  | .error reason => .ofExcept (.error (.port "read_back" reason report))
  | .ok after =>
    let report := { report with cfunAfter := after }
    let mode ← operatingMode radio
    let report :=
      match mode with
      | .ok mode => { report with modeAfter := some mode }
      | .error reason => report.push ("QMI mode unreadable: " ++ reason)
    let report := report.push ("after " ++ describeCfun after)
    if after = some cfunOffline then .ofExcept (.error (.stranded report))
    else if after ≠ some cfunFull then .ofExcept (.error (.notRestored report))
    else if report.modeAfter ≠ some .online then .ofExcept (.error (.notRestored report))
    else checkCard radio report

/-- Up: QMI first, and the ladder if the module does not come back by that. -/
def bringUp (report : RestartReport) : Ladder RestartReport := do
  match ← setOperatingMode radio .online with
  | .error reason => climbBack radio (report.push ("QMI online refused: " ++ reason))
  | .ok () => do
    let (full, report) ← waitForFull radio (report.push "QMI online accepted")
    if full then pure report else climbBack radio report

def restartRadio : Ladder RestartReport := do
  match ← readFunctionality radio with
  | .error reason => .ofExcept (.error (.unverifiable reason))
  | .ok before =>
    let report : RestartReport := { cfunBefore := before }
    let report := report.push ("before " ++ describeCfun before)
    if before = some cfunOffline then
      .ofExcept (.error (.alreadyStranded
        ({ report with cfunAfter := before }.push "already offline, QMI left alone")))
    else
      match ← setOperatingMode radio .lowPower with
      | .error reason => do
        let report := report.push ("QMI low power refused: " ++ reason)
        let after ← readFunctionality radio
        .ofExcept (.error (.port "low_power" reason
          { report with cfunAfter := after.toOption.join }))
      | .ok () => do
        let report ← bringUp radio (report.push "QMI low power accepted")
        readBack radio report

end VodogeEdge.Restart
