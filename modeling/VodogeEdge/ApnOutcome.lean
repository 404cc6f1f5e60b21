import VodogeEdge.Apn

/-!
# When a context was configured

A call that succeeds has read the context, written it and read it again, and
the second reading showed the APN and the username that were sent. That is
all it checks: the context type and the method it sent may not be there.
-/

namespace VodogeEdge.Apn

open Logged

section
variable (port : Port) (request : ApnWrite) (wanted : Wanted)

/-! ## The three commands of a call -/

def firstAnswer : Answer := port.answer [] (readCommand request.cid)

def sent : PdpContext := resolve request wanted (readingOf (firstAnswer port request))

def firstExchange : Chars × Answer := (readCommand request.cid, firstAnswer port request)

def writeAnswer : Answer :=
  port.answer [firstExchange port request] (writeCommand request.cid (sent port request wanted))

def writeExchange : Chars × Answer :=
  (writeCommand request.cid (sent port request wanted), writeAnswer port request wanted)

def lastAnswer : Answer :=
  port.answer [firstExchange port request, writeExchange port request wanted]
    (readCommand request.cid)

/-- The write was accepted and `shown` was read after it, with the APN and the
username that were sent. -/
structure Verified (shown : ApnCredentials) : Prop where
  accepted : ∃ exchange, writeAnswer port request wanted = .ok exchange ∧ succeeded exchange
  reading : readingOf (lastAnswer port request wanted) = some shown
  apn : shown.apn = request.apn
  username : shown.username = (sent port request wanted).username

def reportOf (shown : ApnCredentials) : ApnReport :=
  ⟨request.cid, pdpTypeName (sent port request wanted).contextType, shown.apn, shown.username,
    shown.auth, shown.hasPassword⟩

def exchanges : List (Chars × Answer) :=
  [firstExchange port request, writeExchange port request wanted,
    (readCommand request.cid, lastAnswer port request wanted)]

theorem run_command (text : Chars) (log : List (Chars × Answer)) : (command port text).run log
      = (.ok (port.answer log text), log ++ [(text, port.answer log text)]) := rfl

theorem run_read (log : List (Chars × Answer)) :
    (read port request.cid).run log = (.ok (readingOf (port.answer log (readCommand request.cid))),
      log ++ [(readCommand request.cid, port.answer log (readCommand request.cid))]) := rfl

end

section
variable {port : Port} {request : ApnWrite} {wanted : Wanted}

theorem accepted_iff {answer : Answer} :
    accepted answer = .ok () ↔ ∃ exchange, answer = .ok exchange ∧ succeeded exchange := by
  cases answer with
  | error error => simp [accepted]
  | ok exchange =>
    by_cases h : succeeded exchange <;> simp [accepted]

variable {log : List (Chars × Answer)} {report : ApnReport}

theorem verify_iff {context : PdpContext} {reading : Option ApnCredentials} :
    verify request context reading = .ok report ↔ ∃ after, reading = some after
      ∧ after.apn = request.apn ∧ after.username = context.username
      ∧ report = ⟨request.cid, pdpTypeName context.contextType, after.apn, after.username,
        after.auth, after.hasPassword⟩ := by
  cases reading with
  | none => simp [verify]
  | some after =>
    by_cases h : after.apn ≠ request.apn ∨ after.username ≠ context.username
    · rw [verify, if_pos h]
      constructor
      · intro hok
        cases hok
      · rintro ⟨_, ⟨⟩, hapn, husername, -⟩
        rcases h with h | h
        · exact absurd hapn h
        · exact absurd husername h
    · rw [verify, if_neg h]
      obtain ⟨hapn, husername⟩ := not_or.mp h
      constructor
      · rintro ⟨⟩
        exact ⟨after, rfl, not_not.mp hapn, not_not.mp husername, rfl⟩
      · rintro ⟨_, ⟨⟩, -, -, rfl⟩
        rfl

/-- The work on the port succeeds exactly with what was verified. -/
theorem rewrite_ok_iff :
    (rewrite port request wanted).run [] = (.ok report, log) ↔
      log = exchanges port request wanted ∧ ∃ shown, Verified port request wanted shown ∧
        report = reportOf port request wanted shown := by
  simp only [rewrite, run_bind_eq_ok, run_read, run_command, run_ofExcept, Prod.mk.injEq]
  constructor
  · rintro ⟨_, _, ⟨⟨⟩, rfl⟩, _, _, ⟨⟨⟩, rfl⟩, _, _, ⟨haccepted, rfl⟩, _, _, ⟨⟨⟩, rfl⟩, hverify, rfl⟩
    obtain ⟨shown, hreading, hapn, husername, hreport⟩ := verify_iff.mp hverify
    exact ⟨rfl, shown, ⟨accepted_iff.mp haccepted, hreading, hapn, husername⟩, hreport⟩
  · rintro ⟨rfl, shown, hverified, hreport⟩
    exact ⟨_, _, ⟨rfl, rfl⟩, _, _, ⟨rfl, rfl⟩, _, _, ⟨accepted_iff.mpr hverified.accepted, rfl⟩,
      _, _, ⟨rfl, rfl⟩, verify_iff.mpr ⟨shown, hverified.reading, hverified.apn,
        hverified.username, hreport⟩, rfl⟩

/-- The call is the work on the port, once the request is understood and the
port is open. -/
theorem configureApn_eq_ok :
    (configureApn port request).run [] = (.ok report, log) ↔
      ∃ wanted, understood request = .ok wanted ∧ port.opened = .ok ()
        ∧ log = exchanges port request wanted ∧ ∃ shown, Verified port request wanted shown
          ∧ report = reportOf port request wanted shown := by
  simp only [configureApn, run_bind_eq_ok, run_ofExcept, run_attempt, Prod.mk.injEq]
  constructor
  · rintro ⟨wanted, _, ⟨hunderstood, rfl⟩, _, _, ⟨⟨⟩, rfl⟩, hok, rfl⟩
    obtain ⟨_, _, hopened, hrewrite⟩ :=
      run_bind_eq_ok.mp (Prod.ext (mapError_eq_ok.mp hok) rfl)
    rw [Prod.mk.injEq] at hopened
    obtain ⟨hopened, rfl⟩ := hopened
    exact ⟨wanted, hunderstood, hopened, rewrite_ok_iff.mp hrewrite⟩
  · rintro ⟨wanted, hunderstood, hopened, hrewrite⟩
    have hrun : (ofExcept port.opened >>= fun _ => rewrite port request wanted).run []
        = (.ok report, log) := by
      rw [hopened]
      exact rewrite_ok_iff.mpr hrewrite
    exact ⟨wanted, [], ⟨hunderstood, rfl⟩, _, _, ⟨rfl, rfl⟩,
      mapError_eq_ok.mpr (congrArg Prod.fst hrun), congrArg Prod.snd hrun⟩

theorem configureApn_ok_iff :
    ((configureApn port request).run []).1 = .ok report ↔
      ∃ wanted shown, understood request = .ok wanted ∧ port.opened = .ok ()
        ∧ Verified port request wanted shown ∧ report = reportOf port request wanted shown := by
  constructor
  · intro hok
    obtain ⟨wanted, hunderstood, hopened, -, shown, hverified, hreport⟩ :=
      configureApn_eq_ok.mp (Prod.ext hok rfl)
    exact ⟨wanted, shown, hunderstood, hopened, hverified, hreport⟩
  · rintro ⟨wanted, shown, hunderstood, hopened, hverified, hreport⟩
    rw [configureApn_eq_ok.mpr ⟨wanted, hunderstood, hopened, rfl, shown, hverified, hreport⟩]

end

/-! ## What is sent -/

section
variable {request : ApnWrite} {wanted : Wanted}

theorem understood_ok (h : understood request = .ok wanted) :
    requestedAuth request.auth = .ok wanted.auth
      ∧ requestedType request.pdpType = .ok wanted.contextType := by
  obtain ⟨_, -, h⟩ := exists_ok_of_bind h
  obtain ⟨_, -, h⟩ := exists_ok_of_bind h
  obtain ⟨_, -, h⟩ := exists_ok_of_bind h
  obtain ⟨auth, hauth, h⟩ := exists_ok_of_bind h
  obtain ⟨contextType, htype, h⟩ := exists_ok_of_bind h
  cases h
  exact ⟨hauth, htype⟩

theorem requestedType_some {value : Chars} {asked : Option UInt8}
    (h : requestedType (some value) = .ok asked) : ∃ contextType, asked = some contextType := by
  unfold requestedType at h
  dsimp only at h
  split_ifs at h
  · cases h
    exact ⟨1, rfl⟩
  · cases h
    exact ⟨2, rfl⟩
  · cases h
    exact ⟨3, rfl⟩

theorem sent_of_requested (port : Port) (h : understood request = .ok wanted) :
    (sent port request wanted).apn = request.apn
      ∧ (∀ username, request.username = some username →
        (sent port request wanted).username = username)
      ∧ (∀ password, request.password = some password →
        (sent port request wanted).password = password)
      ∧ (∀ value, request.auth = some value →
        ∃ auth, ApnAuth.fromWire value = some auth ∧ (sent port request wanted).auth = auth.code)
      ∧ (∀ value, request.pdpType = some value →
        requestedType (some value) = .ok (some (sent port request wanted).contextType)) := by
  obtain ⟨hauth, htype⟩ := understood_ok h
  refine ⟨rfl, ?username, ?password, ?auth, ?pdpType⟩
  case username =>
    intro username husername
    simp [sent, resolve, husername]
  case password =>
    intro password hpassword
    simp [sent, resolve, hpassword]
  case auth =>
    intro value hvalue
    rw [hvalue, requestedAuth] at hauth
    cases hwire : ApnAuth.fromWire value with
    | none =>
      rw [hwire] at hauth
      cases hauth
    | some auth =>
      rw [hwire] at hauth
      injection hauth with hauth
      exact ⟨auth, rfl, by simp [sent, resolve, ← hauth]⟩
  case pdpType =>
    intro value hvalue
    rw [hvalue] at htype
    obtain ⟨contextType, hcontextType⟩ : ∃ contextType, wanted.contextType = some contextType :=
      requestedType_some htype
    rw [htype]
    simp [sent, resolve, hcontextType]

end

/-! ## What a success says -/

/-- The context read back shows what was sent: where the request names a value,
that value (`sent_of_requested`). -/
def Shows (port : Port) (request : ApnWrite) (wanted : Wanted) : Prop :=
  ∃ shown, readingOf (lastAnswer port request wanted) = some shown
    ∧ shown.apn = (sent port request wanted).apn
    ∧ shown.username = (sent port request wanted).username
    ∧ shown.auth.map ApnAuth.code = some (sent port request wanted).auth
    ∧ shown.contextType = some (sent port request wanted).contextType

/-- Where the row read back shows the APN and the username that were sent, it
shows the type and the method that were sent. -/
def TakesTypeAndMethod (port : Port) (request : ApnWrite) : Prop :=
  ∀ wanted shown, understood request = .ok wanted → port.opened = .ok () →
    Verified port request wanted shown →
    shown.auth.map ApnAuth.code = some (sent port request wanted).auth
      ∧ shown.contextType = some (sent port request wanted).contextType

/-- A success says that the module holds what was sent, exactly if the module
takes the type and the method along with the APN and the username. -/
theorem configureApn_shows_iff (port : Port) (request : ApnWrite) :
    (∀ report, ((configureApn port request).run []).1 = .ok report →
      ∃ wanted, understood request = .ok wanted ∧ Shows port request wanted)
      ↔ TakesTypeAndMethod port request := by
  constructor
  · intro hshows wanted shown hunderstood hopened hverified
    obtain ⟨wanted', hunderstood', shown', hreading, -, -, hauth, htype⟩ := hshows _
      (configureApn_ok_iff.mpr ⟨wanted, shown, hunderstood, hopened, hverified, rfl⟩)
    rw [hunderstood] at hunderstood'
    cases hunderstood'
    rw [hverified.reading] at hreading
    cases hreading
    exact ⟨hauth, htype⟩
  · intro htakes report hok
    obtain ⟨wanted, shown, hunderstood, hopened, hverified, -⟩ := configureApn_ok_iff.mp hok
    obtain ⟨hauth, htype⟩ := htakes wanted shown hunderstood hopened hverified
    exact ⟨wanted, hunderstood, shown, hverified.reading, hverified.apn, hverified.username, hauth,
      htype⟩

def answerOk (lines : List String) : Answer :=
  .ok ⟨[], lines.map String.toList, "OK".toList⟩

/-- A module that takes a new APN and keeps its context type and its method. -/
def stubbornPort : Port where
  opened := .ok ()
  answer
    | [], _ => answerOk ["+QICSGP: 1,\"internet\",\"\",\"\",0"]
    | [_], _ => answerOk []
    | _, _ => answerOk ["+QICSGP: 1,\"cmnet\",\"\",\"\",0"]

def chapRequest : ApnWrite :=
  ⟨1, some "IPV4V6".toList, "cmnet".toList, none, none, some "chap".toList⟩

/-- The call reports IPv4v6, which the module does not hold. -/
theorem stubbornPort_reported :
    ((configureApn stubbornPort chapRequest).run []).1
      = .ok ⟨1, "IPV4V6", "cmnet".toList, [], some .none, false⟩
    ∧ ¬ ∃ wanted, understood chapRequest = .ok wanted ∧ Shows stubbornPort chapRequest wanted := by
  refine ⟨by decide +kernel, ?_⟩
  rintro ⟨wanted, hunderstood, shown, hreading, -, -, -, htype⟩
  have hsent : (sent stubbornPort chapRequest wanted).contextType = 3 := by
    obtain ⟨-, -, -, -, hsent⟩ := sent_of_requested stubbornPort hunderstood
    exact (Option.some.inj (Except.ok.inj (hsent _ rfl))).symm
  have hshown : readingOf (lastAnswer stubbornPort chapRequest wanted)
      = some ⟨"cmnet".toList, [], false, some .none, some 1, []⟩ := by
    change readingOf (answerOk ["+QICSGP: 1,\"cmnet\",\"\",\"\",0"]) = _
    decide +kernel
  rw [hshown] at hreading
  cases hreading
  rw [hsent] at htype
  cases htype

end VodogeEdge.Apn
