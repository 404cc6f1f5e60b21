import VodogeEdge.EsimRequests

/-!
# How a started download ends

Once the chip has agreed to the server it holds an RSP session. A run that
ends without an installation result must have told the chip to cancel that
session; `settled_iff` says for which servers and chips this is so. The two
exits that do cancel are the refused client authentication and the policy
gate. Every other exit before the installation result leaves the session
open.
-/

namespace VodogeEdge.Esim

open Logged

def Exchange.authenticates (transactionId : Bytes) (exchange : Exchange) : Bool :=
  match exchange.command, exchange.answer with
  | .authenticateServer id, .ok answer =>
    id = transactionId && (parseAuthenticateServerResponse answer).isOk
  | _, _ => false

def Exchange.installs (exchange : Exchange) : Bool :=
  match exchange.command, exchange.answer with
  | .loadSegment _, .ok answer => (parseInstallationResult answer).isOk
  | _, _ => false

/-- A `CancelSession` for this transaction went out, all of it. -/
def Exchange.cancels (transactionId : Bytes) (exchange : Exchange) : Bool :=
  match exchange.command with
  | .cancelSession id reason =>
    id = transactionId && exchange.payload = cancelSessionPayload transactionId reason
      && (storeDataChain exchange.payload).toOption = some exchange.blocks
  | _ => false

/-- No session is left open by a run that sent this to the chip. -/
def Settled (log : List Exchange) : Prop :=
  ∀ transactionId, (∃ exchange ∈ log, exchange.authenticates transactionId) →
    (∃ exchange ∈ log, exchange.installs)
      ∨ ∃ exchange ∈ log, exchange.cancels transactionId

open Exchange (installs cancels authenticates)

variable {log : List Exchange} {card : Card} {server : Server} {opened : Opened}

theorem shows_snoc {p : Exchange → Bool} {exchange : Exchange}
    (hlog : ¬ Shows p log) : Shows p (log ++ [exchange]) ↔ p exchange := by
  simp [Shows, or_iff_right hlog]

theorem apdus_snoc (log : List Exchange) (exchange : Exchange) :
    apdus (log ++ [exchange]) = apdus log ++ exchange.apdus := by
  simp [apdus]

/-! ## Cancelling -/

section Cancelling

variable {transactionId : Bytes} {reason : CancelSessionReason}

theorem cancels_cancelSession (hlog : ¬ Shows (cancels transactionId) log) :
    Shows (cancels transactionId) ((cancelSession card transactionId reason).run log).2
      ↔ GoesOut card (apdus log) (cancelSessionPayload transactionId reason) := by
  -- after the request only its answer is read
  rw [cancelSession, shows_bind_iff, execute, shows_bind_iff]
  rotate_left
  · exact fun _ => writes_pure _
  · exact fun _ => writes_ofExcept _
  rcases executeCounted_cases card (.cancelSession transactionId reason)
      (cancelSessionPayload transactionId reason) log with
    ⟨chain, answer, sent, hchain, hdelivered, hrun⟩ |
    ⟨-, error, later, hrun, ⟨rfl, hstays⟩ | ⟨blocks, sent, rfl, hblocks⟩⟩
  · rw [hrun, shows_snoc hlog]
    exact iff_of_true (by simp [Exchange.cancels, hchain, Except.toOption])
      ⟨chain, hchain, hdelivered.allSent⟩
  · rw [hrun]
    exact iff_of_false hlog hstays
  · rw [hrun, shows_snoc hlog, ← hblocks]
    cases hchain : storeDataChain (cancelSessionPayload transactionId reason) <;>
      simp [Exchange.cancels, hchain, Except.toOption]

variable {outcome : DownloadOutcome} (hlog : ¬ Shows (cancels opened.transactionBytes) log)
include hlog

theorem cancels_giveBackSession :
    Shows (cancels opened.transactionBytes)
        ((giveBackSession server card opened outcome reason).run log).2
      ↔ GoesOut card (apdus log) (cancelSessionPayload opened.transactionBytes reason) := by
  rw [← cancels_cancelSession hlog]
  unfold giveBackSession
  rw [shows_bind_iff, run_attempt]
  intro result
  split
  · exact writes_pure _
  · split <;> exact writes_pure _

theorem cancels_refuseProfile {refused : List String} :
    Shows (cancels opened.transactionBytes)
        ((refuseProfile server card opened outcome refused).run log).2
      ↔ GoesOut card (apdus log) (cancelSessionPayload opened.transactionBytes .pprNotAllowed) := by
  unfold refuseProfile
  rw [shows_bind_iff, cancels_giveBackSession hlog]
  refine fun _ => ((reads_snapshot card).mono ?_).bind fun _ => writes_pure _
  rintro exchange ⟨what, h⟩
  simp [cancels, h]

end Cancelling

/-! ## Installing -/

/-- The chip takes the pieces of a package with empty answers up to one that
it answers with an installation result. -/
def Loads (card : Card) : List Bytes → List BppSegment → Prop
  | _, [] => False
  | history, segment :: rest =>
    ∃ answer sent, Answers card history segment.bytes answer sent
      ∧ ((parseInstallationResult answer).isOk
        ∨ answer = [] ∧ Loads card (history ++ sent) rest)

/-- The loop over the pieces of a package reaches an installation result
exactly when the chip loads them. -/
theorem installs_loadSegments (card : Card) : ∀ segments
    transfers log,
    (¬ Shows installs log) →
      (Shows installs ((loadSegments card transfers segments).run log).2
        ↔ Loads card (apdus log) segments)
  | [], _, log, hlog => iff_of_false hlog id
  | segment :: rest, transfers, log, hlog => by
    rw [loadSegments, Loads]
    rcases executeCounted_cases card (.loadSegment segment.label) segment.bytes log with
      ⟨chain, answer, sent, hchain, hdelivered, hrun⟩ | ⟨hnone, error, later, hrun, -⟩
    · have hanswers : Answers card (apdus log) segment.bytes answer sent :=
        ⟨chain, hchain, hdelivered⟩
      have hsnoc : Shows installs
            (log ++ [⟨.loadSegment segment.label, segment.bytes, chain, sent, .ok answer⟩])
          ↔ (parseInstallationResult answer).isOk := by
        rw [shows_snoc hlog]
        rfl
      have hloads : (∃ answer sent, Answers card (apdus log) segment.bytes answer sent
            ∧ ((parseInstallationResult answer).isOk
              ∨ answer = [] ∧ Loads card (apdus log ++ sent) rest))
          ↔ (parseInstallationResult answer).isOk
              ∨ answer = [] ∧ Loads card (apdus log ++ sent) rest := by
        constructor
        · rintro ⟨answer', sent', hanswers', h⟩
          obtain ⟨rfl, rfl⟩ := hanswers.unique hanswers'
          exact h
        · exact fun h => ⟨answer, sent, hanswers, h⟩
      rw [run_bind_of_ok hrun, hloads]
      cases answer with
      | cons b bytes =>
        -- bytes in the answer: the transfer is over
        simp only [reduceCtorEq, false_and, or_false]
        rw [← hsnoc]
        exact Writes.shows_iff ((writes_ofExcept _).bind fun _ => writes_pure _) _
      | nil =>
        have hempty : (parseInstallationResult []).isOk = false := rfl
        simp only [List.isEmpty_nil, Bool.not_true, Bool.false_eq_true, if_false, hempty,
          true_and, false_or]
        rw [installs_loadSegments card rest _ _ (by rw [hsnoc]; exact Bool.false_ne_true),
          apdus_snoc]
    · rw [run_bind_of_error hrun]
      refine iff_of_false ?_ fun ⟨answer, sent, hanswers, _⟩ => hnone answer sent hanswers
      rintro ⟨exchange, hmem, hinstalls⟩
      rcases executeCounted_failed _ _ _ hrun exchange hmem with hold | herror
      · exact hlog ⟨exchange, hold, hinstalls⟩
      · simp [Exchange.installs, herror] at hinstalls

theorem installs_loadBoundProfilePackage {package : Bytes} (hlog : ¬ Shows installs log) :
    Shows installs ((loadBoundProfilePackage card package).run log).2
      ↔ ∃ segments, boundProfilePackageSegments package = .ok segments
        ∧ Loads card (apdus log) segments := by
  rw [loadBoundProfilePackage, es10c]
  cases boundProfilePackageSegments package with
  | error error => exact iff_of_false hlog (by simp)
  | ok segments =>
    simp only [Except.ok.injEq, exists_eq_left']
    exact installs_loadSegments card segments [] log hlog

def Prepares (card : Card) (hash : String → Bytes → Bytes)
    (authentication : ClientAuthentication) (confirmationCode : Option String)
    (history : List Bytes) (prepared : Bytes) (sent : List Bytes) : Prop :=
  ∃ payload answer, prepareDownloadRequest hash authentication confirmationCode = .ok payload
    ∧ Answers card history payload answer sent
    ∧ parsePrepareDownloadResponse answer = .ok prepared

theorem prepareDownload_cases (card : Card) (hash : String → Bytes → Bytes)
    (authentication : ClientAuthentication) (confirmationCode : Option String)
    (log : List Exchange) :
    (∃ prepared blocks exchange,
      Prepares card hash authentication confirmationCode (apdus log) prepared exchange.apdus
      ∧ exchange.command = .prepareDownload
      ∧ (prepareDownload card hash authentication confirmationCode).run log
        = (.ok (prepared, blocks), log ++ [exchange]))
    ∨ (∀ prepared sent,
        ¬ Prepares card hash authentication confirmationCode (apdus log) prepared sent)
      ∧ ∃ error later, (prepareDownload card hash authentication confirmationCode).run log
        = (.error error, later) := by
  rw [prepareDownload]
  cases hpayload : prepareDownloadRequest hash authentication confirmationCode with
  | error error =>
    refine .inr ⟨?_, error, log, rfl⟩
    rintro prepared sent ⟨payload, answer, hok, _⟩
    rw [hpayload] at hok
    cases hok
  | ok payload =>
    rcases executeParsed_cases card .prepareDownload payload
        parsePrepareDownloadResponse log with
      ⟨answer, sent, prepared, blocks, chain, hanswers, hparse, hrun⟩ |
      ⟨hnone, error, later, hrun, _⟩
    · exact .inl ⟨prepared, blocks, ⟨.prepareDownload, payload, chain, sent, .ok answer⟩,
        ⟨payload, answer, hpayload, hanswers, hparse⟩, rfl, hrun⟩
    · refine .inr ⟨?_, error, later, hrun⟩
      rintro prepared sent ⟨payload', answer, hok, hanswers, hparse⟩
      obtain rfl : payload = payload' := Except.ok.inj (hpayload.symm.trans hok)
      exact hnone answer sent prepared hanswers hparse

variable {request : DownloadRequest} {authentication : ClientAuthentication}
  {hash : String → Bytes → Bytes}

theorem Prepares.unique {confirmationCode : Option String}
    {history sent sent' : List Bytes} {prepared prepared' : Bytes}
    (h : Prepares card hash authentication confirmationCode history prepared sent)
    (h' : Prepares card hash authentication confirmationCode history prepared' sent') :
    prepared' = prepared ∧ sent' = sent := by
  obtain ⟨payload, answer, hpayload, hanswers, hparse⟩ := h
  obtain ⟨payload', answer', hpayload', hanswers', hparse'⟩ := h'
  obtain rfl : payload' = payload := Except.ok.inj (hpayload'.symm.trans hpayload)
  obtain ⟨rfl, rfl⟩ := hanswers.unique hanswers'
  exact ⟨Except.ok.inj (hparse'.symm.trans hparse), rfl⟩

/-- Both ends do their part of an installation: the chip prepares, the
server releases a package that splits, and the chip loads it. -/
def Installable (server : Server) (card : Card) (hash : String → Bytes → Bytes)
    (request : DownloadRequest) (opened : Opened) (authentication : ClientAuthentication)
    (history : List Bytes) : Prop :=
  ∃ prepared sent bound segments,
    Prepares card hash authentication request.confirmationCode history prepared sent
      ∧ server.getBoundProfilePackage opened.outcome.smdpAddress opened.start.transactionIdRaw
          prepared = .ok bound
      ∧ boundProfilePackageSegments bound.package = .ok segments
      ∧ Loads card (history ++ sent) segments

theorem installs_installProfile {outcome : DownloadOutcome}
    (haddress : outcome.smdpAddress = opened.outcome.smdpAddress) (hlog : ¬ Shows installs log) :
    Shows installs
        ((installProfile server card hash request opened authentication outcome).run log).2
      ↔ Installable server card hash request opened authentication (apdus log) := by
  have hprepare := Writes.shows_iff (q := installs)
    ((writes_prepareDownload card hash authentication request.confirmationCode).mono
      fun exchange h => by simp [installs, h]) log
  unfold installProfile Installable
  rcases prepareDownload_cases card hash authentication request.confirmationCode log with
    ⟨prepared, blocks, exchange, hprepares, -, hrun⟩ | ⟨hnone, error, later, hrun⟩
  · rw [hrun] at hprepare
    rw [run_bind_of_ok hrun]
    dsimp only
    rw [es9p, run_ofExcept_bind, haddress]
    cases hbound : server.getBoundProfilePackage opened.outcome.smdpAddress
        opened.start.transactionIdRaw prepared with
    | error error =>
      refine iff_of_false (by rwa [← hprepare] at hlog) ?_
      rintro ⟨prepared', sent, bound, segments, hprepares', hok, _⟩
      rw [(hprepares.unique hprepares').1, hbound] at hok
      cases hok
    | ok bound =>
      dsimp only [Except.mapError]
      rw [shows_bind_iff,
        installs_loadBoundProfilePackage (by rwa [← hprepare] at hlog), apdus_snoc]
      · constructor
        · rintro ⟨segments, hsegments, hloads⟩
          exact ⟨prepared, exchange.apdus, bound, segments, hprepares, hbound, hsegments, hloads⟩
        · rintro ⟨prepared', sent, bound', segments, hprepares', hok, hsegments, hloads⟩
          obtain ⟨rfl, rfl⟩ := hprepares.unique hprepares'
          obtain rfl : bound = bound' := Except.ok.inj (hbound.symm.trans hok)
          exact ⟨segments, hsegments, hloads⟩
      · -- what follows the package neither loads a segment nor depends on one
        intro loaded
        refine ((writes_deliverNotification _ _ _ _).mono fun exchange h => ?_).bind fun _ =>
          ((reads_snapshot card).mono fun exchange h => ?_).bind fun _ => writes_pure _
        all_goals
          obtain ⟨_, h⟩ := h
          simp [installs, h]
  · rw [hrun] at hprepare
    rw [run_bind_of_error hrun]
    refine iff_of_false (by rwa [← hprepare] at hlog) ?_
    rintro ⟨prepared, sent, bound, segments, hprepares, _⟩
    exact hnone prepared sent hprepares

/-! ## Opening a session -/

/-- Before the chip is asked to judge the server, nothing but reads. -/
theorem writes_openSession (server : Server) (card : Card) (request : DownloadRequest) :
    Writes (fun exchange => exchange.IsRead
        ∨ ∃ transactionId, exchange.command = .authenticateServer transactionId)
      (openSession server card request) :=
  ((reads_startSession server card request).mono fun _ => .inl).bind fun _ =>
    ((writes_authenticateServer _ _ _ _).mono fun _ h => .inr ⟨_, h⟩).bind fun _ => writes_pure _

theorem authenticateServer_cases (card : Card) (start : AuthenticationStart)
    (matchingId : Option String) (imei : String)
    (hlog : ∀ transactionId, ¬ Shows (authenticates transactionId) log) :
    (∃ response blocks later, (authenticateServer card start matchingId imei).run log
        = (.ok (response, blocks), later)
      ∧ ∀ transactionId, Shows (authenticates transactionId) later
        ↔ transactionId = hexBytes start.transactionIdRaw)
    ∨ ∃ error later, (authenticateServer card start matchingId imei).run log = (.error error, later)
      ∧ ∀ transactionId, ¬ Shows (authenticates transactionId) later := by
  unfold authenticateServer
  rw [es10c, run_ofExcept_bind]
  cases tacFromImei imei with
  | error error => exact .inr ⟨.es10c error, log, rfl, hlog⟩
  | ok tac =>
    dsimp only [Except.mapError]
    cases authenticateServerPayload start.serverSigned1 start.serverSignature1 start.euiccCiPkidDer
        start.serverCertificate matchingId tac with
    | error error => exact .inr ⟨.es10c error, log, rfl, hlog⟩
    | ok payload =>
      rcases executeParsed_cases card
          (.authenticateServer (hexBytes start.transactionIdRaw)) payload
          parseAuthenticateServerResponse log with
        ⟨answer, sent, response, blocks, chain, _, hparse, hrun⟩ | ⟨_, error, later, hrun, hlater⟩
      · refine .inl ⟨response, blocks, _, hrun, fun transactionId => ?_⟩
        rw [shows_snoc (hlog transactionId)]
        simp [Exchange.authenticates, hparse, Except.toBool, eq_comm]
      · refine .inr ⟨error, later, hrun, ?_⟩
        rintro transactionId ⟨exchange, hmem, hauthenticates⟩
        rcases hlater exchange hmem with hold | hfailed
        · exact hlog transactionId ⟨exchange, hold, hauthenticates⟩
        · unfold Exchange.authenticates at hauthenticates
          split at hauthenticates
          next id answer _ hanswer =>
            rw [hfailed answer hanswer, Bool.and_false] at hauthenticates
            cases hauthenticates
          · cases hauthenticates

/-- A run that opened a session has the chip's agreement for this one
transaction, a run that did not has none. -/
theorem openSession_cases (server : Server) (card : Card) (request : DownloadRequest) :
    (∃ opened log, (openSession server card request).run [] = (.ok opened, log)
      ∧ ∀ transactionId, Shows (authenticates transactionId) log
        ↔ transactionId = opened.transactionBytes)
    ∨ ∃ error log, (openSession server card request).run [] = (.error error, log)
      ∧ ∀ transactionId, ¬ Shows (authenticates transactionId) log := by
  have hreads : ∀ transactionId,
      ¬ Shows (authenticates transactionId) ((startSession server card request).run []).2 := by
    rintro transactionId ⟨exchange, hmem, hauthenticates⟩
    rcases reads_startSession server card request [] exchange hmem with hnil | ⟨what, hread⟩
    · exact absurd hnil List.not_mem_nil
    · simp [Exchange.authenticates, hread] at hauthenticates
  unfold openSession
  match hstart : (startSession server card request).run [] with
  | (.error error, log) =>
    rw [run_bind_of_error hstart]
    rw [hstart] at hreads
    exact .inr ⟨error, log, rfl, hreads⟩
  | (.ok (outcome, start), log) =>
    rw [run_bind_of_ok hstart]
    rw [hstart] at hreads
    rcases authenticateServer_cases card start request.matchingId request.imei hreads with
      ⟨response, blocks, later, hrun, hlater⟩ | ⟨error, later, hrun, hlater⟩
    · rw [run_bind_of_ok hrun]
      exact .inl ⟨_, later, rfl, hlater⟩
    · rw [run_bind_of_error hrun]
      exact .inr ⟨error, later, rfl, hlater⟩

/-! ## Ending a run -/

/-- What the two ends do once the chip has agreed to the server: the client is
refused, or what the server sent decodes and the profile is refused or
installed. Where the session is cancelled, the request for it goes out. -/
def Concludes (server : Server) (card : Card) (hash : String → Bytes → Bytes)
    (request : DownloadRequest) (opened : Opened) (history : List Bytes) : Prop :=
  match server.authenticateClient opened.outcome.smdpAddress opened.start.transactionIdRaw
      opened.serverResponse with
  | .error _ =>
    GoesOut card history (cancelSessionPayload opened.transactionBytes .undefinedReason)
  | .ok authentication =>
    ∃ metadata required, parseProfileMetadata authentication.profileMetadata = .ok metadata
      ∧ confirmationCodeRequired authentication.smdpSigned2 = .ok required
      ∧ if metadata.irreversiblePolicyRules.isEmpty then
          Installable server card hash request opened authentication history
        else GoesOut card history (cancelSessionPayload opened.transactionBytes .pprNotAllowed)

def Exchange.Judges (exchange : Exchange) : Prop :=
  ∃ transactionId, exchange.command = .authenticateServer transactionId

theorem writes_installProfile (server : Server) (card : Card)
    (hash : String → Bytes → Bytes) (request : DownloadRequest) (opened : Opened)
    (authentication : ClientAuthentication) (outcome : DownloadOutcome) :
    Writes (fun exchange => ¬ exchange.Judges ∧ ∀ id, exchange.cancels id = false)
      (installProfile server card hash request opened authentication outcome) := by
  refine ((writes_prepareDownload _ _ _ _).mono fun exchange h => ?_).bind fun _ =>
    (writes_ofExcept _).bind fun _ =>
      ((writes_loadBoundProfilePackage _ _).mono fun exchange h => ?_).bind fun _ =>
        ((writes_deliverNotification _ _ _ _).mono fun exchange h => ?_).bind fun _ =>
          ((reads_snapshot card).mono fun exchange h => ?_).bind fun _ => writes_pure _
  · simp [Exchange.Judges, cancels, h]
  all_goals
    obtain ⟨_, h⟩ := h
    simp [Exchange.Judges, cancels, h]

theorem writes_completeDownload (server : Server) (card : Card)
    (hash : String → Bytes → Bytes) (request : DownloadRequest) (opened : Opened) :
    Writes (fun exchange => ¬ exchange.Judges)
      (completeDownload server card hash request opened) := by
  unfold completeDownload
  split
  · refine ((writes_cancelSession _ _ _).attempt.mono fun exchange h => ?_).bind fun _ =>
      writes_ofExcept _
    simp [Exchange.Judges, h]
  · refine (writes_ofExcept _).bind fun metadata => (writes_ofExcept _).bind fun required => ?_
    dsimp only
    split
    · refine (writes_refuseProfile _ _ _ _ _).mono fun exchange h => ?_
      rcases h with ⟨what, h⟩ | h <;> simp [Exchange.Judges, h]
    · exact (writes_installProfile _ _ _ _ _ _ _).mono fun exchange h => h.1

/-- A run from an opened session ends in an installation result or in a
`CancelSession` exactly when the two ends conclude it. -/
theorem settles_completeDownload_iff (hinstalls : ¬ Shows installs log)
    (hcancels : ¬ Shows (cancels opened.transactionBytes) log) :
    (Shows installs ((completeDownload server card hash request opened).run log).2
      ∨ Shows (cancels opened.transactionBytes)
        ((completeDownload server card hash request opened).run log).2)
      ↔ Concludes server card hash request opened (apdus log) := by
  unfold completeDownload Concludes
  cases server.authenticateClient opened.outcome.smdpAddress opened.start.transactionIdRaw
      opened.serverResponse with
  | error error =>
    -- the refused client: the session is cancelled and nothing is loaded
    rw [shows_bind_iff _ fun _ => writes_ofExcept _,
      shows_bind_iff _ fun _ => writes_ofExcept _, run_attempt, or_iff_right,
      cancels_cancelSession hcancels]
    rwa [Writes.shows_iff]
    refine (writes_cancelSession _ _ _).mono fun exchange h => ?_
    simp [installs, h]
  | ok authentication =>
    dsimp only
    rw [es10c, run_ofExcept_bind]
    cases parseProfileMetadata authentication.profileMetadata with
    | error error => exact iff_of_false (not_or.mpr ⟨hinstalls, hcancels⟩) (by simp)
    | ok metadata =>
      dsimp only [Except.mapError]
      rw [es10c, run_ofExcept_bind]
      cases confirmationCodeRequired authentication.smdpSigned2 with
      | error error => exact iff_of_false (not_or.mpr ⟨hinstalls, hcancels⟩) (by simp)
      | ok required =>
        simp only [Except.mapError, Except.ok.injEq, exists_eq_left', exists_and_left]
        cases metadata.irreversiblePolicyRules.isEmpty with
        | false =>
          -- the policy gate
          simp only [Bool.not_false, if_true, Bool.false_eq_true, if_false]
          rw [cancels_refuseProfile hcancels, or_iff_right]
          rwa [Writes.shows_iff]
          refine (writes_refuseProfile _ _ _ _ _).mono fun exchange h => ?_
          rcases h with ⟨what, h⟩ | h <;> simp [installs, h]
        | true =>
          simp only [Bool.not_true, Bool.false_eq_true, if_false, if_true]
          rw [or_iff_left, installs_installProfile ?_ hinstalls]
          · rfl
          · rwa [Writes.shows_iff]
            refine (writes_installProfile _ _ _ _ _ _ _).mono fun exchange h => ?_
            rw [h.2]
            exact Bool.false_ne_true

/-- A run leaves no session open exactly when the two ends conclude each
session the chip agreed to. -/
theorem settled_iff (server : Server) (card : Card) (hash : String → Bytes → Bytes)
    (request : DownloadRequest) :
    Settled ((runDownload server card hash request).run []).2 ↔
      ∀ opened log, (openSession server card request).run [] = (.ok opened, log) →
        Concludes server card hash request opened (apdus log) := by
  unfold runDownload
  rcases openSession_cases server card request with
    ⟨opened, log, hopen, hagreed⟩ | ⟨error, log, hopen, hagreed⟩
  · have hwrites := writes_openSession server card request []
    rw [hopen] at hwrites
    have hnothing : ¬ Shows (fun exchange => exchange.installs
        || exchange.cancels opened.transactionBytes) log := by
      rintro ⟨exchange, hmem, h⟩
      rcases hwrites exchange hmem with hnil | ⟨what, hc⟩ | ⟨id, hc⟩
      · exact absurd hnil List.not_mem_nil
      all_goals simp [Exchange.installs, Exchange.cancels, hc] at h
    simp only [Shows, Bool.or_eq_true, and_or_left, exists_or, not_or] at hnothing
    obtain ⟨hinstalls, hcancels⟩ := hnothing
    rw [run_bind_of_ok hopen]
    have hfinal : ∀ transactionId, Shows (authenticates transactionId)
          ((completeDownload server card hash request opened).run log).2
        ↔ transactionId = opened.transactionBytes := by
      intro transactionId
      rw [Writes.shows_iff, hagreed]
      refine (writes_completeDownload _ _ _ _ _).mono fun exchange hnot h => hnot ?_
      unfold Exchange.authenticates at h
      split at h
      next id _ hc _ => exact ⟨id, hc⟩
      · cases h
    simp only [Settled, hfinal, forall_eq, settles_completeDownload_iff hinstalls hcancels, hopen,
      Prod.mk.injEq, Except.ok.injEq, and_imp]
    constructor
    · rintro h _ _ rfl rfl
      exact h
    · exact fun h => h opened log rfl rfl
  · rw [run_bind_of_error hopen]
    refine iff_of_true (fun id h => absurd h (hagreed id)) fun opened log h => ?_
    rw [hopen] at h
    cases h

/-! ## A session left open

A chip that answers every request, and a server that asks for a confirmation
code the operator did not supply. -/

def benchAnswer : Bytes → Bytes
  | [0xbf, 0x3e] => [0xbf, 0x3e, 0x12, 0x5a, 0x10] ++ List.replicate 16 0x89
  | [0xbf, 0x22] => [0xbf, 0x22, 0x05, 0x82, 0x03, 0x02, 0x02, 0x02]
  | [0xbf, 0x2d] => [0xbf, 0x2d, 0x02, 0xa0, 0x00]
  | [0xbf, 0x28] => [0xbf, 0x28, 0x02, 0xa0, 0x00]
  | [0xbf, 0x2e] => [0xbf, 0x2e, 0x12, 0x80, 0x10] ++ List.replicate 16 0x01
  | [0xbf, 0x20] =>
    [0xbf, 0x20, 0x0b, 0x82, 0x03, 0x02, 0x02, 0x02, 0xa9, 0x04, 0x04, 0x02, 0xaa, 0xbb]
  | [0xbf, 0x38] => [0xbf, 0x38, 0x02, 0xa0, 0x00]
  | _ => []

def benchCard : Card where
  slot := 1
  sendApdu history := .ok ⟨benchAnswer (((history.getLastD []).drop 5).take 2), 0x90, 0x00⟩

/-- A server with this metadata and this signed answer, and no package. -/
def benchServer (profileMetadata smdpSigned2 : Bytes) : Server where
  initiateAuthentication _ _ _ := .ok
    { transactionId := "0A0B", transactionIdRaw := "0A0B", serverSigned1 := [0x30, 0x00]
      serverSignature1 := [0x5f, 0x37, 0x00], serverCertificate := [0x30, 0x00]
      euiccCiPkidToBeUsed := "AABB", euiccCiPkidDer := [0x04, 0x02, 0xaa, 0xbb]
      serverChallenge := "", echoedEuiccChallenge := "", httpStatus := 200, adminProtocol := none
      negotiatedTls := none, elapsedMs := 0, verification := {} }
  authenticateClient _ _ _ := .ok
    { profileMetadata, smdpSigned2, smdpSignature2 := [0x5f, 0x37, 0x00]
      smdpCertificate := [0x30, 0x00], httpStatus := 200, elapsedMs := 0 }
  getBoundProfilePackage _ _ _ := .error ⟨"no package"⟩
  handleNotification _ _ := .ok ⟨204, 0⟩
  cancelSession _ _ _ := .ok ⟨200, 0⟩

def benchRequest : DownloadRequest :=
  { smdpAddress := "smdp.example", matchingId := none, confirmationCode := none
    imei := "356938035643809" }

/-- Metadata without rules, a code asked for and none supplied: the run
fails with the session open. -/
theorem session_left_open :
    ¬ Settled ((runDownload (benchServer [0xbf, 0x25, 0x00] [0x30, 0x03, 0x01, 0x01, 0xff])
      benchCard (fun _ _ => []) benchRequest).run []).2 := by
  intro h
  have hagreed : ∃ exchange ∈ ((runDownload (benchServer [0xbf, 0x25, 0x00]
      [0x30, 0x03, 0x01, 0x01, 0xff]) benchCard (fun _ _ => []) benchRequest).run []).2,
      exchange.authenticates [0x0a, 0x0b] := by decide +kernel
  have hends := h [0x0a, 0x0b] hagreed
  revert hends
  decide +kernel

end VodogeEdge.Esim
