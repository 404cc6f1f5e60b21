import VodogeEdge.EsimDownload

/-!
# What becomes of a request

A request goes out whole when the chip takes every block before the last
(`GoesOut`), and it is answered when the chip takes the last one too
(`Answers`). `executeCounted_cases` is all that a request can come to; each
command of the download writes exchanges of its own kind and no others.
-/

namespace VodogeEdge.Esim

open List

open Logged

/-! ## Chains -/

/-- The chip takes a block, after these APDUs went out for it. -/
def Accepts (card : Card) (history : List Bytes) (apdu : Bytes)
    (response : ApduResponse) (sent : List Bytes) : Prop :=
  transmit card history apdu = (.ok response, sent) ∧ response.isSuccess

/-- The chip takes all blocks of a chain and returns these bytes for the
last one. -/
inductive Delivered (card : Card) : List Bytes → List Bytes → Bytes →
    List Bytes → Prop
  | last {history apdu response sent} (h : Accepts card history apdu response sent) :
      Delivered card history [apdu] response.data sent
  | more {history apdu response sent rest answer later}
      (h : Accepts card history apdu response sent)
      (hrest : Delivered card (history ++ sent) rest answer later) :
      Delivered card history (apdu :: rest) answer (sent ++ later)

/-- The chip takes all blocks of a chain before the last, so that all of
them are sent. -/
inductive AllSent (card : Card) : List Bytes → List Bytes → Prop
  | last {history apdu} : AllSent card history [apdu]
  | more {history apdu response sent rest} (h : Accepts card history apdu response sent)
      (hrest : AllSent card (history ++ sent) rest) : AllSent card history (apdu :: rest)

/-- The blocks of a chain go out up to the first one the chip does not take,
and that is the error. -/
inductive Stopped (card : Card) : List Bytes → List Bytes → SessionError →
    List Bytes → List Bytes → Prop
  | failed {history apdu rest error sent}
      (h : transmit card history apdu = (.error error, sent)) :
      Stopped card history (apdu :: rest) error [apdu] sent
  | refused {history apdu rest response sent}
      (h : transmit card history apdu = (.ok response, sent))
      (hrefused : response.isSuccess = false) :
      Stopped card history (apdu :: rest) (.uim (.apduFailed response.sw1 response.sw2)) [apdu]
        sent
  | later {history apdu rest response sent error blocks more}
      (h : Accepts card history apdu response sent)
      (hrest : Stopped card (history ++ sent) rest error blocks more) :
      Stopped card history (apdu :: rest) error (apdu :: blocks) (sent ++ more)

variable (server : Server) (card : Card) {history sent chain : List Bytes}
  (command : Command) {answer : Bytes} (payload : Bytes)

theorem Delivered.ne_nil {card : Card} (h : Delivered card history chain answer sent) :
    chain ≠ [] := by
  cases h <;> exact cons_ne_nil _ _

theorem Delivered.allSent {card : Card} (h : Delivered card history chain answer sent) :
    AllSent card history chain := by
  induction h with
  | last => exact .last
  | more h _ ih => exact .more h ih

variable (what : Reading) (opened : Opened) (outcome : DownloadOutcome) {error : SessionError}
  {α : Type} {response : ApduResponse} {rest : List Bytes} {apdu : Bytes}

theorem sendChain_last {card : Card} (h : Accepts card history apdu response sent) :
    sendChain card history [apdu] = (.ok response.data, [apdu], sent) := by
  simp [sendChain, h.1, h.2]

theorem sendChain_more {card : Card} (h : Accepts card history apdu response sent)
    (hrest : rest ≠ []) :
    sendChain card history (apdu :: rest)
      = ((sendChain card (history ++ sent) rest).1,
          apdu :: (sendChain card (history ++ sent) rest).2.1,
          sent ++ (sendChain card (history ++ sent) rest).2.2) := by
  rw [sendChain, h.1]
  simp [h.2, hrest]

/-- A chain is delivered, or it stops at a block the chip does not take. -/
theorem sendChain_cases (card : Card) : ∀ {chain : List Bytes}, chain ≠ [] → ∀ history,
      (∃ answer sent, Delivered card history chain answer sent
        ∧ sendChain card history chain = (.ok answer, chain, sent))
      ∨ ∃ error blocks sent, Stopped card history chain error blocks sent
        ∧ sendChain card history chain = (.error error, blocks, sent)
  | [], hne, _ => absurd rfl hne
  | apdu :: rest, _, history => by
    match htransmit : transmit card history apdu with
    | (.error error, sent) =>
      exact .inr ⟨error, [apdu], sent, .failed htransmit, by rw [sendChain, htransmit]⟩
    | (.ok response, sent) =>
      cases hsuccess : response.isSuccess with
      | false =>
        refine .inr ⟨_, [apdu], sent, .refused htransmit hsuccess, ?_⟩
        rw [sendChain, htransmit]
        simp [hsuccess]
      | true =>
        have haccepts : Accepts card history apdu response sent := ⟨htransmit, hsuccess⟩
        by_cases hrest : rest = []
        · subst hrest
          exact .inl ⟨_, _, .last haccepts, sendChain_last haccepts⟩
        · rw [sendChain_more haccepts hrest]
          rcases sendChain_cases card hrest (history ++ sent) with
            ⟨answer, more, hdelivered, heq⟩ | ⟨error, blocks, more, hstopped, heq⟩
          · exact .inl ⟨answer, sent ++ more, .more haccepts hdelivered, by rw [heq]⟩
          · exact .inr ⟨error, apdu :: blocks, sent ++ more, .later haccepts hstopped, by rw [heq]⟩

theorem allSent_cons {card : Card} :
    AllSent card history (apdu :: rest) ↔ rest = []
      ∨ ∃ response sent, Accepts card history apdu response sent
        ∧ AllSent card (history ++ sent) rest := by
  constructor
  · intro h
    cases h with
    | last => exact .inl rfl
    | more h hrest => exact .inr ⟨_, _, h, hrest⟩
  · rintro (rfl | ⟨response, sent, h, hrest⟩)
    · exact .last
    · exact .more h hrest

/-- A stopped chain was sent whole when all blocks before the last were
taken. -/
theorem Stopped.whole_iff {card : Card} {blocks : List Bytes}
    (h : Stopped card history chain error blocks sent) :
    blocks = chain ↔ AllSent card history chain := by
  induction h with
  | failed h => simp [allSent_cons, Accepts, h]
  | refused h hrefused => simp [allSent_cons, Accepts, h, hrefused]
  | @later _ _ rest _ _ _ _ _ h hrest ih =>
    have hne : rest ≠ [] := by
      rintro rfl
      cases hrest
    simp [allSent_cons, Accepts, h.1, h.2, hne, ih]

theorem Delivered.sendChain_eq {card : Card} (h : Delivered card history chain answer sent) :
    sendChain card history chain = (.ok answer, chain, sent) := by
  induction h with
  | last h => exact sendChain_last h
  | more h hrest ih => rw [sendChain_more h hrest.ne_nil, ih]

theorem storeDataChain_ne_nil {payload : Bytes} (h : storeDataChain payload = .ok chain) :
    chain ≠ [] := by
  unfold storeDataChain at h
  split at h
  · cases h
  next hnonempty =>
    split at h
    · cases h
    · cases h
      have hpos : 0 < payload.length := length_pos_iff.mpr (by simpa using hnonempty)
      refine ne_nil_of_length_pos ?_
      simp only [length_map, length_zipIdx, chunks, length_range, storeDataBlockBytes]
      omega

/-! ## Requests -/

def Answers (card : Card) (history : List Bytes) (payload answer : Bytes)
    (sent : List Bytes) : Prop :=
  ∃ chain, storeDataChain payload = .ok chain ∧ Delivered card history chain answer sent

def GoesOut (card : Card) (history : List Bytes) (payload : Bytes) : Prop :=
  ∃ chain, storeDataChain payload = .ok chain ∧ AllSent card history chain

theorem Answers.unique {card : Card} {sent' : List Bytes} {payload answer' : Bytes}
    (h : Answers card history payload answer sent)
    (h' : Answers card history payload answer' sent') : answer' = answer ∧ sent' = sent := by
  obtain ⟨chain, hchain, hdelivered⟩ := h
  obtain ⟨chain', hchain', hdelivered'⟩ := h'
  obtain rfl : chain' = chain := Except.ok.inj (hchain'.symm.trans hchain)
  have heq := hdelivered'.sendChain_eq
  rw [hdelivered.sendChain_eq] at heq
  simp only [Prod.mk.injEq, Except.ok.injEq, true_and] at heq
  exact ⟨heq.1.symm, heq.2.symm⟩

/-- A request is answered and logged with its answer, or fails and at most an
exchange without one is logged, whole exactly if it goes out. -/
theorem executeCounted_cases (log : List Exchange) :
    (∃ chain answer sent, storeDataChain payload = .ok chain
      ∧ Delivered card (apdus log) chain answer sent
      ∧ (executeCounted card command payload).run log
        = (.ok (answer, chain.length), log ++ [⟨command, payload, chain, sent, .ok answer⟩]))
    ∨ (∀ answer sent, ¬ Answers card (apdus log) payload answer sent)
      ∧ ∃ error later, (executeCounted card command payload).run log = (.error error, later)
        ∧ (later = log ∧ ¬ GoesOut card (apdus log) payload
          ∨ ∃ blocks sent, later = log ++ [⟨command, payload, blocks, sent, .error error⟩]
            ∧ (storeDataChain payload = .ok blocks ↔ GoesOut card (apdus log) payload)) := by
  cases hchain : storeDataChain payload with
  | error error =>
    refine .inr ⟨?_, .es10c error, log, by simp [executeCounted, hchain], .inl ⟨rfl, ?_⟩⟩
    · rintro answer sent ⟨chain, hok, -⟩
      cases hchain.symm.trans hok
    · rintro ⟨chain, hok, -⟩
      cases hchain.symm.trans hok
  | ok chain =>
    rcases sendChain_cases card (storeDataChain_ne_nil hchain) (apdus log) with
      ⟨answer, sent, hdelivered, heq⟩ | ⟨error, blocks, sent, hstopped, heq⟩
    · refine .inl ⟨chain, answer, sent, rfl, hdelivered, ?_⟩
      simp [executeCounted, hchain, heq, Except.map]
    · refine .inr ⟨?_, error, _, by simp [executeCounted, hchain, heq, Except.map],
        .inr ⟨blocks, sent, rfl, ?_⟩⟩
      · rintro answer later ⟨chain', hchain', hdelivered⟩
        obtain rfl : chain' = chain := Except.ok.inj (hchain'.symm.trans hchain)
        rw [hdelivered.sendChain_eq] at heq
        cases heq
      · simp [GoesOut, hchain, ← hstopped.whole_iff, eq_comm]

/-- The log of a failed request: none of the exchanges it added has an
answer. -/
theorem executeCounted_failed {log later : List Exchange}
    (h : (executeCounted card command payload).run log = (.error error, later)) :
    ∀ exchange ∈ later, exchange ∈ log ∨ exchange.answer = .error error := by
  intro exchange hmem
  rcases executeCounted_cases card command payload log with
    ⟨chain, answer, sent, -, -, hrun⟩ | ⟨-, error', later', hrun, hlater⟩
  · cases h.symm.trans hrun
  · cases h.symm.trans hrun
    rcases hlater with ⟨rfl, -⟩ | ⟨blocks, sent, rfl, -⟩
    · exact .inl hmem
    · exact (mem_append.mp hmem).imp_right fun hmem => by rw [mem_singleton.mp hmem]

/-- A request whose answer is parsed, as the steps of a download make it. -/
def executeParsed {α : Type} (parse : Bytes → Except Es10cError α) : Session (α × Nat) := do
  let (bytes, blocks) ← executeCounted card command payload
  let result ← es10c (parse bytes)
  pure (result, blocks)

theorem executeParsed_cases (parse : Bytes → Except Es10cError α) (log : List Exchange) :
    (∃ answer sent result blocks chain, Answers card (apdus log) payload answer sent
      ∧ parse answer = .ok result
      ∧ (executeParsed card command payload parse).run log
        = (.ok (result, blocks), log ++ [⟨command, payload, chain, sent, .ok answer⟩]))
    ∨ (∀ answer sent result, Answers card (apdus log) payload answer sent →
        parse answer ≠ .ok result)
      ∧ ∃ error later,
        (executeParsed card command payload parse).run log = (.error error, later)
        ∧ ∀ exchange ∈ later, exchange ∈ log
          ∨ ∀ answer, exchange.answer = .ok answer → (parse answer).isOk = false := by
  unfold executeParsed
  rcases executeCounted_cases card command payload log with
    ⟨chain, answer, sent, hchain, hdelivered, hrun⟩ | ⟨hnone, error, later, hrun, -⟩
  · have hanswers : Answers card (apdus log) payload answer sent := ⟨chain, hchain, hdelivered⟩
    rw [run_bind_of_ok hrun]
    dsimp only
    cases hparse : parse answer with
    | ok result => exact .inl ⟨answer, sent, result, chain.length, chain, hanswers, hparse, rfl⟩
    | error error =>
      refine .inr ⟨?_, .es10c error, _, rfl, ?_⟩
      · intro answer' sent' result hanswers' hok
        rw [(hanswers.unique hanswers').1, hparse] at hok
        cases hok
      · intro exchange hmem
        refine (mem_append.mp hmem).imp_right fun hmem answer' hanswer' => ?_
        rw [mem_singleton.mp hmem] at hanswer'
        rw [← Except.ok.inj hanswer', hparse]
        rfl
  · rw [run_bind_of_error hrun]
    refine .inr ⟨fun answer sent _ h => absurd h (hnone answer sent), error, later, rfl, ?_⟩
    intro exchange hmem
    refine (executeCounted_failed _ _ _ hrun exchange hmem).imp_right
      fun herror answer hanswer => ?_
    rw [herror] at hanswer
    cases hanswer

/-! ## What each command writes -/

theorem writes_executeCounted :
    Writes (fun exchange => exchange.command = command) (executeCounted card command payload) := by
  intro log exchange hmem
  simp only [executeCounted] at hmem
  split at hmem
  · exact .inl hmem
  · rcases mem_append.mp hmem with hmem | hmem
    · exact .inl hmem
    · rw [mem_singleton] at hmem
      exact .inr (by rw [hmem])

theorem writes_execute :
    Writes (fun exchange => exchange.command = command) (execute card command payload) :=
  (writes_executeCounted card command payload).bind fun _ => writes_pure _

def Exchange.IsRead (exchange : Exchange) : Prop := ∃ what, exchange.command = .read what

theorem reads_request (payload : Bytes) (parse : Bytes → Except Es10cError α) :
    Writes Exchange.IsRead (request card what payload parse) :=
  ((writes_execute card (.read what) payload).mono fun _ h => ⟨what, h⟩).bind
    fun _ => writes_ofExcept _

theorem reads_getEidData : Writes Exchange.IsRead (getEidData card) := by
  intro log exchange hmem
  rcases mem_append.mp hmem with hmem | hmem
  · exact .inl hmem
  · exact .inr ⟨.eidData, by rw [mem_singleton.mp hmem]⟩

theorem reads_readEid : Writes Exchange.IsRead (readEid card) := by
  refine (reads_request _ _ _ _).attempt.bind fun result => ?_
  split
  · exact writes_pure _
  · refine (reads_getEidData card).attempt.bind fun fallback => ?_
    split
    · split <;> exact writes_ofExcept _
    · exact writes_ofExcept _

theorem reads_snapshot : Writes Exchange.IsRead (snapshot card) :=
  (reads_request _ _ _ _).bind fun _ => (reads_request _ _ _ _).bind fun _ =>
    (reads_request _ _ _ _).bind fun _ => writes_pure _

theorem reads_startSession (request : DownloadRequest) :
    Writes Exchange.IsRead (startSession server card request) :=
  (reads_readEid card).bind fun _ => (reads_snapshot card).bind fun _ =>
    (reads_request _ _ _ _).bind fun _ => (reads_request _ _ _ _).bind fun _ =>
      (writes_ofExcept _).bind fun _ => writes_pure _

theorem writes_authenticateServer (start : AuthenticationStart) (matchingId : Option String)
    (imei : String) :
    Writes (fun exchange =>
        exchange.command = .authenticateServer (hexBytes start.transactionIdRaw))
      (authenticateServer card start matchingId imei) :=
  (writes_ofExcept _).bind fun _ => (writes_ofExcept _).bind fun _ =>
    (writes_executeCounted _ _ _).bind fun _ => (writes_ofExcept _).bind fun _ => writes_pure _

theorem writes_cancelSession (transactionId : Bytes) (reason : CancelSessionReason) :
    Writes (fun exchange => exchange.command = .cancelSession transactionId reason)
      (cancelSession card transactionId reason) :=
  (writes_execute _ _ _).bind fun _ => writes_ofExcept _

theorem writes_prepareDownload (hash : String → Bytes → Bytes)
    (authentication : ClientAuthentication) (confirmationCode : Option String) :
    Writes (fun exchange => exchange.command = .prepareDownload)
      (prepareDownload card hash authentication confirmationCode) :=
  (writes_ofExcept _).bind fun _ => (writes_executeCounted _ _ _).bind fun _ =>
    (writes_ofExcept _).bind fun _ => writes_pure _

def Exchange.IsSegment (exchange : Exchange) : Prop :=
  ∃ label, exchange.command = .loadSegment label

theorem writes_loadSegments (card : Card) : ∀ segments
    transfers,
    Writes Exchange.IsSegment (loadSegments card transfers segments)
  | [], _ => writes_ofExcept _
  | segment :: rest, transfers => by
    refine .bind ((writes_executeCounted _ _ _).mono fun exchange h => ⟨_, h⟩) fun answered => ?_
    dsimp only
    split
    · exact (writes_ofExcept _).bind fun _ => writes_pure _
    · exact writes_loadSegments card rest _

theorem writes_loadBoundProfilePackage (package : Bytes) :
    Writes Exchange.IsSegment (loadBoundProfilePackage card package) :=
  (writes_ofExcept _).bind fun segments => writes_loadSegments card segments []

theorem writes_giveBackSession (reason : CancelSessionReason) :
    Writes (fun exchange => exchange.command = .cancelSession opened.transactionBytes reason)
      (giveBackSession server card opened outcome reason) := by
  refine (writes_cancelSession _ _ _).attempt.bind fun result => ?_
  split
  · exact writes_pure _
  · split <;> exact writes_pure _

theorem writes_refuseProfile (refused : List String) :
    Writes (fun exchange => exchange.IsRead
        ∨ exchange.command = .cancelSession opened.transactionBytes .pprNotAllowed)
      (refuseProfile server card opened outcome refused) :=
  ((writes_giveBackSession _ _ _ _ _).mono fun _ => .inr).bind fun _ =>
    ((reads_snapshot card).mono fun _ => .inl).bind fun _ => writes_pure _

theorem writes_deliverNotification (installation : InstallationResult) (outcome : DownloadOutcome) :
    Writes (fun exchange => ∃ number, exchange.command = .removeNotification number)
      (deliverNotification server card installation outcome) := by
  unfold deliverNotification
  split
  · exact writes_pure _
  · split
    · exact writes_pure _
    next number _ =>
      have hremove : Writes
          (fun exchange => ∃ number, exchange.command = .removeNotification number)
          (removeNotification card number) :=
        ((writes_execute _ _ _).mono fun exchange h => ⟨number, h⟩).bind fun _ => writes_ofExcept _
      refine hremove.attempt.bind fun result => ?_
      split <;> exact writes_pure _

end VodogeEdge.Esim
