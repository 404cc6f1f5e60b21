import Mathlib.Data.List.AList
import VodogeEdge.QmiFrame
import VodogeEdge.Runs

/-!
# QMI correlation

`QmiClient`: requests are registered in `PendingTransactions`, written,
and the answer is matched against what is registered. The transport is
arbitrary: each call of `round_trip` is handed whatever the transport
returns, an error or any bytes.

`round_trip` takes its registration back when the transport fails and when
the answer does not decode, but not when the answer does not match. From
then on the entry stays. `correlated_iff` says what a whole session needs
for its table to be empty between calls, for `register` never to fail and
for every answer to be the request's own: that no decodable answer is
anybody else's.
-/

namespace VodogeEdge.Qmi

open AList List

/-! ## Pending transactions -/

inductive CorrelationError where
  | duplicateTransaction (key : TransactionKey)
  | unmatchedResponse (key : TransactionKey)
  | messageMismatch (key : TransactionKey) (expected actual : MessageId)
deriving DecidableEq

inductive SessionError where
  | transport (message : String)
  | disconnected (device : String) (awaitingResponse : Bool)
  | wire (error : WireError)
  | correlation (error : CorrelationError)
deriving DecidableEq

abbrev PendingTransactions : Type := AList fun _ : TransactionKey => MessageId

namespace PendingTransactions

variable (pending : PendingTransactions)

def register (request : QmiRequest) : Except CorrelationError PendingTransactions :=
  if request.transactionKey ∈ pending then
    .error (.duplicateTransaction request.transactionKey)
  else .ok (pending.insert request.transactionKey request.messageId)

/-- Matches any registered request, and only takes it out when the message
is the one registered. -/
def resolve (response : QmiResponse) : Except CorrelationError PendingTransactions :=
  match pending.lookup response.transactionKey with
  | none => .error (.unmatchedResponse response.transactionKey)
  | some expected =>
    if expected ≠ response.messageId then
      .error (.messageMismatch response.transactionKey expected response.messageId)
    else .ok (pending.erase response.transactionKey)

def discard (key : TransactionKey) : PendingTransactions :=
  pending.erase key

end PendingTransactions

/-! ## The client -/

structure QmiClient where
  pending : PendingTransactions
  nextControlTransaction : UInt8
  nextServiceTransaction : UInt16

/-- A modem-issued pair; the control service has none. -/
structure ClientAssignment where
  service : ServiceId
  clientId : ClientId
  notControl : service.isControl = false
  addressed : validateAddress service clientId = .ok ()

/-- What the session asks for: a control message, or a message of a service
it has a client for. The transaction is the session's to choose. -/
inductive Call where
  | control (messageId : MessageId) (payload : Bytes)
  | service (assignment : ClientAssignment) (messageId : MessageId) (payload : Bytes)

abbrev Reply : Type := Except SessionError Bytes

namespace QmiClient

def new : QmiClient := ⟨∅, 1, 1⟩

variable (client : QmiClient)

def allocateControlTransaction : TransactionId × QmiClient :=
  let next := client.nextControlTransaction + 1
  (⟨client.nextControlTransaction.toUInt16⟩,
    { client with nextControlTransaction := if next = 0 then 1 else next })

def allocateServiceTransaction : TransactionId × QmiClient :=
  let next := client.nextServiceTransaction + 1
  (⟨client.nextServiceTransaction⟩,
    { client with nextServiceTransaction := if next = 0 then 1 else next })

/-- The request of a call, with the next transaction identifier. -/
def prepare : Call → Except WireError QmiRequest × QmiClient
  | .control messageId payload =>
    let (transaction, client) := client.allocateControlTransaction
    (QmiRequest.new .control .control transaction messageId payload, client)
  | .service assignment messageId payload =>
    let (transaction, client) := client.allocateServiceTransaction
    (QmiRequest.new assignment.service assignment.clientId transaction messageId payload, client)

/-- `round_trip`; `reply` is what the transport returns for the frame. -/
def roundTrip (request : QmiRequest) (reply : Reply) :
    Except SessionError QmiResponse × QmiClient :=
  match client.pending.register request with
  | .error error => (.error (.correlation error), client)
  | .ok pending =>
    match reply with
    | .error error =>
      (.error error, { client with pending := pending.discard request.transactionKey })
    | .ok raw =>
      match QmiResponse.decode raw with
      | .error error =>
        (.error (.wire error),
          { client with pending := pending.discard request.transactionKey })
      | .ok response =>
        match pending.resolve response with
        | .error error => (.error (.correlation error), { client with pending })
        | .ok pending => (.ok response, { client with pending })

def exchange (turn : Call × Reply) : Except SessionError QmiResponse × QmiClient :=
  match client.prepare turn.1 with
  | (.error error, client) => (.error (.wire error), client)
  | (.ok request, client) => client.roundTrip request turn.2

def step (turn : Call × Reply) : QmiClient := (client.exchange turn).2

def after (turns : List (Call × Reply)) : QmiClient := runFrom step new turns

end QmiClient

/-! ## Correlation -/

/-- The response has the address and the message of the request. -/
def QmiResponse.Answers (response : QmiResponse) (request : QmiRequest) : Prop :=
  response.service = request.service ∧ response.clientId = request.clientId
    ∧ response.transaction = request.transaction ∧ response.messageId = request.messageId

/-- What a session relies on, at every point of its calls. -/
structure Correlated (turns : List (Call × Reply)) : Prop where
  empty : ∀ before, before <+: turns → (QmiClient.after before).pending = ∅
  registers : ∀ before turn, before ++ [turn] <+: turns → ∀ request,
    ((QmiClient.after before).prepare turn.1).1 = .ok request → ∀ key,
      (QmiClient.after before).pending.register request ≠ .error (.duplicateTransaction key)
  answers : ∀ before turn, before ++ [turn] <+: turns → ∀ request response,
    ((QmiClient.after before).prepare turn.1).1 = .ok request →
      ((QmiClient.after before).exchange turn).1 = .ok response → response.Answers request

/-- If the reply decodes, it is the answer to the request of the call. -/
def OwnAnswer (client : QmiClient) (turn : Call × Reply) : Prop :=
  ∀ request raw response, (client.prepare turn.1).1 = .ok request → turn.2 = .ok raw →
    QmiResponse.decode raw = .ok response → response.Answers request

/-! ## One round trip -/

namespace PendingTransactions

def only (request : QmiRequest) : PendingTransactions :=
  AList.singleton request.transactionKey request.messageId

variable (request : QmiRequest)

theorem register_empty : register ∅ request = .ok (only request) := by
  simp [register, only]

theorem discard_only : discard (only request) request.transactionKey = ∅ := by
  apply AList.ext
  exact kerase_cons_eq rfl

theorem lookup_only (key : TransactionKey) :
    (only request).lookup key
      = if key = request.transactionKey then some request.messageId else none := by
  unfold only
  split
  next h => rw [h, ← insert_empty, lookup_insert]
  next h => rw [← insert_empty, lookup_insert_ne h, lookup_empty]

theorem only_ne_empty : only request ≠ ∅ := by
  intro h
  have hentries := congrArg entries h
  cases hentries

theorem resolve_only (response : QmiResponse) :
    (response.Answers request ∧ resolve (only request) response = .ok ∅)
      ∨ (¬ response.Answers request ∧ ∃ error, resolve (only request) response = .error error) := by
  unfold resolve
  rw [lookup_only]
  by_cases hkey : response.transactionKey = request.transactionKey
  · rw [if_pos hkey]
    obtain ⟨hservice, hclient, htransaction⟩ := TransactionKey.mk.inj hkey
    by_cases hmessage : request.messageId = response.messageId
    · refine .inl ⟨⟨hservice, hclient, htransaction, hmessage.symm⟩, ?_⟩
      rw [hkey]
      exact (if_neg (not_not_intro hmessage)).trans (congrArg Except.ok (discard_only request))
    · exact .inr ⟨fun h => hmessage h.2.2.2.symm, _, if_pos hmessage⟩
  · rw [if_neg hkey]
    refine .inr ⟨?_, _, rfl⟩
    rintro ⟨hservice, hclient, htransaction, -⟩
    exact hkey (congr (congrArg₂ TransactionKey.mk hservice hclient) htransaction)

end PendingTransactions

namespace QmiClient

theorem prepare_pending (client : QmiClient) (call : Call) :
    (client.prepare call).2.pending = client.pending := by
  cases call <;> rfl

variable {client : QmiClient}

/-- From an empty table the registration is taken back unless the answer is
somebody else's. -/
theorem roundTrip_pending (hempty : client.pending = ∅) (request : QmiRequest) (reply : Reply) :
    (client.roundTrip request reply).2.pending = ∅ ↔
      ∀ raw response, reply = .ok raw → QmiResponse.decode raw = .ok response →
        response.Answers request := by
  unfold roundTrip
  rw [hempty, PendingTransactions.register_empty]
  cases reply with
  | error error => simp [PendingTransactions.discard_only]
  | ok raw =>
    simp only [Except.ok.injEq]
    cases hdecode : QmiResponse.decode raw with
    | error error =>
      simp only [PendingTransactions.discard_only, true_iff]
      rintro _ response rfl hother
      rw [hdecode] at hother
      cases hother
    | ok response =>
      rcases PendingTransactions.resolve_only request response with
        ⟨hanswers, hresolve⟩ | ⟨hother, error, hresolve⟩
      · simp only [hresolve, true_iff]
        rintro _ decoded rfl hsame
        rw [hdecode] at hsame
        cases hsame
        exact hanswers
      · simp only [hresolve, PendingTransactions.only_ne_empty, false_iff]
        exact fun h => hother (h raw response rfl hdecode)

theorem roundTrip_answers (hempty : client.pending = ∅) {request : QmiRequest} {reply : Reply}
    {response : QmiResponse} (h : (client.roundTrip request reply).1 = .ok response) :
    response.Answers request := by
  unfold roundTrip at h
  rw [hempty, PendingTransactions.register_empty] at h
  cases reply with
  | error error => cases h
  | ok raw =>
    cases hdecode : QmiResponse.decode raw with
    | error error => simp [hdecode] at h
    | ok decoded =>
      rcases PendingTransactions.resolve_only request decoded with
        ⟨hanswers, hresolve⟩ | ⟨-, error, hresolve⟩
      · simp only [hdecode, hresolve, Except.ok.injEq] at h
        exact h ▸ hanswers
      · simp [hdecode, hresolve] at h

/-- The same for a call: the table is empty again exactly when the reply was
the request's own answer, or no answer. -/
theorem step_pending (hempty : client.pending = ∅) (turn : Call × Reply) :
    (client.step turn).pending = ∅ ↔ OwnAnswer client turn := by
  have hkept := client.prepare_pending turn.1
  rw [hempty] at hkept
  unfold step exchange OwnAnswer
  rcases hprepare : client.prepare turn.1 with ⟨error | request, client'⟩
  · rw [hprepare] at hkept
    exact iff_of_true hkept nofun
  · rw [hprepare] at hkept
    refine (roundTrip_pending hkept request turn.2).trans ⟨?_, ?_⟩
    · rintro h _ raw response ⟨⟩
      exact h raw response
    · exact fun h raw response => h request raw response rfl

end QmiClient

/-! ## Whole sessions -/

variable {turns : List (Call × Reply)}

theorem correlated_of_along (h : Along QmiClient.step OwnAnswer .new turns) : Correlated turns := by
  have hempty : ∀ before, before <+: turns → (QmiClient.after before).pending = ∅ := by
    rintro before ⟨rest, rfl⟩
    exact Along.invariant (I := fun client => client.pending = ∅)
      (fun client turn hpending hown => (QmiClient.step_pending hpending turn).mpr hown)
      before rfl ((Along.append before rest).mp h).1
  refine ⟨hempty, ?_, ?_⟩
  · intro before turn hbefore request _ key
    have hpending := hempty before ((prefix_append _ _).trans hbefore)
    rw [hpending]
    exact nofun
  · intro before turn hbefore request response hprepare hok
    have hpending := hempty before ((prefix_append _ _).trans hbefore)
    have hkept := (QmiClient.after before).prepare_pending turn.1
    unfold QmiClient.exchange at hok
    rcases hsplit : (QmiClient.after before).prepare turn.1 with ⟨made, client⟩
    rw [hsplit] at hprepare hok hkept
    obtain rfl : made = .ok request := hprepare
    exact QmiClient.roundTrip_answers (hkept.trans hpending) hok

theorem along_of_correlated (h : Correlated turns) : Along QmiClient.step OwnAnswer .new turns := by
  rw [along_iff_before]
  intro before turn hbefore
  have hpending := h.empty before ((prefix_append _ _).trans hbefore)
  have hnext := h.empty _ hbefore
  rw [QmiClient.after, runFrom_snoc] at hnext
  exact (QmiClient.step_pending hpending turn).mp hnext

/-- A session is correlated exactly when no answer the transport returns is
anybody else's. -/
theorem correlated_iff (turns : List (Call × Reply)) :
    Correlated turns ↔ Along QmiClient.step OwnAnswer .new turns :=
  ⟨along_of_correlated, correlated_of_along⟩

/-- The answer to a `QMICTL_SYNC` with the given transaction. -/
def syncAnswer (transaction : UInt8) : Bytes :=
  [0x01, 0x0b, 0x00, 0x80, 0x00, 0x00, 0x01, transaction, 0x27, 0x00, 0x00, 0x00]

/-- A sync that is answered with a leftover of transaction 2. -/
def leftover : Call × Reply := (.control ⟨0x0027⟩ [], .ok (syncAnswer 2))

/-- A client allocation that is handed the late answer to the sync. -/
def lateAnswer : Call × Reply :=
  (.control ⟨0x0022⟩ [0x01, 0x01, 0x00, 0x02], .ok (syncAnswer 1))

def timedOut : Call × Reply :=
  (.control ⟨0x0027⟩ [], .error (.transport "timed out waiting for QMI response"))

/-- After one leftover the registration stays. The late answer is taken for
that to the next request; and once the transactions come round, it is in the
way. -/
theorem leftover_leaks :
    ¬ Correlated [leftover]
      ∧ ((QmiClient.after [leftover]).prepare lateAnswer.1).1.map
          (fun request => (request.transaction, request.messageId)) = .ok (⟨2⟩, ⟨0x0022⟩)
      ∧ ((QmiClient.after [leftover]).exchange lateAnswer).1
        = .ok ⟨.control, .control, ⟨1⟩, ⟨0x0027⟩, []⟩
      ∧ ((QmiClient.after (leftover :: replicate 254 timedOut)).exchange timedOut).1
        = .error (.correlation (.duplicateTransaction ⟨.control, .control, ⟨1⟩⟩)) := by
  refine ⟨?_, ?_, ?_, ?_⟩
  · intro h
    have hentries := congrArg entries (h.empty [leftover] (prefix_refl _))
    revert hentries
    decide +kernel
  · decide +kernel
  · decide +kernel
  · decide +kernel

end VodogeEdge.Qmi
