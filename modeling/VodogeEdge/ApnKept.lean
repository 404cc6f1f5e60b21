import VodogeEdge.ApnOutcome
import VodogeEdge.ApnText

/-!
# What an edit leaves alone

`AT+QICSGP` rewrites all fields of a context, so what a request leaves out has
to be read and sent back. A context that could not be read is written all the
same, with defaults.
-/

namespace VodogeEdge.Apn

open ApnCredentials Option

/-- The module holds `after`: that is what the write it accepted says. -/
def HeldAfter (port : Port) (request : ApnWrite) (after : PdpContext) : Prop :=
  after.NoQuotes ∧ ∃ exchange, succeeded exchange
    ∧ (writeCommand request.cid after, .ok exchange) ∈ ((configureApn port request).run []).2

/-- What the request leaves out is as it was. -/
structure Kept (request : ApnWrite) (prior after : PdpContext) : Prop where
  contextType : request.pdpType = none → after.contextType = prior.contextType
  auth : request.auth = none → after.auth = prior.auth
  username : request.username = none → after.username = prior.username
  password : request.password = none → after.password = prior.password

/-- What the request leaves out was read as the module holds it, or could not
be read and is the default. -/
structure ReadsBack (port : Port) (request : ApnWrite) (prior : PdpContext) : Prop where
  contextType : request.pdpType = none →
    ((readingOf (firstAnswer port request)).bind ApnCredentials.contextType).getD 1
      = prior.contextType
  auth : request.auth = none →
    (((readingOf (firstAnswer port request)).bind ApnCredentials.auth).map ApnAuth.code).getD 0
      = prior.auth
  username : request.username = none →
    ((readingOf (firstAnswer port request)).map ApnCredentials.username).getD [] = prior.username
  password : request.password = none →
    ((readingOf (firstAnswer port request)).map ApnCredentials.password).getD [] = prior.password

section
variable {port : Port} {request : ApnWrite} {report : ApnReport} {prior after : PdpContext}
  {wanted : Wanted} {auth : ApnAuth}

/-- A call that succeeds makes one write, and the module holds what it says. -/
theorem eq_sent_of_heldAfter (hok : ((configureApn port request).run []).1 = .ok report)
    (hheld : HeldAfter port request after) :
    ∃ wanted, understood request = .ok wanted ∧ after = sent port request wanted := by
  obtain ⟨wanted, hunderstood, -, hlog, -⟩ := configureApn_eq_ok.mp (Prod.ext hok rfl)
  obtain ⟨hquotes, exchange, -, hmem⟩ := hheld
  refine ⟨wanted, hunderstood, ?_⟩
  rw [show ((configureApn port request).run []).2 = _ from hlog] at hmem
  simp only [exchanges, firstExchange, writeExchange, List.mem_cons, List.not_mem_nil, or_false,
    Prod.mk.injEq] at hmem
  rcases hmem with ⟨hread, -⟩ | ⟨hwrite, -⟩ | ⟨hread, -⟩
  · exact absurd hread (writeCommand_ne_readCommand _ _)
  · have htext := (List.cons.inj (List.append_cancel_left hwrite.symm)).2
    exact (eq_of_text_eq htext hquotes).symm
  · exact absurd hread (writeCommand_ne_readCommand _ _)

theorem sent_of_left_out (port : Port) (h : understood request = .ok wanted) :
    (request.pdpType = none → (sent port request wanted).contextType
      = ((readingOf (firstAnswer port request)).bind contextType).getD 1)
    ∧ (request.auth = none → (sent port request wanted).auth
      = (((readingOf (firstAnswer port request)).bind ApnCredentials.auth).map ApnAuth.code).getD 0)
    ∧ (request.username = none → (sent port request wanted).username
      = ((readingOf (firstAnswer port request)).map username).getD [])
    ∧ (request.password = none → (sent port request wanted).password
      = ((readingOf (firstAnswer port request)).map password).getD []) := by
  obtain ⟨hauth, htype⟩ := understood_ok h
  refine ⟨fun hnone => ?_, fun hnone => ?_, fun hnone => ?_, fun hnone => ?_⟩
  · rw [hnone] at htype
    rw [sent, resolve, ← Except.ok.inj htype, none_or]
  · rw [hnone] at hauth
    rw [sent, resolve, ← Except.ok.inj hauth, none_or]
  · rw [sent, resolve, hnone, none_or]
  · rw [sent, resolve, hnone, none_or]

theorem kept_sent_iff (h : understood request = .ok wanted) :
    Kept request prior (sent port request wanted) ↔ ReadsBack port request prior := by
  obtain ⟨htype, hauth, husername, hpassword⟩ := sent_of_left_out port h
  constructor
  · intro hkept
    exact ⟨fun hnone => (htype hnone).symm.trans (hkept.contextType hnone),
      fun hnone => (hauth hnone).symm.trans (hkept.auth hnone),
      fun hnone => (husername hnone).symm.trans (hkept.username hnone),
      fun hnone => (hpassword hnone).symm.trans (hkept.password hnone)⟩
  · intro hreads
    exact ⟨fun hnone => (htype hnone).trans (hreads.contextType hnone),
      fun hnone => (hauth hnone).trans (hreads.auth hnone),
      fun hnone => (husername hnone).trans (hreads.username hnone),
      fun hnone => (hpassword hnone).trans (hreads.password hnone)⟩

theorem code_of_fromCode {code : UInt8} (h : ApnAuth.fromCode code = some auth) :
    auth.code = code := by
  unfold ApnAuth.fromCode at h
  split_ifs at h with hzero hone htwo hthree <;> cases h <;> symm <;> assumption

/-- A module that answers the first reading with the row of its context, whose
values hold no quote and whose method is known, has all of it read back. -/
theorem readsBack_of_row (hquotes : prior.NoQuotes)
    (hauth : ApnAuth.fromCode prior.auth = some auth) {exchange : AtExchange}
    {lines : List Chars} (hanswer : firstAnswer port request = .ok exchange)
    (hok : succeeded exchange) (hlines : exchange.lines = prior.row :: lines) :
    ReadsBack port request prior := by
  have hreading : readingOf (firstAnswer port request) = some prior.credentials := by
    rw [hanswer, readingOf, if_pos hok, hlines, parseQicsgp_row hquotes]
  constructor
  · intro _
    rw [hreading]
    rfl
  · intro _
    rw [hreading, bind_some, PdpContext.credentials, hauth, map_some,
      getD_some, code_of_fromCode hauth]
  · intro _
    rw [hreading]
    rfl
  · intro _
    rw [hreading]
    rfl

end

/-- A call that succeeds on a module that applies what it accepts leaves alone
what the request leaves out, exactly if the first reading showed it. -/
theorem leftOut_kept_iff (port : Port) (request : ApnWrite) (prior after : PdpContext)
    (report : ApnReport) (hok : ((configureApn port request).run []).1 = .ok report)
    (hheld : HeldAfter port request after) :
    Kept request prior after ↔ ReadsBack port request prior := by
  obtain ⟨wanted, hunderstood, rfl⟩ := eq_sent_of_heldAfter hok hheld
  exact kept_sent_iff hunderstood

def apnRequest : ApnWrite := ⟨1, none, "cmnet".toList, none, none, none⟩

def heldBefore : PdpContext :=
  ⟨3, "internet".toList, "user".toList, "secret".toList, 2⟩

def heldThen : PdpContext := { heldBefore with apn := "cmnet".toList }

def answerRow (context : PdpContext) : Answer := .ok ⟨[], [context.row], "OK".toList⟩

/-- A module that holds `heldBefore`, shows what it holds and applies what it
accepts. -/
def literalPort : Port where
  opened := .ok ()
  answer
    | [], _ => answerRow heldBefore
    | [_], _ => answerOk []
    | _, _ => answerRow heldThen

/-- The context is read, and the APN alone changes. -/
theorem leftOut_kept_literalPort : Kept apnRequest heldBefore heldThen := by
  have hok : ((configureApn literalPort apnRequest).run []).1
      = .ok ⟨1, "IPV4V6", "cmnet".toList, "user".toList, some .chap, true⟩ := by decide +kernel
  have hheld : HeldAfter literalPort apnRequest heldThen :=
    ⟨⟨by decide +kernel, by decide +kernel, by decide +kernel⟩,
      ⟨[], [], "OK".toList⟩, by decide +kernel, by decide +kernel⟩
  have hanswer : firstAnswer literalPort apnRequest = answerRow heldBefore := rfl
  have hauth : ApnAuth.fromCode heldBefore.auth = some .chap := rfl
  have hreads : ReadsBack literalPort apnRequest heldBefore :=
    readsBack_of_row ⟨by decide +kernel, by decide +kernel, by decide +kernel⟩ hauth hanswer rfl rfl
  exact (leftOut_kept_iff literalPort apnRequest heldBefore heldThen _ hok hheld).mpr hreads

def busyPort : Port where
  opened := .ok ()
  answer
    | [], _ => .ok ⟨[], [], "+CME ERROR: 14".toList⟩
    | [_], _ => answerOk []
    | _, _ => answerOk ["+QICSGP: 1,\"cmnet\",\"\",\"\",0"]

/-- What it held is overwritten with defaults, and the call succeeds. -/
theorem busyPort_overwritten :
    ((configureApn busyPort apnRequest).run []).1
      = .ok ⟨1, "IP", "cmnet".toList, [], some .none, false⟩
    ∧ HeldAfter busyPort apnRequest ⟨1, "cmnet".toList, [], [], 0⟩
    ∧ ¬ Kept apnRequest heldBefore ⟨1, "cmnet".toList, [], [], 0⟩ := by
  refine ⟨by decide +kernel, ?_, ?_⟩
  · exact ⟨⟨by decide +kernel, by decide +kernel, by decide +kernel⟩,
      ⟨[], [], "OK".toList⟩, by decide +kernel, by decide +kernel⟩
  · intro hkept
    exact absurd (hkept.contextType rfl) (by decide)

end VodogeEdge.Apn
