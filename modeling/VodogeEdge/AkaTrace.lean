import VodogeEdge.AkaSelection

/-!
# The APDUs of one challenge

What `usimAuthenticate` puts on the basic channel, against every card: an
exchange opens with its APDU, once more with another `Le` if the card says
`6C xx`, and goes on with requests for the rest of the answer. `Course` is
every way the exchanges of a challenge can follow each other.
-/

namespace VodogeEdge.Aka

open List

open Logged

/-! ## One exchange -/

/-- The answer an exchange goes on from, and the APDUs up to it. -/
inductive Opens (channel : BasicChannel) (trace : List Bytes) (apdu : Bytes) :
    List Bytes → ApduResponse → Prop
  | plain {first} (h : channel.transmit (trace ++ [apdu]) = .ok first) (hle : first.sw1 ≠ 0x6c) :
      Opens channel trace apdu [apdu] first
  | retried {wrong first} (h : channel.transmit (trace ++ [apdu]) = .ok wrong)
      (hle : wrong.sw1 = 0x6c)
      (hagain : channel.transmit (trace ++ [apdu, withLe apdu wrong.sw2]) = .ok first) :
      Opens channel trace apdu [apdu, withLe apdu wrong.sw2] first

/-- A completed exchange: what was sent for it, and the whole answer. -/
def Exchanged (channel : BasicChannel) (trace : List Bytes) (apdu : Bytes)
    (response : ApduResponse) (sent : List Bytes) : Prop :=
  ∃ start first pieces, Opens channel trace apdu start first
    ∧ Pieces (fun apdus next => channel.transmit apdus = .ok next) (trace ++ start) first pieces
    ∧ Collects [] pieces response ∧ sent = start ++ pieces.dropLast.map getResponse

theorem run_transmit (channel : BasicChannel) (apdu : Bytes) (trace : List Bytes) :
    (transmit channel apdu).run trace = (channel.transmit (trace ++ [apdu]), trace ++ [apdu]) :=
  rfl

variable {channel : BasicChannel} {trace status after start sent before : List Bytes}
  {apdu : Bytes} {error : AkaError} {other : Bytes}

/-- What one exchange puts on the channel, if anything: its APDU, at most one
retry of it, and at most 256 requests for the rest of the answer. -/
def Puts (channel : BasicChannel) (trace : List Bytes) (apdu : Bytes) (sent : List Bytes) : Prop :=
  sent = [] ∨ ∃ start rest : List Bytes, sent = start ++ rest
    ∧ rest.length ≤ maxGetResponseRounds
    ∧ (∀ later ∈ rest, ∃ piece, later = getResponse piece)
    ∧ (start = [apdu] ∨ ∃ wrong, channel.transmit (trace ++ [apdu]) = .ok wrong
      ∧ wrong.sw1 = 0x6c ∧ start = [apdu, withLe apdu wrong.sw2])

/-- All there is to say about one exchange, against any card. -/
structure Exchanges (channel : BasicChannel) (trace : List Bytes) (apdu : Bytes)
    (result : Except AkaError ApduResponse) (sent : List Bytes) : Prop where
  puts : Puts channel trace apdu sent
  reports : Reports channel.transmit trace sent result
  answered : ∀ response, result = .ok response → Exchanged channel trace apdu response sent
  fails : ∀ error, result = .error error → channel.transmit (trace ++ sent) = .error error
    ∨ error = .tooManyGetResponseRounds maxGetResponseRounds

theorem exchanges_error
    (hstart : start = [apdu] ∨ ∃ wrong, channel.transmit (trace ++ [apdu]) = .ok wrong
      ∧ wrong.sw1 = 0x6c ∧ start = [apdu, withLe apdu wrong.sw2])
    (h : channel.transmit (trace ++ start) = .error error) :
    Exchanges channel trace apdu (.error error) start := by
  refine ⟨.inr ⟨start, [], (append_nil _).symm, Nat.zero_le _, by simp, hstart⟩, ?_, by simp,
    fun _ herror => .inl (Except.error.inj herror ▸ h)⟩
  rcases hstart with rfl | ⟨wrong, hwrong, -, rfl⟩
  · simpa [reports_cons, reports_nil] using fun _ => (h.symm.trans · |> Except.error.inj)
  · simpa [reports_cons, reports_nil, hwrong] using fun _ => (h.symm.trans · |> Except.error.inj)

theorem Opens.exchanges {first : ApduResponse} (h : Opens channel trace apdu start first) :
    let drained := drainGetResponse channel.transmit .tooManyGetResponseRounds
      maxGetResponseRounds (trace ++ start) first
    Exchanges channel trace apdu drained.1 (start ++ drained.2) := by
  intro drained
  have hdrains : Drains channel.transmit .tooManyGetResponseRounds maxGetResponseRounds
      (trace ++ start) drained.1 drained.2 := drainGetResponse_drains _ _ _ _
  refine ⟨.inr ⟨start, _, rfl, hdrains.length_le, hdrains.requests, ?_⟩, ?_, ?_, ?_⟩
  · cases h with
    | plain => exact .inl rfl
    | retried h hle => exact .inr ⟨_, h, hle, rfl⟩
  · have hreports := hdrains.reports
    cases h with
    | plain h => simpa [reports_cons, h] using hreports
    | retried h _ hagain => simpa [reports_cons, h, hagain] using hreports
  · intro response hresponse
    obtain ⟨pieces, hpieces, -, hcollects, hsent⟩ := (drainGetResponse_ok_iff _ response _ _ []
      first _).mp (Prod.ext hresponse rfl)
    exact ⟨start, first, pieces, h, hpieces, hcollects, congrArg (start ++ ·) hsent⟩
  · simpa using hdrains.fails

theorem exchange_spec (channel : BasicChannel) (apdu : Bytes) (hne : apdu ≠ [])
    (trace : List Bytes) :
    ∃ result sent, (exchange channel apdu).run trace = (result, trace ++ sent)
      ∧ Exchanges channel trace apdu result sent := by
  unfold exchange
  cases hfirst : channel.transmit (trace ++ [apdu]) with
  | error error =>
    exact ⟨_, _, run_bind_of_error (by rw [run_transmit, hfirst]) _,
      exchanges_error (.inl rfl) hfirst⟩
  | ok first =>
    rw [run_bind_of_ok (by rw [run_transmit, hfirst])]
    by_cases hle : first.sw1 = 0x6c
    · have happend : trace ++ [apdu] ++ [withLe apdu first.sw2]
          = trace ++ [apdu, withLe apdu first.sw2] := by
        rw [append_assoc]
        rfl
      rw [if_pos ⟨hle, hne⟩]
      cases hagain : channel.transmit (trace ++ [apdu, withLe apdu first.sw2]) with
      | error error =>
        refine ⟨_, _, run_bind_of_error ?_ _,
          exchanges_error (.inr ⟨first, hfirst, hle, rfl⟩) hagain⟩
        rw [run_transmit, happend, hagain]
      | ok second =>
        refine ⟨_, _, ?_, (Opens.retried hfirst hle hagain).exchanges⟩
        rw [run_bind_of_ok (by rw [run_transmit, happend, hagain]), run_ofAdded, append_assoc]
    · rw [if_neg fun h => hle h.1, run_bind_of_ok (run_pure _ _), run_ofAdded]
      refine ⟨_, _, ?_, (Opens.plain hfirst hle).exchanges⟩
      rw [append_assoc]

/-! ## One check -/

/-- A `STATUS` or a `SELECT`, and the FCP in its answer held to the standard
of `usim_aid_of`. -/
def check (channel : BasicChannel) (apdu : Bytes) (refused : ApduResponse → AkaError) :
    Traffic Bytes := do
  let response ← exchange channel apdu
  if !response.isSuccess then .ofExcept (.error (refused response))
  else .ofExcept (usimAidOf response.data)

def Shows (channel : BasicChannel) (trace : List Bytes) (apdu : Bytes) (sent : List Bytes) : Prop :=
  ∃ response, Exchanged channel trace apdu response sent ∧ response.isSuccess
    ∧ UsimSelected response.data

/-- The exchange says that no USIM is selected, or does not say what is. -/
def Denies (channel : BasicChannel) (trace : List Bytes) (apdu : Bytes)
    (sent : List Bytes) : Prop :=
  ∃ response, Exchanged channel trace apdu response sent
    ∧ (response.isSuccess = false ∨ ¬ UsimSelected response.data)

theorem check_spec (channel : BasicChannel) (apdu : Bytes) (hne : apdu ≠ [])
    (refused : ApduResponse → AkaError) (trace : List Bytes) :
    ∃ result sent, (check channel apdu refused).run trace = (result, trace ++ sent)
      ∧ Puts channel trace apdu sent ∧ Reports channel.transmit trace sent result
      ∧ ((∃ aid, result = .ok aid ∧ Shows channel trace apdu sent)
        ∨ ∃ error, result = .error error ∧ (Denies channel trace apdu sent
          ∨ channel.transmit (trace ++ sent) = .error error
          ∨ error = .tooManyGetResponseRounds maxGetResponseRounds)) := by
  obtain ⟨exchanged, sent, hrun, hputs, hreports, hok, herror⟩ :=
    exchange_spec channel apdu hne trace
  unfold check
  cases exchanged with
  | error error =>
    refine ⟨.error error, sent, run_bind_of_error hrun _, hputs, ?_,
      .inr ⟨error, rfl, .inr (herror error rfl)⟩⟩
    intro front hfront hnonempty other hother
    cases hreports front hfront hnonempty other hother
    rfl
  | ok response =>
    have hexchanged := hok response rfl
    -- nothing was left without an answer, so there is nothing to report
    have hnothing {α : Type} (result : Except AkaError α) :
        Reports channel.transmit trace sent result :=
      fun front hfront hnonempty other hother => by
        cases hreports front hfront hnonempty other hother
    rw [run_bind_of_ok hrun]
    cases hsuccess : response.isSuccess with
    | false =>
      exact ⟨_, sent, rfl, hputs, hnothing _, .inr ⟨_, rfl, .inl ⟨response, hexchanged,
        .inl hsuccess⟩⟩⟩
    | true =>
      refine ⟨_, sent, rfl, hputs, hnothing _, ?_⟩
      rcases usimAidOf_cases response.data with
        ⟨aid, haid, hselected⟩ | ⟨verdict, hverdict, -, hnot⟩
      · exact .inl ⟨aid, haid, response, hexchanged, hsuccess, hselected⟩
      · exact .inr ⟨verdict, hverdict, .inl ⟨response, hexchanged, .inr hnot⟩⟩

/-! ## The whole challenge -/

/-- `STATUS` came to a verdict about what is selected: the card gave it, or
the channel did in the card's place. -/
def Verdict (channel : BasicChannel) (status : List Bytes) : Prop :=
  ∃ verdict : AkaError, verdict.isSelectionVerdict
    ∧ Reports channel.transmit [] status (.error verdict : Except AkaError Bytes)
    ∧ (Denies channel [] statusFcpApdu status ∨ channel.transmit status = .error verdict)

def IsAuthenticate (apdu : Bytes) : Prop := apdu[1]? = some 0x88

def IsSelect (apdu : Bytes) : Prop := apdu[1]? = some 0xa4

/-- The exchanges of a challenge, any of which may be left out: `STATUS`, a
SELECT behind a verdict, the challenge behind an answer that showed a USIM. -/
structure Course (channel : BasicChannel) (status select auth : List Bytes) : Prop where
  statusPuts : Puts channel [] statusFcpApdu status
  selectPuts : Puts channel status selectUsimAdfApdu select
  verdict : select ≠ [] → Verdict channel status
  authPuts : ∃ challenge, Puts channel (status ++ select) challenge auth ∧ 2 < challenge.length
    ∧ IsAuthenticate challenge
  shows : auth ≠ [] → ∃ earlier request sent, status ++ select = earlier ++ sent
    ∧ (request = statusFcpApdu ∨ request = selectUsimAdfApdu)
    ∧ Shows channel earlier request sent

theorem authenticateApdu_ok {rand autn : Bytes} {includeLe : Bool}
    (h : authenticateApdu rand autn includeLe = .ok apdu) :
    2 < apdu.length ∧ IsAuthenticate apdu := by
  unfold authenticateApdu at h
  split at h
  · cases h
  · split at h
    · cases h
    · cases h
      exact ⟨by simp only [length_append]; omega, rfl⟩

/-- The challenge itself, once a USIM is selected: its exchange is all that
is sent. -/
theorem challenge_puts (channel : BasicChannel) (hne : apdu ≠ []) (trace : List Bytes) :
    ∃ auth, ((do let response ← exchange channel apdu
                 .ofExcept (classifyAuthenticate response)).run trace).2
        = trace ++ auth
      ∧ Puts channel trace apdu auth := by
  obtain ⟨result, auth, hrun, hexchanges⟩ := exchange_spec channel apdu hne trace
  refine ⟨auth, ?_, hexchanges.puts⟩
  cases result with
  | error error => rw [run_bind_of_error hrun]
  | ok response => rw [run_bind_of_ok hrun, run_ofExcept]

theorem ensureUsimSelected_of_ok {aid : Bytes}
    (h : (verifyUsimSelected channel).run trace = (.ok aid, status)) :
    (ensureUsimSelected channel).run trace = (.ok aid, status) := by
  unfold ensureUsimSelected
  rw [run_bind_of_ok (run_attempt _ _), h]
  rfl

theorem ensureUsimSelected_of_error
    (h : (verifyUsimSelected channel).run trace = (.error error, status)) :
    (ensureUsimSelected channel).run trace
      = if error.isSelectionVerdict then (selectUsimAdf channel).run status
        else (.error error, status) := by
  unfold ensureUsimSelected
  rw [run_bind_of_ok (run_attempt _ _), h]
  dsimp only
  split <;> rfl

theorem usimAuthenticate_course (channel : BasicChannel) (rand autn : Bytes) :
    ∃ status select auth, Course channel status select auth
      ∧ ((usimAuthenticate channel rand autn).run []).2 = status ++ select ++ auth := by
  unfold usimAuthenticate
  rw [run_ofExcept_bind]
  cases happdu : authenticateApdu rand autn true with
  | error error =>
    exact ⟨[], [], [], ⟨.inl rfl, .inl rfl, absurd rfl,
      ⟨[0x00, 0x88, 0x00], .inl rfl, by decide, rfl⟩, absurd rfl⟩, rfl⟩
  | ok apdu =>
    obtain ⟨hlong, hins⟩ := authenticateApdu_ok happdu
    have hne : apdu ≠ [] := by
      rintro rfl
      cases hins
    obtain ⟨verified, status, hverify, hstatus, hreports, hverified⟩ :=
      check_spec channel statusFcpApdu (by decide)
        (fun response => .statusRefused response.sw1 response.sw2) []
    dsimp only
    rcases hverified with ⟨aid, rfl, hshows⟩ | ⟨error, rfl, hwhy⟩
    · rw [run_bind_of_ok (ensureUsimSelected_of_ok hverify)]
      obtain ⟨auth, hsent, hauth⟩ := challenge_puts channel hne (status ++ [])
      refine ⟨status, [], auth, ⟨hstatus, .inl rfl, absurd rfl, ⟨apdu, hauth, hlong, hins⟩,
        fun _ => ⟨[], _, status, append_nil _, .inl rfl, hshows⟩⟩, ?_⟩
      rw [← hsent, append_nil]
      rfl
    · have hensure := ensureUsimSelected_of_error hverify
      by_cases hverdict : error.isSelectionVerdict
      · have hsaid : Verdict channel status := by
          refine ⟨error, hverdict, hreports, ?_⟩
          rcases hwhy with hdenies | hfailed | rfl
          · exact .inl hdenies
          · exact .inr hfailed
          · cases hverdict
        obtain ⟨selected, select, hselect, hputs, -, hselected⟩ :=
          check_spec channel selectUsimAdfApdu (by decide)
            (fun response => .usimSelectRefused response.sw1 response.sw2) ([] ++ status)
        rw [if_pos hverdict] at hensure
        replace hensure := hensure.trans hselect
        rcases hselected with ⟨aid, rfl, hshows⟩ | ⟨error, rfl, -⟩
        · rw [run_bind_of_ok hensure]
          obtain ⟨auth, hsent, hauth⟩ := challenge_puts channel hne ([] ++ status ++ select)
          exact ⟨status, select, auth, ⟨hstatus, hputs, fun _ => hsaid, ⟨apdu, hauth, hlong, hins⟩,
            fun _ => ⟨_, _, select, rfl, .inr rfl, hshows⟩⟩, hsent⟩
        · rw [run_bind_of_error hensure]
          exact ⟨status, select, [], ⟨hstatus, hputs, fun _ => hsaid, ⟨apdu, .inl rfl, hlong, hins⟩,
            absurd rfl⟩, (append_nil _).symm⟩
      · rw [if_neg hverdict] at hensure
        rw [run_bind_of_error hensure]
        exact ⟨status, [], [], ⟨hstatus, .inl rfl, absurd rfl, ⟨apdu, .inl rfl, hlong, hins⟩,
          absurd rfl⟩, by simp⟩

/-! ## What every trace keeps to -/

theorem Puts.length_le (h : Puts channel trace apdu sent) :
    sent.length ≤ maxGetResponseRounds + 2 := by
  obtain rfl | ⟨start, rest, rfl, hlength, -, hstart⟩ := h
  · exact Nat.zero_le _
  · rw [length_append]
    rcases hstart with rfl | ⟨wrong, -, -, rfl⟩
    · rw [length_singleton]
      omega
    · rw [length_cons, length_singleton]
      omega

theorem withLe_ins (hlong : 2 < apdu.length) (le : UInt8) : (withLe apdu le)[1]? = apdu[1]? := by
  match apdu, hlong with
  | _ :: _ :: _ :: _, _ => rfl

theorem Puts.ins (h : Puts channel trace apdu sent) (hlong : 2 < apdu.length)
    (hmem : other ∈ sent) : other[1]? = apdu[1]? ∨ other[1]? = some 0xc0 := by
  obtain rfl | ⟨start, rest, rfl, -, hrest, hstart⟩ := h
  · cases hmem
  rcases mem_append.mp hmem with hmem | hmem
  · refine .inl ?_
    rcases hstart with rfl | ⟨wrong, -, -, rfl⟩
    · rw [mem_singleton.mp hmem]
    · rcases mem_cons.mp hmem with rfl | hmem
      · rfl
      · rw [mem_singleton.mp hmem, withLe_ins hlong]
  · obtain ⟨piece, rfl⟩ := hrest other hmem
    exact .inr rfl

theorem exists_between {α : Type} {l r before after : List α} {a : α}
    (h : l ++ r = before ++ a :: after) (hnot : a ∉ l) :
    ∃ between, before = l ++ between ∧ r = between ++ a :: after := by
  rcases append_eq_append_iff.mp h with ⟨between, rfl, hr⟩ | ⟨rest, rfl, hafter⟩
  · exact ⟨between, rfl, hr⟩
  · cases rest with
    | nil => exact ⟨[], by simp, by simpa using hafter.symm⟩
    | cons first rest =>
      cases hafter
      exact absurd (mem_append_right _ mem_cons_self) hnot

theorem exists_front {α : Type} {l r before after : List α} {a : α}
    (h : l ++ r = before ++ a :: after) (hnot : a ∉ r) : ∃ tail, l = before ++ a :: tail := by
  rcases append_eq_append_iff.mp h with ⟨more, rfl, rfl⟩ | ⟨more, rfl, hmore⟩
  · exact absurd (mem_append_right _ mem_cons_self) hnot
  · cases more with
    | nil =>
      rw [nil_append] at hmore
      exact absurd (hmore ▸ mem_cons_self) hnot
    | cons first more =>
      cases hmore
      exact ⟨more, rfl⟩

theorem Puts.not_mem (h : Puts channel trace apdu sent) (hlong : 2 < apdu.length)
    (hother : other[1]? ≠ apdu[1]?) (hrest : other[1]? ≠ some 0xc0) : other ∉ sent := by
  intro hmem
  rcases h.ins hlong hmem with heq | heq
  · exact hother heq
  · exact hrest heq

/-- A challenge stands behind the exchange before it, with no SELECT in
between. -/
theorem Puts.behind {front auth : List Bytes} {challenge : Bytes}
    (hauth : Puts channel front challenge auth) (hlong : 2 < challenge.length)
    (hins : IsAuthenticate challenge) (hsplit : front ++ auth = before ++ apdu :: after)
    (hnot : apdu ∉ front) :
    ∃ between, before = front ++ between ∧ ∀ other ∈ between, ¬ IsSelect other := by
  obtain ⟨between, rfl, rfl⟩ := exists_between hsplit hnot
  refine ⟨between, rfl, fun other hmem hselect => ?_⟩
  refine hauth.not_mem hlong ?_ ?_ (mem_append_left _ hmem)
  · rw [hselect, hins]
    decide
  · rw [hselect]
    decide

theorem Puts.select_position {select between : List Bytes}
    (h : Puts channel status selectUsimAdfApdu select)
    (hsplit : select = between ++ apdu :: after) (hselect : IsSelect apdu) :
    (between = [] ∧ apdu = selectUsimAdfApdu)
    ∨ ∃ wrong, between = [selectUsimAdfApdu]
      ∧ channel.transmit (status ++ [selectUsimAdfApdu]) = .ok wrong ∧ wrong.sw1 = 0x6c
      ∧ apdu = withLe selectUsimAdfApdu wrong.sw2 := by
  obtain rfl | ⟨start, rest, rfl, -, hrest, hstart⟩ := h
  · simp at hsplit
  have hnot : apdu ∉ rest := by
    intro hmem
    obtain ⟨piece, rfl⟩ := hrest apdu hmem
    have hins : (0xc0 : UInt8) = 0xa4 := Option.some.inj hselect
    exact absurd hins (by decide)
  obtain ⟨tail, rfl⟩ := exists_front hsplit hnot
  rcases hstart with hstart | ⟨wrong, hwrong, hle, hstart⟩
  · cases between with
    | nil => exact .inl ⟨rfl, (List.cons.inj hstart).1⟩
    | cons first between => simp at hstart
  · match between, hstart with
    | [], hstart => exact .inl ⟨rfl, (List.cons.inj hstart).1⟩
    | [first], hstart =>
      obtain ⟨rfl, rfl, -⟩ := hstart
      exact .inr ⟨wrong, rfl, hwrong, hle, rfl⟩
    | _ :: _ :: _, hstart => simp at hstart

theorem Puts.not_mem_status (h : Puts channel [] statusFcpApdu status)
    (hins : IsAuthenticate apdu ∨ IsSelect apdu) : apdu ∉ status := by
  refine h.not_mem (by decide) ?_ ?_ <;> rcases hins with hins | hins <;> rw [hins] <;> decide

/-- A SELECT has its place right behind `STATUS`, which came to a verdict,
and nothing before it failed but with that verdict. -/
theorem Verdict.select {select : List Bytes} (hstatus : Puts channel [] statusFcpApdu status)
    (hverdict : Verdict channel status) (hselect : Puts channel status selectUsimAdfApdu select)
    (hsplit : status ++ select = before ++ apdu :: after) (hins : IsSelect apdu) :
    (before = status ∧ apdu = selectUsimAdfApdu
      ∨ ∃ wrong, before = status ++ [selectUsimAdfApdu] ∧ channel.transmit before = .ok wrong
        ∧ wrong.sw1 = 0x6c ∧ apdu = withLe selectUsimAdfApdu wrong.sw2)
    ∧ (Denies channel [] statusFcpApdu status
      ∨ ∃ verdict, channel.transmit status = .error verdict ∧ verdict.isSelectionVerdict)
    ∧ ∀ front, front <+: before → front ≠ [] → ∀ error, channel.transmit front = .error error →
      error.isSelectionVerdict := by
  obtain ⟨verdict, hkind, hreports, hwhy⟩ := hverdict
  obtain ⟨between, rfl, hbetween⟩ := exists_between hsplit (hstatus.not_mem_status (.inr hins))
  have hfailed {front : List Bytes} {error : AkaError} (hfront : front <+: status)
      (hne : front ≠ []) (herror : channel.transmit front = .error error) :
      error.isSelectionVerdict := by
    cases hreports front hfront hne error herror
    exact hkind
  refine ⟨?_, hwhy.imp_right fun h => ⟨verdict, h, hkind⟩, ?_⟩
  · rcases hselect.select_position hbetween hins with ⟨rfl, rfl⟩ | ⟨wrong, rfl, hwrong, hle, rfl⟩
    · exact .inl ⟨append_nil _, rfl⟩
    · exact .inr ⟨wrong, rfl, hwrong, hle, rfl⟩
  · intro front hfront hne error herror
    rcases hselect.select_position hbetween hins with ⟨rfl, rfl⟩ | ⟨wrong, rfl, hwrong, -, -⟩
    · exact hfailed (by rwa [append_nil] at hfront) hne herror
    · rcases prefix_concat_iff.mp hfront with rfl | hfront
      · rw [hwrong] at herror
        cases herror
      · exact hfailed hfront hne herror

/-- No challenge reaches an application that is not verified: an AUTHENTICATE
stands behind a `STATUS` or a SELECT whose whole answer showed a USIM, with no
SELECT in between. A SELECT is sent once, with one retry on `6C xx`, and only
behind a verdict about what is selected. At most 774 APDUs are sent. -/
theorem usimAuthenticate_guarded (channel : BasicChannel) (rand autn : Bytes) :
    ∃ trace, ((usimAuthenticate channel rand autn).run []).2 = trace
      ∧ trace.length ≤ 774
      ∧ (∀ before apdu after, trace = before ++ apdu :: after → IsAuthenticate apdu →
        ∃ earlier request sent between, before = earlier ++ sent ++ between
          ∧ (request = statusFcpApdu ∨ request = selectUsimAdfApdu)
          ∧ Shows channel earlier request sent ∧ ∀ other ∈ between, ¬ IsSelect other)
      ∧ ∃ status, ∀ before apdu after, trace = before ++ apdu :: after → IsSelect apdu →
        (before = status ∧ apdu = selectUsimAdfApdu
          ∨ ∃ wrong, before = status ++ [selectUsimAdfApdu] ∧ channel.transmit before = .ok wrong
            ∧ wrong.sw1 = 0x6c ∧ apdu = withLe selectUsimAdfApdu wrong.sw2)
        ∧ (Denies channel [] statusFcpApdu status
          ∨ ∃ verdict, channel.transmit status = .error verdict
            ∧ verdict.isSelectionVerdict)
        ∧ ∀ front, front <+: before → front ≠ [] → ∀ error,
          channel.transmit front = .error error → error.isSelectionVerdict := by
  obtain ⟨status, select, auth, hcourse, htrace⟩ := usimAuthenticate_course channel rand autn
  obtain ⟨challenge, hauth, hlong, hchallenge⟩ := hcourse.authPuts
  refine ⟨_, htrace, ?_, fun before apdu after hsplit hins => ?_, status,
    fun before apdu after hsplit hins => ?_⟩
  · have hstatus := hcourse.statusPuts.length_le
    have hselect := hcourse.selectPuts.length_le
    have hlast := hauth.length_le
    rw [maxGetResponseRounds] at hstatus hselect hlast
    rw [length_append, length_append]
    omega
  · -- neither `STATUS` nor SELECT is an AUTHENTICATE
    have hselect : apdu ∉ select := by
      refine hcourse.selectPuts.not_mem (by decide) ?_ ?_ <;> rw [hins] <;> decide
    obtain ⟨between, rfl, hbetween⟩ := hauth.behind hlong hchallenge hsplit fun h =>
      (mem_append.mp h).elim (hcourse.statusPuts.not_mem_status (.inl hins)) hselect
    obtain ⟨earlier, request, sent, hfront, hrequest, hshows⟩ := hcourse.shows fun h => by
      rw [h, append_nil, append_assoc] at hsplit
      exact absurd (self_eq_append_right.mp hsplit) (by simp)
    exact ⟨earlier, request, sent, between, by rw [hfront], hrequest, hshows, hbetween⟩
  · -- a challenge is no SELECT
    have hnot : apdu ∉ auth := by
      refine hauth.not_mem hlong ?_ ?_ <;> rw [hins]
      · rw [hchallenge]
        decide
      · decide
    obtain ⟨tail, hfront⟩ := exists_front hsplit hnot
    refine (hcourse.verdict fun h => ?_).select hcourse.statusPuts hcourse.selectPuts hfront hins
    rw [h, append_nil] at hfront
    exact hcourse.statusPuts.not_mem_status (.inr hins) (hfront ▸ mem_append_right _ mem_cons_self)

end VodogeEdge.Aka
