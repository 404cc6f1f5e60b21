import Mathlib.Data.List.Basic
import VodogeEdge.Word

/-!
# APDUs and the rest of an answer

A card that has more to say ends a piece of its answer with `61 xx` and is
asked for the next one, at most 256 times. Every caller that talks to a card
shares `drainGetResponse`; what stands behind the caller is a function of all
APDUs sent so far. `Pieces` is what the card says, and `drainGetResponse_ok_iff`
what is made of it.
-/

namespace VodogeEdge

open List

structure ApduResponse where
  data : Bytes
  sw1 : UInt8
  sw2 : UInt8

def ApduResponse.isSuccess (response : ApduResponse) : Bool :=
  response.sw1 = 0x90 && response.sw2 = 0x00

/-- `get_response_apdu`: it asks for the rest of an answer. -/
def getResponse (piece : ApduResponse) : Bytes := [0x00, 0xc0, 0x00, 0x00, piece.sw2]

def maxGetResponseRounds : Nat := 256

section Drain

variable {ε : Type} (send : List Bytes → Except ε ApduResponse) (tooMany : Nat → ε)
  {data : Bytes} (rounds : Nat)

/-- `drain_get_response`: while the card says `61 xx` it is asked for the
rest. The APDUs that went out are the second part. -/
def drainGetResponse : Nat → List Bytes → ApduResponse → Except ε ApduResponse × List Bytes
  | rounds, history, response =>
    if response.sw1 ≠ 0x61 then (.ok response, [])
    else
      match rounds with
      | 0 => (.error (tooMany maxGetResponseRounds), [])
      | rounds + 1 =>
        let apdu := getResponse response
        match send (history ++ [apdu]) with
        | .error error => (.error error, [apdu])
        | .ok next =>
          let (drained, sent) := drainGetResponse rounds (history ++ [apdu])
            { next with data := response.data ++ next.data }
          (drained, apdu :: sent)

/-! ## Pieces of an answer -/

/-- What a card that answers so goes on to say once it has said `first`: each
piece but the last says `61 xx` and is answered with a request for the next. -/
inductive Pieces (answers : List Bytes → ApduResponse → Prop) :
    List Bytes → ApduResponse → List ApduResponse → Prop
  | last {history first} (hlast : first.sw1 ≠ 0x61) : Pieces answers history first [first]
  | more {history first next pieces} (hmore : first.sw1 = 0x61)
      (hnext : answers (history ++ [getResponse first]) next)
      (hrest : Pieces answers (history ++ [getResponse first]) next pieces) :
      Pieces answers history first (first :: pieces)

def ApduResponse.after (piece : ApduResponse) (data : Bytes) : ApduResponse :=
  { piece with data := data ++ piece.data }

/-- The response is the data of all pieces behind `data`, with the status of
the last one. -/
def Collects (data : Bytes) (pieces : List ApduResponse) (response : ApduResponse) : Prop :=
  ∃ last, pieces.getLast? = some last
    ∧ response = ⟨data ++ pieces.flatMap ApduResponse.data, last.sw1, last.sw2⟩

theorem collects_singleton {piece response : ApduResponse} :
    Collects data [piece] response ↔ response = piece.after data := by
  simp [Collects, ApduResponse.after]

theorem collects_cons {first response : ApduResponse}
    {pieces : List ApduResponse} (h : pieces ≠ []) :
    Collects data (first :: pieces) response ↔ Collects (data ++ first.data) pieces response := by
  obtain ⟨piece, rest, rfl⟩ := exists_cons_of_ne_nil h
  simp [Collects]

section Answers

variable {answers : List Bytes → ApduResponse → Prop} {history : List Bytes}
  {first : ApduResponse} {pieces : List ApduResponse}

theorem Pieces.ne_nil (h : Pieces answers history first pieces) : pieces ≠ [] := by
  cases h <;> exact cons_ne_nil _ _

theorem pieces_last_iff (hlast : first.sw1 ≠ 0x61) :
    Pieces answers history first pieces ↔ pieces = [first] := by
  constructor
  · intro h
    cases h with
    | last => rfl
    | more hmore => exact absurd hmore hlast
  · rintro rfl
    exact .last hlast

theorem pieces_more_iff (hmore : first.sw1 = 0x61) :
    Pieces answers history first pieces ↔
      ∃ next rest, pieces = first :: rest ∧ answers (history ++ [getResponse first]) next
        ∧ Pieces answers (history ++ [getResponse first]) next rest := by
  constructor
  · intro h
    cases h with
    | last hlast => exact absurd hmore hlast
    | more _ hnext hrest => exact ⟨_, _, rfl, hnext, hrest⟩
  · rintro ⟨next, rest, rfl, hnext, hrest⟩
    exact .more hmore hnext hrest

end Answers

/-! ## One turn of the loop -/

theorem drainGetResponse_last (history : List Bytes)
    (data : Bytes) {first : ApduResponse} (hlast : first.sw1 ≠ 0x61) :
    drainGetResponse send tooMany rounds history (first.after data)
      = (.ok (first.after data), []) := by
  cases rounds <;> exact if_pos hlast

variable {send}

theorem drainGetResponse_more {history : List Bytes} {first next : ApduResponse}
    (hmore : first.sw1 = 0x61) (hsend : send (history ++ [getResponse first]) = .ok next)
    (rounds : Nat) (data : Bytes) :
    drainGetResponse send tooMany (rounds + 1) history (first.after data)
      = (drainGetResponse send tooMany rounds (history ++ [getResponse first])
          (next.after (data ++ first.data))).map id (getResponse first :: ·) := by
  have hget : getResponse (first.after data) = getResponse first := rfl
  rw [drainGetResponse, if_neg (fun hlast => hlast hmore)]
  simp only [hget, hsend]
  rfl

theorem drainGetResponse_error {history : List Bytes} {first : ApduResponse}
    (hmore : first.sw1 = 0x61) {error : ε}
    (hsend : send (history ++ [getResponse first]) = .error error) (rounds : Nat)
    (data : Bytes) :
    drainGetResponse send tooMany (rounds + 1) history (first.after data)
      = (.error error, [getResponse first]) := by
  have hget : getResponse (first.after data) = getResponse first := rfl
  rw [drainGetResponse, if_neg (fun hlast => hlast hmore)]
  simp [hget, hsend]

theorem map_cons_eq_iff {α β : Type} {pair : α × List β} {b : β} {a : α} {l : List β} :
    pair.map id (b :: ·) = (a, l) ↔ ∃ later, pair = (a, later) ∧ l = b :: later := by
  obtain ⟨x, y⟩ := pair
  simp [eq_comm]

theorem map_dropLast_cons {α β : Type} {l : List α} (h : l ≠ []) (f : α → β) (a : α) :
    (a :: l).dropLast.map f = f a :: l.dropLast.map f := by
  rw [dropLast_cons_of_ne_nil h, map_cons]

/-- A drained answer is the data of all pieces, which are at most one more
than the rounds allowed; `data` is what came before. -/
theorem drainGetResponse_ok_iff (final : ApduResponse) :
    ∀ rounds history data first
      sent,
      drainGetResponse send tooMany rounds history (first.after data) = (.ok final, sent) ↔
        ∃ pieces, Pieces (fun apdus next => send apdus = .ok next) history first pieces
          ∧ pieces.length ≤ rounds + 1
          ∧ Collects data pieces final ∧ sent = pieces.dropLast.map getResponse := by
  intro rounds
  induction rounds with
  | zero =>
    intro history data first sent
    by_cases hmore : first.sw1 = 0x61
    · rw [drainGetResponse, if_neg (fun hlast => hlast hmore)]
      constructor
      · rintro ⟨⟩
      · rintro ⟨pieces, hpieces, hlength, -⟩
        obtain ⟨_, rest, rfl, -, hrest⟩ := (pieces_more_iff hmore).mp hpieces
        have hpos := length_pos_iff.mpr hrest.ne_nil
        rw [length_cons] at hlength
        omega
    · simp [drainGetResponse_last send tooMany 0 history data hmore, pieces_last_iff hmore,
        collects_singleton, eq_comm]
  | succ rounds ih =>
    intro history data first sent
    by_cases hmore : first.sw1 = 0x61
    · cases hsend : send (history ++ [getResponse first]) with
      | error error =>
        rw [drainGetResponse_error tooMany hmore hsend]
        constructor
        · rintro ⟨⟩
        · rintro ⟨pieces, hpieces, -⟩
          obtain ⟨_, _, -, hnext, -⟩ := (pieces_more_iff hmore).mp hpieces
          rw [hsend] at hnext
          cases hnext
      | ok next =>
        rw [drainGetResponse_more tooMany hmore hsend, map_cons_eq_iff]
        constructor
        · rintro ⟨later, hdrained, rfl⟩
          obtain ⟨rest, hpieces, hlength, hcollects, rfl⟩ := (ih _ _ _ _).mp hdrained
          exact ⟨first :: rest, .more hmore hsend hpieces, Nat.succ_le_succ hlength,
            (collects_cons hpieces.ne_nil).mpr hcollects,
            (map_dropLast_cons hpieces.ne_nil _ _).symm⟩
        · rintro ⟨pieces, hpieces, hlength, hcollects, rfl⟩
          obtain ⟨next', rest, rfl, hnext, hrest⟩ := (pieces_more_iff hmore).mp hpieces
          obtain rfl : next' = next := Except.ok.inj (hnext.symm.trans hsend)
          exact ⟨_, (ih _ _ _ _).mpr ⟨rest, hrest, Nat.le_of_succ_le_succ hlength,
            (collects_cons hrest.ne_nil).mp hcollects, rfl⟩, map_dropLast_cons hrest.ne_nil _ _⟩
    · simp [drainGetResponse_last send tooMany _ history data hmore, pieces_last_iff hmore,
        collects_singleton, eq_comm]

/-! ## What goes out -/

/-- If a request gets no answer, why is the result. -/
def Reports {α : Type} (send : List Bytes → Except ε ApduResponse)
    (history sent : List Bytes) (result : Except ε α) : Prop :=
  ∀ front, front <+: sent → front ≠ [] →
    ∀ error, send (history ++ front) = .error error → result = .error error

theorem reports_nil {α : Type} (history : List Bytes) (result : Except ε α) :
    Reports send history [] result :=
  fun _ hfront hne => absurd (prefix_nil.mp hfront) hne

theorem reports_cons {α : Type} {history sent : List Bytes} {apdu : Bytes}
    {result : Except ε α} : Reports send history (apdu :: sent) result ↔
      (∀ error, send (history ++ [apdu]) = .error error → result = .error error)
        ∧ Reports send (history ++ [apdu]) sent result := by
  constructor
  · intro h
    refine ⟨h [apdu] (prefix_append _ _) (cons_ne_nil _ _), fun front hfront hne error herror => ?_⟩
    rw [append_assoc] at herror
    exact h _ (cons_prefix_cons.mpr ⟨rfl, hfront⟩) (cons_ne_nil _ _) error herror
  · rintro ⟨hfirst, hrest⟩ front hfront hne error herror
    obtain ⟨_, rest, rfl⟩ := exists_cons_of_ne_nil hne
    obtain ⟨rfl, hprefix⟩ := cons_prefix_cons.mp hfront
    by_cases hempty : rest = []
    · exact hfirst error (by rwa [hempty] at herror)
    · exact hrest rest hprefix hempty error (by rwa [append_assoc])

/-- Behind an APDU only requests for the rest of its answer go out, within
the rounds allowed; draining fails at an unanswered one, or after too many. -/
structure Drains (send : List Bytes → Except ε ApduResponse) (tooMany : Nat → ε)
    (rounds : Nat) (history : List Bytes) (result : Except ε ApduResponse)
    (sent : List Bytes) : Prop where
  length_le : sent.length ≤ rounds
  requests : ∀ apdu ∈ sent, ∃ piece, apdu = getResponse piece
  reports : Reports send history sent result
  fails : ∀ error, result = .error error →
    send (history ++ sent) = .error error ∨ error = tooMany maxGetResponseRounds

theorem drainGetResponse_drains (history : List Bytes)
    (response : ApduResponse) : Drains send tooMany rounds history
      (drainGetResponse send tooMany rounds history response).1
      (drainGetResponse send tooMany rounds history response).2 := by
  fun_induction drainGetResponse send tooMany rounds history response with
  | case1 =>
    exact ⟨Nat.zero_le _, by simp, reports_nil _ _, fun _ h => by cases h⟩
  | case2 =>
    exact ⟨Nat.zero_le _, by simp, reports_nil _ _, fun _ h => .inr (Except.error.inj h).symm⟩
  | case3 history response _ rounds apdu error hsend =>
    refine ⟨Nat.succ_le_succ (Nat.zero_le _), fun _ hmem => ⟨response, mem_singleton.mp hmem⟩,
      reports_cons.mpr ⟨fun _ h => hsend.symm.trans h ▸ rfl, reports_nil _ _⟩, fun _ h => ?_⟩
    cases h
    exact .inl hsend
  | case4 history response _ rounds apdu next hsend drained sent heq ih =>
    rw [heq] at ih
    refine ⟨Nat.succ_le_succ ih.length_le, forall_mem_cons.mpr ⟨⟨response, rfl⟩, ih.requests⟩,
      reports_cons.mpr ⟨fun _ h => ?_, ih.reports⟩, fun error h => ?_⟩
    · rw [hsend] at h
      cases h
    · simpa using ih.fails error h

end Drain

end VodogeEdge
