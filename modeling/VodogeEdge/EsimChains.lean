import VodogeEdge.EsimRequests

/-!
# `STORE DATA` chains

A request travels in blocks: `storeDataChain` cuts it, and the blocks go out
one after the other, each with the `GET RESPONSE` rounds the card asks for.
`Chained` says what a chain is, `Delivered` and `Stopped` what becomes of it
on a card, and `Rounds` what the card said to one block.
-/

namespace VodogeEdge.Esim

open Logged List

/-! ## Blocks -/

/-- A chain for a payload: its parts in order, each in one block with its
length, its number and the mark of the last one. -/
def Chained (payload : Bytes) (chain : List Bytes) : Prop :=
  ∃ parts : List Bytes, parts.flatten = payload ∧ parts.length = chain.length
    ∧ ∀ index part, parts[index]? = some part →
      1 ≤ part.length ∧ part.length ≤ storeDataBlockBytes
        ∧ ∃ p1 p2 lc : UInt8, chain[index]? = some ([0x80, 0xe2, p1, p2, lc] ++ part)
          ∧ p1 = (if index + 1 = chain.length then 0x91 else 0x11)
          ∧ p2.toNat = index ∧ lc.toNat = part.length

variable {apdu : Bytes} {history : List Bytes} {card : Card} {payload : Bytes}
  {sent : List Bytes}

theorem storeDataChain_chained (hne : payload ≠ []) (hfits : payload.length ≤ maxStoreDataBytes) :
    ∃ chain, storeDataChain payload = .ok chain ∧ Chained payload chain := by
  have hnonempty : payload.isEmpty = false := isEmpty_eq_false_iff.mpr hne
  have hblocks : (chunks storeDataBlockBytes payload).length ≤ maxStoreDataBlocks := by
    rw [chunks, length_map, length_range]
    simp only [maxStoreDataBytes, storeDataBlockBytes] at hfits ⊢
    omega
  refine ⟨_, by rw [storeDataChain, hnonempty, if_neg (by simp), if_neg (by omega)],
    chunks storeDataBlockBytes payload, flatten_chunks (by decide) payload, ?_, ?_⟩
  · rw [length_map, length_zipIdx]
  · intro index part hpart
    obtain ⟨hindex, -⟩ := List.getElem?_eq_some_iff.mp hpart
    obtain ⟨hpos, hle⟩ := length_of_mem_chunks (by decide) (mem_of_getElem? hpart)
    refine ⟨hpos, hle, _, _, _, by rw [getElem?_map, getElem?_zipIdx, hpart]; rfl, ?_, ?_, ?_⟩
    · have hlast : 0 + index = (chunks storeDataBlockBytes payload).length - 1
          ↔ index + 1 = (chunks storeDataBlockBytes payload).length := by omega
      rw [length_map, length_zipIdx, if_congr hlast rfl rfl]
    · rw [maxStoreDataBlocks] at hblocks
      rw [UInt8.toNat_ofNat']
      omega
    · rw [storeDataBlockBytes] at hle
      exact Nat.mod_eq_of_lt (by omega)

/-! ## One block -/

def Rounds (card : Card) (history : List Bytes) (apdu : Bytes)
    (pieces : List ApduResponse) : Prop :=
  ∃ first, card.sendApdu (history ++ [apdu]) = .ok first
    ∧ Pieces (fun apdus next => card.sendApdu apdus = .ok next) (history ++ [apdu]) first pieces

theorem transmit_of_ok {first : ApduResponse}
    (hsend : card.sendApdu (history ++ [apdu]) = .ok first) :
    transmit card history apdu
      = (drainGetResponse card.askForMore card.askedForTooMany maxGetResponseRounds
          (history ++ [apdu]) (first.after [])).map id (apdu :: ·) := by
  have hfirst : first.after [] = first := rfl
  rw [transmit, hsend, hfirst]
  rfl

/-- What a transmitted APDU brings: the data of all pieces of the answer, in
at most 256 further rounds. -/
theorem transmit_ok_iff {response : ApduResponse} :
    transmit card history apdu = (.ok response, sent) ↔
      ∃ pieces, Rounds card history apdu pieces ∧ pieces.length ≤ maxGetResponseRounds + 1
        ∧ Collects [] pieces response ∧ sent = apdu :: pieces.dropLast.map getResponse := by
  cases hsend : card.sendApdu (history ++ [apdu]) with
  | error error =>
    rw [transmit, hsend]
    constructor
    · rintro ⟨⟩
    · rintro ⟨pieces, ⟨first, hfirst, -⟩, -⟩
      rw [hsend] at hfirst
      cases hfirst
  | ok first =>
    rw [transmit_of_ok hsend, map_cons_eq_iff]
    simp only [drainGetResponse_ok_iff, Card.askForMore, mapError_eq_ok]
    constructor
    · rintro ⟨later, ⟨pieces, hpieces, hlength, hcollects, rfl⟩, rfl⟩
      exact ⟨pieces, ⟨first, hsend, hpieces⟩, hlength, hcollects, rfl⟩
    · rintro ⟨pieces, ⟨first', hfirst', hpieces⟩, hlength, hcollects, rfl⟩
      obtain rfl := Except.ok.inj (hfirst'.symm.trans hsend)
      exact ⟨_, ⟨pieces, hpieces, hlength, hcollects, rfl⟩, rfl⟩

theorem transmit_sent (card : Card) (history : List Bytes) (apdu : Bytes) :
    ∃ rest, (transmit card history apdu).2 = apdu :: rest
      ∧ ∀ later ∈ rest, ∃ piece, later = getResponse piece := by
  unfold transmit
  cases card.sendApdu (history ++ [apdu]) with
  | error error => exact ⟨[], rfl, by simp⟩
  | ok first => exact ⟨_, rfl, (drainGetResponse_drains _ _ _ _).requests⟩

/-! ## Whole chains -/

theorem execute_run {command : Command} {log : List Exchange} {chain blocks : List Bytes}
    {answer : Except SessionError Bytes} (hchain : storeDataChain payload = .ok chain)
    (hsend : sendChain card (apdus log) chain = (answer, blocks, sent)) :
    (execute card command payload).run log
      = (answer, log ++ [⟨command, payload, blocks, sent, answer⟩]) := by
  have hrun : (executeCounted card command payload).run log
      = (answer.map (·, chain.length), log ++ [⟨command, payload, blocks, sent, answer⟩]) := by
    simp [executeCounted, hchain, hsend]
  cases answer with
  | error error => rw [execute, run_bind_of_error hrun]
  | ok answer =>
    rw [execute, run_bind_of_ok hrun]
    rfl

theorem storeDataChain_rejects (h : payload = [] ∨ maxStoreDataBytes < payload.length) :
    ∃ error, storeDataChain payload = .error error := by
  unfold storeDataChain
  split
  · exact ⟨_, rfl⟩
  next hne =>
    rcases h with rfl | hlong
    · exact absurd rfl hne
    · exact ⟨_, if_pos hlong⟩

/-- Which payloads are chains, that every other is turned away before anything
is sent, and what becomes of a chain and each block of it on any card. -/
theorem storeData_exact :
    (∀ payload : Bytes, payload ≠ [] → payload.length ≤ maxStoreDataBytes →
      ∃ chain, storeDataChain payload = .ok chain ∧ Chained payload chain)
    ∧ (∀ payload : Bytes, payload = [] ∨ maxStoreDataBytes < payload.length →
      ∃ error, storeDataChain payload = .error error ∧ ∀ card command log,
        (execute card command payload).run log = (.error (.es10c error), log))
    ∧ (∀ card command payload chain log, storeDataChain payload = .ok chain →
      (∃ answer sent, Delivered card (apdus log) chain answer sent
        ∧ (execute card command payload).run log
          = (.ok answer, log ++ [⟨command, payload, chain, sent, .ok answer⟩]))
      ∨ ∃ error blocks sent, Stopped card (apdus log) chain error blocks sent
        ∧ (execute card command payload).run log
          = (.error error, log ++ [⟨command, payload, blocks, sent, .error error⟩]))
    ∧ (∀ card history apdu response sent,
      transmit card history apdu = (.ok response, sent) ↔
        ∃ pieces, Rounds card history apdu pieces ∧ pieces.length ≤ maxGetResponseRounds + 1
          ∧ Collects [] pieces response ∧ sent = apdu :: pieces.dropLast.map getResponse)
    ∧ ∀ card history apdu, ∃ rest, (transmit card history apdu).2 = apdu :: rest
      ∧ ∀ later ∈ rest, ∃ piece, later = getResponse piece := by
  refine ⟨fun _ => storeDataChain_chained, ?_, ?_, fun _ _ _ _ _ => transmit_ok_iff, transmit_sent⟩
  · intro payload hbad
    obtain ⟨error, herror⟩ := storeDataChain_rejects hbad
    refine ⟨error, herror, fun card command log => ?_⟩
    have hrun : (executeCounted card command payload).run log = (.error (.es10c error), log) := by
      simp [executeCounted, herror]
    rw [execute, run_bind_of_error hrun]
  · intro card command payload chain log hchain
    rcases sendChain_cases card (storeDataChain_ne_nil hchain) (apdus log) with
      ⟨answer, sent, hdelivered, heq⟩ | ⟨error, blocks, sent, hstopped, heq⟩
    · exact .inl ⟨answer, sent, hdelivered, execute_run hchain heq⟩
    · exact .inr ⟨error, blocks, sent, hstopped, execute_run hchain heq⟩

end VodogeEdge.Esim
