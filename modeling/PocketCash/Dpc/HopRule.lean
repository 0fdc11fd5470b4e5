import PocketCash.Dpc.Wallet

/-!
# The hop rule

`send_token` gives the next record the hop index of the last one plus one, or 1 if the receiver has
sent the token before, and signs no index above the limit. `validate_integrity` only compares
neighbouring indices: it accepts a 1 after every index, whoever the receiver is, and it looks for the
limit at the end of the chain.

So an accepted chain follows the rule of the sender exactly if its resets are its returns and no reset
comes too late.
-/

namespace PocketCash.Dpc

/-- The index that `send_token` gives to the record after `existingChain`, which ends with `tip`. -/
def effectiveHopIndex (existingChain : List TransferRecord) (tip : TransferRecord)
    (receiverPubkeyHex : String) : Int :=
  if receiverPubkeyHex ∈ existingChain.map TransferRecord.senderPubkeyHex then 1
  else tip.hopIndex + 1

/-- No index is above the limit, and each but the first is the one `send_token` would assign. -/
structure FollowsHopRule (records : List TransferRecord) : Prop where
  limit : ∀ r ∈ records, r.hopIndex ≤ maxOfflineHops
  assigned : ∀ before tip r rest, records = before ++ tip :: r :: rest →
    r.hopIndex = effectiveHopIndex (before ++ [tip]) tip r.receiverPubkeyHex

/-- From the third record on, the index is 1 exactly for the receivers that have sent the token
before, and the index before a 1 is within the limit. -/
def ResetsAreReturns (records : List TransferRecord) : Prop :=
  ∀ before tip r rest, records = before ++ tip :: r :: rest → before ≠ [] →
    (r.hopIndex = 1 ↔
      r.receiverPubkeyHex ∈ (before ++ [tip]).map TransferRecord.senderPubkeyHex) ∧
    (r.hopIndex = 1 → tip.hopIndex ≤ maxOfflineHops)

/-! ### Hop indices of accepted chains -/

lemma RecordsValid.hopIndex_next {c : Crypto} {token : Token} {before rest : List TransferRecord}
    {tip r : TransferRecord} {position : Nat} {previousHash : String} {previousHop : Int}
    (h : RecordsValid c token position previousHash previousHop (before ++ tip :: r :: rest)) :
    r.hopIndex = tip.hopIndex + 1 ∨ r.hopIndex = 1 := by
  induction before generalizing position previousHash previousHop with
  | nil => exact h.2.1.nextHop (Nat.succ_pos _)
  | cons first before ih => exact ih h.2

namespace ChainValid

variable {c : Crypto} {token : Token} {records before rest : List TransferRecord}
  {tip r : TransferRecord}

lemma hopIndex_next (h : ChainValid c token records) (hrecords : records = before ++ tip :: r :: rest) :
    r.hopIndex = tip.hopIndex + 1 ∨ r.hopIndex = 1 := by
  subst hrecords
  exact h.records.hopIndex_next

lemma hopIndex_first (h : ChainValid c token records) (hrecords : records = r :: rest) :
    r.hopIndex = 0 := by
  subst hrecords
  exact h.records.1.genesisHop rfl

lemma hopIndex_nonneg (h : ChainValid c token records) (hrecords : records = before ++ r :: rest) :
    0 ≤ r.hopIndex := by
  induction before using List.reverseRecOn generalizing r rest with
  | nil => exact (h.hopIndex_first hrecords).ge
  | append_singleton before tip ih =>
    rw [List.append_assoc, List.singleton_append] at hrecords
    have hnonneg := ih hrecords
    rcases h.hopIndex_next hrecords with hnext | hreset <;> omega

/-- Only the first record has index 0. -/
lemma hopIndex_pos (h : ChainValid c token records) (hrecords : records = before ++ r :: rest)
    (hbefore : before ≠ []) : 0 < r.hopIndex := by
  obtain ⟨before, tip, rfl⟩ := (List.eq_nil_or_concat before).resolve_left hbefore
  rw [List.concat_eq_append, List.append_assoc, List.singleton_append] at hrecords
  have hnonneg := h.hopIndex_nonneg hrecords
  rcases h.hopIndex_next hrecords with hnext | hreset <;> omega

/-- An index above the limit is only left by a reset, and the last index is not above it. -/
lemma hopIndex_le (h : ChainValid c token records) (hresets : ResetsAreReturns records)
    (hrecords : records = before ++ r :: rest) : r.hopIndex ≤ maxOfflineHops := by
  induction rest generalizing before r with
  | nil =>
    obtain ⟨tip, htip, hlimit⟩ := h.tip
    rw [hrecords, List.getLast?_append, List.getLast?_singleton] at htip
    cases htip
    exact hlimit
  | cons next rest ih =>
    have hnext := ih (hrecords.trans (List.append_cons before r (next :: rest)))
    rcases h.hopIndex_next hrecords with hstep | hreset
    · omega
    · by_cases hbefore : before = []
      · subst hbefore
        rw [h.hopIndex_first hrecords]
        decide
      · exact (hresets before r next rest hrecords hbefore).2 hreset

/-- The two records at the front have the indices 0 and 1 in any case. -/
lemma assigned_second (h : ChainValid c token records) (hrecords : records = tip :: r :: rest) :
    r.hopIndex = effectiveHopIndex [tip] tip r.receiverPubkeyHex := by
  have hfirst := h.hopIndex_first hrecords
  have hnext := h.hopIndex_next (hrecords.trans (List.nil_append _).symm)
  rw [effectiveHopIndex]
  split_ifs <;> omega

end ChainValid

/-- `send_token` keeps the rule. -/
theorem FollowsHopRule.transfer {c : Crypto} {keypair : DPCKeyPair} {receipt : Receipt}
    {receiverPubkeyHex : String} {now : Int} {nonce : String} {token : Token}
    {chain : List TransferRecord} (hrule : FollowsHopRule receipt.fullChain)
    (h : DPCWallet.transfer c keypair receipt receiverPubkeyHex now nonce = .ok (token, chain)) :
    FollowsHopRule chain := by
  obtain ⟨-, -, tip, record, hopIndex, htip, rfl, hhop, hlimit, hmade⟩ :=
    DPCWallet.transfer_eq_ok h
  have hindex : record.hopIndex = hopIndex := congrArg TransferPayload.hopIndex hmade.payload
  have hreceiver : record.receiverPubkeyHex = receiverPubkeyHex :=
    congrArg TransferPayload.receiverPubkeyHex hmade.payload
  refine ⟨List.forall_mem_append.mpr ⟨hrule.limit, by simpa [hindex] using hlimit⟩, ?_⟩
  intro before tip' r rest hrecords
  rcases List.eq_nil_or_concat rest with rfl | ⟨rest, last, rfl⟩
  · -- the new record
    have hsplit : receipt.fullChain ++ [record] = (before ++ [tip']) ++ [r] := by
      rw [hrecords, List.append_assoc, List.singleton_append]
    obtain ⟨hchain, rfl⟩ := List.append_singleton_inj.mp hsplit
    rw [hchain, List.getLast?_concat] at htip
    obtain rfl := Option.some.inj htip
    rw [hindex, hhop, effectiveHopIndex, hchain, hreceiver]
  · have hsplit : receipt.fullChain ++ [record] = (before ++ tip' :: r :: rest) ++ [last] := by
      rw [hrecords]
      simp
    exact hrule.assigned before tip' r rest (List.append_singleton_inj.mp hsplit).1

/-! ### What the validator accepts -/

lemma ChainValid.hopRule_iff_resets {c : Crypto} {token : Token} {records : List TransferRecord}
    (h : ChainValid c token records) : FollowsHopRule records ↔ ResetsAreReturns records := by
  constructor
  · intro hrule before tip r rest hrecords hbefore
    have hassigned := hrule.assigned before tip r rest hrecords
    have htip := h.hopIndex_pos hrecords hbefore
    have hlimit := hrule.limit tip (by rw [hrecords]; simp)
    rw [effectiveHopIndex] at hassigned
    refine ⟨⟨fun hreset => ?_, fun hreturn => ?_⟩, fun _ => hlimit⟩
    · by_contra hstranger
      rw [if_neg hstranger] at hassigned
      omega
    · rw [hassigned, if_pos hreturn]
  · intro hresets
    refine ⟨fun r hr => ?_, fun before tip r rest hrecords => ?_⟩
    · obtain ⟨before, rest, hrecords⟩ := List.append_of_mem hr
      exact h.hopIndex_le hresets hrecords
    · by_cases hbefore : before = []
      · subst hbefore
        exact h.assigned_second hrecords
      · obtain ⟨hiff, -⟩ := hresets before tip r rest hrecords hbefore
        rw [effectiveHopIndex]
        split_ifs with hreturn
        · exact hiff.mpr hreturn
        · exact (h.hopIndex_next hrecords).resolve_right fun hreset => hreturn (hiff.mp hreset)

/-- An accepted chain follows the rule of the sender exactly if its resets are returns. -/
theorem followsHopRule_iff {c : Crypto} {token : Token} {records : List TransferRecord}
    (h : validateIntegrity c token records = .ok ()) :
    FollowsHopRule records ↔ ResetsAreReturns records :=
  (validateIntegrity_eq_ok_iff.mp h).hopRule_iff_resets

/-! Mallory gives the token back to Alice, or passes it on to Bob as if he had had it before. -/

namespace Custody

def bob : DPCKeyPair := ⟨[4]⟩

def givenBack : TransferRecord := plainRecord mallory alice token 1 "n2" spend.chainHash
def reset : TransferRecord := plainRecord mallory bob token 1 "n2" spend.chainHash

end Custody

lemma resetsAreReturns_of_three {first tip r : TransferRecord}
    (hiff : r.hopIndex = 1 ↔
      r.receiverPubkeyHex ∈ [first, tip].map TransferRecord.senderPubkeyHex)
    (hlimit : tip.hopIndex ≤ maxOfflineHops) : ResetsAreReturns [first, tip, r] := by
  intro before tip' r' rest hrecords hbefore
  obtain ⟨first', before, rfl⟩ := List.exists_cons_of_ne_nil hbefore
  obtain ⟨rfl, hrecords⟩ := List.cons.inj hrecords
  cases before with
  | nil =>
    cases hrecords
    exact ⟨hiff, fun _ => hlimit⟩
  | cons second before =>
    have hlength := congrArg List.length hrecords
    simp only [List.length_append, List.length_cons, List.length_nil] at hlength
    omega

theorem followsHopRule_givenBack :
    FollowsHopRule [Custody.genesis, Custody.spend, Custody.givenBack] := by
  have hvalid : validateIntegrity plainCrypto Custody.token
      [Custody.genesis, Custody.spend, Custody.givenBack] = .ok () := by decide +kernel
  exact (followsHopRule_iff hvalid).mpr
    (resetsAreReturns_of_three (by decide +kernel) (by decide +kernel))

theorem validateIntegrity_accepts_reset :
    validateIntegrity plainCrypto Custody.token [Custody.genesis, Custody.spend, Custody.reset]
        = .ok () ∧
      ¬ FollowsHopRule [Custody.genesis, Custody.spend, Custody.reset] := by
  refine ⟨by decide +kernel, ?_⟩
  intro hrule
  have hassigned := hrule.assigned [Custody.genesis] Custody.spend Custody.reset [] rfl
  revert hassigned
  decide +kernel

end PocketCash.Dpc
