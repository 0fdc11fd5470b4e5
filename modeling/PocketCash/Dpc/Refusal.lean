import PocketCash.Dpc.Change

/-!
# Refused spends

`send_token` and `swap_change` take the receipt out of the register first and put it back if they
fail. `send_token` does so after every `DPCError`. `swap_change` names two classes only, and the error
of a receipt without a token is neither. Both put the receipt back under the id it names, which need
not be the one it was stored under.
-/

namespace PocketCash.Dpc

namespace UnspentTokenRegister

/-- The registers compare equal: dictionaries do so in every order of their entries. -/
structure Same (utr utr' : UnspentTokenRegister) : Prop where
  entries : utr'.entries.items.Perm utr.entries.items
  spentTokenIds : utr'.spentTokenIds = utr.spentTokenIds
  seenNonces : utr'.seenNonces = utr.seenNonces

/-- No id is both unspent and spent. -/
def Separate (utr : UnspentTokenRegister) : Prop :=
  ∀ k ∈ utr.entries.keys, k ∉ utr.spentTokenIds

/-- What is stored under `tokenId`, if anything, names this id. -/
def FiledUnderOwnId (utr : UnspentTokenRegister) (tokenId : String) : Prop :=
  ∀ receipt, utr.entries.get? tokenId = some receipt → receipt.tokenId = tokenId

/-- What is stored under `tokenId`, if anything, comes with its token. -/
def CarriesToken (utr : UnspentTokenRegister) (tokenId : String) : Prop :=
  ∀ receipt, utr.entries.get? tokenId = some receipt → receipt.token ≠ none

lemma Same.refl (utr : UnspentTokenRegister) : utr.Same utr := ⟨.refl _, rfl, rfl⟩

variable {utr utr' : UnspentTokenRegister} {tokenId : String} {receipt : Receipt}

lemma get?_of_spend_eq_error {e : Raised} (h : utr.spend tokenId = .error e) :
    utr.entries.get? tokenId = none := by
  rw [spend] at h
  split at h
  · assumption
  · cases h

/-- Without the receipt, the register is another one. -/
lemma not_same_spend (h : utr.spend tokenId = .ok (utr', receipt)) : ¬ utr.Same utr' := by
  obtain ⟨hget, rfl⟩ := spend_eq_ok h
  intro hsame
  have hgone := Dict.get?_perm hsame.entries tokenId
  rw [Dict.get?_pop, if_pos rfl, hget] at hgone
  cases hgone

/-- Putting the receipt back undoes `spend` exactly if it was stored under the id it names. -/
lemma same_restoreUnspent_iff (hseparate : utr.Separate)
    (h : utr.spend tokenId = .ok (utr', receipt)) :
    utr.Same (utr'.restoreUnspent receipt) ↔ receipt.tokenId = tokenId := by
  obtain ⟨hget, rfl⟩ := spend_eq_ok h
  constructor
  · intro hsame
    have hback := Dict.get?_perm hsame.entries tokenId
    rw [restoreUnspent, Dict.get?_set, Dict.get?_pop, if_pos rfl, hget] at hback
    by_contra hother
    rw [if_neg (Ne.symm hother)] at hback
    cases hback
  · rintro rfl
    obtain ⟨⟨k, receipt'⟩, hentry, hreceipt⟩ := Option.map_eq_some_iff.mp hget
    obtain ⟨hmem, hkey⟩ := KeyedList.find?_eq_some_iff.mp hentry
    obtain rfl : receipt' = receipt := hreceipt
    obtain rfl : k = receipt'.tokenId := hkey
    have hunspent : receipt'.tokenId ∉ utr.spentTokenIds :=
      hseparate _ (KeyedList.key_mem_keys hmem)
    exact ⟨KeyedList.perm_put_pop hentry, Finset.erase_insert hunspent, rfl⟩

end UnspentTokenRegister

namespace DPCWallet

variable {c : Crypto} {w w' : DPCWallet} {tokenId receiverPubkeyHex : String} {kind : DpcError}
  {message : String}

/-! ### Sending -/

/-- A `send_token` that raises a `DPCError` changes nothing exactly if the receipt names the id it is
stored under. -/
lemma sendToken_same_iff (hseparate : w.utr.Separate) {now : Int} {nonce : String}
    (h : w.sendToken c tokenId receiverPubkeyHex now nonce = (w', .error (.dpc kind message))) :
    w.utr.Same w'.utr ↔ w.utr.FiledUnderOwnId tokenId := by
  rw [sendToken] at h
  cases hspend : w.utr.spend tokenId with
  | error e =>
    have hget := UnspentTokenRegister.get?_of_spend_eq_error hspend
    rw [hspend] at h
    cases h
    rw [UnspentTokenRegister.FiledUnderOwnId, hget]
    exact iff_of_true (.refl _) (by simp)
  | ok spent =>
    obtain ⟨utr, receipt⟩ := spent
    have hget := (UnspentTokenRegister.spend_eq_ok hspend).1
    rw [hspend] at h
    dsimp only at h
    split at h
    · cases h
    · cases h
      rw [UnspentTokenRegister.same_restoreUnspent_iff hseparate hspend,
        UnspentTokenRegister.FiledUnderOwnId, hget]
      simp
    · cases h

/-! ### Splitting -/

/-- A record of a split is made in any case. -/
lemma exists_makeSplitRecord (c : Crypto) (keypair : DPCKeyPair) (token : Token)
    (receiverPubkeyHex nonce : String) :
    ∃ record, makeSplitRecord c keypair token receiverPubkeyHex nonce = .ok record := by
  have hgenesis : fromhex genesisHash = .ok (List.replicate 32 0) := by decide
  simp only [makeSplitRecord, TransferRecord.new, TransferRecord.computeChainHash, hgenesis, ok_bind,
    pure_eq_ok, TransferRecord.sign, fromhex_encode]
  exact ⟨_, rfl⟩

/-- The split of a receipt with a token fails in the two ways that are caught. -/
lemma restoredBySwap_of_split {keypair : DPCKeyPair} {receipt : Receipt} {amountToSend : Int}
    {issuerPubkeyHex : String} {draw : SwapDraw} {e : Raised} (htoken : receipt.token ≠ none)
    (h : split c keypair receipt amountToSend receiverPubkeyHex issuerPubkeyHex draw = .error e) :
    restoredBySwap e = true := by
  obtain ⟨token, htoken⟩ := Option.ne_none_iff_exists'.mp htoken
  simp only [split, requireToken, htoken, ok_bind, throw_eq_error] at h
  by_cases hamount : amountToSend ≤ 0 ∨ amountToSend ≥ token.amountSubunits
  · rw [if_pos hamount] at h
    cases h
    rfl
  rw [if_neg hamount] at h
  by_cases hcap : amountToSend > maxSingleTxSubunits ∨
      token.amountSubunits - amountToSend > maxSingleTxSubunits
  · rw [if_pos hcap] at h
    cases h
    rfl
  rw [if_neg hcap] at h
  obtain ⟨payment, hpayment⟩ := exists_makeSplitRecord c keypair (signToken c keypair
    ⟨draw.paymentId, issuerPubkeyHex, amountToSend, draw.now, token.ttlExpiry, ""⟩)
    receiverPubkeyHex draw.paymentNonce
  obtain ⟨change, hchange⟩ := exists_makeSplitRecord c keypair (signToken c keypair
    ⟨draw.changeId, issuerPubkeyHex, token.amountSubunits - amountToSend, draw.now,
      token.ttlExpiry, ""⟩) (keypair.publicKeyHex c) draw.changeNonce
  rw [hpayment, ok_bind, hchange] at h
  cases h

/-- The split of a receipt without a token fails in a way that is not caught. -/
lemma not_restoredBySwap_of_split {keypair : DPCKeyPair} {receipt : Receipt} {amountToSend : Int}
    {issuerPubkeyHex : String} {draw : SwapDraw} {e : Raised} (htoken : receipt.token = none)
    (h : split c keypair receipt amountToSend receiverPubkeyHex issuerPubkeyHex draw = .error e) :
    restoredBySwap e = false := by
  simp only [split, requireToken, htoken, error_bind, Except.error.injEq] at h
  subst h
  rfl

/-- A `swap_change` that raises a `DPCError` changes nothing exactly if in addition the receipt comes
with its token. -/
lemma swapChange_same_iff (hseparate : w.utr.Separate) {amountToSend : Int}
    {issuerPubkeyHex : String} {draw : SwapDraw}
    (h : w.swapChange c tokenId amountToSend receiverPubkeyHex issuerPubkeyHex draw
      = (w', .error (.dpc kind message))) :
    w.utr.Same w'.utr ↔ w.utr.FiledUnderOwnId tokenId ∧ w.utr.CarriesToken tokenId := by
  rw [swapChange] at h
  cases hspend : w.utr.spend tokenId with
  | error e =>
    have hget := UnspentTokenRegister.get?_of_spend_eq_error hspend
    rw [hspend] at h
    cases h
    rw [UnspentTokenRegister.FiledUnderOwnId, UnspentTokenRegister.CarriesToken, hget]
    exact iff_of_true (.refl _) (by simp)
  | ok spent =>
    obtain ⟨utr, receipt⟩ := spent
    have hget := (UnspentTokenRegister.spend_eq_ok hspend).1
    rw [hspend] at h
    dsimp only at h
    rw [UnspentTokenRegister.FiledUnderOwnId, UnspentTokenRegister.CarriesToken, hget]
    simp only [Option.some.injEq, forall_eq']
    split at h
    · cases h
    · rename_i e hsplit
      by_cases htoken : receipt.token = none
      · rw [not_restoredBySwap_of_split htoken hsplit] at h
        cases h
        exact iff_of_false (UnspentTokenRegister.not_same_spend hspend) fun hcarries =>
          hcarries.2 htoken
      · rw [restoredBySwap_of_split htoken hsplit] at h
        cases h
        rw [and_iff_left htoken]
        exact UnspentTokenRegister.same_restoreUnspent_iff hseparate hspend

/-- A refused spend leaves the register as it was exactly if the receipt names the id it is stored
under and, for a split, comes with its token. -/
theorem refused_same_iff (hseparate : w.utr.Separate) (tokenId : String) :
    (∀ receiverPubkeyHex now nonce w' kind message,
      w.sendToken c tokenId receiverPubkeyHex now nonce = (w', .error (.dpc kind message)) →
        (w.utr.Same w'.utr ↔ w.utr.FiledUnderOwnId tokenId)) ∧
    ∀ amountToSend receiverPubkeyHex issuerPubkeyHex draw w' kind message,
      w.swapChange c tokenId amountToSend receiverPubkeyHex issuerPubkeyHex draw
          = (w', .error (.dpc kind message)) →
        (w.utr.Same w'.utr ↔ w.utr.FiledUnderOwnId tokenId ∧ w.utr.CarriesToken tokenId) :=
  ⟨fun _ _ _ _ _ _ => sendToken_same_iff hseparate,
    fun _ _ _ _ _ _ _ => swapChange_same_iff hseparate⟩

/-- A receipt without its token. -/
def bareReceipt : Receipt := ⟨"t1", 1000, Custody.genesis, [Custody.genesis], false, none⟩

/-- Alice's wallet, which has accepted the receipt. -/
def bareWallet : DPCWallet := ⟨"alice", Custody.alice, (UnspentTokenRegister.new "alice").store bareReceipt⟩

lemma separate_bareWallet : bareWallet.utr.Separate := by
  intro k hk
  exact Finset.notMem_empty k

/-- A transfer of the bare receipt is refused and undone. -/
theorem refused_same_bareWallet :
    bareWallet.utr.Separate ∧ ∃ w' message,
      bareWallet.sendToken plainCrypto "t1" "bob" 1000 "n1" = (w', .error (.dpc .walletState message)) ∧
      bareWallet.utr.Same w'.utr := by
  refine ⟨separate_bareWallet, _, _, rfl, ?_⟩
  obtain ⟨hsend, -⟩ := refused_same_iff (c := plainCrypto) separate_bareWallet "t1"
  refine (hsend "bob" 1000 "n1" _ _ _ rfl).mpr ?_
  intro receipt hget
  cases hget
  rfl

/-- The register accepts a receipt without its token, and a split of it loses the receipt. -/
theorem swapChange_loses_receipt :
    (UnspentTokenRegister.new "alice").addReceipt bareReceipt = .ok bareWallet.utr ∧
    bareWallet.utr.Separate ∧ ∃ w' message,
      bareWallet.swapChange plainCrypto "t1" 100 "bob" "bank" ⟨1000, "p", "c", "n1", "n2"⟩
        = (w', .error (.dpc .walletState message)) ∧
      ¬ bareWallet.utr.Same w'.utr := by
  refine ⟨by decide +kernel, separate_bareWallet, _, _, rfl, ?_⟩
  have hspend : bareWallet.utr.spend "t1" = .ok (_, bareReceipt) := rfl
  exact UnspentTokenRegister.not_same_spend hspend

end DPCWallet

end PocketCash.Dpc
