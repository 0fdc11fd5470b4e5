import PocketCash.Library.KeyedTotal
import PocketCash.Poc.Atomicity

/-!
# What changes hands

A transfer moves a whole token, whatever amount its record names. The balance of the recipient grows
by the denomination of the token, less that of a token held under the same id. A swap moves a whole
token in each direction, and the one that comes back is the smallest that is worth at least the
change. So the payee is paid what is owed exactly if it has the exact change.
-/

namespace PocketCash.Poc

namespace Wallet

/-- The denomination of the token that is stored under an id, if there is one. -/
def heldAt (w : Wallet) (tokenId : String) : ℚ :=
  ((w.state.unspentTokens.get? tokenId).map fun token => token.denomination.toRat).getD 0

section

variable {c : Crypto} {w w' recipient recipient' : Wallet} {tokenId recipientPubkeyHex nonceHex : String}
  {amount : PyFloat} {draw : TransferDraw} {token newToken : Token} {record : TransferRecord}

/-! ### Balances -/

lemma balance_eq_total (w : Wallet) :
    w.balance = w.state.unspentTokens.total fun entry => entry.2.denomination.toRat := rfl

lemma heldAt_eq_totalAt (w : Wallet) (tokenId : String) :
    w.heldAt tokenId
      = w.state.unspentTokens.totalAt (fun entry => entry.2.denomination.toRat) tokenId := by
  rw [heldAt, Dict.get?, Option.map_map, KeyedList.totalAt]
  rfl

lemma heldAt_of_get? (h : w.state.unspentTokens.get? tokenId = some token) :
    w.heldAt tokenId = token.denomination.toRat := by
  rw [heldAt, h]
  rfl

lemma heldAt_of_notMem (h : tokenId ∉ w.state.unspentTokens.keys) : w.heldAt tokenId = 0 := by
  rw [heldAt, Dict.get?_eq_none_iff.mpr h]
  rfl

lemma balance_dropToken (w : Wallet) (tokenId nonceHex : String) :
    (w.dropToken tokenId nonceHex).balance = w.balance - w.heldAt tokenId := by
  rw [balance_eq_total, balance_eq_total, heldAt_eq_totalAt]
  exact w.state.unspentTokens.total_pop tokenId

lemma balance_takeToken (w : Wallet) (token : Token) (nonceHex : String) :
    (w.takeToken token nonceHex).balance
      = w.balance + token.denomination.toRat - w.heldAt token.tokenId := by
  have hput := w.state.unspentTokens.total_put (f := fun entry => entry.2.denomination.toRat)
    (token.tokenId, checkLifecycleReset token w.pubkeyHex)
  rw [checkLifecycleReset_denomination] at hput
  rw [balance_eq_total, balance_eq_total, heldAt_eq_totalAt]
  exact hput

/-! ### A transfer -/

/-- A sent token has left the wallet. -/
lemma sendToken_eq_ok
    (h : w.sendToken c tokenId recipientPubkeyHex amount draw = (w', .ok (record, newToken))) :
    ∃ token digest, w.state.unspentTokens.get? tokenId = some token ∧
      (checkLifecycleReset token w.pubkeyHex).Payable w.state.policy w.pubkeyHex amount draw.now ∧
      w' = w.dropToken tokenId draw.nonceHex ∧
      record = (checkLifecycleReset token w.pubkeyHex).recordOf c w.privateKeyBytes w.pubkeyHex
        recipientPubkeyHex amount draw digest ∧
      newToken = (checkLifecycleReset token w.pubkeyHex).passedTo recipientPubkeyHex
        (Hex.encode digest) := by
  rw [Wallet.sendToken] at h
  split at h
  · cases h
  · rename_i token hfound
    dsimp only [keepToken] at h
    split at h
    · cases h
    · rename_i record' newToken' hbuild
      cases h
      obtain ⟨hpayable, payload, digest, -, -, rfl, rfl⟩ := buildTransfer_eq_ok_iff.mp hbuild
      exact ⟨token, digest, hfound, hpayable, dropToken_keepToken w tokenId _ _, rfl, rfl⟩

lemma eq_takeToken_of_receiveToken (h : w.receiveToken c token record = .ok w') :
    w' = w.takeToken token record.nonceHex := (receiveToken_eq_ok_iff.mp h).2

/-- The token has gone from the first wallet to the second. -/
structure Moves (payer payee payer' payee' : Wallet) (token : Token) : Prop where
  paid : payer'.balance = payer.balance - token.denomination.toRat
  taken : payee'.balance
    = payee.balance + token.denomination.toRat - payee.heldAt token.tokenId
  absent : ∀ id, payer.heldAt id = 0 → payer'.heldAt id = 0
  others : ∀ id, id ≠ token.tokenId →
    payee'.state.unspentTokens.get? id = payee.state.unspentTokens.get? id

lemma moves_dropToken_takeToken {payer payee : Wallet}
    (hfound : payer.state.unspentTokens.get? tokenId = some token)
    (recipientPubkeyHex chainHash nonceHex : String) :
    payer.Moves payee (payer.dropToken tokenId nonceHex) (payee.takeToken
      ((checkLifecycleReset token payer.pubkeyHex).passedTo recipientPubkeyHex chainHash)
      nonceHex) token where
  paid := by rw [balance_dropToken, heldAt_of_get? hfound]
  taken := by
    rw [balance_takeToken]
    simp [Token.passedTo]
  absent id habsent := by
    rw [heldAt] at habsent ⊢
    rw [dropToken, Dict.get?_pop]
    split_ifs
    · rfl
    · exact habsent
  others id hne := by
    rw [takeToken, Dict.get?_set, if_neg]
    simpa [Token.passedTo] using hne

/-- The signature of an issuer with a key pair verifies. -/
lemma validIssuerSignature_issueToken (hkey : w.HasKeyPair c) (denomination : PyFloat)
    (issue : IssueDraw) : (w.issueToken c denomination issue).2.validIssuerSignature c = .ok true := by
  obtain ⟨pk, hpk, hverify⟩ := hkey.hexToPubkeyBytes
  exact Token.validIssuerSignature_eq_true_iff.mpr ⟨pk, _, hpk, fromhex_encode _, hverify _⟩

/-- A wallet can hand a token that it has just issued to a wallet with room for it. -/
lemma exists_hands_issueToken {payer payee : Wallet} {denomination : PyFloat} {issue : IssueDraw}
    (hkey : w.HasKeyPair c) (hsame : payer.pubkeyHex = w.pubkeyHex) (hpayee : payee.HasKeyPair c)
    (hfound : payer.state.unspentTokens.get? issue.tokenId
      = some (w.issueToken c denomination issue).2)
    (hhops : 0 < payer.state.policy.maxOfflineHops)
    (hpolicy : amount.toRat ≤ payer.state.policy.maxTransactionValueEtb)
    (hamount : amount.toRat ≤ denomination.toRat) (hnow : draw.now = issue.issuedAt)
    (httl : 0 ≤ payer.state.policy.tokenTtlSeconds)
    (hfresh : (issue.tokenId, draw.nonceHex) ∉ payee.state.spentNonces)
    (hcap : payee.balance + denomination.toRat ≤ payee.state.policy.maxWalletBalanceEtb) :
    ∃ chainHash, payer.Hands c payee issue.tokenId amount draw (w.issueToken c denomination issue).2
      chainHash := by
  obtain ⟨pk, -, hhex, -⟩ := hpayee
  obtain ⟨chainHash, hhash⟩ := (w.issueToken c denomination issue).2.exists_nextChainHash c pk
    amount draw.nonce
  rw [← hhex] at hhash
  have hreset : checkLifecycleReset (w.issueToken c denomination issue).2 payer.pubkeyHex
      = (w.issueToken c denomination issue).2 := if_neg List.not_mem_nil
  have hissued : issue.issuedAt.toRat = draw.now.toRat := by rw [hnow]
  refine ⟨chainHash, hfound, ?_, ?_⟩
  · rw [hreset]
    refine ⟨⟨hsame.symm, hissued.le, hhops, hpolicy, hamount, ?_⟩, hhash⟩
    rw [← hissued]
    simpa [issueToken] using httl
  · rw [hreset]
    exact ⟨validIssuerSignature_issueToken hkey denomination issue, fun _ => hhash, hfresh, hcap⟩

/-- A token that can be handed on is sent and accepted. -/
lemma Hands.exists_receiveToken {payer payee : Wallet} {chainHash : String}
    (h : payer.Hands c payee tokenId amount draw token chainHash) (hkey : payer.HasKeyPair c) :
    ∃ payer' record newToken payee',
      payer.sendToken c tokenId payee.pubkeyHex amount draw = (payer', .ok (record, newToken)) ∧
      record.amount = amount ∧ payee.receiveToken c newToken record = .ok payee' := by
  obtain ⟨payload, digest, rfl, hpayload, hsend⟩ := h.sends.sendToken h.found
  rw [← checkLifecycleReset_tokenId token payer.pubkeyHex] at hpayload
  exact ⟨_, _, _, _, hsend, rfl,
    (receiveToken_passedTo_iff hkey hpayload digest _).mpr ⟨h.takes, rfl⟩⟩

end

/-! ### The change -/

/-- The ids under which tokens are stored, and those that the tokens carry. -/
def ids (w : Wallet) : List String :=
  w.state.unspentTokens.keys ++ w.state.unspentTokens.items.map fun entry => entry.2.tokenId

/-- Every token is stored under its own id. -/
def FiledByIds (w : Wallet) : Prop :=
  ∀ tokenId token, w.state.unspentTokens.get? tokenId = some token → token.tokenId = tokenId

/-- What is stored under the id of the coin that is chosen for the change is worth the change. -/
def HasExactChange (w : Wallet) (change : ℚ) : Prop :=
  ∀ coin stored, w.getTokenForSwap change = some coin →
    w.state.unspentTokens.get? coin.tokenId = some stored → stored.denomination.toRat = change

section

variable {w : Wallet} {tokenId : String} {token coin : Token} {change : ℚ}

lemma mem_ids_of_get? (h : w.state.unspentTokens.get? tokenId = some token) :
    tokenId ∈ w.ids ∧ token.tokenId ∈ w.ids := by
  have hmem := Dict.get?_eq_some_iff.mp h
  exact ⟨List.mem_append_left _ (KeyedList.key_mem_keys hmem),
    List.mem_append_right _ (List.mem_map.mpr ⟨_, hmem, rfl⟩)⟩

lemma heldAt_of_notMem_ids (h : tokenId ∉ w.ids) : w.heldAt tokenId = 0 :=
  heldAt_of_notMem fun hmem => h (List.mem_append_left _ hmem)

/-- The coin is a smallest one that is worth at least the change. -/
lemma getTokenForSwap_eq_some (h : w.getTokenForSwap change = some coin) :
    (∃ tokenId, w.state.unspentTokens.get? tokenId = some coin) ∧
      change ≤ coin.denomination.toRat ∧
      ∀ tokenId token, w.state.unspentTokens.get? tokenId = some token →
        change ≤ token.denomination.toRat → coin.denomination.toRat ≤ token.denomination.toRat := by
  obtain ⟨hcoin, hleast, -⟩ := List.argmin_eq_some_iff.mp h
  obtain ⟨hmem, hcovers⟩ := List.mem_filter.mp hcoin
  obtain ⟨⟨tokenId, token⟩, hentry, rfl⟩ := List.mem_map.mp hmem
  refine ⟨⟨tokenId, Dict.get?_eq_some_iff.mpr hentry⟩, by simpa using hcovers, ?_⟩
  intro tokenId' token' hget henough
  refine hleast token' (List.mem_filter.mpr ⟨?_, by simpa using henough⟩)
  exact List.mem_map.mpr ⟨_, Dict.get?_eq_some_iff.mp hget, rfl⟩

/-- A wallet with every token under its own id has exact change if some token is worth it. -/
lemma hasExactChange_iff (hfiled : w.FiledByIds) (h : w.getTokenForSwap change = some coin) :
    w.HasExactChange change ↔
      ∃ tokenId token, w.state.unspentTokens.get? tokenId = some token ∧
        token.denomination.toRat = change := by
  obtain ⟨⟨coinId, hget⟩, hcovers, hleast⟩ := getTokenForSwap_eq_some h
  have hself := hfiled coinId coin hget
  constructor
  · intro hexact
    exact ⟨coinId, coin, hget, hexact coin coin h (hself.symm ▸ hget)⟩
  · rintro ⟨tokenId, token, htoken, hworth⟩ coin' stored hcoin' hstored
    obtain rfl := Option.some.inj (h.symm.trans hcoin')
    rw [hself, hget] at hstored
    obtain rfl := Option.some.inj hstored
    exact le_antisymm ((hleast tokenId token htoken hworth.ge).trans hworth.le) hcovers

end

end Wallet

namespace Meeting

/-- The balance of the payer has fallen, and that of the payee has risen, by `owed`. -/
def Settles (m m' : Meeting) (payerPk payeePk : String) (owed : ℚ) : Prop :=
  ∃ payer payee payer' payee', m.wallets.find? payerPk = some payer ∧
    m.wallets.find? payeePk = some payee ∧ m'.wallets.find? payerPk = some payer' ∧
    m'.wallets.find? payeePk = some payee' ∧ payer'.balance = payer.balance - owed ∧
    payee'.balance = payee.balance + owed

section

variable {c : Crypto} {s : SessionCrypto} {m m' : Meeting} {payer payee payer' payee' : Wallet}
  {payerPk payeePk tokenId payerTokenId : String} {amount owedAmount : PyFloat}
  {draw payDraw changeDraw : TransferDraw} {payerToken : Token}
  {received : TransferRecord × Token}

lemma settles_iff (hpayer : m.wallets.find? payerPk = some payer)
    (hpayee : m.wallets.find? payeePk = some payee)
    (hpayer' : m'.wallets.find? payerPk = some payer')
    (hpayee' : m'.wallets.find? payeePk = some payee') (owed : ℚ) :
    m.Settles m' payerPk payeePk owed ↔
      payer'.balance = payer.balance - owed ∧ payee'.balance = payee.balance + owed := by
  simp [Settles, hpayer, hpayee, hpayer', hpayee']

/-- A completed transfer has moved what was stored under the id. -/
lemma executeTransfer_eq_ok (hs : s.Inverse) (hne : payerPk ≠ payeePk)
    (hpayer : m.wallets.find? payerPk = some payer) (hpayee : m.wallets.find? payeePk = some payee)
    (h : m.executeTransfer c s payerPk payeePk tokenId amount draw = (m', .ok received)) :
    ∃ token payer' payee', payer.state.unspentTokens.get? tokenId = some token ∧
      m'.wallets.find? payerPk = some payer' ∧ m'.wallets.find? payeePk = some payee' ∧
      payer.Moves payee payer' payee' token := by
  obtain ⟨-, rfl⟩ := KeyedList.find?_eq_some_iff.mp hpayer
  obtain ⟨-, rfl⟩ := KeyedList.find?_eq_some_iff.mp hpayee
  simp only [executeTransfer, hpayer, hpayee] at h
  rcases hsend : payer.sendToken c tokenId payee.pubkeyHex amount draw with ⟨sender, e | ⟨record, token⟩⟩
  · rw [hsend] at h
    cases h
  · obtain ⟨held, digest, hfound, -, rfl, rfl, rfl⟩ := Wallet.sendToken_eq_ok hsend
    have hkeep : (m.wallets.put (payer.dropToken tokenId draw.nonceHex)).find? payee.pubkeyHex
        = some payee := by
      rw [KeyedList.find?_put, Wallet.dropToken_pubkeyHex, if_neg hne.symm, hpayee]
    obtain ⟨channel, htransmit⟩ := m.channel.exists_transmit_bytes hs (JsonEncoding.documentBytes
      (packet ((checkLifecycleReset held payer.pubkeyHex).recordOf c payer.privateKeyBytes
        payer.pubkeyHex payee.pubkeyHex amount draw digest)
        ((checkLifecycleReset held payer.pubkeyHex).passedTo payee.pubkeyHex (Hex.encode digest))))
    simp only [hsend, htransmit, readPacket_packet, hkeep, Option.getD_some] at h
    split at h
    · cases h
    · rename_i taken hreceive
      obtain rfl := Wallet.eq_takeToken_of_receiveToken hreceive
      cases h
      exact ⟨held, _, _, hfound, Wallet.find?_put_dropToken_put_takeToken hne,
        KeyedList.find?_put_self, Wallet.moves_dropToken_takeToken hfound _ _ _⟩

/-- A token that can be handed on changes hands. -/
lemma executeTransfer_of_hands {token : Token} {chainHash : String} (hs : s.Inverse)
    (hkey : payer.HasKeyPair c) (hne : payerPk ≠ payeePk)
    (hpayer : m.wallets.find? payerPk = some payer) (hpayee : m.wallets.find? payeePk = some payee)
    (h : payer.Hands c payee tokenId amount draw token chainHash) :
    ∃ m' received, m.executeTransfer c s payerPk payeePk tokenId amount draw = (m', .ok received) ∧
      m'.wallets.find? payerPk = some (payer.dropToken tokenId draw.nonceHex) ∧
      m'.wallets.find? payeePk = some (payee.takeToken ((checkLifecycleReset token
        payer.pubkeyHex).passedTo payee.pubkeyHex chainHash) draw.nonceHex) := by
  obtain ⟨channel, received, hresult⟩ :=
    (executeTransfer_of_sends hs hkey hne hpayer hpayee h.found h.sends).1 h.takes
  obtain ⟨-, rfl⟩ := KeyedList.find?_eq_some_iff.mp hpayer
  obtain ⟨-, rfl⟩ := KeyedList.find?_eq_some_iff.mp hpayee
  exact ⟨_, received, hresult, Wallet.find?_put_dropToken_put_takeToken hne,
    KeyedList.find?_put_self⟩

/-- A completed swap is a first transfer, and a second one if change is due. -/
lemma executeSwap_eq_ok (hpayer : m.wallets.find? payerPk = some payer)
    (hpayee : m.wallets.find? payeePk = some payee)
    (hfound : payer.state.unspentTokens.get? payerTokenId = some payerToken)
    (h : m.executeSwap c s payerPk payeePk payerTokenId owedAmount payDraw changeDraw
      = (m', .ok ())) :
    let change := payerToken.denomination.toRat - owedAmount.toRat
    ∃ m₁ received, m.executeTransfer c s payerPk payeePk payerTokenId payerToken.denomination payDraw
        = (m₁, .ok received) ∧
      (change = 0 ∧ m' = m₁ ∨
        0 < change ∧ ∃ coin received', payee.getTokenForSwap change = some coin ∧
          m₁.executeTransfer c s payeePk payerPk coin.tokenId coin.denomination changeDraw
            = (m', .ok received')) := by
  intro change
  simp only [executeSwap, hpayer, hpayee, hfound] at h
  have hchange : payerToken.denomination.toRat - owedAmount.toRat = change := rfl
  rw [hchange] at h
  by_cases hneg : change < 0
  · rw [if_pos hneg] at h
    cases h
  rw [if_neg hneg] at h
  by_cases hnone : change > 0 ∧ payee.getTokenForSwap change = none
  · rw [if_pos hnone] at h
    cases h
  rw [if_neg hnone] at h
  rcases hfirst : m.executeTransfer c s payerPk payeePk payerTokenId payerToken.denomination payDraw
    with ⟨m₁, e | received⟩
  · rw [hfirst] at h
    cases h
  rw [hfirst] at h
  dsimp only at h
  refine ⟨m₁, received, rfl, ?_⟩
  by_cases hpos : change > 0
  · obtain ⟨coin, hcoin⟩ := Option.ne_none_iff_exists'.mp fun hcoin => hnone ⟨hpos, hcoin⟩
    simp only [hcoin, if_pos hpos] at h
    rcases hsecond : m₁.executeTransfer c s payeePk payerPk coin.tokenId coin.denomination changeDraw
      with ⟨m₂, e | received'⟩
    · rw [hsecond] at h
      cases h
    · rw [hsecond] at h
      cases h
      exact .inr ⟨hpos, coin, received', hcoin, hsecond⟩
  · have hzero : change = 0 := le_antisymm (not_lt.mp hpos) (not_lt.mp hneg)
    simp only [if_neg hpos] at h
    split at h <;> cases h
    · exact .inl ⟨hzero, rfl⟩
    · exact .inl ⟨hzero, rfl⟩

/-- A swap whose two transfers are completed is completed. -/
lemma executeSwap_of_executeTransfer {m₁ : Meeting} {coin : Token} {change : ℚ}
    {received' : TransferRecord × Token} (hpayer : m.wallets.find? payerPk = some payer)
    (hpayee : m.wallets.find? payeePk = some payee)
    (hfound : payer.state.unspentTokens.get? payerTokenId = some payerToken)
    (hchange : payerToken.denomination.toRat - owedAmount.toRat = change) (hpositive : 0 < change)
    (hcoin : payee.getTokenForSwap change = some coin)
    (hfirst : m.executeTransfer c s payerPk payeePk payerTokenId payerToken.denomination payDraw
      = (m₁, .ok received))
    (hsecond : m₁.executeTransfer c s payeePk payerPk coin.tokenId coin.denomination changeDraw
      = (m', .ok received')) :
    m.executeSwap c s payerPk payeePk payerTokenId owedAmount payDraw changeDraw = (m', .ok ()) := by
  simp only [executeSwap, hpayer, hpayee, hfound, hchange, hcoin, hfirst, hsecond]
  rw [if_neg (not_lt.mpr hpositive.le), if_neg (by simp), if_pos hpositive]
  rfl

/-- After a completed swap the wallets are settled if no change was due, or if the payee had it. -/
lemma settles_of_executeSwap (hs : s.Inverse) (hne : payerPk ≠ payeePk)
    (hpayer : m.wallets.find? payerPk = some payer) (hpayee : m.wallets.find? payeePk = some payee)
    (hdisjoint : payer.ids.Disjoint payee.ids)
    (hfound : payer.state.unspentTokens.get? payerTokenId = some payerToken) {change : ℚ}
    (hchange : payerToken.denomination.toRat - owedAmount.toRat = change)
    (h : m.executeSwap c s payerPk payeePk payerTokenId owedAmount payDraw changeDraw
      = (m', .ok ())) :
    (change = 0 ∨ ∃ coin, payee.getTokenForSwap change = some coin) ∧
      (m.Settles m' payerPk payeePk owedAmount.toRat ↔ change = 0 ∨ payee.HasExactChange change) := by
  obtain ⟨m₁, received, hfirst, hsecond⟩ := executeSwap_eq_ok hpayer hpayee hfound h
  obtain ⟨token, payer₁, payee₁, hget, hpayer₁, hpayee₁, hmoved⟩ :=
    executeTransfer_eq_ok hs hne hpayer hpayee hfirst
  obtain rfl := Option.some.inj (hfound.symm.trans hget)
  have hpayerId := (Wallet.mem_ids_of_get? hfound).2
  have hpaid := hmoved.paid
  have htaken := hmoved.taken
  rw [Wallet.heldAt_of_notMem_ids (hdisjoint hpayerId)] at htaken
  rw [hchange] at hsecond
  rcases hsecond with ⟨hzero, rfl⟩ | ⟨hpositive, coin, received', hcoin, hsecond⟩
  · rw [settles_iff hpayer hpayee hpayer₁ hpayee₁]
    exact ⟨.inl hzero, iff_of_true ⟨by linarith, by linarith⟩ (.inl hzero)⟩
  · obtain ⟨stored, payee₂, payer₂, hstored, hpayee₂, hpayer₂, hback⟩ :=
      executeTransfer_eq_ok hs hne.symm hpayee₁ hpayer₁ hsecond
    -- the coin was there before the first transfer, and comes back under an id that is free
    obtain ⟨⟨coinId, hcoinAt⟩, -⟩ := Wallet.getTokenForSwap_eq_some hcoin
    have hcoinNe : coin.tokenId ≠ payerToken.tokenId := fun hsame =>
      hdisjoint hpayerId (hsame ▸ (Wallet.mem_ids_of_get? hcoinAt).2)
    rw [hmoved.others coin.tokenId hcoinNe] at hstored
    have hfree : payer.heldAt stored.tokenId = 0 := Wallet.heldAt_of_notMem_ids fun hmem =>
      hdisjoint hmem (Wallet.mem_ids_of_get? hstored).2
    have hpaid' := hback.paid
    have htaken' := hback.taken
    rw [hmoved.absent stored.tokenId hfree] at htaken'
    refine ⟨.inr ⟨coin, hcoin⟩, ?_⟩
    rw [settles_iff hpayer hpayee hpayer₂ hpayee₂, or_iff_right hpositive.ne']
    constructor
    · rintro ⟨hfallen, -⟩ coin' stored' hcoin' hstored'
      obtain rfl := Option.some.inj (hcoin.symm.trans hcoin')
      obtain rfl := Option.some.inj (hstored.symm.trans hstored')
      linarith
    · intro hexact
      have hworth := hexact coin stored hcoin hstored
      exact ⟨by linarith, by linarith⟩

/-- A completed swap settles what is owed exactly if nothing is due back, or what is stored under the
id of the smallest coin worth at least the change is worth the change; with every token under its own
id, if some token of the payee is worth the change. -/
theorem executeSwap_settles_iff (hs : s.Inverse) (hne : payerPk ≠ payeePk)
    (hpayer : m.wallets.find? payerPk = some payer) (hpayee : m.wallets.find? payeePk = some payee)
    (hdisjoint : payer.ids.Disjoint payee.ids)
    (hfound : payer.state.unspentTokens.get? payerTokenId = some payerToken)
    (h : m.executeSwap c s payerPk payeePk payerTokenId owedAmount payDraw changeDraw
      = (m', .ok ())) :
    let change := payerToken.denomination.toRat - owedAmount.toRat
    (m.Settles m' payerPk payeePk owedAmount.toRat ↔ change = 0 ∨ payee.HasExactChange change) ∧
    (payee.FiledByIds → (m.Settles m' payerPk payeePk owedAmount.toRat ↔
      change = 0 ∨ ∃ tokenId token, payee.state.unspentTokens.get? tokenId = some token ∧
        token.denomination.toRat = change)) := by
  intro change
  obtain ⟨hcoins, hsettles⟩ := settles_of_executeSwap hs hne hpayer hpayee hdisjoint hfound rfl h
  refine ⟨hsettles, fun hfiled => hsettles.trans ?_⟩
  rcases hcoins with hzero | ⟨coin, hcoin⟩
  · exact iff_of_true (.inl hzero) (.inl hzero)
  · exact or_congr_right (Wallet.hasExactChange_iff hfiled hcoin)

end

end Meeting

/-! ### A token of 10.0 -/

/-- The token of 10.0 of the issuer. -/
def noteIssue : Wallet.IssueDraw :=
  ⟨"00112233445566778899aabbccddeeff", .positive (.ofNat 17 10 seventeen_mod_ten)⟩

def noteDraw : TransferDraw := ⟨noteIssue.issuedAt, [1]⟩

def ten : PyFloat := .positive (.ofNat 1 2 one_mod_ten)

lemma toRat_ten : ten.toRat = 10 := by
  rw [ten, PyFloat.toRat_positive, Decimal.toRat_ofNat]
  norm_num

lemma get?_note : Meeting.payingIssuer.state.unspentTokens.get? noteIssue.tokenId
    = some (plainIssuer.issueToken plainCrypto ten noteIssue).2 := Meeting.get?_payingIssuer

namespace Wallet

/-- The issuer can hand over its token, whatever amount up to 10.0 it names. -/
lemma exists_hands_note {payee : Wallet} (hpayee : payee.HasKeyPair plainCrypto)
    {amount : PyFloat} (hamount : amount.toRat ≤ 10)
    (hfresh : (noteIssue.tokenId, noteDraw.nonceHex) ∉ payee.state.spentNonces)
    (hroom : payee.balance + 10 ≤ payee.state.policy.maxWalletBalanceEtb) :
    ∃ chainHash, Meeting.payingIssuer.Hands plainCrypto payee noteIssue.tokenId amount noteDraw
      (plainIssuer.issueToken plainCrypto ten noteIssue).2 chainHash := by
  have hsame : Meeting.payingIssuer.pubkeyHex = plainIssuer.pubkeyHex := rfl
  have hpolicy : amount.toRat ≤ 1000 := hamount.trans (by norm_num)
  rw [← toRat_ten] at hamount hroom
  exact exists_hands_issueToken Network.hasKeyPair_plainIssuer hsame hpayee get?_note (by decide)
    hpolicy hamount rfl (by decide) hfresh hroom

/-- The issuer can pay Bob with its token, whatever amount up to 10.0 it names. -/
lemma exists_payment (amount : PyFloat) (hamount : amount.toRat ≤ 10) :
    ∃ w' record newToken recipient',
      Meeting.payingIssuer.sendToken plainCrypto noteIssue.tokenId plainReceiver.pubkeyHex amount
        noteDraw = (w', .ok (record, newToken)) ∧
      record.amount = amount ∧
      plainReceiver.receiveToken plainCrypto newToken record = .ok recipient' := by
  have hroom : plainReceiver.balance + 10 ≤ plainReceiver.state.policy.maxWalletBalanceEtb := by
    have hbalance : plainReceiver.balance = 0 := rfl
    have hcap : plainReceiver.state.policy.maxWalletBalanceEtb = 10000 := rfl
    rw [hbalance, hcap]
    norm_num
  obtain ⟨chainHash, hhands⟩ := exists_hands_note Network.hasKeyPair_plainReceiver hamount
    (Finset.notMem_empty _) hroom
  exact hhands.exists_receiveToken Meeting.hasKeyPair_payingIssuer

end Wallet

/-! ### Change for 5.0 -/

def coinIssue : Wallet.IssueDraw :=
  ⟨"ffeeddccbbaa99887766554433221100", .positive (.ofNat 17 10 seventeen_mod_ten)⟩

lemma five_mod_ten : 5 % 10 ≠ 0 := by decide

lemma seven_mod_ten : 7 % 10 ≠ 0 := by decide

def five : PyFloat := .positive (.ofNat 5 1 five_mod_ten)

def seven : PyFloat := .positive (.ofNat 7 1 seven_mod_ten)

lemma toRat_five : five.toRat = 5 := by
  rw [five, PyFloat.toRat_positive, Decimal.toRat_ofNat]
  norm_num

lemma toRat_seven : seven.toRat = 7 := by
  rw [seven, PyFloat.toRat_positive, Decimal.toRat_ofNat]
  norm_num

/-- Bob with one coin. -/
def changeMaker (coin : PyFloat) : Wallet :=
  (Wallet.plainReceiver.issueToken plainCrypto coin coinIssue).1

/-- The issuer and Bob with his coin, on an encrypted channel. -/
def swapMeeting (coin : PyFloat) : Meeting where
  channel := ⟨some ⟨List.replicate 32 1, List.replicate 12 2⟩, none, []⟩
  wallets := (KeyedList.empty.put Meeting.payingIssuer).put (changeMaker coin)

namespace Meeting

lemma find?_payer (coin : PyFloat) :
    (swapMeeting coin).wallets.find? plainIssuer.pubkeyHex = some payingIssuer :=
  KeyedList.find?_put_put Network.pubkeyHex_plainIssuer_ne

lemma find?_payee (coin : PyFloat) :
    (swapMeeting coin).wallets.find? Wallet.plainReceiver.pubkeyHex = some (changeMaker coin) :=
  KeyedList.find?_put_self

lemma get?_coin (coin : PyFloat) : (changeMaker coin).state.unspentTokens.get? coinIssue.tokenId
    = some (Wallet.plainReceiver.issueToken plainCrypto coin coinIssue).2 := by
  rw [changeMaker, Wallet.issueToken, Dict.get?_set, if_pos rfl]

lemma ids_disjoint (coin : PyFloat) : payingIssuer.ids.Disjoint (changeMaker coin).ids := by
  have hpayer : payingIssuer.ids = [noteIssue.tokenId, noteIssue.tokenId] := rfl
  have hpayee : (changeMaker coin).ids = [coinIssue.tokenId, coinIssue.tokenId] := rfl
  rw [hpayer, hpayee, List.disjoint_left]
  decide

lemma getTokenForSwap_coin {coin : PyFloat} {change : ℚ} (h : change ≤ coin.toRat) :
    (changeMaker coin).getTokenForSwap change
      = some (Wallet.plainReceiver.issueToken plainCrypto coin coinIssue).2 := by
  have hitems : (changeMaker coin).state.unspentTokens.items.map Prod.snd
      = [(Wallet.plainReceiver.issueToken plainCrypto coin coinIssue).2] := rfl
  have hdenomination : (Wallet.plainReceiver.issueToken plainCrypto coin coinIssue).2.denomination
      = coin := rfl
  rw [Wallet.getTokenForSwap, hitems, List.filter_cons_of_pos (by simpa [hdenomination] using h)]
  rfl

lemma hasExactChange_coin_iff {coin : PyFloat} {change : ℚ} (h : change ≤ coin.toRat) :
    (changeMaker coin).HasExactChange change ↔ coin.toRat = change := by
  have hcoin := getTokenForSwap_coin h
  constructor
  · exact fun hexact => hexact _ _ hcoin (get?_coin coin)
  · rintro hworth coin' stored hcoin' hstored
    obtain rfl := Option.some.inj (hcoin.symm.trans hcoin')
    obtain rfl := Option.some.inj ((get?_coin coin).symm.trans hstored)
    exact hworth

lemma change_five :
    (plainIssuer.issueToken plainCrypto ten noteIssue).2.denomination.toRat - five.toRat = 5 := by
  have hten : (plainIssuer.issueToken plainCrypto ten noteIssue).2.denomination.toRat = 10 :=
    toRat_ten
  rw [hten, toRat_five]
  norm_num

/-- The issuer after the first half of a swap. -/
def paidIssuer : Wallet := payingIssuer.dropToken noteIssue.tokenId noteDraw.nonceHex

/-- A swap with a coin worth at least the change of 5.0 is completed. -/
lemma exists_executeSwap {coin : PyFloat} (hlow : 5 ≤ coin.toRat) (hhigh : coin.toRat ≤ 1000) :
    ∃ m', (swapMeeting coin).executeSwap plainCrypto plainSession plainIssuer.pubkeyHex
      Wallet.plainReceiver.pubkeyHex noteIssue.tokenId five noteDraw noteDraw = (m', .ok ()) := by
  have hcoin := getTokenForSwap_coin hlow
  -- the note goes to Bob
  have hroom : (changeMaker coin).balance + 10
      ≤ (changeMaker coin).state.policy.maxWalletBalanceEtb := by
    have hbalance : (changeMaker coin).balance = coin.toRat + 0 := rfl
    have hcap : (changeMaker coin).state.policy.maxWalletBalanceEtb = 10000 := rfl
    linarith
  have hkey : (changeMaker coin).HasKeyPair plainCrypto := Network.hasKeyPair_plainReceiver
  obtain ⟨chainHash, hhands⟩ := Wallet.exists_hands_note hkey toRat_ten.le
    (Finset.notMem_empty _) hroom
  obtain ⟨m₁, received, hfirst, hpayer₁, hpayee₁⟩ := executeTransfer_of_hands plainSession_inverse
    hasKeyPair_payingIssuer Network.pubkeyHex_plainIssuer_ne (find?_payer coin) (find?_payee coin)
    hhands
  -- and the coin to the issuer
  generalize hbob : (changeMaker coin).takeToken _ _ = bob at hpayee₁
  have hsame : bob.pubkeyHex = Wallet.plainReceiver.pubkeyHex := by rw [← hbob]; rfl
  have hpolicy : bob.state.policy = .default := by rw [← hbob]; rfl
  have hcoinAt : bob.state.unspentTokens.get? coinIssue.tokenId
      = some (Wallet.plainReceiver.issueToken plainCrypto coin coinIssue).2 := by
    have hne : coinIssue.tokenId ≠ noteIssue.tokenId := by decide
    rw [← hbob, Wallet.takeToken, Dict.get?_set]
    exact (if_neg hne).trans (get?_coin coin)
  have hkey' : bob.HasKeyPair plainCrypto := by rw [← hbob]; exact hkey
  have hkey'' : paidIssuer.HasKeyPair plainCrypto := hasKeyPair_payingIssuer
  have hfresh : (coinIssue.tokenId, noteDraw.nonceHex) ∉ paidIssuer.state.spentNonces := by
    decide
  have hroom' : paidIssuer.balance + coin.toRat ≤ paidIssuer.state.policy.maxWalletBalanceEtb := by
    have hbalance : paidIssuer.balance = 0 := rfl
    have hcap : paidIssuer.state.policy.maxWalletBalanceEtb = 10000 := rfl
    linarith
  have hnow : noteDraw.now = coinIssue.issuedAt := rfl
  obtain ⟨chainHash', hback⟩ := Wallet.exists_hands_issueToken Network.hasKeyPair_plainReceiver
    hsame hkey'' hcoinAt (by rw [hpolicy]; decide) (by rw [hpolicy]; exact hhigh) le_rfl hnow
    (by rw [hpolicy]; decide) hfresh hroom'
  obtain ⟨m', received', hsecond, -, -⟩ := executeTransfer_of_hands plainSession_inverse
    hkey' Network.pubkeyHex_plainIssuer_ne.symm hpayee₁ hpayer₁ hback
  exact ⟨m', executeSwap_of_executeTransfer (find?_payer coin) (find?_payee coin) get?_note
    change_five (by norm_num) hcoin hfirst hsecond⟩

/-- With a coin of 5.0, Bob is paid 5.0. -/
theorem executeSwap_settles_five :
    ∃ m', (swapMeeting five).executeSwap plainCrypto plainSession plainIssuer.pubkeyHex
        Wallet.plainReceiver.pubkeyHex noteIssue.tokenId five noteDraw noteDraw = (m', .ok ()) ∧
      (swapMeeting five).Settles m' plainIssuer.pubkeyHex Wallet.plainReceiver.pubkeyHex
        five.toRat := by
  have hfive := toRat_five
  obtain ⟨m', hswap⟩ := exists_executeSwap hfive.ge (by rw [hfive]; norm_num)
  have hiff := (executeSwap_settles_iff plainSession_inverse Network.pubkeyHex_plainIssuer_ne
    (find?_payer five) (find?_payee five) (ids_disjoint five) get?_note hswap).1
  refine ⟨m', hswap, hiff.mpr (.inr ?_)⟩
  rw [change_five, hasExactChange_coin_iff hfive.ge]
  exact hfive

/-- With a coin of 7.0 for the change of 5.0, Bob is paid 3.0. -/
theorem executeSwap_short :
    ∃ m', (swapMeeting seven).executeSwap plainCrypto plainSession plainIssuer.pubkeyHex
        Wallet.plainReceiver.pubkeyHex noteIssue.tokenId five noteDraw noteDraw = (m', .ok ()) ∧
      ¬ (swapMeeting seven).Settles m' plainIssuer.pubkeyHex Wallet.plainReceiver.pubkeyHex
        five.toRat := by
  have hseven := toRat_seven
  have hcovers : 5 ≤ seven.toRat := by rw [hseven]; norm_num
  obtain ⟨m', hswap⟩ := exists_executeSwap hcovers (by rw [hseven]; norm_num)
  have hiff := (settles_of_executeSwap plainSession_inverse Network.pubkeyHex_plainIssuer_ne
    (find?_payer seven) (find?_payee seven) (ids_disjoint seven) get?_note change_five hswap).2
  refine ⟨m', hswap, fun hsettles => ?_⟩
  rcases hiff.mp hsettles with hzero | hexact
  · norm_num at hzero
  · rw [hasExactChange_coin_iff hcovers, hseven] at hexact
    norm_num at hexact

end Meeting

end PocketCash.Poc
