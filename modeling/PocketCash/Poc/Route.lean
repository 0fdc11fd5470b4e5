import PocketCash.Library.Hops
import PocketCash.Library.Run
import PocketCash.Poc.Transfer

/-!
# The hop counter

Wallets with one policy issue tokens, send them, and receive what was sent, in any order, late,
repeatedly or never. The hop counter of a token is set to zero both when it comes back to an earlier
holder and when such a holder sends it on. It is the count of hops along the transfer history.
-/

namespace PocketCash.Poc

namespace Token

/-- A token in the register of its holder. -/
structure HeldBy (limit : ℕ) (holder : String) (t : Token) : Prop where
  issuer : t.transferHistory.head? = some t.issuerPubkeyHex
  holder : t.transferHistory.getLast? = some holder
  hopCount : t.hopCount = hops t.transferHistory
  within : HopsWithin limit t.transferHistory
  chainHash : t.transferHistory.length = 1 → t.chainHash = ""

/-- A token on its way to its next owner, from a holder with the given history. -/
structure SentFrom (limit : ℕ) (history : List String) (t : Token) : Prop where
  transferHistory : t.transferHistory = history ++ [t.ownerPubkeyHex]
  issuer : history.head? = some t.issuerPubkeyHex
  hopCount : t.hopCount = hops history + 1
  within : HopsWithin limit history
  below : hops history < limit

namespace HeldBy

variable {limit : ℕ} {holder : String} {t : Token}

/-- The history of a held token ends with a first or a returning holder. -/
lemma exists_concat (h : t.HeldBy limit holder) : ∃ before, t.transferHistory = before ++ [holder] := by
  obtain ⟨before, hbefore⟩ := List.getLast?_eq_some_iff.mp h.holder
  exact ⟨before, hbefore⟩

/-- The reset of a held token changes nothing but the hash. -/
lemma checkLifecycleReset (h : t.HeldBy limit holder) :
    HeldBy limit holder (checkLifecycleReset t holder) := by
  rw [Poc.checkLifecycleReset]
  split_ifs with hreturned
  · obtain ⟨before, hbefore⟩ := h.exists_concat
    rw [hbefore, List.dropLast_concat] at hreturned
    have hzero : hops t.transferHistory = 0 := by
      rw [hbefore, hops_concat (List.ne_nil_of_mem hreturned), if_pos hreturned]
    exact ⟨h.issuer, h.holder, by simp [hzero], h.within, fun _ => rfl⟩
  · exact h

/-- A held token below the limit is passed on. -/
lemma passedTo (h : t.HeldBy limit holder) (hbelow : t.hopCount < limit)
    (recipientPubkeyHex chainHash : String) :
    SentFrom limit t.transferHistory (t.passedTo recipientPubkeyHex chainHash) where
  transferHistory := rfl
  issuer := h.issuer
  hopCount := congrArg (· + 1) h.hopCount
  within := h.within
  below := by
    rw [h.hopCount] at hbelow
    exact_mod_cast hbelow

/-- No more new holders in a row than the limit. -/
lemma length_le (h : t.HeldBy limit holder) {before holders after : List String}
    (hhistory : t.transferHistory = before ++ holders ++ after) (hbefore : before ≠ [])
    (hnew : AllNew before holders) : holders.length ≤ limit :=
  HopsWithin.length_le (hhistory ▸ h.within) hbefore hnew

end HeldBy

namespace SentFrom

variable {limit : ℕ} {history : List String} {t : Token}

lemma history_ne_nil (h : t.SentFrom limit history) : history ≠ [] :=
  List.ne_nil_of_mem (List.mem_of_head? h.issuer)

lemma within_concat (h : t.SentFrom limit history) : HopsWithin limit t.transferHistory := by
  rw [h.transferHistory]
  apply h.within.concat
  exact (hops_concat_le h.history_ne_nil _).trans h.below

/-- The owner of a sent token holds it after the reset. -/
lemma checkLifecycleReset (h : t.SentFrom limit history) :
    HeldBy limit t.ownerPubkeyHex (checkLifecycleReset t t.ownerPubkeyHex) := by
  have hhead : t.transferHistory.head? = some t.issuerPubkeyHex := by
    rw [h.transferHistory, List.head?_append, h.issuer, Option.some_or]
  have hlast : t.transferHistory.getLast? = some t.ownerPubkeyHex := by
    rw [h.transferHistory, List.getLast?_concat]
  have hhops : hops t.transferHistory
      = if t.ownerPubkeyHex ∈ history then 0 else hops history + 1 := by
    conv_lhs => rw [h.transferHistory]
    exact hops_concat h.history_ne_nil _
  have hdrop : t.transferHistory.dropLast = history := by
    rw [h.transferHistory, List.dropLast_concat]
  have hlength : t.transferHistory.length ≠ 1 := by
    have hpos := List.length_pos_of_ne_nil h.history_ne_nil
    rw [h.transferHistory, List.length_append, List.length_singleton]
    omega
  rw [Poc.checkLifecycleReset, hdrop]
  split_ifs with hreturned
  · rw [if_pos hreturned] at hhops
    exact ⟨hhead, hlast, by simp [hhops], h.within_concat, fun _ => rfl⟩
  · rw [if_neg hreturned] at hhops
    exact ⟨hhead, hlast, by simp [hhops, h.hopCount], h.within_concat,
      fun hfirst => absurd hfirst hlength⟩

end SentFrom

end Token

namespace Wallet

/-- The wallet has its keys and the policy, and its tokens are on their routes. -/
structure OnRoute (c : Crypto) (policy : PolicyConfig) (w : Wallet) : Prop where
  keys : w.HasKeyPair c
  policy_eq : w.state.policy = policy
  held : ∀ entry ∈ w.state.unspentTokens.items,
    entry.2.HeldBy policy.maxOfflineHops.toNat w.pubkeyHex

namespace OnRoute

variable {c : Crypto} {policy : PolicyConfig} {w : Wallet}

lemma keepToken (h : w.OnRoute c policy) {token : Token}
    (htoken : token.HeldBy policy.maxOfflineHops.toNat w.pubkeyHex) (tokenId : String) :
    OnRoute c policy (w.keepToken tokenId token) where
  keys := h.keys
  policy_eq := h.policy_eq
  held := by
    intro entry hentry
    rcases KeyedList.mem_put.mp hentry with rfl | ⟨hentry, -⟩
    · exact htoken
    · exact h.held entry hentry

lemma dropToken (h : w.OnRoute c policy) (tokenId nonceHex : String) :
    OnRoute c policy (w.dropToken tokenId nonceHex) where
  keys := h.keys
  policy_eq := h.policy_eq
  held := fun entry hentry => h.held entry (KeyedList.mem_pop.mp hentry).1

/-- A token is issued with no hops. -/
lemma issueToken (h : w.OnRoute c policy) (denomination : PyFloat) (draw : IssueDraw) :
    OnRoute c policy (w.issueToken c denomination draw).1 := by
  apply h.keepToken
  exact ⟨rfl, rfl, rfl, .singleton _, fun _ => rfl⟩

/-- The register keeps its tokens on their routes whether `send_token` raises or not, and what is
sent passes the check of its addressee. -/
lemma sendToken (h : w.OnRoute c policy) (tokenId recipientPubkeyHex : String) (amount : PyFloat)
    (draw : TransferDraw) :
    let result := w.sendToken c tokenId recipientPubkeyHex amount draw
    OnRoute c policy result.1 ∧ ∀ record updated, result.2 = .ok (record, updated) →
      verifyTransferChain c updated record = .ok true ∧
        ∃ history, updated.SentFrom policy.maxOfflineHops.toNat history := by
  intro result
  have hresult : result = w.sendToken c tokenId recipientPubkeyHex amount draw := rfl
  rw [Wallet.sendToken] at hresult
  cases hfind : w.state.unspentTokens.get? tokenId with
  | none =>
    rw [hfind] at hresult
    rw [hresult]
    exact ⟨h, fun record updated hok => by cases hok⟩
  | some token =>
    rw [hfind] at hresult
    dsimp only at hresult
    obtain ⟨entry, hentry, rfl⟩ := Option.map_eq_some_iff.mp hfind
    have hheld := (h.held entry (KeyedList.find?_eq_some_iff.mp hentry).1).checkLifecycleReset
    have hkept := h.keepToken hheld tokenId
    split at hresult
    · rw [hresult]
      exact ⟨hkept, fun record updated hok => by cases hok⟩
    · rename_i record newToken hbuild
      rw [hresult]
      refine ⟨hkept.dropToken tokenId record.nonceHex, ?_⟩
      rintro record' updated hok
      cases hok
      obtain ⟨hpayable, payload, digest, hpayload, hhash, rfl, rfl⟩ :=
        buildTransfer_eq_ok_iff.mp hbuild
      constructor
      · rw [verifyTransferChain_recordOf_iff hkept.keys hpayload]
        intro hfirst
        rw [hheld.chainHash hfirst] at hhash
        exact hhash
      · have hbelow := hpayable.hops
        rw [hkept.policy_eq] at hbelow
        exact ⟨_, hheld.passedTo (by omega) _ _⟩

/-- What was sent to a wallet and is received is on its route. -/
lemma receiveToken (h : w.OnRoute c policy) {token : Token} {history : List String}
    (hsent : token.SentFrom policy.maxOfflineHops.toNat history) {record : TransferRecord}
    {w' : Wallet} (hreceive : w.receiveToken c token record = .ok w') : OnRoute c policy w' := by
  obtain ⟨⟨-, -, -, -, howner⟩, rfl⟩ := receiveToken_eq_ok_iff.mp hreceive
  have hheld := hsent.checkLifecycleReset
  rw [howner] at hheld
  refine ⟨h.keys, h.policy_eq, fun entry hentry => ?_⟩
  rcases KeyedList.mem_put.mp hentry with rfl | ⟨hentry, -⟩
  · exact hheld
  · exact h.held entry hentry

end OnRoute

end Wallet

/-! ### Runs -/

/-- Wallets, and the transfers they have sent so far. A transfer that was delivered can be delivered
again. -/
structure Network where
  wallets : KeyedList Wallet.pubkeyHex
  transfers : List (TransferRecord × Token)

namespace Network

inductive Event
  | issue (pubkeyHex : String) (denomination : PyFloat) (draw : Wallet.IssueDraw)
  | send (pubkeyHex tokenId recipientPubkeyHex : String) (amount : PyFloat) (draw : TransferDraw)
  | deliver (pubkeyHex : String) (i : ℕ)

/-- One event. A send that raises keeps what it changed before. -/
def step (c : Crypto) (n : Network) : Event → Network
  | .issue pubkeyHex denomination draw =>
    match n.wallets.find? pubkeyHex with
    | none => n
    | some w => { n with wallets := n.wallets.put (w.issueToken c denomination draw).1 }
  | .send pubkeyHex tokenId recipientPubkeyHex amount draw =>
    match n.wallets.find? pubkeyHex with
    | none => n
    | some w =>
      match w.sendToken c tokenId recipientPubkeyHex amount draw with
      | (w', .error _) => { n with wallets := n.wallets.put w' }
      | (w', .ok transfer) =>
        { wallets := n.wallets.put w', transfers := n.transfers ++ [transfer] }
  | .deliver pubkeyHex i =>
    match n.wallets.find? pubkeyHex, n.transfers[i]? with
    | some w, some (record, token) =>
      match w.receiveToken c token record with
      | .error _ => n
      | .ok w' => { n with wallets := n.wallets.put w' }
    | _, _ => n

/-- New wallets with their keys and one policy. -/
structure Start (c : Crypto) (policy : PolicyConfig) (n : Network) : Prop where
  keys : ∀ w ∈ n.wallets.items, w.HasKeyPair c
  samePolicy : ∀ w ∈ n.wallets.items, w.state.policy = policy
  empty : ∀ w ∈ n.wallets.items, w.state.unspentTokens = .empty
  transfers : n.transfers = []

/-- All tokens of the wallets, and all that were sent. -/
def tokens (n : Network) : List Token :=
  (n.wallets.items.flatMap fun w => w.state.unspentTokens.items.map Prod.snd)
    ++ n.transfers.map Prod.snd

/-- Wallets and transfers are on their routes. -/
structure OnRoute (c : Crypto) (policy : PolicyConfig) (n : Network) : Prop where
  wallets : ∀ w ∈ n.wallets.items, w.OnRoute c policy
  accepted : ∀ transfer ∈ n.transfers, verifyTransferChain c transfer.2 transfer.1 = .ok true
  sent : ∀ transfer ∈ n.transfers,
    ∃ history, transfer.2.SentFrom policy.maxOfflineHops.toNat history

variable {c : Crypto} {policy : PolicyConfig} {n : Network}

lemma Start.onRoute (h : n.Start c policy) : n.OnRoute c policy where
  wallets := by
    intro w hw
    refine ⟨h.keys w hw, h.samePolicy w hw, fun entry hentry => ?_⟩
    rw [h.empty w hw] at hentry
    cases hentry
  accepted := by
    rw [h.transfers]
    simp
  sent := by
    rw [h.transfers]
    simp

namespace OnRoute

lemma put (h : n.OnRoute c policy) {w : Wallet} (hw : w.OnRoute c policy) :
    OnRoute c policy { n with wallets := n.wallets.put w } where
  wallets := KeyedList.forall_mem_put h.wallets hw
  accepted := h.accepted
  sent := h.sent

lemma step (h : n.OnRoute c policy) (e : Event) : OnRoute c policy (n.step c e) := by
  have hfound : ∀ {pubkeyHex w}, n.wallets.find? pubkeyHex = some w → w.OnRoute c policy :=
    fun hfind => h.wallets _ (KeyedList.find?_eq_some_iff.mp hfind).1
  cases e with
  | issue pubkeyHex denomination draw =>
    rw [Network.step]
    split
    · exact h
    · rename_i w hfind
      exact h.put ((hfound hfind).issueToken denomination draw)
  | send pubkeyHex tokenId recipientPubkeyHex amount draw =>
    rw [Network.step]
    split
    · exact h
    · rename_i w hfind
      obtain ⟨hwallet, htransfer⟩ :=
        (hfound hfind).sendToken tokenId recipientPubkeyHex amount draw
      split <;> rename_i hsend <;> rw [hsend] at hwallet htransfer
      · exact h.put hwallet
      · rename_i transfer
        obtain ⟨haccepted, hsent⟩ := htransfer transfer.1 transfer.2 rfl
        refine ⟨(h.put hwallet).wallets, ?_, ?_⟩
        · intro transfer' hmem
          rcases List.mem_append.mp hmem with hmem | hmem
          · exact h.accepted transfer' hmem
          · rw [List.mem_singleton.mp hmem]
            exact haccepted
        · intro transfer' hmem
          rcases List.mem_append.mp hmem with hmem | hmem
          · exact h.sent transfer' hmem
          · rw [List.mem_singleton.mp hmem]
            exact hsent
  | deliver pubkeyHex i =>
    rw [Network.step]
    split
    · rename_i w record token hfind htransfer
      split
      · exact h
      · rename_i w' hreceive
        obtain ⟨history, hsent⟩ := h.sent _ (List.mem_of_getElem? htransfer)
        exact h.put ((hfound hfind).receiveToken hsent hreceive)
    · exact h

end OnRoute

/-- No more than `limit` new holders follow each other. -/
lemma OnRoute.length_le (h : n.OnRoute c policy) {t : Token} (ht : t ∈ n.tokens)
    {before holders after : List String}
    (hhistory : t.transferHistory = before ++ holders ++ after) (hbefore : before ≠ [])
    (hnew : AllNew before holders) : holders.length ≤ policy.maxOfflineHops.toNat := by
  rcases List.mem_append.mp ht with hheld | hsent
  · obtain ⟨w, hw, hmem⟩ := List.mem_flatMap.mp hheld
    obtain ⟨entry, hentry, rfl⟩ := List.mem_map.mp hmem
    exact ((h.wallets w hw).held entry hentry).length_le hhistory hbefore hnew
  · obtain ⟨transfer, htransfer, rfl⟩ := List.mem_map.mp hsent
    obtain ⟨history, hsent⟩ := h.sent transfer htransfer
    exact HopsWithin.length_le (hhistory ▸ hsent.within_concat) hbefore hnew

/-- In every run the hop counter of a token is the count of hops along its history from the issuer to
its holder. It stays within the limit of the policy, or zero if that is negative, and so does the
number of new holders in a row. What was sent passes the check of its addressee. -/
theorem hopCount_eq_hops (h : n.Start c policy) (es : List Event) :
    let n' := runFrom (step c) n es
    (∀ w ∈ n'.wallets.items, ∀ entry ∈ w.state.unspentTokens.items,
      entry.2.transferHistory.head? = some entry.2.issuerPubkeyHex ∧
      entry.2.transferHistory.getLast? = some w.pubkeyHex ∧
      entry.2.hopCount = hops entry.2.transferHistory ∧
      entry.2.hopCount ≤ max 0 policy.maxOfflineHops) ∧
    (∀ t ∈ n'.tokens, ∀ before holders after, t.transferHistory = before ++ holders ++ after →
      before ≠ [] → AllNew before holders → (holders.length : ℤ) ≤ max 0 policy.maxOfflineHops) ∧
    ∀ transfer ∈ n'.transfers, verifyTransferChain c transfer.2 transfer.1 = .ok true := by
  intro n'
  have hroute : n'.OnRoute c policy :=
    runFrom_invariant (fun _ e hn => hn.step e) h.onRoute es
  refine ⟨?_, ?_, hroute.accepted⟩
  · intro w hw entry hentry
    have hheld := (hroute.wallets w hw).held entry hentry
    have hlimit := hheld.within _ List.prefix_rfl
    refine ⟨hheld.issuer, hheld.holder, hheld.hopCount, ?_⟩
    rw [hheld.hopCount]
    omega
  · intro t ht before holders after hhistory hbefore hnew
    have hlength := hroute.length_le ht hhistory hbefore hnew
    omega

lemma step_issue {pubkeyHex : String} {w : Wallet} (hfind : n.wallets.find? pubkeyHex = some w)
    {denomination : PyFloat} {draw : Wallet.IssueDraw} :
    n.step c (.issue pubkeyHex denomination draw)
      = { n with wallets := n.wallets.put (w.issueToken c denomination draw).1 } := by
  rw [step, hfind]

/-! ### An issuer and Bob -/

lemma hasKeyPair_plainIssuer : plainIssuer.HasKeyPair plainCrypto :=
  ⟨List.replicate 32 7, rfl, rfl, fun m => by simp [plainCrypto, plainIssuer]⟩

lemma hasKeyPair_plainReceiver : Wallet.plainReceiver.HasKeyPair plainCrypto :=
  ⟨List.replicate 32 9, rfl, rfl, fun m => by simp [plainCrypto, Wallet.plainReceiver]⟩

lemma pubkeyHex_plainIssuer_ne : plainIssuer.pubkeyHex ≠ Wallet.plainReceiver.pubkeyHex := by
  decide

/-- The new wallets of an issuer and of Bob, under one policy. -/
def plainNetwork (policy : PolicyConfig) : Network where
  wallets :=
    (KeyedList.empty.put
      { plainIssuer with state := { plainIssuer.state with policy := policy } }).put
      { Wallet.plainReceiver with state := { Wallet.plainReceiver.state with policy := policy } }
  transfers := []

lemma start_plainNetwork (policy : PolicyConfig) : (plainNetwork policy).Start plainCrypto policy where
  keys := KeyedList.forall_mem_put
    (KeyedList.forall_mem_put (by simp [KeyedList.empty]) hasKeyPair_plainIssuer)
    hasKeyPair_plainReceiver
  samePolicy := KeyedList.forall_mem_put
    (KeyedList.forall_mem_put (by simp [KeyedList.empty]) rfl) rfl
  empty := KeyedList.forall_mem_put
    (KeyedList.forall_mem_put (by simp [KeyedList.empty]) rfl) rfl
  transfers := rfl

/-- The issuer issues a token of 10.0. -/
def plainIssue : Event :=
  .issue (Wallet.plainKey 7) (.positive (.ofNat 1 2 one_mod_ten))
    ⟨"00112233445566778899aabbccddeeff", .positive (.ofNat 17 10 seventeen_mod_ten)⟩

/-- The issuer pays Bob. -/
def plainPayment : List Event := [
  plainIssue,
  .send (Wallet.plainKey 7) "00112233445566778899aabbccddeeff" (Wallet.plainKey 9)
    (.positive (.ofNat 1 2 one_mod_ten)) ⟨.positive (.ofNat 17 10 seventeen_mod_ten), [1, 2, 3]⟩,
  .deliver (Wallet.plainKey 9) 0]

theorem hopCount_eq_hops_plainPayment :
    (plainNetwork .default).Start plainCrypto .default ∧
    ∀ w ∈ (runFrom (step plainCrypto) (plainNetwork .default) plainPayment).wallets.items,
      ∀ entry ∈ w.state.unspentTokens.items,
        entry.2.hopCount = hops entry.2.transferHistory ∧ entry.2.hopCount ≤ 7 := by
  refine ⟨start_plainNetwork .default, fun w hw entry hentry => ?_⟩
  have hroute := hopCount_eq_hops (start_plainNetwork .default) plainPayment
  obtain ⟨-, -, hhops, hlimit⟩ := hroute.1 w hw entry hentry
  exact ⟨hhops, hlimit⟩

/-- A policy may have a negative limit. An issued token is above it without any hop. -/
theorem issued_above_negative_limit :
    let policy := { PolicyConfig.default with maxOfflineHops := -1 }
    let n' := runFrom (step plainCrypto) (plainNetwork policy) [plainIssue]
    (plainNetwork policy).Start plainCrypto policy ∧
      ∃ w ∈ n'.wallets.items, ∃ entry ∈ w.state.unspentTokens.items,
        ¬ entry.2.hopCount ≤ policy.maxOfflineHops := by
  intro policy n'
  refine ⟨start_plainNetwork policy, ?_⟩
  have hfind : (plainNetwork policy).wallets.find? (Wallet.plainKey 7)
      = some { plainIssuer with state := { plainIssuer.state with policy := policy } } := by
    apply KeyedList.find?_eq_some_iff.mpr
    refine ⟨KeyedList.mem_put.mpr (.inr ⟨KeyedList.mem_put.mpr (.inl rfl), ?_⟩), rfl⟩
    exact pubkeyHex_plainIssuer_ne
  have hrun : n' = _ := step_issue hfind
  rw [hrun]
  exact ⟨_, KeyedList.mem_put.mpr (.inl rfl), _, KeyedList.mem_put.mpr (.inl rfl), by decide⟩

end Network

end PocketCash.Poc
