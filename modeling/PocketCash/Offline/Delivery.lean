import Mathlib.Algebra.Order.BigOperators.Group.List
import PocketCash.Offline.History
import PocketCash.Offline.Receiving

/-!
# What an honest payer signs and an honest payee accepts

A bundle that is delivered at the instant at which it was made passes every check of the payee but
one: the payer counts the age of a token in whole seconds from `issue_timestamp`, and the payee also
in real time from `created_at`.
-/

namespace PocketCash.Offline

/-! ### The checks of one transfer -/

/-- A token that the payer may spend at time `now`, seen by the payee. -/
structure PolicyConfig.Allows (policy : PolicyConfig) (token : Token) (now : Int) : Prop where
  hops : token.hopCount + 1 ≤ policy.maxHops
  nonce : token.nonce + 1 ≤ policy.maxHops
  unexpired : wholeSeconds now - token.issueTimestamp ≤ policy.tokenExpirySeconds
  aware : token.createdAt.utcOffset.isSome = true

lemma isNotExpired_eq_true_iff {createdAt : Datetime} {expirySeconds now : Int}
    (haware : createdAt.utcOffset.isSome = true) :
    isNotExpired createdAt expirySeconds now = .ok true ↔
      now - createdAt.micros ≤ expirySeconds * 1000000 := by
  obtain ⟨offset, hoffset⟩ := Option.isSome_iff_exists.mp haware
  simp [isNotExpired, hoffset]

namespace Wallet

variable {c : Crypto} {payer w : Wallet} {policy : PolicyConfig} {now : Int}

/-- Of the checks of the payee, that of the real age is left. -/
lemma receives_signedTransfer_iff {token : Token} {draw : TransferDraw}
    (hkeys : ∀ message, c.verify message (c.sign message payer.privateKeyHex) payer.publicKeyHex = true)
    (hallows : w.policy.Allows token now) (hnew : draw.transferId ∉ w.processedTransferIds)
    (hroom : w.balance + token.value ≤ w.policy.maxBalance) :
    w.Receives c (payer.signedTransfer c w.publicKeyHex token draw)
        (outboundToken w.publicKeyHex token) ⟨now, now⟩ ↔
      now - token.createdAt.micros ≤ w.policy.tokenExpirySeconds * 1000000 := by
  rw [← isNotExpired_eq_true_iff hallows.aware]
  constructor
  · exact fun h => h.created
  · intro hcreated
    exact ⟨hnew, rfl, hallows.hops, hallows.nonce, rfl, rfl, rfl, hcreated, hallows.unexpired,
      hkeys _, hroom⟩

/-- The wallet has room for the tokens in their order, and has seen neither them nor their
transfers. -/
structure Awaits (w : Wallet) (chosen : List (Token × TransferDraw)) : Prop where
  unprocessed : ∀ p ∈ chosen, p.2.transferId ∉ w.processedTransferIds
  transferIds : (chosen.map fun p => p.2.transferId).Nodup
  absent : ∀ p ∈ chosen, p.1.tokenId ∉ w.utr.keys
  tokenIds : (chosen.map fun p => p.1.tokenId).Nodup
  room : ∀ first, first <+: chosen →
    w.balance + (first.map fun p => p.1.value).sum ≤ w.policy.maxBalance

/-- After the first one the wallet awaits the others. -/
lemma Awaits.receive {receiverPk : String} {p : Token × TransferDraw}
    {chosen : List (Token × TransferDraw)} (h : w.Awaits (p :: chosen)) :
    (w.receive c (payer.signedTransfer c receiverPk p.1 p.2)
      (outboundToken receiverPk p.1)).Awaits chosen := by
  have hunprocessed := (List.forall_mem_cons.mp h.unprocessed).2
  have habsent := List.forall_mem_cons.mp h.absent
  obtain ⟨hnewTransfer, htransferIds⟩ := List.nodup_cons.mp h.transferIds
  obtain ⟨hnewToken, htokenIds⟩ := List.nodup_cons.mp h.tokenIds
  have hbalance : (w.receive c (payer.signedTransfer c receiverPk p.1 p.2)
      (outboundToken receiverPk p.1)).balance = w.balance + p.1.value := by
    have hfree : w.utr.totalAt Token.value (outboundToken receiverPk p.1).tokenId = 0 :=
      KeyedList.totalAt_of_notMem habsent.1
    rw [balance_receive, hfree, sub_zero]
    rfl
  refine ⟨?_, htransferIds, ?_, htokenIds, ?_⟩
  · intro q hq hprocessed
    rcases Finset.mem_insert.mp hprocessed with hsame | hold
    · exact hnewTransfer (List.mem_map.mpr ⟨q, hq, hsame⟩)
    · exact hunprocessed q hq hold
  · intro q hq hheld
    rcases KeyedList.mem_keys_put.mp hheld with hsame | hold
    · exact hnewToken (List.mem_map.mpr ⟨q, hq, hsame⟩)
    · exact habsent.2 q hq hold
  · intro first hfirst
    have hroom := h.room (p :: first) (List.cons_prefix_cons.mpr ⟨rfl, hfirst⟩)
    rw [List.map_cons, List.sum_cons] at hroom
    rw [hbalance]
    show _ ≤ w.policy.maxBalance
    omega

end Wallet

/-- All transfers of the tokens that the wallet awaits are accepted exactly if no token is too old in
real time. -/
lemma Receiving.along_acceptsNext_iff {c : Crypto} {payer : Wallet} {policy : PolicyConfig}
    {now : Int} {receiverPk : String} {tokens : Dict String Token} {loop : Receiving}
    {chosen : List (Token × TransferDraw)} (hrunning : loop.raised = none)
    (hkeys : ∀ message, c.verify message (c.sign message payer.privateKeyHex) payer.publicKeyHex = true)
    (hpublic : loop.wallet.publicKeyHex = receiverPk) (hpolicy : loop.wallet.policy = policy)
    (hawaits : loop.wallet.Awaits chosen) (hallows : ∀ p ∈ chosen, policy.Allows p.1 now)
    (htokens : ∀ p ∈ chosen,
      tokens.get? p.1.tokenId = some (Wallet.outboundToken receiverPk p.1)) :
    Along (next c tokens) (AcceptsNext c tokens) loop
        (chosen.map fun p => (payer.signedTransfer c receiverPk p.1 p.2, ⟨now, now⟩)) ↔
      ∀ p ∈ chosen, now - p.1.createdAt.micros ≤ policy.tokenExpirySeconds * 1000000 := by
  induction chosen generalizing loop with
  | nil => simp
  | cons p chosen ih =>
    rw [List.forall_mem_cons] at hallows htokens
    subst hpublic hpolicy
    let handled : Transfer × ReceiptReading :=
      (payer.signedTransfer c loop.wallet.publicKeyHex p.1 p.2, ⟨now, now⟩)
    have htoken : tokens.get? handled.1.tokenId
        = some (Wallet.outboundToken loop.wallet.publicKeyHex p.1) := htokens.1
    have hroom : loop.wallet.balance + p.1.value ≤ loop.wallet.policy.maxBalance := by
      simpa using hawaits.room [p] (List.cons_prefix_cons.mpr ⟨rfl, List.nil_prefix⟩)
    have hreceives := Wallet.receives_signedTransfer_iff hkeys hallows.1
      (hawaits.unprocessed p List.mem_cons_self) hroom
    have haccepts : loop.AcceptsNext c tokens handled ↔
        now - p.1.createdAt.micros ≤ loop.wallet.policy.tokenExpirySeconds * 1000000 := by
      simp only [AcceptsNext, htoken, Option.some.injEq, exists_eq_left']
      exact hreceives
    rw [List.map_cons, Along.cons_iff, List.forall_mem_cons]
    refine (and_congr_left' haccepts).trans (and_congr_right ?_)
    intro hage
    have hnext : loop.next c tokens handled = _ :=
      next_of_receives hrunning htoken (hreceives.mpr hage)
    rw [hnext]
    exact ih rfl rfl rfl hawaits.receive hallows.2 htokens.2

/-- Of values in ascending order with a sum that is not negative, no first ones have a larger sum. -/
lemma sum_le_of_prefix {l first : List Int} (hascending : l.Pairwise (· ≤ ·)) (hsum : 0 ≤ l.sum)
    (hfirst : first <+: l) : first.sum ≤ l.sum := by
  obtain ⟨rest, rfl⟩ := hfirst
  rw [List.sum_append] at hsum ⊢
  by_cases hrest : ∀ x ∈ rest, 0 ≤ x
  · have hnonneg := List.sum_nonneg hrest
    omega
  · push Not at hrest
    obtain ⟨x, hx, hneg⟩ := hrest
    have hsmall : ∀ y ∈ first, y ≤ 0 := fun y hy =>
      ((List.pairwise_append.mp hascending).2.2 y hy x hx).trans hneg.le
    have hnonpos := List.sum_le_card_nsmul first 0 hsmall
    rw [nsmul_zero] at hnonpos
    omega

namespace Network

variable {c : Crypto} {n : Network} {members : Dict String (String × PolicyConfig)} {maxHops : Int}

/-- The tokens of a payment with the draws for their transfers. -/
def chosen (selected : List Token) (draw : PaymentDraw) : List (Token × TransferDraw) :=
  selected.mapIdx fun i token => (token, draw.transfers i)

lemma map_fst_chosen (selected : List Token) (draw : PaymentDraw) :
    (chosen selected draw).map Prod.fst = selected := by
  rw [chosen, map_mapIdx]
  exact (mapIdx_eq_map id selected).trans (List.map_id _)

lemma mem_of_mem_chosen {selected : List Token} {draw : PaymentDraw} {p : Token × TransferDraw}
    (hp : p ∈ chosen selected draw) : p.1 ∈ selected := by
  rw [← map_fst_chosen selected draw]
  exact List.mem_map_of_mem hp

section

variable {w w' : Wallet} {receiverPk : String} {draw : PaymentDraw} {bundle : PaymentBundle}
  {selected : List Token}

lemma transfers_eq_map_chosen (hpays : w.Pays c w' receiverPk draw bundle selected) :
    bundle.transfers
      = (chosen selected draw).map fun p => w.signedTransfer c receiverPk p.1 p.2 := by
  rw [hpays.transfers, chosen, map_mapIdx]

/-- The rounds of a bundle whose receipt reads one clock. -/
lemma mapIdx_transfers_eq (hpays : w.Pays c w' receiverPk draw bundle selected)
    (reading : ReceiptReading) :
    (bundle.transfers.mapIdx fun _ transfer => (transfer, reading))
      = (chosen selected draw).map fun p => (w.signedTransfer c receiverPk p.1 p.2, reading) := by
  rw [mapIdx_eq_map, transfers_eq_map_chosen hpays, List.map_map]
  rfl

lemma value_eq_sum (hpays : w.Pays c w' receiverPk draw bundle selected) :
    bundle.value = (selected.map Token.value).sum := by
  rw [PaymentBundle.value, hpays.tokens, List.map_map]
  rfl

end

/-- The addressee of a payment has seen neither its tokens nor its transfers. -/
lemma HistoryInv.awaits (h : n.HistoryInv c members maxHops)
    (hshared : ∀ m ∈ members.items, m.2.2.maxHops = maxHops) {w w' v : Wallet} {receiverPk : String}
    {amount : Int} {draw : PaymentDraw} {bundle : PaymentBundle} {selected : List Token}
    (hw : n.wallets.find? w'.publicKeyHex = some w)
    (hpays : w.PaysWith c w' receiverPk amount draw bundle selected)
    (hids : ((n.transfers ++ bundle.transfers).map Transfer.transferId).Nodup)
    (hv : v ∈ (n.wallets.put w').items)
    (hroom : v.balance + (selected.map Token.value).sum ≤ v.policy.maxBalance) :
    v.Awaits (chosen selected draw) := by
  have hmade := transfers_eq_map_chosen hpays.toPays
  have hfst := map_fst_chosen selected draw
  have htransfer : ∀ p ∈ chosen selected draw,
      w.signedTransfer c receiverPk p.1 p.2 ∈ bundle.transfers := fun p hp =>
    hmade ▸ List.mem_map_of_mem hp
  have hdistinct := hids
  rw [List.map_append] at hdistinct
  obtain ⟨-, hnodup, hnew⟩ := List.nodup_append.mp hdistinct
  refine ⟨?_, ?_, ?_, ?_, ?_⟩
  · have hprocessed : ∀ id ∈ v.processedTransferIds, ∃ t ∈ n.transfers, t.transferId = id := by
      rcases KeyedList.mem_put.mp hv with rfl | ⟨hold, -⟩
      · rw [hpays.processedTransferIds]
        exact (h.wallets w (KeyedList.find?_eq_some_iff.mp hw).1).processed
      · exact (h.wallets v hold).processed
    intro p hp hseen
    obtain ⟨t, ht, hsame⟩ := hprocessed _ hseen
    exact hnew _ (List.mem_map_of_mem ht) _ (List.mem_map_of_mem (htransfer p hp)) hsame
  · rw [hmade, List.map_map] at hnodup
    exact hnodup
  · have hafter := h.payFrom hshared hw hpays hids
    intro p hp hheld
    have hplace : w.signedTransfer c receiverPk p.1 p.2 ∈ outstanding { n with
        wallets := n.wallets.put w', emitted := n.emitted ++ [bundle] } := by
      refine mem_outstanding.mpr ⟨List.mem_flatMap.mpr ⟨bundle, by simp, htransfer p hp⟩, ?_⟩
      exact h.inv.notMem_acceptedIds_of_new hids (htransfer p hp)
    exact hafter.inv.notMem_outstanding hv hplace hheld
  · have htokenIds := hpays.nodup
    rw [← hfst, List.map_map] at htokenIds
    exact htokenIds
  · intro first hfirst
    have hvalues : (chosen selected draw).map (fun p => p.1.value) = selected.map Token.value := by
      rw [← congrArg (List.map Token.value) hfst, List.map_map]
      rfl
    have hprefix := hfirst.map fun p => p.1.value
    rw [hvalues] at hprefix
    have hascending : (selected.map Token.value).Pairwise (· ≤ ·) :=
      List.pairwise_map.mpr hpays.ascending
    have hpositive : 0 ≤ (selected.map Token.value).sum :=
      (hpays.positive.trans_le hpays.covers).le
    have hsum := sum_le_of_prefix hascending hpositive hprefix
    omega

/-- What the payer may spend the payee may accept, if both go by one policy. -/
lemma WalletInv.allows {made : List Transfer} {history : String → List Transfer} {w w' : Wallet}
    (h : WalletInv c members maxHops made history w) {receiverPk : String} {amount : Int}
    {draw : PaymentDraw} {bundle : PaymentBundle} {selected : List Token}
    (hpays : w.PaysWith c w' receiverPk amount draw bundle selected) {token : Token}
    (htoken : token ∈ selected) : w.policy.Allows token draw.now := by
  have hholds := h.held token (hpays.perm.mem_iff.mpr (List.mem_append_left _ htoken))
  obtain ⟨hunexpired, hnonce⟩ :=
    Wallet.isTokenSpendable_eq_true_iff.mp (hpays.spendable token htoken)
  have hhops : token.hopCount = token.nonce := hholds.records.hopCount.trans hholds.records.nonce.symm
  exact ⟨hhops ▸ hnonce, hnonce, hunexpired, hholds.aware⟩

/-- A payment that was made is accepted as a whole by its addressee, at the same instant and with room
for its value, exactly if none of its tokens is too old in real time. -/
lemma HistoryInv.accepts_payment_iff {policy : PolicyConfig}
    (h : n.HistoryInv c members policy.maxHops) (hshared : ∀ m ∈ members.items, m.2.2 = policy)
    (hkeys : ∀ m ∈ members.items, ∀ message, c.verify message (c.sign message m.2.1) m.1 = true)
    {w w' v : Wallet} {receiverPk : String} {amount : Int} {draw : PaymentDraw}
    {bundle : PaymentBundle} {selected : List Token}
    (hw : n.wallets.find? w'.publicKeyHex = some w)
    (hpays : w.PaysWith c w' receiverPk amount draw bundle selected)
    (hids : ((n.transfers ++ bundle.transfers).map Transfer.transferId).Nodup)
    (hv : (n.wallets.put w').find? receiverPk = some v)
    (hroom : v.balance + bundle.value ≤ policy.maxBalance) :
    (v.receiveBundle c bundle fun _ => ⟨draw.now, draw.now⟩).2
        = .ok (bundle.transfers.map fun t => (t.transferId, true)) ↔
      ∀ p ∈ bundle.tokens.items,
        draw.now - p.2.createdAt.micros ≤ policy.tokenExpirySeconds * 1000000 := by
  have hhops : ∀ m ∈ members.items, m.2.2.maxHops = policy.maxHops := fun m hm =>
    congrArg PolicyConfig.maxHops (hshared m hm)
  obtain ⟨hreceiver, hpublic⟩ := KeyedList.find?_eq_some_iff.mp hv
  -- both wallets go by the policy that they share
  have hpayer := h.wallets w (KeyedList.find?_eq_some_iff.mp hw).1
  have hpayee := (h.payFrom hhops hw hpays hids).wallets v hreceiver
  have hpolicy : v.policy = policy := hshared _ hpayee.member
  have hawaits : v.Awaits (chosen selected draw) := by
    rw [value_eq_sum hpays.toPays, ← hpolicy] at hroom
    exact h.awaits hhops hw hpays hids hreceiver hroom
  have hallows : ∀ p ∈ chosen selected draw, policy.Allows p.1 draw.now := by
    intro p hp
    rw [← (show w.policy = policy from hshared _ hpayer.member)]
    exact hpayer.allows hpays (mem_of_mem_chosen hp)
  have htokens : ∀ p ∈ chosen selected draw,
      bundle.tokens.get? p.1.tokenId = some (Wallet.outboundToken receiverPk p.1) :=
    fun p hp => hpays.get?_tokens (mem_of_mem_chosen hp)
  rw [Wallet.receiveBundle_eq_ok_iff, Wallet.receiveBundleWithReasons_accepts_iff, Wallet.rounds,
    mapIdx_transfers_eq hpays.toPays,
    Receiving.along_acceptsNext_iff rfl (hkeys _ hpayer.member) hpublic hpolicy hawaits hallows
      htokens, hpays.tokens]
  have hfst := map_fst_chosen selected draw
  generalize chosen selected draw = l at hfst ⊢
  rw [← hfst, List.forall_mem_map, List.forall_mem_map]
  rfl

/-- A bundle of an honest wallet that is delivered to its addressee at the instant at which it was
made, with room for its value, is accepted as a whole exactly if none of its tokens is too old in
real time. -/
theorem delivered_iff {issuer : Issuer} {policy : PolicyConfig}
    (hshared : ∀ m ∈ members.items, m.2.2 = policy)
    (hkeys : ∀ m ∈ members.items, ∀ message, c.verify message (c.sign message m.2.1) m.1 = true)
    {es : List NetworkEvent} {senderPk receiverPk : String} {amount : Int} {draw : PaymentDraw}
    (hrun : Along (step c) (DistinctIds c) (start issuer members)
      (es ++ [.pay senderPk receiverPk amount draw])) {w w' v : Wallet} {bundle : PaymentBundle}
    (hw : (runFrom (step c) (start issuer members) es).wallets.find? senderPk = some w)
    (hpaid : w.createPayment c receiverPk amount draw = (w', .ok bundle))
    (hv : (runFrom (step c) (start issuer members)
      (es ++ [.pay senderPk receiverPk amount draw])).wallets.find? receiverPk = some v)
    (hroom : v.balance + bundle.value ≤ policy.maxBalance) :
    (v.receiveBundle c bundle fun _ => ⟨draw.now, draw.now⟩).2
        = .ok (bundle.transfers.map fun t => (t.transferId, true)) ↔
      ∀ p ∈ bundle.tokens.items,
        draw.now - p.2.createdAt.micros ≤ policy.tokenExpirySeconds * 1000000 := by
  obtain ⟨hbefore, hpay, -⟩ := Along.append_iff.mp hrun
  have hinv := historyInv_runFrom (fun m hm => congrArg PolicyConfig.maxHops (hshared m hm)) hbefore
  rw [runFrom_append, runFrom_cons, runFrom_nil] at hv
  generalize runFrom (step c) (start issuer members) es = n at hw hv hpay hinv
  -- the call of the payer is a completed payment
  obtain ⟨-, rfl⟩ := KeyedList.find?_eq_some_iff.mp hw
  rcases w.createPayment_cases c receiverPk amount draw with
    ⟨e, syncRequired, hraised⟩ | ⟨paid, made, selected, hmade, hpays⟩
  · cases hpaid.symm.trans hraised
  obtain ⟨rfl, hsame⟩ := Prod.mk.inj (hpaid.symm.trans hmade)
  obtain rfl : bundle = made := Except.ok.inj hsame
  have hstep : n.step c (.pay w.publicKeyHex receiverPk amount draw)
      = { n with wallets := n.wallets.put w', emitted := n.emitted ++ [bundle] } := by
    simp only [step, hw, hpaid]
  have hdistinct := hpay.2
  rw [hstep, transfers_emit] at hdistinct
  rw [hstep] at hv
  have hsender : n.wallets.find? w'.publicKeyHex = some w := hpays.publicKeyHex ▸ hw
  exact hinv.accepts_payment_iff hshared hkeys hsender hpays hdistinct hv hroom

/-- Alice gets a token in the middle of a second. -/
def mintedMidSecond : List NetworkEvent :=
  [.mint "alice" 100 ⟨"t1", 1000500000, 1000500000⟩, .hand "t1"]

/-- What Alice draws for a payment with it at time `now`. -/
def paymentAt (now : Int) : PaymentDraw := ⟨now, fun _ => ⟨"x1", now⟩, "bundle"⟩

lemma verify_plainMembers : ∀ m ∈ plainMembers.items, ∀ message,
    plainCrypto.verify message (plainCrypto.sign message m.2.1) m.1 = true := by
  intro m hm message
  obtain ⟨pk, -, rfl⟩ := List.mem_map.mp hm
  simp [plainCrypto]

theorem delivered_iff_mintedMidSecond :
    let pay := NetworkEvent.pay "alice" "bob" 100 (paymentAt 605800300000)
    let n := runFrom (step plainCrypto) (start plainIssuer plainMembers) mintedMidSecond
    let n' := runFrom (step plainCrypto) (start plainIssuer plainMembers) (mintedMidSecond ++ [pay])
    ∃ w v bundle, n.wallets.find? "alice" = some w ∧ n'.wallets.find? "bob" = some v ∧
      (w.createPayment plainCrypto "bob" 100 (paymentAt 605800300000)).2 = .ok bundle ∧
      ((v.receiveBundle plainCrypto bundle fun _ => ⟨605800300000, 605800300000⟩).2
          = .ok (bundle.transfers.map fun t => (t.transferId, true)) ↔
        ∀ p ∈ bundle.tokens.items, 605800300000 - p.2.createdAt.micros ≤ 604800 * 1000000) := by
  intro pay n n'
  have hrun : Along (step plainCrypto) (DistinctIds plainCrypto) (start plainIssuer plainMembers)
        (mintedMidSecond ++ [pay]) ∧
      (n.wallets.find? "alice").isSome = true ∧ (n'.wallets.find? "bob").isSome = true ∧
      ∀ w ∈ n.wallets.find? "alice", ∀ v ∈ n'.wallets.find? "bob",
        ((w.createPayment plainCrypto "bob" 100 (paymentAt 605800300000)).2.toOption.any
          fun bundle => v.balance + bundle.value ≤ PolicyConfig.default.maxBalance) = true := by
    decide +kernel
  obtain ⟨hdistinct, hpayer, hpayee, hroom⟩ := hrun
  obtain ⟨w, hw⟩ := Option.isSome_iff_exists.mp hpayer
  obtain ⟨v, hv⟩ := Option.isSome_iff_exists.mp hpayee
  have hpaid := hroom w hw v hv
  cases hresult : (w.createPayment plainCrypto "bob" 100 (paymentAt 605800300000)).2 with
  | error e => simp [hresult, Except.toOption] at hpaid
  | ok bundle =>
    refine ⟨w, v, bundle, hw, hv, hresult, ?_⟩
    have hshared : ∀ m ∈ plainMembers.items, m.2.2 = .default := by decide
    exact delivered_iff hshared verify_plainMembers hdistinct hw (eq_mk_ok hresult) hv
      (by simpa [hresult, Except.toOption] using hpaid)

/-- Paid with in the last second of its validity, after the middle of it, the token is refused as
expired at the same instant, and nobody has it any more. -/
theorem refused_mintedMidSecond :
    let pay := NetworkEvent.pay "alice" "bob" 100 (paymentAt 605800900000)
    let n := runFrom (step plainCrypto) (start plainIssuer plainMembers) (mintedMidSecond ++ [pay])
    Along (step plainCrypto) (DistinctIds plainCrypto) (start plainIssuer plainMembers)
        (mintedMidSecond ++ [pay]) ∧
      n.emitted.length = 1 ∧ (n.wallets.find? "bob").isSome = true ∧
      (∀ bundle ∈ n.emitted, ∀ v ∈ n.wallets.find? "bob",
        v.balance + bundle.value ≤ PolicyConfig.default.maxBalance ∧
          (v.receiveBundleWithReasons plainCrypto bundle fun _ =>
            ⟨605800900000, 605800900000⟩).results = [("x1", false, .tokenExpired)]) ∧
      (n.wallets.items.map fun w => w.utr.keys) = [[], [], []] := by
  decide +kernel

end Network

end PocketCash.Offline
