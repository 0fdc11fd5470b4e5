import PocketCash.Canonical.Selection

/-!
# Payment sessions

`protocol/payment_session.py`: the sender pays with tokens that cover the price, the receiver
accepts them and returns change from its own register, and the first failure rolls both wallets
back.

A session that returns has exchanged the `paid` tokens against the `change` tokens and left all
other tokens where they were, so no token is lost, duplicated or revalued. It has moved exactly
the price only if one of the two selections was exact: the receiver picks its change with the same
`select_tokens` that lets a payer overpay.
-/

namespace PocketCash.Canonical

/-- Coordinates sender payment and receiver-provided change with rollback. -/
structure PaymentSession where
  senderWallet : Wallet
  receiverWallet : Wallet
  price : Int

/-- `_token_from_json` of `protocol/payment_session.py`: the token without its chain. -/
def tokenFromJson (payload : JsonText) : Except PyError Token := do
  let data ← payload.loads
  let tokenId ← (← data.getItem "token_id").asStr
  let value ← (← data.getItem "value").asInt
  let issuerPk ← (← data.getItem "issuer_pk").asStr
  let ownerPk ← (← data.getItem "owner_pk").asStr
  let expiry ← (← data.getItem "expiry").asStr
  let issuerSignature ← (← data.getItem "issuer_signature").asStr
  return ⟨tokenId, value, issuerPk, ownerPk, expiry, issuerSignature, []⟩

/-- A loop of `execute` that hands payloads to a wallet and raises at the first refusal. -/
def Wallet.receiveAll (c : Crypto) (refusal : String) :
    Wallet → List JsonText → Wallet × Except PyError Unit
  | w, [] => (w, .ok ())
  | w, payload :: rest =>
    match w.receiveToken c payload with
    | (w', true) => receiveAll c refusal w' rest
    | (w', false) => (w', .error (.valueError refusal))

namespace PaymentSession

/-- The `try` block of `execute`. -/
def attempt (c : Crypto) (payStamp changeStamp : Nat → Stamp) (p : PaymentSession) :
    PaymentSession × Except PyError (List JsonText × List JsonText) :=
  match p.senderWallet.initiatePayment c payStamp p.price p.receiverWallet.ownerPk with
  | (sender, .error e) => (⟨sender, p.receiverWallet, p.price⟩, .error e)
  | (sender, .ok paymentPayloads) =>
    match p.receiverWallet.receiveAll c "receiver rejected payment token" paymentPayloads with
    | (receiver, .error e) => (⟨sender, receiver, p.price⟩, .error e)
    | (receiver, .ok ()) =>
      match paymentPayloads.mapM tokenFromJson with
      | .error e => (⟨sender, receiver, p.price⟩, .error e)
      | .ok inboundTokens =>
        match receiver.processPayment inboundTokens p.price with
        | .error e => (⟨sender, receiver, p.price⟩, .error e)
        | .ok changeTokens =>
          match receiver.sendTokens c changeStamp sender.ownerPk changeTokens with
          | (receiver', .error e) => (⟨sender, receiver', p.price⟩, .error e)
          | (receiver', .ok changePayloads) =>
            match sender.receiveAll c "sender rejected change token" changePayloads with
            | (sender', .error e) => (⟨sender', receiver', p.price⟩, .error e)
            | (sender', .ok ()) =>
              (⟨sender', receiver', p.price⟩, .ok (paymentPayloads, changePayloads))

/-- Execute payment session atomically. -/
def execute (c : Crypto) (payStamp changeStamp : Nat → Stamp) (p : PaymentSession) :
    PaymentSession × Except PyError (List JsonText × List JsonText) :=
  match p.attempt c payStamp changeStamp with
  | (p', .ok payloads) => (p', .ok payloads)
  | (p', .error e) =>
    ({ p' with
        senderWallet := { p'.senderWallet with
          utr := p.senderWallet.utr, str := p.senderWallet.str }
        receiverWallet := { p'.receiverWallet with
          utr := p.receiverWallet.utr, str := p.receiverWallet.str } }, .error e)

end PaymentSession

/-! ### What the two loops do -/

lemma mapM_tokenFromJson_toJson (tokens : List Token) :
    (tokens.map Token.toJson).mapM tokenFromJson
      = .ok (tokens.map fun t => { t with transferChain := [] }) :=
  mapM_map_eq_ok fun _ _ => rfl

lemma totalValue_map_chainless (tokens : List Token) :
    totalValue (tokens.map fun t => { t with transferChain := [] }) = totalValue tokens := by
  rw [totalValue]
  rw [List.map_map]
  rfl

/-- A wallet that was handed the payloads of `tokens` and refused none of them. -/
lemma Wallet.receiveAll_eq_ok {c : Crypto} {refusal : String} {w w' : Wallet}
    {tokens : List Token} (h : w.receiveAll c refusal (tokens.map Token.toJson) = (w', .ok ())) :
    w' = { w with utr := tokens.foldl KeyedList.put w.utr } ∧ ∀ t ∈ tokens, w.Accepts c t := by
  induction tokens generalizing w with
  | nil =>
    cases h
    exact ⟨rfl, by simp⟩
  | cons t ts ih =>
    rw [List.map_cons, receiveAll] at h
    rcases receiveToken_toJson c w t with ⟨hacc, hres⟩ | ⟨-, hres⟩
    · rw [hres] at h
      obtain ⟨rfl, hts⟩ := ih h
      refine ⟨rfl, ?_⟩
      rintro s (_ | ⟨_, hs⟩)
      · exact hacc
      · exact ⟨(hts s hs).owner, (hts s hs).chain, (hts s hs).notSpent⟩
    · simp [hres] at h

/-! ### A session that returns is an exchange -/

/-- `token` went from the giver to the taker as `token'`: one transfer longer, valid, held by the
taker, and recorded as spent by the giver. -/
structure HandedOver (c : Crypto) (giver taker : Wallet) (token token' : Token) : Prop where
  extends_chain : token.Extends token' taker.ownerPk
  valid : token'.validateChain c token'.issuerPk = true
  spent : giver.str.find? token'.tokenId = some token'
  held : token' ∈ taker.utr.items

/-- The effect of a session: the `paid` tokens of the sender against the `change` tokens of the
receiver, each pair a token before and after, and all other tokens kept. -/
structure Exchange (c : Crypto) (p p' : PaymentSession) (paid change : List (Token × Token)) :
    Prop where
  sender_owner : p'.senderWallet.ownerPk = p.senderWallet.ownerPk
  receiver_owner : p'.receiverWallet.ownerPk = p.receiverWallet.ownerPk
  sender_utr : ∃ kept, p.senderWallet.utr.items.Perm (paid.map Prod.fst ++ kept) ∧
    p'.senderWallet.utr.items.Perm (change.map Prod.snd ++ kept)
  receiver_utr : ∃ kept, p.receiverWallet.utr.items.Perm (change.map Prod.fst ++ kept) ∧
    p'.receiverWallet.utr.items.Perm (paid.map Prod.snd ++ kept)
  paid_handed : ∀ q ∈ paid, HandedOver c p'.senderWallet p'.receiverWallet q.1 q.2
  change_handed : ∀ q ∈ change, HandedOver c p'.receiverWallet p'.senderWallet q.1 q.2
  paid_selected : p.senderWallet.selectTokens p.price = .ok (paid.map Prod.fst)
  change_selected : ∃ pool : Wallet,
    pool.utr.items = p.receiverWallet.utr.items ++ paid.map Prod.snd ∧
    pool.selectTokens (totalValue (paid.map Prod.fst) - p.price) = .ok (change.map Prod.fst)

/-- When `taken` lies in the first part of a split list, what is left is the rest of that part and
the second part. -/
lemma exists_perm_of_append_perm {α : Type*} {mine received taken left : List α}
    (h : (mine ++ received).Perm (taken ++ left)) (htaken : taken.Subperm mine) :
    ∃ kept, mine.Perm (taken ++ kept) ∧ left.Perm (received ++ kept) := by
  obtain ⟨taken', hperm, hsub⟩ := htaken
  obtain ⟨kept, hkept⟩ := hsub.exists_perm_append
  have hmine : mine.Perm (taken ++ kept) := hkept.trans (hperm.append_right kept)
  refine ⟨kept, hmine, ?_⟩
  have hall : (taken ++ left).Perm (taken ++ (kept ++ received)) := by
    rw [← List.append_assoc]
    exact h.symm.trans (hmine.append_right received)
  exact ((List.perm_append_left_iff taken).mp hall).trans List.perm_append_comm

/-- Selected tokens of a wallet are the tokens a completed send takes from it. -/
lemma Wallet.Sends.fst_eq {w w' : Wallet} {receiverPk : String} {moved : List (Token × Token)}
    (h : w.Sends w' receiverPk moved) {tokens : List Token} (htokens : ∀ t ∈ tokens, t ∈ w.utr.items)
    (hids : (moved.map Prod.fst).map Token.tokenId = tokens.map Token.tokenId) :
    moved.map Prod.fst = tokens := by
  refine KeyedList.eq_of_map_key_eq (d := w.utr) ?_ htokens hids
  intro t ht
  obtain ⟨q, hq, rfl⟩ := List.mem_map.mp ht
  exact h.mem_utr hq

/-- No token is sent twice. -/
lemma Wallet.Sends.nodup_fst {w w' : Wallet} {receiverPk : String} {moved : List (Token × Token)}
    (h : w.Sends w' receiverPk moved) : ((moved.map Prod.fst).map Token.tokenId).Nodup :=
  (List.nodup_append.mp (h.keys_perm.nodup_iff.mp (KeyedList.keys_nodup _))).1

/-- A send of selected tokens takes just these from the wallet. -/
lemma Wallet.sends_of_selectTokens {c : Crypto} {stamp : Nat → Stamp} {receiverPk : String}
    {w w' : Wallet} {amount : Int} {tokens : List Token} {payloads : List JsonText}
    (hselect : w.selectTokens amount = .ok tokens)
    (hsend : w.sendTokens c stamp receiverPk tokens = (w', .ok payloads)) :
    ∃ moved, w.Sends w' receiverPk moved ∧ payloads = (moved.map Prod.snd).map Token.toJson ∧
      moved.map Prod.fst = tokens := by
  obtain ⟨moved, hsends, hpayloads, hids⟩ := sends_of_sendTokens hsend
  obtain ⟨hsub, -⟩ := selectTokens_cases hselect
  exact ⟨moved, hsends, hpayloads, hsends.fst_eq (fun _ ht => hsub.subset ht) hids⟩

/-- Received tokens that the taker does not hold are appended to its register. -/
lemma Wallet.Sends.items_foldl_put {giver giver' : Wallet} {takerPk : String}
    {moved : List (Token × Token)} (h : giver.Sends giver' takerPk moved)
    {utr : KeyedList Token.tokenId} (hnew : ∀ t ∈ moved.map Prod.fst, t.tokenId ∉ utr.keys) :
    ((moved.map Prod.snd).foldl KeyedList.put utr).items = utr.items ++ moved.map Prod.snd := by
  apply KeyedList.items_foldl_put
  rw [h.map_tokenId]
  refine List.nodup_append.mpr ⟨KeyedList.keys_nodup _, h.nodup_fst, ?_⟩
  rintro k hk _ hk' rfl
  obtain ⟨t, ht, rfl⟩ := List.mem_map.mp hk'
  exact hnew t ht hk

/-- A payer refuses tokens it has just spent, so the change it takes was the payee's own. -/
lemma Wallet.Sends.change_subset {payer payer' payee payee' : Wallet} {payeePk payerPk : String}
    {paid change : List (Token × Token)} (hpaid : payer.Sends payer' payeePk paid)
    (hchange : payee.Sends payee' payerPk change) {own : List Token}
    (hpool : payee.utr.items = own ++ paid.map Prod.snd)
    (hnotSpent : ∀ q ∈ change, q.2.tokenId ∉ payer'.str.keys) : change.map Prod.fst ⊆ own := by
  intro t ht
  obtain ⟨q, hq, rfl⟩ := List.mem_map.mp ht
  have hmem := hchange.mem_utr hq
  rw [hpool, List.mem_append] at hmem
  apply hmem.resolve_right
  intro hpaidMem
  obtain ⟨r, hr, hrq⟩ := List.mem_map.mp hpaidMem
  refine hnotSpent q hq (KeyedList.mem_keys_iff_find?.mpr ⟨r.2, ?_⟩)
  rw [(hchange.moved_extends q hq).tokenId_eq, ← hrq]
  exact hpaid.find?_str r hr

namespace PaymentSession

/-- The steps an `attempt` that returns went through. -/
lemma attempt_eq_ok {c : Crypto} {payStamp changeStamp : Nat → Stamp} {p p' : PaymentSession}
    {payloads : List JsonText × List JsonText}
    (h : p.attempt c payStamp changeStamp = (p', .ok payloads)) :
    ∃ sender receiver inbound changeTokens,
      p.senderWallet.initiatePayment c payStamp p.price p.receiverWallet.ownerPk
        = (sender, .ok payloads.1) ∧
      p.receiverWallet.receiveAll c "receiver rejected payment token" payloads.1
        = (receiver, .ok ()) ∧
      payloads.1.mapM tokenFromJson = .ok inbound ∧
      receiver.processPayment inbound p.price = .ok changeTokens ∧
      receiver.sendTokens c changeStamp sender.ownerPk changeTokens
        = (p'.receiverWallet, .ok payloads.2) ∧
      sender.receiveAll c "sender rejected change token" payloads.2
        = (p'.senderWallet, .ok ()) := by
  rw [attempt] at h
  split at h
  · cases h
  · rename_i sender paymentPayloads hpay
    split at h
    · cases h
    · rename_i receiver hreceive
      split at h
      · cases h
      · rename_i inbound hinbound
        split at h
        · cases h
        · rename_i changeTokens hchange
          split at h
          · cases h
          · rename_i receiver' changePayloads hsend
            split at h
            · cases h
            · rename_i sender' hback
              cases h
              exact ⟨sender, receiver, inbound, changeTokens, hpay, hreceive, hinbound, hchange,
                hsend, hback⟩

/-- An `attempt` that returns is an exchange. Change is never paid with a token that was just
received: the sender keeps it in its STR and would refuse it. -/
theorem exchange_of_attempt {c : Crypto} {payStamp changeStamp : Nat → Stamp}
    {p p' : PaymentSession} {payloads : List JsonText × List JsonText}
    (hdisj : p.senderWallet.utr.keys.Disjoint p.receiverWallet.utr.keys)
    (h : p.attempt c payStamp changeStamp = (p', .ok payloads)) :
    ∃ paid change, Exchange c p p' paid change := by
  obtain ⟨sender, receiver, inbound, changeTokens, hpay, hreceive, hinbound, hprocess, hsend,
    hback⟩ := attempt_eq_ok h
  -- the sender pays
  rw [Wallet.initiatePayment] at hpay
  split at hpay
  · cases hpay
  rename_i tokens hselect
  obtain ⟨paid, hpaid, hpayloads, rfl⟩ := Wallet.sends_of_selectTokens hselect hpay
  -- the receiver accepts
  rw [hpayloads] at hreceive hinbound
  obtain ⟨hreceiver, haccept⟩ := Wallet.receiveAll_eq_ok hreceive
  have hpool : receiver.utr.items = p.receiverWallet.utr.items ++ paid.map Prod.snd := by
    rw [hreceiver]
    apply hpaid.items_foldl_put
    intro t ht hheld
    obtain ⟨q, hq, rfl⟩ := List.mem_map.mp ht
    exact hdisj (KeyedList.key_mem_keys (hpaid.mem_utr hq)) hheld
  -- the receiver returns change
  rw [mapM_tokenFromJson_toJson] at hinbound
  obtain rfl := Except.ok.inj hinbound
  rw [Wallet.processPayment] at hprocess
  split_ifs at hprocess
  rw [totalValue_map_chainless, hpaid.totalValue_eq] at hprocess
  obtain ⟨change, hchange, hchangePayloads, rfl⟩ := Wallet.sends_of_selectTokens hprocess hsend
  rw [hchangePayloads] at hback
  obtain ⟨hsender', haccept'⟩ := Wallet.receiveAll_eq_ok hback
  have hown : change.map Prod.fst ⊆ p.receiverWallet.utr.items :=
    hpaid.change_subset hchange hpool fun q hq => (haccept' q.2 (List.mem_map_of_mem hq)).notSpent
  obtain ⟨kept, hkept, hleft⟩ := exists_perm_of_append_perm (hpool ▸ hchange.utr_perm)
    (List.subperm_of_subset (List.Nodup.of_map _ hchange.nodup_fst) hown)
  -- the sender accepts the change
  have hitems : p'.senderWallet.utr.items = sender.utr.items ++ change.map Prod.snd := by
    rw [hsender']
    apply hchange.items_foldl_put
    intro t ht hheld
    exact hdisj (hpaid.keys_perm.mem_iff.mpr (List.mem_append_right _ hheld))
      (KeyedList.key_mem_keys (hown ht))
  have hsenderUtr : p'.senderWallet.utr.items.Perm (change.map Prod.snd ++ sender.utr.items) := by
    rw [hitems]
    exact List.perm_append_comm
  have hsenderOwner : p'.senderWallet.ownerPk = sender.ownerPk := by rw [hsender']
  have hreceiverOwner : p'.receiverWallet.ownerPk = p.receiverWallet.ownerPk := by
    rw [hchange.ownerPk_eq, hreceiver]
  refine ⟨paid, change, {
    sender_owner := hsenderOwner.trans hpaid.ownerPk_eq
    receiver_owner := hreceiverOwner
    sender_utr := ⟨sender.utr.items, hpaid.utr_perm, hsenderUtr⟩
    receiver_utr := ⟨kept, hkept, hleft⟩
    paid_handed := fun q hq => {
      extends_chain := hreceiverOwner ▸ hpaid.moved_extends q hq
      valid := (haccept q.2 (List.mem_map_of_mem hq)).chain
      spent := by
        rw [hsender']
        exact hpaid.find?_str q hq
      held := hleft.mem_iff.mpr (List.mem_append_left _ (List.mem_map_of_mem hq)) }
    change_handed := fun q hq => {
      extends_chain := hsenderOwner ▸ hchange.moved_extends q hq
      valid := (haccept' q.2 (List.mem_map_of_mem hq)).chain
      spent := hchange.find?_str q hq
      held := hsenderUtr.mem_iff.mpr (List.mem_append_left _ (List.mem_map_of_mem hq)) }
    paid_selected := hselect
    change_selected := ⟨receiver, hpool, hprocess⟩ }⟩

/-- What `execute` does with the outcome of its `try` block. -/
lemma execute_cases (c : Crypto) (payStamp changeStamp : Nat → Stamp) (p : PaymentSession) :
    (∃ p' payloads, p.attempt c payStamp changeStamp = (p', .ok payloads) ∧
      p.execute c payStamp changeStamp = (p', .ok payloads)) ∨
    (∃ p' e, p.execute c payStamp changeStamp = (p', .error e) ∧
      p'.senderWallet.utr = p.senderWallet.utr ∧ p'.senderWallet.str = p.senderWallet.str ∧
      p'.receiverWallet.utr = p.receiverWallet.utr ∧
      p'.receiverWallet.str = p.receiverWallet.str) := by
  rw [execute]
  rcases p.attempt c payStamp changeStamp with ⟨p', e | payloads⟩
  · exact .inr ⟨_, e, rfl, rfl, rfl, rfl, rfl⟩
  · exact .inl ⟨p', payloads, rfl, rfl⟩

end PaymentSession

/-! ### Conservation -/

namespace Exchange

variable {c : Crypto} {p p' : PaymentSession} {paid change : List (Token × Token)}

/-- The ids of both registers together are the same as before. -/
lemma keys_perm (h : Exchange c p p' paid change) :
    (p'.senderWallet.utr.keys ++ p'.receiverWallet.utr.keys).Perm
      (p.senderWallet.utr.keys ++ p.receiverWallet.utr.keys) := by
  obtain ⟨senderKept, hs, hs'⟩ := h.sender_utr
  obtain ⟨receiverKept, hr, hr'⟩ := h.receiver_utr
  have hpaid := map_tokenId_of_extends fun q hq => (h.paid_handed q hq).extends_chain
  have hchange := map_tokenId_of_extends fun q hq => (h.change_handed q hq).extends_chain
  replace hs := hs.map Token.tokenId
  replace hs' := hs'.map Token.tokenId
  replace hr := hr.map Token.tokenId
  replace hr' := hr'.map Token.tokenId
  rw [List.map_append] at hs hs' hr hr'
  rw [hchange] at hs'
  rw [hpaid] at hr'
  refine (hs'.append hr').trans (.trans ?_ (hs.append hr).symm)
  rw [List.perm_iff_count]
  intro k
  simp only [List.count_append]
  omega

/-- The two totals after the session. -/
lemma totalValue_sender (h : Exchange c p p' paid change) :
    totalValue p'.senderWallet.utr.items + totalValue (paid.map Prod.fst)
      = totalValue p.senderWallet.utr.items + totalValue (change.map Prod.fst) := by
  obtain ⟨kept, hs, hs'⟩ := h.sender_utr
  have hchange := totalValue_of_extends fun q hq => (h.change_handed q hq).extends_chain
  rw [totalValue_perm hs, totalValue_perm hs', totalValue_append, totalValue_append, hchange]
  omega

lemma totalValue_receiver (h : Exchange c p p' paid change) :
    totalValue p'.receiverWallet.utr.items + totalValue (change.map Prod.fst)
      = totalValue p.receiverWallet.utr.items + totalValue (paid.map Prod.fst) := by
  obtain ⟨kept, hr, hr'⟩ := h.receiver_utr
  have hpaid := totalValue_of_extends fun q hq => (h.paid_handed q hq).extends_chain
  rw [totalValue_perm hr, totalValue_perm hr', totalValue_append, totalValue_append, hpaid]
  omega

end Exchange

/-- Nothing is lost, duplicated or revalued between the two wallets of a session, and each token
that changed side was handed over. -/
structure Conserved (c : Crypto) (p p' : PaymentSession) : Prop where
  ids : ∀ k, k ∈ p'.senderWallet.utr.keys ∨ k ∈ p'.receiverWallet.utr.keys ↔
    k ∈ p.senderWallet.utr.keys ∨ k ∈ p.receiverWallet.utr.keys
  disjoint : p'.senderWallet.utr.keys.Disjoint p'.receiverWallet.utr.keys
  value : totalValue p'.senderWallet.utr.items + totalValue p'.receiverWallet.utr.items
    = totalValue p.senderWallet.utr.items + totalValue p.receiverWallet.utr.items
  sender_to_receiver : ∀ t ∈ p.senderWallet.utr.items, t.tokenId ∈ p'.receiverWallet.utr.keys →
    ∃ t', HandedOver c p'.senderWallet p'.receiverWallet t t'
  receiver_to_sender : ∀ t ∈ p.receiverWallet.utr.items, t.tokenId ∈ p'.senderWallet.utr.keys →
    ∃ t', HandedOver c p'.receiverWallet p'.senderWallet t t'

/-- A token of the giver that was not kept was handed over. -/
lemma exists_handedOver {c : Crypto} {giver taker : Wallet} {moved : List (Token × Token)}
    {before after kept : List Token} (hbefore : before.Perm (moved.map Prod.fst ++ kept))
    (hkept : kept ⊆ after) (hmoved : ∀ q ∈ moved, HandedOver c giver taker q.1 q.2) {t : Token}
    (ht : t ∈ before) (hid : t.tokenId ∉ after.map Token.tokenId) :
    ∃ t', HandedOver c giver taker t t' := by
  rcases List.mem_append.mp (hbefore.mem_iff.mp ht) with hmem | hmem
  · obtain ⟨q, hq, rfl⟩ := List.mem_map.mp hmem
    exact ⟨q.2, hmoved q hq⟩
  · exact absurd (List.mem_map_of_mem (hkept hmem)) hid

lemma Exchange.conserved {c : Crypto} {p p' : PaymentSession} {paid change : List (Token × Token)}
    (h : Exchange c p p' paid change)
    (hdisj : p.senderWallet.utr.keys.Disjoint p.receiverWallet.utr.keys) : Conserved c p p' := by
  have hnodup : (p'.senderWallet.utr.keys ++ p'.receiverWallet.utr.keys).Nodup :=
    h.keys_perm.nodup_iff.mpr (List.nodup_append'.mpr
      ⟨KeyedList.keys_nodup _, KeyedList.keys_nodup _, hdisj⟩)
  have hdisj' := (List.nodup_append'.mp hnodup).2.2
  refine ⟨?_, hdisj', ?_, ?_, ?_⟩
  · intro k
    rw [← List.mem_append, ← List.mem_append, h.keys_perm.mem_iff]
  · have hs := h.totalValue_sender
    have hr := h.totalValue_receiver
    omega
  · intro t ht hid
    obtain ⟨kept, hs, hs'⟩ := h.sender_utr
    exact exists_handedOver hs (fun s hs => hs'.mem_iff.mpr (List.mem_append_right _ hs))
      h.paid_handed ht fun hown => hdisj' hown hid
  · intro t ht hid
    obtain ⟨kept, hr, hr'⟩ := h.receiver_utr
    exact exists_handedOver hr (fun s hs => hr'.mem_iff.mpr (List.mem_append_right _ hs))
      h.change_handed ht fun hown => hdisj' hid hown

def plainSession (senderPurse receiverPurse : List (String × Int)) (price : Int) :
    PaymentSession :=
  ⟨plainWallet "alice" senderPurse, plainWallet "bob" receiverPurse, price⟩

/-- A session is all-or-nothing: it raises and leaves the registers of both wallets as they were,
or it returns and conserves the tokens. -/
theorem PaymentSession.execute_all_or_nothing (c : Crypto) (payStamp changeStamp : Nat → Stamp)
    (p : PaymentSession)
    (hdisj : p.senderWallet.utr.keys.Disjoint p.receiverWallet.utr.keys) :
    (∃ p' e, p.execute c payStamp changeStamp = (p', .error e) ∧
      p'.senderWallet.utr = p.senderWallet.utr ∧ p'.senderWallet.str = p.senderWallet.str ∧
      p'.receiverWallet.utr = p.receiverWallet.utr ∧
      p'.receiverWallet.str = p.receiverWallet.str) ∨
    (∃ p' payloads, p.execute c payStamp changeStamp = (p', .ok payloads) ∧
      Conserved c p p') := by
  rcases execute_cases c payStamp changeStamp p with ⟨p', payloads, hattempt, hexecute⟩ | hraise
  · obtain ⟨paid, change, hexchange⟩ := exchange_of_attempt hdisj hattempt
    exact .inr ⟨p', payloads, hexecute, hexchange.conserved hdisj⟩
  · exact .inl hraise

theorem PaymentSession.execute_all_or_nothing_cash_like_change :
    let p := plainSession [("s-10", 10)] [("r-2a", 2), ("r-2b", 2), ("r-1", 1)] 6
    Conserved plainCrypto p (p.execute plainCrypto (plainStamp "pay") (plainStamp "change")).1 := by
  intro p
  have hdisj : ∀ k ∈ p.senderWallet.utr.keys, k ∉ p.receiverWallet.utr.keys := by decide
  obtain ⟨payloads, hreturns⟩ := exists_eq_ok
    (r := p.execute plainCrypto (plainStamp "pay") (plainStamp "change")) (by decide +kernel)
  rcases execute_all_or_nothing plainCrypto (plainStamp "pay") (plainStamp "change") p hdisj
    with ⟨p', e, hexecute, -⟩ | ⟨p', payloads, hexecute, hconserved⟩
  · rw [hexecute] at hreturns
    cases hreturns
  · rw [hexecute]
    exact hconserved

/-! ### The price -/

/-- The state in which the parties of a session meet. -/
structure PaymentSession.Ready (c : Crypto) (p : PaymentSession) : Prop where
  owners : p.senderWallet.ownerPk ≠ p.receiverWallet.ownerPk
  disjoint : p.senderWallet.utr.keys.Disjoint p.receiverWallet.utr.keys
  owned : ∀ w ∈ [p.senderWallet, p.receiverWallet], ∀ t ∈ w.utr.items,
    t.ownerPk = w.ownerPk ∧ t.validateChain c t.issuerPk = true ∧ 0 < t.value
  keys : ∀ w ∈ [p.senderWallet, p.receiverWallet], ∃ privateKey,
    w.keystore w.ownerPk = .ok privateKey ∧
    ∀ m, ∃ signature, c.signMessage privateKey m = .ok signature ∧
      c.verifySignature w.ownerPk m signature = true

/-- The session took the price from the sender and gave it to the receiver. -/
def PaymentSession.MovesPrice (p p' : PaymentSession) : Prop :=
  totalValue p'.senderWallet.utr.items = totalValue p.senderWallet.utr.items - p.price ∧
  totalValue p'.receiverWallet.utr.items = totalValue p.receiverWallet.utr.items + p.price

/-- What the sender overpays when it has no exact subset for the price. -/
def PaymentSession.overpayment (p : PaymentSession) : Int :=
  leastCover p.price (ascending p.senderWallet.utr.items) 0 - p.price

lemma PaymentSession.Ready.nonnegative {c : Crypto} {p : PaymentSession} (h : p.Ready c) :
    Nonnegative p.senderWallet.utr.items ∧ Nonnegative p.receiverWallet.utr.items :=
  ⟨fun t ht => (h.owned p.senderWallet (by simp) t ht).2.2.le,
    fun t ht => (h.owned p.receiverWallet (by simp) t ht).2.2.le⟩

/-- The receiver returns the exact difference only if its own tokens, without the ones just
received, have it. -/
lemma Exchange.change_exact_iff {c : Crypto} {p p' : PaymentSession}
    {paid change : List (Token × Token)} (h : Exchange c p p' paid change)
    (hsender : Nonnegative p.senderWallet.utr.items)
    (hreceiver : Nonnegative p.receiverWallet.utr.items) :
    totalValue (change.map Prod.fst) = totalValue (paid.map Prod.fst) - p.price ↔
      HasExactSubset p.receiverWallet.utr.items (totalValue (paid.map Prod.fst) - p.price) := by
  obtain ⟨pool, hitems, hselect⟩ := h.change_selected
  obtain ⟨kept, hs, -⟩ := h.sender_utr
  obtain ⟨left, hr, -⟩ := h.receiver_utr
  have hpool : Nonnegative pool.utr.items := by
    intro t ht
    rcases List.mem_append.mp (hitems ▸ ht) with hmine | hpaid
    · exact hreceiver t hmine
    · obtain ⟨q, hq, rfl⟩ := List.mem_map.mp hpaid
      rw [(h.paid_handed q hq).extends_chain.value_eq]
      exact hsender q.1 (hs.mem_iff.mpr (List.mem_append_left _ (List.mem_map_of_mem hq)))
  rw [(Wallet.selects_of_selectTokens hpool hselect).exact_iff]
  constructor
  · intro hex
    rw [← (Wallet.selects_of_selectTokens hpool hselect).exact_iff.mpr hex]
    exact .of_subperm ((List.sublist_append_left _ left).subperm.trans hr.symm.subperm)
  · rintro ⟨chosen, hsub, hsum⟩
    exact ⟨chosen, hitems ▸ hsub.trans (List.sublist_append_left _ _), hsum⟩

/-- A session that returns has moved the price exactly when the sender has tokens for exactly the
price or the receiver has tokens for exactly what the sender overpays. -/
theorem PaymentSession.execute_movesPrice_iff {c : Crypto} {payStamp changeStamp : Nat → Stamp}
    {p p' : PaymentSession} {payloads : List JsonText × List JsonText} (hready : p.Ready c)
    (h : p.execute c payStamp changeStamp = (p', .ok payloads)) :
    p.MovesPrice p' ↔ HasExactSubset p.senderWallet.utr.items p.price ∨
      HasExactSubset p.receiverWallet.utr.items p.overpayment := by
  obtain ⟨hsender, hreceiver⟩ := hready.nonnegative
  rcases execute_cases c payStamp changeStamp p with
    ⟨p₁, payloads₁, hattempt, hexecute⟩ | ⟨p₁, e, hexecute, -⟩
  swap
  · rw [hexecute] at h
    cases h
  obtain ⟨rfl, -⟩ := Prod.mk.inj (hexecute.symm.trans h)
  obtain ⟨paid, change, hex⟩ := exchange_of_attempt hready.disjoint hattempt
  have hselects := Wallet.selects_of_selectTokens hsender hex.paid_selected
  have hmoves : p.MovesPrice p₁ ↔
      totalValue (change.map Prod.fst) = totalValue (paid.map Prod.fst) - p.price := by
    have hs := hex.totalValue_sender
    have hr := hex.totalValue_receiver
    rw [MovesPrice]
    constructor
    · rintro ⟨hs', -⟩
      omega
    · intro hchange
      constructor <;> omega
  rw [hmoves, hex.change_exact_iff hsender hreceiver]
  by_cases hexact : HasExactSubset p.senderWallet.utr.items p.price
  · rw [hselects.exact_iff.mpr hexact, sub_self]
    exact iff_of_true (.zero _) (.inl hexact)
  · rw [hselects.cover hexact, overpayment]
    exact ⟨.inr, fun h => h.resolve_left hexact⟩

lemma plainSession_ready {senderPurse receiverPurse : List (String × Int)} {price : Int}
    (hdisj : ∀ k ∈ (plainWallet "alice" senderPurse).utr.keys,
      k ∉ (plainWallet "bob" receiverPurse).utr.keys)
    (howned : ∀ w ∈ [plainWallet "alice" senderPurse, plainWallet "bob" receiverPurse],
      ∀ t ∈ w.utr.items, t.ownerPk = w.ownerPk ∧ t.validateChain plainCrypto t.issuerPk = true ∧
        0 < t.value) :
    (plainSession senderPurse receiverPurse price).Ready plainCrypto where
  owners := by
    change "alice" ≠ "bob"
    decide
  disjoint := fun k hk => hdisj k hk
  owned := howned
  keys := by
    intro w hw
    refine ⟨"sk:" ++ w.ownerPk, ?_, fun m => ⟨_, rfl, by simp [plainCrypto]⟩⟩
    rcases List.mem_pair.mp hw with rfl | rfl <;> rfl

theorem PaymentSession.execute_movesPrice_iff_cash_like_change :
    let p := plainSession [("s-10", 10)] [("r-2a", 2), ("r-2b", 2), ("r-1", 1)] 6
    p.MovesPrice (p.execute plainCrypto (plainStamp "pay") (plainStamp "change")).1 := by
  intro p
  obtain ⟨payloads, hreturns⟩ := exists_eq_ok
    (r := p.execute plainCrypto (plainStamp "pay") (plainStamp "change")) (by decide +kernel)
  refine (execute_movesPrice_iff (plainSession_ready (by decide) (by decide)) hreturns).mpr
    (.inr ?_)
  exact ⟨[plainToken "r-2a" 2 "bob", plainToken "r-2b" 2 "bob"], by decide, by decide⟩

/-- A sender with a single token of 10 pays 7 to a receiver with a single token of 5, gets that
token back as change, and has paid only 5. -/
theorem PaymentSession.execute_change_too_large :
    let p := plainSession [("s-10", 10)] [("r-5", 5)] 7
    p.Ready plainCrypto ∧ 0 ≤ p.price ∧
      ∃ p' payloads, p.execute plainCrypto (plainStamp "pay") (plainStamp "change")
        = (p', .ok payloads) ∧ ¬ p.MovesPrice p' ∧
        totalValue p'.senderWallet.utr.items = 5 ∧ totalValue p'.receiverWallet.utr.items = 10 := by
  intro p
  obtain ⟨payloads, hreturns⟩ := exists_eq_ok
    (r := p.execute plainCrypto (plainStamp "pay") (plainStamp "change")) (by decide +kernel)
  refine ⟨plainSession_ready (by decide) (by decide), by decide, _, payloads, hreturns, ?_,
    by decide, by decide⟩
  rintro ⟨hsender, -⟩
  revert hsender
  decide

end PocketCash.Canonical
