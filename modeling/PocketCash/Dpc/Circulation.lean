import PocketCash.Dpc.Network

/-!
# Circulation and settlement in the `dpc` stack

A network of `dpc` wallets whose holders also settle their tokens, with the record of the messages
delivered so far.

If all nonces and ids are drawn once, no check stands in the way of a message on its first delivery.
The chains are valid because each was made from a valid one. A wallet that has seen the nonce of a
record has accepted the chain up to that record, so it has not seen the last nonce of a message it
was never given, and if it has seen another one the token is returning.
-/

namespace PocketCash.Dpc

open Network (SeenBy)

/-- A network and the deliveries made in it: to which wallet, and what. -/
structure Circulation (c : Crypto) where
  network : Network c
  delivered : List (String × Parcel)

namespace Circulation

variable {c : Crypto}

inductive Event
  | network (e : Network.Event)
  | settle (submission : IssuerLedger.Submission)

structure Start (s : Circulation c) : Prop where
  network : s.network.Start
  delivered : s.delivered = []

/-- The deliveries after an event. -/
def log (delivered : List (String × Parcel)) : Network.Event → List (String × Parcel)
  | .deliver owner parcel _ _ => (owner, parcel) :: delivered
  | _ => delivered

/-- One event. -/
def step (s : Circulation c) : Event → Circulation c
  | .network e => ⟨s.network.step e, log s.delivered e⟩
  | .settle submission =>
    { s with network := { s.network with
        ledger := (s.network.ledger.settleToken c submission.claimerPubkeyHex submission.token
          submission.chain submission.now).1 } }

/-- No record was made with this nonce. -/
def Unused (s : Circulation c) (nonce : String) : Prop :=
  ∀ p ∈ s.network.produced, ∀ record ∈ p.2, record.nonce ≠ nonce

instance (s : Circulation c) (nonce : String) : Decidable (s.Unused nonce) :=
  inferInstanceAs (Decidable (∀ p ∈ s.network.produced, ∀ record ∈ p.2, record.nonce ≠ nonce))

/-- Ids and nonces are drawn once, and only produced parcels are delivered. -/
def Legal (s : Circulation c) : Event → Prop
  | .network e => s.network.Legal e ∧ match e with
    | .mint _ _ _ draw => s.Unused draw.nonce
    | .send _ _ _ _ nonce => s.Unused nonce
    | _ => True
  | .settle _ => True

instance (s : Circulation c) : DecidablePred s.Legal
  | .network (.mint kp r a draw) => inferInstanceAs (Decidable
      (s.network.Legal (.mint kp r a draw) ∧ s.Unused draw.nonce))
  | .network (.send o t r now nonce) => inferInstanceAs (Decidable
      (s.network.Legal (.send o t r now nonce) ∧ s.Unused nonce))
  | .network (.deliver o p now at') => inferInstanceAs (Decidable
      (s.network.Legal (.deliver o p now at') ∧ True))
  | .network (.reload o at') => inferInstanceAs (Decidable
      (s.network.Legal (.reload o at') ∧ True))
  | .settle _ => .isTrue trivial

/-! ### The invariant -/

/-- The receipt of an entry, as `receive_token` made it from a produced parcel. -/
structure Stored (n : Network c) (w : DPCWallet) (k : String) (receipt : Receipt) : Prop where
  endsInFinalHop : receipt.EndsInFinalHop
  parcel : ∃ token, receipt.token = some token ∧ token.tokenId = k ∧
    (token, receipt.fullChain) ∈ n.produced ∧ SeenBy c w (token, receipt.fullChain)

structure Chained (s : Circulation c) : Prop where
  valid : ∀ p ∈ s.network.produced, ChainValid c p.1 p.2
  distinct : ∀ p ∈ s.network.produced, ∀ p' ∈ s.network.produced, ∀ tip tip',
    p.2.getLast? = some tip → p'.2.getLast? = some tip' → tip.nonce = tip'.nonce → p = p'
  lineage : ∀ p ∈ s.network.produced, ∀ before record after, p.2 = before ++ record :: after →
    after ≠ [] → (p.1, before ++ [record]) ∈ s.network.produced ∧
      ∃ w ∈ s.network.wallets.items, SeenBy c w (p.1, before ++ [record])
  seen : ∀ w ∈ s.network.wallets.items, ∀ nonce ∈ w.utr.seenNonces,
    ∃ p ∈ s.network.produced, nonce ∈ nonces p.2 ∧ SeenBy c w p
  known : ∀ w ∈ s.network.wallets.items, ∀ p ∈ s.network.produced, SeenBy c w p →
    p.tokenId ∈ w.utr.entries.keys ∨ p.tokenId ∈ w.utr.spentTokenIds
  delivered : ∀ w ∈ s.network.wallets.items, ∀ p ∈ s.network.produced, SeenBy c w p →
    (w.publicKeyHex c, p) ∈ s.delivered
  entries : ∀ w ∈ s.network.wallets.items, ∀ k receipt,
    w.utr.entries.get? k = some receipt → Stored s.network w k receipt

lemma Start.chained {s : Circulation c} (h : s.Start) : s.Chained := by
  have hnone : ∀ p, p ∉ s.network.produced := by simp [h.network.produced]
  refine ⟨?_, ?_, ?_, ?_, ?_, ?_, ?_⟩
  · exact fun p hp => absurd hp (hnone p)
  · exact fun p hp => absurd hp (hnone p)
  · exact fun p hp => absurd hp (hnone p)
  · intro w hw nonce hnonce
    rw [h.network.empty w hw] at hnonce
    exact absurd hnonce (Finset.notMem_empty nonce)
  · exact fun w _ p hp => absurd hp (hnone p)
  · exact fun w _ p hp => absurd hp (hnone p)
  · intro w hw k receipt hget
    rw [h.network.empty w hw] at hget
    cases hget

/-- A nonce of a produced chain is the last nonce of a produced parcel, which is the chain itself or
was accepted. -/
lemma Chained.exists_parcel {s : Circulation c} (h : s.Chained) {q : Parcel}
    (hq : q ∈ s.network.produced) {nonce : String} (hnonce : nonce ∈ nonces q.2) :
    ∃ records tip, (q.1, records) ∈ s.network.produced ∧ records.getLast? = some tip ∧
      tip.nonce = nonce ∧ (records = q.2 ∨
        ∃ w ∈ s.network.wallets.items, SeenBy c w (q.1, records)) := by
  obtain ⟨record, hrecord, rfl⟩ := List.mem_map.mp (List.mem_toFinset.mp hnonce)
  obtain ⟨before, after, hsplit⟩ := List.append_of_mem hrecord
  by_cases hlast : after = []
  · subst hlast
    exact ⟨q.2, record, hq, by simp [hsplit], rfl, .inl rfl⟩
  · obtain ⟨hproduced, hseen⟩ := h.lineage q hq before record after hsplit hlast
    exact ⟨_, record, hproduced, by simp, rfl, .inr hseen⟩

/-! ### What a step keeps -/

/-- A wallet that holds no more, has seen the same nonces, and lost no id. -/
structure Rearranges (c : Crypto) (w w' : DPCWallet) : Prop extends Network.Keeps c w w' where
  unseen : w'.utr.seenNonces ⊆ w.utr.seenNonces
  ids : ∀ k, k ∈ w.utr.entries.keys ∨ k ∈ w.utr.spentTokenIds →
    k ∈ w'.utr.entries.keys ∨ k ∈ w'.utr.spentTokenIds

lemma Rearranges.refl (w : DPCWallet) : Rearranges c w w := ⟨.refl w, subset_rfl, fun _ => id⟩

lemma Rearranges.seenBy_iff {w w' : DPCWallet} (h : Rearranges c w w') {p : Parcel} :
    SeenBy c w' p ↔ SeenBy c w p := by
  rw [SeenBy, SeenBy, h.publicKeyHex, subset_antisymm h.unseen h.seenNonces]

/-- What some wallet has seen, some wallet has seen after `w` was replaced. -/
lemma exists_seenBy_put {wallets : KeyedList (DPCWallet.publicKeyHex c)} {w w' : DPCWallet}
    (hw : w ∈ wallets.items) (hkey : w'.publicKeyHex c = w.publicKeyHex c) {p : Parcel}
    (hkeep : SeenBy c w p → SeenBy c w' p) (h : ∃ u ∈ wallets.items, SeenBy c u p) :
    ∃ v ∈ (wallets.put w').items, SeenBy c v p := by
  obtain ⟨u, hu, hseen⟩ := h
  by_cases hsame : u.publicKeyHex c = w'.publicKeyHex c
  · obtain rfl := KeyedList.eq_of_key_eq hu hw (hsame.trans hkey)
    exact ⟨w', KeyedList.mem_put.mpr (.inl rfl), hkeep hseen⟩
  · exact ⟨u, KeyedList.mem_put.mpr (.inr ⟨hu, hsame⟩), hseen⟩

lemma Chained.put {s : Circulation c} (h : s.Chained) {w w' : DPCWallet}
    (hw : w ∈ s.network.wallets.items) (hmoves : Rearranges c w w') :
    Chained { s with network := { s.network with wallets := s.network.wallets.put w' } } := by
  -- each wallet is one of before, up to the rearrangement
  have hfrom : ∀ v ∈ (s.network.wallets.put w').items, ∃ u ∈ s.network.wallets.items,
      Rearranges c u v := by
    intro v hv
    rcases KeyedList.mem_put.mp hv with rfl | ⟨hv, -⟩
    · exact ⟨w, hw, hmoves⟩
    · exact ⟨v, hv, .refl v⟩
  refine ⟨h.valid, h.distinct, ?_, ?_, ?_, ?_, ?_⟩
  · intro p hp before record after hsplit hafter
    obtain ⟨hproduced, hseen⟩ := h.lineage p hp before record after hsplit hafter
    exact ⟨hproduced, exists_seenBy_put hw hmoves.publicKeyHex hmoves.seenBy_iff.mpr hseen⟩
  · intro v hv nonce hnonce
    obtain ⟨u, hu, hsame⟩ := hfrom v hv
    obtain ⟨p, hp, hmem, hseen⟩ := h.seen u hu nonce (hsame.unseen hnonce)
    exact ⟨p, hp, hmem, hsame.seenBy_iff.mpr hseen⟩
  · intro v hv p hp hseen
    obtain ⟨u, hu, hsame⟩ := hfrom v hv
    exact hsame.ids _ (h.known u hu p hp (hsame.seenBy_iff.mp hseen))
  · intro v hv p hp hseen
    obtain ⟨u, hu, hsame⟩ := hfrom v hv
    exact hsame.publicKeyHex ▸ h.delivered u hu p hp (hsame.seenBy_iff.mp hseen)
  · intro v hv k receipt hget
    obtain ⟨u, hu, hsame⟩ := hfrom v hv
    obtain ⟨hends, token, htoken, hid, hproduced, hseen⟩ :=
      h.entries u hu k receipt (hsame.entries k receipt hget)
    exact ⟨hends, token, htoken, hid, hproduced, hsame.seenBy_iff.mpr hseen⟩

/-- A new parcel, the last nonce of which is new. -/
lemma Chained.produce {s : Circulation c} (h : s.Chained) {q : Parcel} {ledger : IssuerLedger}
    (hvalid : ChainValid c q.1 q.2) {tip : TransferRecord} (htip : q.2.getLast? = some tip)
    (hunused : s.Unused tip.nonce)
    (hlineage : ∀ before record after, q.2 = before ++ record :: after → after ≠ [] →
      (q.1, before ++ [record]) ∈ s.network.produced ∧
        ∃ w ∈ s.network.wallets.items, SeenBy c w (q.1, before ++ [record])) :
    Chained { s with network := { s.network with
      ledger := ledger, produced := q :: s.network.produced } } := by
  have hunseen : ∀ w ∈ s.network.wallets.items, ¬ SeenBy c w q := by
    rintro w hw ⟨tip', htip', -, hseen⟩
    obtain rfl := Option.some.inj (htip.symm.trans htip')
    obtain ⟨p, hp, hmem, -⟩ := h.seen w hw _ hseen
    obtain ⟨record, hrecord, hnonce⟩ := List.mem_map.mp (List.mem_toFinset.mp hmem)
    exact hunused p hp record hrecord hnonce
  have hnew : ∀ p ∈ s.network.produced, ∀ tip', p.2.getLast? = some tip' →
      tip'.nonce ≠ tip.nonce := fun p hp tip' htip' =>
    hunused p hp tip' (List.mem_of_getLast? htip')
  refine ⟨?_, ?_, ?_, ?_, ?_, ?_, ?_⟩
  · rintro p (_ | ⟨_, hp⟩)
    · exact hvalid
    · exact h.valid p hp
  · rintro p (_ | ⟨_, hp⟩) p' (_ | ⟨_, hp'⟩) tip₁ tip₂ htip₁ htip₂ hsame
    · rfl
    · obtain rfl := Option.some.inj (htip.symm.trans htip₁)
      exact absurd hsame.symm (hnew p' hp' tip₂ htip₂)
    · obtain rfl := Option.some.inj (htip.symm.trans htip₂)
      exact absurd hsame (hnew p hp tip₁ htip₁)
    · exact h.distinct p hp p' hp' tip₁ tip₂ htip₁ htip₂ hsame
  · rintro p (_ | ⟨_, hp⟩) before record after hsplit hafter
    · obtain ⟨hproduced, hseen⟩ := hlineage before record after hsplit hafter
      exact ⟨List.mem_cons_of_mem _ hproduced, hseen⟩
    · obtain ⟨hproduced, hseen⟩ := h.lineage p hp before record after hsplit hafter
      exact ⟨List.mem_cons_of_mem _ hproduced, hseen⟩
  · intro w hw nonce hnonce
    obtain ⟨p, hp, hmem, hseen⟩ := h.seen w hw nonce hnonce
    exact ⟨p, List.mem_cons_of_mem _ hp, hmem, hseen⟩
  · rintro w hw p (_ | ⟨_, hp⟩) hseen
    · exact absurd hseen (hunseen w hw)
    · exact h.known w hw p hp hseen
  · rintro w hw p (_ | ⟨_, hp⟩) hseen
    · exact absurd hseen (hunseen w hw)
    · exact h.delivered w hw p hp hseen
  · intro w hw k receipt hget
    obtain ⟨hends, token, htoken, hid, hproduced, hseen⟩ := h.entries w hw k receipt hget
    exact ⟨hends, token, htoken, hid, List.mem_cons_of_mem _ hproduced, hseen⟩

/-- An id that the wallet holds or has spent is one of these after a receipt was stored. -/
lemma mem_ids_store {utr : UnspentTokenRegister} {receipt : Receipt} {k : String}
    (h : k ∈ utr.entries.keys ∨ k ∈ utr.spentTokenIds) :
    k ∈ (utr.store receipt).entries.keys ∨ k ∈ (utr.store receipt).spentTokenIds := by
  rcases h with hk | hk
  · exact .inl (Dict.mem_keys_set.mpr (.inr hk))
  · by_cases hsame : k = receipt.tokenId
    · exact .inl (Dict.mem_keys_set.mpr (.inl hsame))
    · exact .inr (Finset.mem_erase.mpr ⟨hsame, hk⟩)

/-- Storing a receipt forgets no parcel. -/
lemma seenBy_store {w : DPCWallet} {p : Parcel} (receipt : Receipt) (h : SeenBy c w p) :
    SeenBy c { w with utr := w.utr.store receipt } p := by
  obtain ⟨tip, htip, howner, hseen⟩ := h
  exact ⟨tip, htip, howner, Finset.mem_union_left _ hseen⟩

/-- What a wallet has seen after it stored the receipt of `q` it saw before, or it is `q`. -/
lemma Chained.seenBy_of_store {s : Circulation c} (h : s.Chained) {w : DPCWallet}
    (hw : w ∈ s.network.wallets.items) {q p : Parcel} (hq : q ∈ s.network.produced)
    (hp : p ∈ s.network.produced) {receipt : Receipt} (hchain : receipt.fullChain = q.2)
    (hseen : SeenBy c { w with utr := w.utr.store receipt } p) : SeenBy c w p ∨ p = q := by
  obtain ⟨tip, htip, howner, hseen⟩ := hseen
  rcases Finset.mem_union.mp hseen with hold | hnew
  · exact .inl ⟨tip, htip, howner, hold⟩
  · rw [hchain] at hnew
    obtain ⟨records, tip', hproduced, htip', hnonce, hcase⟩ := h.exists_parcel hq hnew
    obtain rfl := h.distinct _ hproduced p hp tip' tip htip' htip hnonce
    rcases hcase with rfl | ⟨u, hu, hseen'⟩
    · exact .inr rfl
    · obtain ⟨tip'', htip'', howner'', -⟩ := id hseen'
      obtain rfl := Option.some.inj (htip.symm.trans htip'')
      obtain rfl := KeyedList.eq_of_key_eq hu hw (howner''.symm.trans howner)
      exact .inl hseen'

/-- An accepted delivery. -/
lemma Chained.deliver {s : Circulation c} (h : s.Chained) {w : DPCWallet}
    (hw : w ∈ s.network.wallets.items) {q : Parcel} (hq : q ∈ s.network.produced)
    {receipt : Receipt} (hid : receipt.tokenId = q.tokenId) (hchain : receipt.fullChain = q.2)
    (htoken : receipt.token = some q.1) (hends : receipt.EndsInFinalHop)
    (howner : receipt.finalHop.receiverPubkeyHex = w.publicKeyHex c) :
    Chained ⟨{ s.network with
        wallets := s.network.wallets.put { w with utr := w.utr.store receipt } },
      (w.publicKeyHex c, q) :: s.delivered⟩ := by
  have htip : q.2.getLast? = some receipt.finalHop := hchain ▸ hends
  have hseenq : SeenBy c { w with utr := w.utr.store receipt } q := by
    refine ⟨_, htip, howner, Finset.mem_union_right _ ?_⟩
    rw [hchain]
    exact List.mem_toFinset.mpr (List.mem_map_of_mem (List.mem_of_getLast? htip))
  have hkey : DPCWallet.publicKeyHex c { w with utr := w.utr.store receipt } = w.publicKeyHex c :=
    rfl
  refine ⟨h.valid, h.distinct, ?_, ?_, ?_, ?_, ?_⟩
  · intro p hp before record after hsplit hafter
    obtain ⟨hproduced, hseen⟩ := h.lineage p hp before record after hsplit hafter
    exact ⟨hproduced, exists_seenBy_put hw hkey (seenBy_store receipt) hseen⟩
  · intro v hv nonce hnonce
    rcases KeyedList.mem_put.mp hv with rfl | ⟨hv, -⟩
    · rcases Finset.mem_union.mp hnonce with hold | hnew
      · obtain ⟨p, hp, hmem, hseen⟩ := h.seen w hw nonce hold
        exact ⟨p, hp, hmem, seenBy_store receipt hseen⟩
      · exact ⟨q, hq, hchain ▸ hnew, hseenq⟩
    · exact h.seen v hv nonce hnonce
  · intro v hv p hp hseen
    rcases KeyedList.mem_put.mp hv with rfl | ⟨hv, -⟩
    · rcases h.seenBy_of_store hw hq hp hchain hseen with hold | rfl
      · exact mem_ids_store (h.known w hw p hp hold)
      · exact .inl (Dict.mem_keys_set.mpr (.inl hid.symm))
    · exact h.known v hv p hp hseen
  · intro v hv p hp hseen
    rcases KeyedList.mem_put.mp hv with rfl | ⟨hv, -⟩
    · rcases h.seenBy_of_store hw hq hp hchain hseen with hold | rfl
      · exact List.mem_cons_of_mem _ (h.delivered w hw p hp hold)
      · exact List.mem_cons_self
    · exact List.mem_cons_of_mem _ (h.delivered v hv p hp hseen)
  · intro v hv k receipt' hget
    rcases KeyedList.mem_put.mp hv with rfl | ⟨hv, -⟩
    · rw [UnspentTokenRegister.store, Dict.get?_set] at hget
      split_ifs at hget with hk
      · cases hget
        exact ⟨hends, q.1, htoken, hid.symm.trans hk.symm, hchain ▸ hq, hchain ▸ hseenq⟩
      · obtain ⟨hends', token, htoken', hid', hproduced, hseen⟩ := h.entries w hw k receipt' hget
        exact ⟨hends', token, htoken', hid', hproduced, seenBy_store receipt hseen⟩
    · obtain ⟨hends', hparcel⟩ := h.entries v hv k receipt' hget
      exact ⟨hends', hparcel⟩

/-- More deliveries do no harm. -/
lemma Chained.of_log {s : Circulation c} (h : s.Chained) (e : Network.Event) :
    Chained { s with delivered := log s.delivered e } := by
  cases e with
  | deliver owner parcel now receivedAt =>
    refine ⟨h.valid, h.distinct, h.lineage, h.seen, h.known, ?_, ?_⟩
    · intro w hw p hp hseen
      exact List.mem_cons_of_mem _ (h.delivered w hw p hp hseen)
    · intro w hw k receipt hget
      obtain ⟨hends, hparcel⟩ := h.entries w hw k receipt hget
      exact ⟨hends, hparcel⟩
  | _ => exact h

/-- The invariant does not read the ledger. -/
lemma Chained.of_ledger {s : Circulation c} (h : s.Chained) (ledger : IssuerLedger) :
    Chained { s with network := { s.network with ledger := ledger } } where
  valid := h.valid
  distinct := h.distinct
  lineage := h.lineage
  seen := h.seen
  known := h.known
  delivered := h.delivered
  entries w hw k receipt hget := ⟨(h.entries w hw k receipt hget).1, (h.entries w hw k receipt hget).2⟩

/-- Taking an entry out keeps its id among the spent ones. -/
lemma rearranges_spend {w : DPCWallet} {tokenId : String} {utr : UnspentTokenRegister}
    {receipt : Receipt} (h : w.utr.spend tokenId = .ok (utr, receipt)) :
    Rearranges c w { w with utr := utr } := by
  refine ⟨Network.keeps_spend h, ?_, ?_⟩
  · obtain ⟨-, rfl⟩ := UnspentTokenRegister.spend_eq_ok h
    exact subset_rfl
  · obtain ⟨-, rfl⟩ := UnspentTokenRegister.spend_eq_ok h
    rintro k (hk | hk)
    · by_cases hsame : k = tokenId
      · exact .inr (hsame ▸ Finset.mem_insert_self _ _)
      · exact .inl (KeyedList.mem_keys_pop.mpr ⟨hk, hsame⟩)
    · exact .inr (Finset.mem_insert_of_mem hk)

/-- Taking an entry out and putting it back. -/
lemma rearranges_restore {w : DPCWallet} {tokenId : String} {utr : UnspentTokenRegister}
    {receipt : Receipt} (h : w.utr.spend tokenId = .ok (utr, receipt))
    (hid : receipt.tokenId = tokenId) :
    Rearranges c w { w with utr := utr.restoreUnspent receipt } := by
  have hspent : Rearranges c w { w with utr := utr } := rearranges_spend h
  refine ⟨Network.keeps_restore h hid, hspent.unseen, ?_⟩
  intro k hk
  by_cases hsame : k = receipt.tokenId
  · exact .inl (Dict.mem_keys_set.mpr (.inl hsame))
  · rcases hspent.ids k hk with hk | hk
    · exact .inl (Dict.mem_keys_set.mpr (.inr hk))
    · exact .inr (Finset.mem_erase.mpr ⟨hsame, hk⟩)

/-- A call that raises loses no id. -/
lemma rearranges_gaveUp {w w' : DPCWallet} {tokenId : String} (h : w.GaveUp tokenId w')
    (hid : ∀ receipt, w.utr.entries.get? tokenId = some receipt → receipt.tokenId = tokenId) :
    Rearranges c w w' := by
  cases h with
  | refused => exact .refl w
  | lost hspend => exact rearranges_spend hspend
  | restored hspend =>
    exact rearranges_restore hspend (hid _ (UnspentTokenRegister.spend_eq_ok hspend).1)

lemma rearranges_reload {w : DPCWallet} {savedAt : String} {utr : UnspentTokenRegister}
    (h : UnspentTokenRegister.load c (w.utr.save savedAt) = .ok utr) :
    Rearranges c w { w with utr := utr } := by
  obtain ⟨-, hentries, hspent, hnonces⟩ := UnspentTokenRegister.eq_of_load_save h
  refine ⟨Network.keeps_reload h, hnonces.le, ?_⟩
  intro k hk
  rw [hspent]
  exact hk.imp_left (hentries.map Prod.fst).mem_iff.mpr

/-- What `mint_token` returns is valid. -/
lemma chainValid_mint (hcorrect : c.Correct) {issuerKeypair : DPCKeyPair}
    {receiverPubkeyHex : String} {amountSubunits : Int} {draw : IssuerLedger.MintDraw}
    {genesis : TransferRecord}
    (h : genesis.MadeFrom c ⟨draw.tokenId, 0, issuerKeypair.publicKeyHex c, receiverPubkeyHex,
      amountSubunits, draw.nonce⟩ genesisHash issuerKeypair.privateKeyBytes) :
    ChainValid c (IssuerLedger.mintedToken c issuerKeypair amountSubunits draw) [genesis] where
  issuer := by
    rw [Token.verifyIssuerSignature, LedgerRun.mintedToken_issuerPubkeyHex,
      LedgerRun.mintedToken_issuerSignature, Crypto.ed25519Verify_eq_ok_iff]
    exact ⟨_, _, Hex.decode_encode _, Hex.decode_encode _, hcorrect _ _⟩
  tip := by
    have hhop : genesis.hopIndex = 0 := congrArg TransferPayload.hopIndex h.payload
    exact ⟨genesis, rfl, by rw [hhop]; decide⟩
  records := ⟨TransferRecord.MadeFrom.recordValid hcorrect h (fun _ => rfl) nofun, trivial⟩

/-- What `send_token` returns is valid. -/
lemma chainValid_transfer (hcorrect : c.Correct) {keypair : DPCKeyPair} {receipt : Receipt}
    (hends : receipt.EndsInFinalHop) {receiverPubkeyHex : String} {now : Int} {nonce : String}
    {parcel : Parcel}
    (h : DPCWallet.transfer c keypair receipt receiverPubkeyHex now nonce = .ok parcel) :
    ChainValid c parcel.1 parcel.2 := by
  obtain ⟨token, chain⟩ := parcel
  obtain ⟨-, hvalid, tip, record, hopIndex, htip, rfl, hhop, hlimit, hmade⟩ :=
    DPCWallet.transfer_eq_ok h
  obtain rfl := Option.some.inj (htip.symm.trans hends)
  rw [hvalid.records.amount _ (List.mem_of_getLast? htip)] at hmade
  have hindex : record.hopIndex = hopIndex := congrArg TransferPayload.hopIndex hmade.payload
  refine ⟨hvalid.issuer, ⟨record, by simp, hindex ▸ hlimit⟩, hvalid.records.concat htip ?_⟩
  intro position hposition
  apply TransferRecord.MadeFrom.recordValid hcorrect hmade
  · exact fun hzero => absurd hzero hposition.ne'
  · intro _
    split_ifs at hhop
    · exact .inr hhop
    · exact .inl hhop

/-- What is left of a list before its last element, where the list is a prefix and one element. -/
lemma eq_append_of_concat {α : Type*} {l before after : List α} {a b : α}
    (h : l ++ [a] = before ++ b :: after) (hafter : after ≠ []) :
    ∃ middle, l = before ++ b :: middle := by
  obtain ⟨middle, last, rfl⟩ := List.eq_nil_or_concat after |>.resolve_left hafter
  rw [List.concat_eq_append, ← List.cons_append, ← List.append_assoc] at h
  exact ⟨middle, (List.append_inj' h rfl).1⟩

/-- A send that returns. -/
lemma Chained.transfer (hcorrect : c.Correct) {s : Circulation c} (h : s.Chained) {w : DPCWallet}
    (hw : w ∈ s.network.wallets.items) {tokenId receiverPubkeyHex nonce : String} {now : Int}
    {utr : UnspentTokenRegister} {receipt : Receipt} {parcel : Parcel}
    (hspend : w.utr.spend tokenId = .ok (utr, receipt))
    (htransfer : DPCWallet.transfer c w.keypair receipt receiverPubkeyHex now nonce = .ok parcel)
    (hunused : s.Unused nonce) :
    Chained { s with network := { s.network with
      wallets := s.network.wallets.put { w with utr := utr }
      produced := parcel :: s.network.produced } } := by
  obtain ⟨hget, -⟩ := UnspentTokenRegister.spend_eq_ok hspend
  have hmoves : Rearranges c w { w with utr := utr } := rearranges_spend hspend
  obtain ⟨hends, token, htoken, -, hproduced, hseen⟩ := h.entries w hw tokenId receipt hget
  have hvalid := chainValid_transfer hcorrect hends htransfer
  obtain ⟨token', chain⟩ := parcel
  obtain ⟨htoken', -, tip, record, hopIndex, -, rfl, -, -, hmade⟩ :=
    DPCWallet.transfer_eq_ok htransfer
  obtain rfl := Option.some.inj (htoken.symm.trans htoken')
  have hnonce : record.nonce = nonce := congrArg TransferPayload.nonce hmade.payload
  have htip : (receipt.fullChain ++ [record]).getLast? = some record := by simp
  apply (h.put hw hmoves).produce hvalid htip
  · rw [hnonce]
    exact hunused
  · intro before record' after hsplit hafter
    obtain ⟨middle, hfull⟩ := eq_append_of_concat hsplit hafter
    by_cases hmiddle : middle = []
    · subst hmiddle
      rw [hfull] at hproduced hseen
      exact ⟨hproduced, exists_seenBy_put hw hmoves.publicKeyHex hmoves.seenBy_iff.mpr ⟨w, hw, hseen⟩⟩
    · exact (h.put hw hmoves).lineage _ hproduced before record' middle hfull hmiddle

/-- A mint that returns. -/
lemma Chained.mint (hcorrect : c.Correct) {s : Circulation c} (h : s.Chained)
    {issuerKeypair : DPCKeyPair} {receiverPubkeyHex : String} {amountSubunits : Int}
    {draw : IssuerLedger.MintDraw} {genesis : TransferRecord}
    (hmade : genesis.MadeFrom c ⟨draw.tokenId, 0, issuerKeypair.publicKeyHex c, receiverPubkeyHex,
      amountSubunits, draw.nonce⟩ genesisHash issuerKeypair.privateKeyBytes)
    (hunused : s.Unused draw.nonce) (ledger : IssuerLedger) :
    Chained { s with network := { s.network with
      ledger := ledger
      produced := (IssuerLedger.mintedToken c issuerKeypair amountSubunits draw, [genesis]) ::
        s.network.produced } } := by
  have hnonce : genesis.nonce = draw.nonce := congrArg TransferPayload.nonce hmade.payload
  apply h.produce (chainValid_mint hcorrect hmade) List.getLast?_singleton
  · rw [hnonce]
    exact hunused
  · intro before record after hsplit hafter
    rcases before with _ | ⟨first, before⟩ <;> simp at hsplit
    exact absurd hsplit.2.symm (Ne.symm hafter)

lemma Chained.effect (hcorrect : c.Correct) {s : Circulation c} {e : Network.Event}
    {n : Network c} (hlegal : s.Legal (.network e)) (hinv : s.network.Inv) (h : s.Chained)
    (heffect : s.network.Effect e n) : Chained ⟨n, log s.delivered e⟩ := by
  cases heffect with
  | refused => exact h.of_log e
  | minted hmade => exact h.mint hcorrect hmade hlegal.2 _
  | gaveUp hw hgaveUp =>
    exact h.put hw
      (rearranges_gaveUp hgaveUp fun receipt hget => (hinv.held _ hw _ receipt hget).tokenId)
  | sent hw hspend htransfer => exact h.transfer hcorrect hw hspend htransfer hlegal.2
  | accepted hw haccepts hadmits hid hchain htoken hends =>
    obtain ⟨tip, htip, howner⟩ := haccepts.addressee
    rw [← hchain] at htip
    obtain rfl := Option.some.inj (htip.symm.trans hends)
    exact h.deliver hw hlegal.1 hid hchain htoken hends howner
  | reloaded hw hload => exact h.put hw (rearranges_reload hload)

/-- The step lemma: every legal event keeps both invariants. -/
lemma Chained.step (hcorrect : c.Correct) {s : Circulation c} {e : Event} (hlegal : s.Legal e)
    (h : s.network.Inv ∧ s.Chained) : (s.step e).network.Inv ∧ (s.step e).Chained := by
  obtain ⟨hinv, h⟩ := h
  cases e with
  | settle submission =>
    exact ⟨hinv.of_ledger (IssuerLedger.minted_settleToken ..), h.of_ledger _⟩
  | network e =>
    exact ⟨hinv.step hlegal.1, h.effect hcorrect hlegal hinv (s.network.effect_step e)⟩

/-! ### What goes through -/

/-- A parcel that its addressee was never given passes every check of the register but the cap. -/
lemma Chained.admits {s : Circulation c} (hinv : s.network.Inv) (h : s.Chained) {w : DPCWallet}
    (hw : w ∈ s.network.wallets.items) {p : Parcel} (hp : p ∈ s.network.produced)
    {tip : TransferRecord} (htip : p.2.getLast? = some tip)
    (howner : tip.receiverPubkeyHex = w.publicKeyHex c)
    (hfirst : (w.publicKeyHex c, p) ∉ s.delivered) {receipt : Receipt}
    (hid : receipt.tokenId = p.tokenId) (hchain : receipt.fullChain = p.2)
    (hcap : w.utr.totalBalance + receipt.amount ≤ maxWalletBalanceSubunits) :
    w.utr.Admits receipt := by
  have hunseen : tip.nonce ∉ w.utr.seenNonces := fun hseen =>
    hfirst (h.delivered w hw p hp ⟨tip, htip, howner, hseen⟩)
  have habsent : p.tokenId ∉ w.utr.entries.keys := by
    -- the wallet holds the newest parcel of its token, and has seen the older ones
    intro hmem
    obtain ⟨held, hget⟩ := Dict.mem_keys_iff_get?.mp hmem
    obtain ⟨newer, hnewer, -, hseen⟩ := (hinv.held w hw _ held hget).newest
    rcases eq_or_of_newest hinv.superseded hp hnewer with rfl | hbehind
    · exact hfirst (h.delivered w hw newer hp hseen)
    · exact hunseen (hbehind (mem_of_newest hnewer).2 w hw tip htip howner)
  refine ⟨hid ▸ habsent, fun _ => ⟨tip, hchain ▸ htip, hunseen⟩, ?_, hcap⟩
  -- a wallet that has seen a nonce of the chain has held the token
  intro hnew
  rw [Finset.disjoint_left]
  intro nonce hnonce hmem
  rw [hchain] at hmem
  obtain ⟨q, hq, hqmem, hseen⟩ := h.seen w hw nonce hnonce
  obtain ⟨records, last, hproduced, hlast, hlastNonce, -⟩ := h.exists_parcel hp hmem
  obtain ⟨records', last', hproduced', hlast', hlastNonce', -⟩ := h.exists_parcel hq hqmem
  have hsame := h.distinct _ hproduced _ hproduced' last last' hlast hlast'
    (hlastNonce.trans hlastNonce'.symm)
  have hids : p.tokenId = q.tokenId := by
    rw [Parcel.tokenId, (Prod.mk.inj hsame).1, Parcel.tokenId]
  rcases h.known w hw q hq hseen with hentry | hspent
  · exact habsent (hids ▸ hentry)
  · exact hnew (hid ▸ hids ▸ hspent)

/-- The last record hands on to `receiverPubkeyHex`. Its hop index starts again at a receiver that
sent the token before, and is within the limit. -/
def IsNextHop (receiverPubkeyHex : String) (chain : List TransferRecord) : Prop :=
  ∃ before previous tip, chain = before ++ [previous, tip] ∧
    tip.receiverPubkeyHex = receiverPubkeyHex ∧
    tip.hopIndex = (if receiverPubkeyHex ∈ (before ++ [previous]).map TransferRecord.senderPubkeyHex
      then 1 else previous.hopIndex + 1) ∧
    tip.hopIndex ≤ maxOfflineHops

lemma isNextHop_of_sendToken {w w' : DPCWallet} {tokenId receiverPubkeyHex nonce : String}
    {now : Int} {parcel : Parcel}
    (h : w.sendToken c tokenId receiverPubkeyHex now nonce = (w', .ok parcel)) :
    IsNextHop receiverPubkeyHex parcel.2 := by
  rcases w.sendToken_cases c tokenId receiverPubkeyHex now nonce with
    ⟨_, e, -, hsend⟩ | ⟨utr, receipt, sent, -, htransfer, hsend⟩ <;> rw [hsend] at h <;> cases h
  obtain ⟨token, chain⟩ := parcel
  obtain ⟨-, -, tip, record, hopIndex, htip, rfl, hhop, hlimit, hmade⟩ :=
    DPCWallet.transfer_eq_ok htransfer
  obtain ⟨before, hfull⟩ := List.getLast?_eq_some_iff.mp htip
  have hindex : record.hopIndex = hopIndex := congrArg TransferPayload.hopIndex hmade.payload
  refine ⟨before, tip, record, by simp [hfull], ?_, ?_, hindex ▸ hlimit⟩
  · exact congrArg TransferPayload.receiverPubkeyHex hmade.payload
  · rw [hindex, hhop, hfull]

/-- In every run, a message is accepted by its addressee on its first delivery if the token is valid
at the time and the cap leaves room, what `send_token` returns is within the hop limit, and a
holder can settle what is not settled. -/
theorem accepted_on_first_delivery (hcorrect : c.Correct) {start : Circulation c}
    (hstart : start.Start) {es : List Event} (hrun : Along step Legal start es) :
    let s := runFrom step start es
    (∀ p ∈ s.network.produced, ∀ tip, p.2.getLast? = some tip →
      ∀ w ∈ s.network.wallets.items, tip.receiverPubkeyHex = w.publicKeyHex c →
      (w.publicKeyHex c, p) ∉ s.delivered → ∀ now receivedAt,
      p.1.issuedAt ≤ now → now ≤ p.1.ttlExpiry →
      w.utr.totalBalance + p.1.amountSubunits ≤ maxWalletBalanceSubunits →
      ∃ w' receipt, w.receiveToken c p.1 p.2 now receivedAt = .ok (w', receipt)) ∧
    (∀ w ∈ s.network.wallets.items, ∀ tokenId receiverPubkeyHex now nonce w' parcel,
      w.sendToken c tokenId receiverPubkeyHex now nonce = (w', .ok parcel) →
      IsNextHop receiverPubkeyHex parcel.2) ∧
    (∀ w ∈ s.network.wallets.items, ∀ k receipt, w.utr.entries.get? k = some receipt →
      s.network.ledger.settled.get? k = none → ∀ now, ∃ token, receipt.token = some token ∧
        (s.network.ledger.settleToken c (w.publicKeyHex c) token receipt.fullChain now).2
          = .ok ⟨k, w.publicKeyHex c, receipt.fullChain.length, now⟩) := by
  intro s
  have hkept : s.network.Inv ∧ s.Chained := by
    exact Along.invariant (I := fun s => s.network.Inv ∧ s.Chained)
      (fun _ _ hlegal h => Chained.step hcorrect hlegal h) hrun
      ⟨hstart.network.inv, hstart.chained⟩
  obtain ⟨hinv, h⟩ := hkept
  refine ⟨?_, ?_, ?_⟩
  · intro p hp tip htip w hw howner hfirst now receivedAt hissued hunexpired hcap
    have hadmits : w.utr.Admits ⟨p.1.tokenId, receivedAt, tip, p.2, false, some p.1⟩ :=
      h.admits hinv hw hp htip howner hfirst rfl rfl hcap
    exact ⟨_, _, DPCWallet.receiveToken_of_accepts
      ⟨hissued, hunexpired, h.valid p hp, tip, htip, howner⟩ htip rfl hadmits⟩
  · intro w _ tokenId receiverPubkeyHex now nonce w' parcel hsend
    exact isNextHop_of_sendToken hsend
  · intro w hw k receipt hget hunsettled now
    obtain ⟨-, token, htoken, rfl, hproduced, tip, htip, howner, -⟩ := h.entries w hw k receipt hget
    exact ⟨token, htoken, IssuerLedger.settleToken_of_valid (hinv.minted _ hproduced) (h.valid _ hproduced) htip
      howner hunsettled now⟩

/-- Alice is issued a token and sends it to Bob. -/
def plainEvents : List Event := (Network.RoundTrip.events.take 3).map .network

/-- Bob accepts it. -/
theorem accepted_on_first_delivery_paid :
    ∃ w ∈ (runFrom step ⟨Network.plainNetwork, []⟩ plainEvents).network.wallets.items,
      ∃ w' receipt, w.receiveToken plainCrypto Network.RoundTrip.paid.1 Network.RoundTrip.paid.2
        1003 1003 = .ok (w', receipt) := by
  have hstart : Start (c := plainCrypto) ⟨Network.plainNetwork, []⟩ :=
    ⟨⟨by decide +kernel, rfl, rfl⟩, rfl⟩
  have hbob : ∃ w ∈ (runFrom step ⟨Network.plainNetwork, []⟩ plainEvents).network.wallets.items,
      Custody.spend.receiverPubkeyHex = w.publicKeyHex plainCrypto ∧ w.utr.totalBalance = 0 ∧
        (w.publicKeyHex plainCrypto, Network.RoundTrip.paid) ∉
          (runFrom step ⟨Network.plainNetwork, []⟩ plainEvents).delivered := by decide +kernel
  obtain ⟨w, hw, howner, hbalance, hfirst⟩ := hbob
  have htip : Network.RoundTrip.paid.2.getLast? = some Custody.spend := by
    simp [Network.RoundTrip.paid]
  refine ⟨w, hw, (accepted_on_first_delivery plainCrypto_correct hstart (by decide +kernel)).1
    Network.RoundTrip.paid (by decide +kernel) Custody.spend htip w hw howner hfirst 1003 1003
    (by decide +kernel) (by decide +kernel) ?_⟩
  rw [hbalance]
  decide +kernel

end Circulation

end PocketCash.Dpc
