import Mathlib.Data.List.Count
import PocketCash.Offline.Wallet

/-!
# Networks of offline wallets

Wallets with different keys pay each other, and every bundle may be delivered to any of them, again
and again and in any order. A token is at each moment in one place at most: with the issuer, in the
unspent register of one wallet, or in a transfer that nobody has accepted yet.
-/

namespace PocketCash.Offline

/-- The wallets, the tokens that were minted but not handed out, the bundles that were made, and the
transfers that were accepted, each with the key of the wallet that accepted it. -/
structure Network where
  wallets : KeyedList Wallet.publicKeyHex
  issuer : Issuer
  unhanded : KeyedList Token.tokenId
  emitted : List PaymentBundle
  acceptances : List (String × String)

/-- One call. -/
inductive NetworkEvent
  | mint (ownerPk : String) (value : Int) (draw : MintDraw)
  | hand (tokenId : String)
  | pay (senderPk receiverPk : String) (amount : Int) (draw : PaymentDraw)
  | deliver (index : Nat) (receiverPk : String) (readings : Nat → ReceiptReading)

/-- The ids drawn for new tokens. -/
def NetworkEvent.mintedIds : NetworkEvent → List String
  | .mint _ _ draw => [draw.tokenId]
  | _ => []

/-- The ids of the transfers that the loop has accepted. -/
def Receiving.accepted (loop : Receiving) : List String :=
  (loop.results.filter fun r => r.2.1).map Prod.fst

namespace Network

/-- New wallets, given by their public and private keys and policies. -/
def start (issuer : Issuer) (members : Dict String (String × PolicyConfig)) : Network where
  wallets :=
    { items := members.items.map fun m => .new m.2.1 m.1 m.2.2
      nodup := by
        rw [List.map_map]
        exact members.nodup }
  issuer := issuer
  unhanded := .empty
  emitted := []
  acceptances := []

/-- The network after a wallet has handled some of the transfers of a bundle. -/
def afterReceiving (n : Network) (loop : Receiving) : Network :=
  { n with
    wallets := n.wallets.put loop.wallet
    acceptances := n.acceptances ++ loop.accepted.map fun id => (id, loop.wallet.publicKeyHex) }

/-- A token is handed to its owner once, and any emitted bundle may be delivered to any wallet. The
loop of `receive_bundle` is that of `receive_bundle_with_reasons`. -/
def step (c : Crypto) (n : Network) : NetworkEvent → Network
  | .mint ownerPk value draw =>
    let (issuer, token) := n.issuer.mintToken c ownerPk value draw
    { n with issuer := issuer, unhanded := n.unhanded.put token }
  | .hand tokenId =>
    match n.unhanded.find? tokenId with
    | none => n
    | some token =>
      match n.wallets.find? token.currentOwner with
      | none => n
      | some w =>
        match w.receiveToken token with
        | .error _ => n
        | .ok w' => { n with wallets := n.wallets.put w', unhanded := n.unhanded.pop tokenId }
  | .pay senderPk receiverPk amount draw =>
    match n.wallets.find? senderPk with
    | none => n
    | some w =>
      match w.createPayment c receiverPk amount draw with
      | (w', .error _) => { n with wallets := n.wallets.put w' }
      | (w', .ok bundle) =>
        { n with wallets := n.wallets.put w', emitted := n.emitted ++ [bundle] }
  | .deliver index receiverPk readings =>
    match n.emitted[index]?, n.wallets.find? receiverPk with
    | some bundle, some w => n.afterReceiving (w.receiveBundleWithReasons c bundle readings)
    | _, _ => n

/-- All transfers that were made. -/
def transfers (n : Network) : List Transfer := n.emitted.flatMap PaymentBundle.transfers

lemma transfers_emit (n : Network) (wallets : KeyedList Wallet.publicKeyHex)
    (bundle : PaymentBundle) :
    transfers { n with wallets := wallets, emitted := n.emitted ++ [bundle] }
      = n.transfers ++ bundle.transfers := by
  rw [transfers, List.flatMap_append, List.flatMap_singleton]
  rfl

/-- `uuid.uuid4()` draws new ids for tokens, and different ids for all transfers. -/
def DistinctIds (c : Crypto) (n : Network) (e : NetworkEvent) : Prop :=
  (∀ id ∈ e.mintedIds, id ∉ n.issuer.issuedTokens.keys) ∧
    ((n.step c e).transfers.map Transfer.transferId).Nodup
  deriving Decidable

/-- The ids of the accepted transfers. -/
def acceptedIds (n : Network) : List String := n.acceptances.map Prod.fst

/-- The transfers that nobody has accepted. -/
def outstanding (n : Network) : List Transfer :=
  n.transfers.filter fun t => t.transferId ∉ n.acceptedIds

/-- The ids in the unspent registers. -/
def held (n : Network) : List String := n.wallets.items.flatMap fun w => w.utr.keys

/-- In how many places a token is. -/
def copies (n : Network) (id : String) : Nat :=
  n.unhanded.keys.count id + n.held.count id + (n.outstanding.map Transfer.tokenId).count id

/-- What a run keeps: no token is in more places than it was issued, the transfers have different
ids, an accepted transfer was made for the wallet that has processed it, and the bundles are
honest. -/
structure Inv (n : Network) : Prop where
  copies_le : ∀ id, n.copies id ≤ n.issuer.issuedTokens.keys.count id
  transferIds : (n.transfers.map Transfer.transferId).Nodup
  acceptedIds : n.acceptedIds.Nodup
  accepted : ∀ p ∈ n.acceptances,
    (∃ t ∈ n.transfers, t.transferId = p.1 ∧ t.receiverPk = p.2) ∧
      ∃ w, n.wallets.find? p.2 = some w ∧ p.1 ∈ w.processedTransferIds
  honest : ∀ bundle ∈ n.emitted, bundle.Honest

variable {c : Crypto} {n : Network}

lemma inv_start (issuer : Issuer) (members : Dict String (String × PolicyConfig)) :
    (start issuer members).Inv := by
  have hheld : (start issuer members).held = [] := by
    rw [held, start, List.flatMap_map]
    exact List.flatMap_eq_nil_iff.mpr fun _ _ => rfl
  constructor
  · intro id
    rw [copies, hheld]
    simp [start, outstanding, transfers]
  · simp [start, transfers]
  · simp [start, Network.acceptedIds]
  · simp [start]
  · simp [start]

/-! ### What a call can do -/

/-- A token is handed to its owner, or nothing happens. -/
lemma step_hand_cases (c : Crypto) (n : Network) (tokenId : String) :
    n.step c (.hand tokenId) = n ∨
      ∃ token w w', n.unhanded.find? token.tokenId = some token ∧
        n.wallets.find? w'.publicKeyHex = some w ∧ w' = { w with utr := w.utr.put token } ∧
        n.step c (.hand tokenId) = { n with
          wallets := n.wallets.put w', unhanded := n.unhanded.pop token.tokenId } := by
  rw [step]
  split
  · exact .inl rfl
  · rename_i token htoken
    split
    · exact .inl rfl
    · rename_i w hw
      split
      · exact .inl rfl
      · rename_i w' hreceive
        obtain rfl : tokenId = token.tokenId := (KeyedList.find?_eq_some_iff.mp htoken).2.symm
        rw [Wallet.receiveToken] at hreceive
        split_ifs at hreceive with howner
        exact .inr ⟨token, w, w', htoken, Except.ok.inj hreceive ▸ not_not.mp howner ▸ hw,
          (Except.ok.inj hreceive).symm, rfl⟩

/-- A payment is completed, or marks tokens at most. -/
lemma step_pay_cases (c : Crypto) (n : Network) (senderPk receiverPk : String) (amount : Int)
    (draw : PaymentDraw) :
    n.step c (.pay senderPk receiverPk amount draw) = n ∨
      ∃ w w', n.wallets.find? w'.publicKeyHex = some w ∧
        ((∃ syncRequired, w' = { w with syncRequired := syncRequired } ∧
            n.step c (.pay senderPk receiverPk amount draw)
              = { n with wallets := n.wallets.put w' }) ∨
          ∃ bundle selected, w.PaysWith c w' receiverPk amount draw bundle selected ∧
            n.step c (.pay senderPk receiverPk amount draw)
              = { n with wallets := n.wallets.put w', emitted := n.emitted ++ [bundle] }) := by
  rw [step]
  split
  · exact .inl rfl
  · rename_i w hw
    obtain ⟨hmem, rfl⟩ := KeyedList.find?_eq_some_iff.mp hw
    rcases w.createPayment_cases c receiverPk amount draw with
      ⟨e, syncRequired, hraised⟩ | ⟨w', bundle, selected, hpaid, hpays⟩
    · rw [hraised]
      exact .inr ⟨w, { w with syncRequired := syncRequired }, hw, .inl ⟨syncRequired, rfl, rfl⟩⟩
    · rw [hpaid]
      exact .inr ⟨w, w', hpays.publicKeyHex ▸ hw, .inr ⟨bundle, selected, hpays, rfl⟩⟩

/-- Handling one more transfer of a bundle changes nothing, or accepts it with its token. -/
lemma afterReceiving_next_cases (c : Crypto) (n : Network) (tokens : Dict String Token)
    (loop : Receiving) (handled : Transfer × ReceiptReading) :
    n.afterReceiving (loop.next c tokens handled) = n.afterReceiving loop ∨
      ∃ token, tokens.get? handled.1.tokenId = some token ∧
        loop.wallet.Receives c handled.1 token handled.2 ∧
        n.afterReceiving (loop.next c tokens handled) =
          { n.afterReceiving loop with
            wallets := (n.afterReceiving loop).wallets.put (loop.wallet.receive c handled.1 token)
            acceptances := (n.afterReceiving loop).acceptances ++
              [(handled.1.transferId, loop.wallet.publicKeyHex)] } := by
  rcases loop.next_cases c tokens handled with
    ⟨hwallet, hresults⟩ | ⟨token, htoken, hreceives, hwallet, hresults⟩
  · left
    rw [afterReceiving, Receiving.accepted, hwallet, hresults]
    rfl
  · right
    have hput : (n.wallets.put loop.wallet).put (loop.wallet.receive c handled.1 token)
        = n.wallets.put (loop.wallet.receive c handled.1 token) := KeyedList.put_put rfl
    refine ⟨token, htoken, hreceives, ?_⟩
    simp [afterReceiving, Receiving.accepted, hwallet, hresults, hput]

/-- The invariant rule for deliveries: what accepting one transfer of an emitted bundle keeps, a
delivery keeps. -/
theorem deliver_invariant {c : Crypto} {n : Network} {I : Network → Prop} (h : I n)
    (hexchange : ∀ w, n.wallets.find? w.publicKeyHex = some w → I { n with
      wallets := n.wallets.put w })
    (haccept : ∀ n' w bundle t token reading, I n' →
      n'.wallets.find? w.publicKeyHex = some w → bundle ∈ n'.emitted → t ∈ bundle.transfers →
      bundle.tokens.get? t.tokenId = some token → w.Receives c t token reading →
      I { n' with
          wallets := n'.wallets.put (w.receive c t token)
          acceptances := n'.acceptances ++ [(t.transferId, w.publicKeyHex)] })
    (index : Nat) (receiverPk : String) (readings : Nat → ReceiptReading) :
    I (n.step c (.deliver index receiverPk readings)) := by
  rw [step]
  split
  · rename_i bundle w hbundle hw
    obtain ⟨-, rfl⟩ := KeyedList.find?_eq_some_iff.mp hw
    have hstart : I (n.afterReceiving ⟨w, [], none⟩) := by
      rw [afterReceiving, Receiving.accepted, List.filter_nil, List.map_nil, List.map_nil,
        List.append_nil]
      exact hexchange w hw
    have hmem : ∀ handled ∈ bundle.transfers.mapIdx fun i transfer => (transfer, readings i),
        handled.1 ∈ bundle.transfers := by
      intro handled hhandled
      obtain ⟨i, hi, rfl⟩ := List.mem_mapIdx.mp hhandled
      exact List.getElem_mem hi
    refine Along.invariant (I := fun loop => I (n.afterReceiving loop)) ?_ (.of_forall_mem hmem)
      hstart
    intro loop handled ht hI
    rcases n.afterReceiving_next_cases c bundle.tokens loop handled with
      hsame | ⟨token, htoken, hreceives, haccepted⟩
    · rwa [hsame]
    · rw [haccepted]
      exact haccept _ _ bundle _ _ _ hI KeyedList.find?_put_self (List.mem_of_getElem? hbundle) ht
        htoken hreceives
  · exact h

/-! ### What a run keeps -/

/-- The bundles of a network are honest, whatever ids are drawn. -/
lemma honest_step (h : ∀ bundle ∈ n.emitted, bundle.Honest) (e : NetworkEvent) :
    ∀ bundle ∈ (n.step c e).emitted, bundle.Honest := by
  cases e with
  | mint ownerPk value draw => exact h
  | hand tokenId =>
    rw [step]
    split
    · exact h
    · split
      · exact h
      · split <;> exact h
  | pay senderPk receiverPk amount draw =>
    rw [step]
    split
    · exact h
    · rename_i w hw
      rcases w.createPayment_cases c receiverPk amount draw with
        ⟨e, syncRequired, hraised⟩ | ⟨w', bundle, selected, hpaid, hpays⟩
      · rw [hraised]
        exact h
      · rw [hpaid]
        rw [List.forall_mem_append, List.forall_mem_singleton]
        exact ⟨h, hpays.honest⟩
  | deliver index receiverPk readings =>
    rw [step]
    split <;> exact h

/-- A wallet that is exchanged keeps the transfers it has processed. -/
lemma exists_processed_put {wallets : KeyedList Wallet.publicKeyHex} {w w' : Wallet}
    (hw : wallets.find? w'.publicKeyHex = some w)
    (hsub : w.processedTransferIds ⊆ w'.processedTransferIds) {pk id : String}
    (h : ∃ v, wallets.find? pk = some v ∧ id ∈ v.processedTransferIds) :
    ∃ v, (wallets.put w').find? pk = some v ∧ id ∈ v.processedTransferIds := by
  obtain ⟨v, hv, hid⟩ := h
  rw [KeyedList.find?_put]
  split_ifs with hpk
  · rw [hpk, hw] at hv
    cases hv
    exact ⟨w', rfl, hsub hid⟩
  · exact ⟨v, hv, hid⟩

/-- An issued token goes to the tokens that are not handed out. -/
lemma Inv.mint (h : n.Inv) {ownerPk : String} {value : Int} {draw : MintDraw}
    (hnew : draw.tokenId ∉ n.issuer.issuedTokens.keys) :
    (n.step c (.mint ownerPk value draw)).Inv := by
  have hunhanded : draw.tokenId ∉ n.unhanded.keys := by
    have hnone := List.count_eq_zero.mpr hnew
    have hcopies := h.copies_le draw.tokenId
    rw [copies] at hcopies
    exact List.count_eq_zero.mp (by omega)
  refine ⟨?_, h.transferIds, h.acceptedIds, h.accepted, h.honest⟩
  intro id
  have hcopies := h.copies_le id
  rw [copies] at hcopies
  show (n.unhanded.put (n.issuer.mintedToken c ownerPk value draw)).keys.count id +
    n.held.count id + (n.outstanding.map Transfer.tokenId).count id ≤
      (n.issuer.issuedTokens.put (n.issuer.mintedToken c ownerPk value draw)).keys.count id
  rw [KeyedList.count_keys_put hunhanded, KeyedList.count_keys_put hnew]
  omega

/-- What is held when a wallet is exchanged. -/
lemma exists_held_put {w w' : Wallet} (hw : n.wallets.find? w'.publicKeyHex = some w) :
    ∃ rest : List String, ∀ id, n.held.count id = w.utr.keys.count id + rest.count id ∧
      ((n.wallets.put w').items.flatMap fun w => w.utr.keys).count id
        = w'.utr.keys.count id + rest.count id := by
  obtain ⟨rest, hbefore, hafter⟩ := KeyedList.exists_flatMap_put (fun w => w.utr.keys) hw
  refine ⟨rest, fun id => ⟨?_, ?_⟩⟩
  · rw [held, hbefore.count_eq, List.count_append]
  · rw [hafter.count_eq, List.count_append]

/-- A token goes to its owner's unspent register. -/
lemma Inv.handTo (h : n.Inv) {token : Token} {w w' : Wallet}
    (htoken : n.unhanded.find? token.tokenId = some token)
    (hw : n.wallets.find? w'.publicKeyHex = some w)
    (hw' : w' = { w with utr := w.utr.put token }) :
    { n with wallets := n.wallets.put w', unhanded := n.unhanded.pop token.tokenId }.Inv := by
  obtain ⟨rest, hheld⟩ := exists_held_put hw
  have hnot : token.tokenId ∉ w.utr.keys := by
    have hcopies := h.copies_le token.tokenId
    have honce := List.nodup_iff_count_le_one.mp n.issuer.issuedTokens.keys_nodup token.tokenId
    rw [copies, KeyedList.count_keys_pop htoken, if_pos rfl, (hheld token.tokenId).1] at hcopies
    exact List.count_eq_zero.mp (by omega)
  refine ⟨?_, h.transferIds, h.acceptedIds, ?_, h.honest⟩
  · intro id
    have hcopies := h.copies_le id
    have hkeys : w'.utr.keys.count id
        = w.utr.keys.count id + if token.tokenId = id then 1 else 0 := by
      rw [hw']
      exact KeyedList.count_keys_put hnot id
    rw [copies, KeyedList.count_keys_pop htoken, (hheld id).1] at hcopies
    rw [copies, held, (hheld id).2, hkeys]
    show (n.unhanded.pop token.tokenId).keys.count id + _ +
      (n.outstanding.map Transfer.tokenId).count id ≤ n.issuer.issuedTokens.keys.count id
    omega
  · intro p hp
    obtain ⟨hmade, hprocessed⟩ := h.accepted p hp
    exact ⟨hmade, exists_processed_put hw (by rw [hw']) hprocessed⟩

lemma Inv.hand (h : n.Inv) (tokenId : String) : (n.step c (.hand tokenId)).Inv := by
  rcases n.step_hand_cases c tokenId with hsame | ⟨token, w, w', htoken, hw, hw', hstep⟩
  · rwa [hsame]
  · rw [hstep]
    exact h.handTo htoken hw hw'

/-- A wallet that changes none of the registers that matter here. -/
lemma Inv.exchange (h : n.Inv) {w w' : Wallet} (hw : n.wallets.find? w'.publicKeyHex = some w)
    (hutr : w'.utr = w.utr) (hprocessed : w'.processedTransferIds = w.processedTransferIds) :
    { n with wallets := n.wallets.put w' }.Inv := by
  obtain ⟨rest, hheld⟩ := exists_held_put hw
  refine ⟨?_, h.transferIds, h.acceptedIds, ?_, h.honest⟩
  · intro id
    have hcopies := h.copies_le id
    rw [copies, (hheld id).1, ← hutr, ← (hheld id).2] at hcopies
    exact hcopies
  · intro p hp
    obtain ⟨hmade, hexists⟩ := h.accepted p hp
    exact ⟨hmade, exists_processed_put hw hprocessed.ge hexists⟩

/-- A transfer with a new id was not accepted before. -/
lemma Inv.notMem_acceptedIds_of_new (h : n.Inv) {bundle : PaymentBundle}
    (hids : ((n.transfers ++ bundle.transfers).map Transfer.transferId).Nodup) {t : Transfer}
    (ht : t ∈ bundle.transfers) : t.transferId ∉ n.acceptedIds := by
  intro haccepted
  obtain ⟨p, hp, hid⟩ := List.mem_map.mp haccepted
  obtain ⟨⟨t', ht', hid', -⟩, -⟩ := h.accepted p hp
  rw [List.map_append] at hids
  exact (List.nodup_append.mp hids).2.2 _ (List.mem_map_of_mem ht') _ (List.mem_map_of_mem ht)
    (hid'.trans hid)

/-- Paid tokens go from the sender's unspent register to transfers that nobody has accepted. -/
lemma Inv.payFrom (h : n.Inv) {w w' : Wallet} {receiverPk : String} {draw : PaymentDraw}
    {bundle : PaymentBundle} {selected : List Token}
    (hw : n.wallets.find? w'.publicKeyHex = some w)
    (hpays : w.Pays c w' receiverPk draw bundle selected)
    (hids : ((n.transfers ++ bundle.transfers).map Transfer.transferId).Nodup) :
    { n with wallets := n.wallets.put w', emitted := n.emitted ++ [bundle] }.Inv := by
  obtain ⟨rest, hheld⟩ := exists_held_put hw
  have htransfers := n.transfers_emit (n.wallets.put w') bundle
  have hnew : ∀ t ∈ bundle.transfers, t.transferId ∉ n.acceptedIds := fun t ht =>
    h.notMem_acceptedIds_of_new hids ht
  refine ⟨?_, by rw [htransfers]; exact hids, h.acceptedIds, ?_, ?_⟩
  · intro id
    have hcopies := h.copies_le id
    have houtstanding : ((n.transfers ++ bundle.transfers).filter fun t =>
        t.transferId ∉ n.acceptedIds) = n.outstanding ++ bundle.transfers := by
      rw [List.filter_append, outstanding, List.filter_eq_self.mpr fun t ht =>
        decide_eq_true (hnew t ht)]
    have hkeys : w.utr.keys.count id
        = (selected.map Token.tokenId).count id + w'.utr.keys.count id := by
      rw [KeyedList.keys, (hpays.perm.map Token.tokenId).count_eq, List.map_append,
        List.count_append]
      rfl
    rw [copies, (hheld id).1, hkeys] at hcopies
    rw [copies, held, (hheld id).2, outstanding, htransfers]
    show n.unhanded.keys.count id + _ + (List.map Transfer.tokenId ((n.transfers ++
      bundle.transfers).filter fun t => t.transferId ∉ n.acceptedIds)).count id
        ≤ n.issuer.issuedTokens.keys.count id
    rw [houtstanding, List.map_append, List.count_append, hpays.map_tokenId]
    omega
  · intro p hp
    obtain ⟨⟨t, ht, hid⟩, hexists⟩ := h.accepted p hp
    refine ⟨⟨t, ?_, hid⟩, exists_processed_put hw hpays.processedTransferIds.ge hexists⟩
    rw [htransfers]
    exact List.mem_append_left _ ht
  · rw [List.forall_mem_append, List.forall_mem_singleton]
    exact ⟨h.honest, hpays.honest⟩

lemma Inv.pay (h : n.Inv) {senderPk receiverPk : String} {amount : Int} {draw : PaymentDraw}
    (hids : ((n.step c (.pay senderPk receiverPk amount draw)).transfers.map
      Transfer.transferId).Nodup) :
    (n.step c (.pay senderPk receiverPk amount draw)).Inv := by
  rcases n.step_pay_cases c senderPk receiverPk amount draw with
    hsame | ⟨w, w', hw, ⟨syncRequired, rfl, hstep⟩ | ⟨bundle, selected, hpays, hstep⟩⟩
  · rwa [hsame]
  · rw [hstep]
    exact h.exchange hw rfl rfl
  · rw [hstep, transfers_emit] at hids
    rw [hstep]
    exact h.payFrom hw hpays.toPays hids

/-- A transfer is accepted by its receiver only, and only once. -/
lemma Inv.notMem_acceptedIds (h : n.Inv) {w : Wallet}
    (hw : n.wallets.find? w.publicKeyHex = some w) {t : Transfer} (ht : t ∈ n.transfers)
    (hreceiver : t.receiverPk = w.publicKeyHex) (hnew : t.transferId ∉ w.processedTransferIds) :
    t.transferId ∉ n.acceptedIds := by
  intro haccepted
  obtain ⟨p, hp, hid⟩ := List.mem_map.mp haccepted
  obtain ⟨⟨t', ht', hid', hreceiver'⟩, v, hv, hprocessed⟩ := h.accepted p hp
  obtain rfl : t' = t := List.inj_on_of_nodup_map h.transferIds ht' ht (hid'.trans hid)
  rw [← hreceiver', hreceiver, hw] at hv
  cases hv
  exact hnew (hid ▸ hprocessed)

/-- An accepted transfer is no longer outstanding. -/
lemma Inv.count_outstanding (h : n.Inv) {t : Transfer} (ht : t ∈ n.transfers)
    (hnew : t.transferId ∉ n.acceptedIds) (id : String) :
    (n.outstanding.map Transfer.tokenId).count id
      = ((n.transfers.filter fun t' => t'.transferId ∉ n.acceptedIds ++ [t.transferId]).map
          Transfer.tokenId).count id + if t.tokenId = id then 1 else 0 := by
  let d : KeyedList Transfer.transferId :=
    ⟨n.outstanding, h.transferIds.sublist (List.filter_sublist.map _)⟩
  have hfind : d.find? t.transferId = some t :=
    KeyedList.find?_of_mem (List.mem_filter.mpr ⟨ht, decide_eq_true hnew⟩)
  have hrest : (d.pop t.transferId).items
      = n.transfers.filter fun t' => t'.transferId ∉ n.acceptedIds ++ [t.transferId] := by
    show (n.outstanding.filter fun t' => t'.transferId ≠ t.transferId) = _
    rw [outstanding, List.filter_filter]
    apply List.filter_congr
    intro t' _
    simp [and_comm]
  have hperm := (KeyedList.perm_pop hfind).map Transfer.tokenId
  rw [hrest] at hperm
  rw [hperm.count_eq, List.map_cons, List.count_cons]
  simp

/-- An accepted transfer moves its token to the receiver's unspent register. -/
lemma Inv.accept (h : n.Inv) {w : Wallet} (hw : n.wallets.find? w.publicKeyHex = some w)
    {t : Transfer} {token : Token} {reading : ReceiptReading} (ht : t ∈ n.transfers)
    (htoken : token.tokenId = t.tokenId) (hreceives : w.Receives c t token reading) :
    { n with
      wallets := n.wallets.put (w.receive c t token)
      acceptances := n.acceptances ++ [(t.transferId, w.publicKeyHex)] }.Inv := by
  have hnew := h.notMem_acceptedIds hw ht hreceives.receiver hreceives.unprocessed
  have hreceiver : n.wallets.find? (w.receive c t token).publicKeyHex = some w := hw
  obtain ⟨rest, hheld⟩ := exists_held_put hreceiver
  have hnot : token.tokenId ∉ w.utr.keys := by
    have hcopies := h.copies_le token.tokenId
    have honce := List.nodup_iff_count_le_one.mp n.issuer.issuedTokens.keys_nodup token.tokenId
    rw [copies, (hheld token.tokenId).1, h.count_outstanding ht hnew, if_pos htoken.symm] at hcopies
    exact List.count_eq_zero.mp (by omega)
  have hids : n.acceptances.map Prod.fst ++ [t.transferId]
      = (n.acceptances ++ [(t.transferId, w.publicKeyHex)]).map Prod.fst := by simp
  refine ⟨?_, h.transferIds, ?_, ?_, h.honest⟩
  · intro id
    have hcopies := h.copies_le id
    have hkeys : (w.receive c t token).utr.keys.count id
        = w.utr.keys.count id + if t.tokenId = id then 1 else 0 := by
      rw [← htoken]
      exact KeyedList.count_keys_put (a := w.receivedToken c t token) hnot id
    rw [copies, (hheld id).1, h.count_outstanding ht hnew] at hcopies
    rw [copies, held, (hheld id).2, hkeys, outstanding, Network.acceptedIds, ← hids]
    show n.unhanded.keys.count id + _ + ((n.transfers.filter fun t' =>
      t'.transferId ∉ n.acceptedIds ++ [t.transferId]).map Transfer.tokenId).count id
        ≤ n.issuer.issuedTokens.keys.count id
    omega
  · rw [Network.acceptedIds, ← hids]
    exact List.nodup_append.mpr ⟨h.acceptedIds, List.nodup_singleton _, fun id hid _ hsame heq =>
      hnew (List.mem_singleton.mp hsame ▸ heq ▸ hid)⟩
  · have hgrown : w.processedTransferIds ⊆ (w.receive c t token).processedTransferIds :=
      Finset.subset_insert _ _
    rw [List.forall_mem_append, List.forall_mem_singleton]
    refine ⟨?_, ⟨t, ht, rfl, hreceives.receiver⟩, w.receive c t token, ?_, ?_⟩
    · intro p hp
      obtain ⟨hmade, hexists⟩ := h.accepted p hp
      exact ⟨hmade, exists_processed_put hreceiver hgrown hexists⟩
    · exact KeyedList.find?_put_self
    · exact Finset.mem_insert_self _ _

/-- An emitted bundle may be delivered to any wallet, at any time and again. -/
lemma Inv.deliver (h : n.Inv) (index : Nat) (receiverPk : String)
    (readings : Nat → ReceiptReading) : (n.step c (.deliver index receiverPk readings)).Inv := by
  refine deliver_invariant (I := Inv) h (fun w hw => h.exchange hw rfl rfl) ?_ index receiverPk
    readings
  intro n' w bundle t token reading h hw hbundle ht htoken hreceives
  obtain ⟨token', htoken', hid⟩ := (h.honest bundle hbundle).tokens t ht
  rw [htoken] at htoken'
  cases htoken'
  exact h.accept hw (List.mem_flatMap.mpr ⟨bundle, hbundle, ht⟩) hid hreceives

lemma Inv.step (h : n.Inv) {e : NetworkEvent} (hids : n.DistinctIds c e) : (n.step c e).Inv := by
  cases e with
  | mint ownerPk value draw => exact h.mint (hids.1 _ List.mem_cons_self)
  | hand tokenId => exact h.hand tokenId
  | pay senderPk receiverPk amount draw => exact h.pay hids.2
  | deliver index receiverPk readings => exact h.deliver index receiverPk readings

/-- A token in two wallets would be in two places. -/
lemma Inv.eq_of_mem_utr (h : n.Inv) {w w' : Wallet} (hw : w ∈ n.wallets.items)
    (hw' : w' ∈ n.wallets.items) {id : String} (hid : id ∈ w.utr.keys) (hid' : id ∈ w'.utr.keys) :
    w = w' := by
  have hnodup : n.held.Nodup := by
    rw [List.nodup_iff_count_le_one]
    intro id
    have hcopies := h.copies_le id
    have honce := List.nodup_iff_count_le_one.mp n.issuer.issuedTokens.keys_nodup id
    rw [copies] at hcopies
    omega
  by_contra hne
  have hsymm : Std.Symm (Function.onFun List.Disjoint fun w : Wallet => w.utr.keys) :=
    ⟨fun _ _ hdisjoint => hdisjoint.symm⟩
  exact (List.nodup_flatMap.mp hnodup).2.forall hw hw' hne hid hid'

/-- In every run, each token is in the unspent register of one wallet at most, and each transfer is
accepted at most once in the whole network. -/
theorem one_purse {issuer : Issuer} {members : Dict String (String × PolicyConfig)}
    {es : List NetworkEvent} (hrun : Along (step c) (DistinctIds c) (start issuer members) es) :
    let n := runFrom (step c) (start issuer members) es
    (∀ w ∈ n.wallets.items, ∀ w' ∈ n.wallets.items, ∀ id, id ∈ w.utr.keys → id ∈ w'.utr.keys →
      w = w') ∧
    n.acceptedIds.Nodup := by
  have hinv := Along.invariant (fun _ _ hids h => Inv.step h hids) hrun (inv_start issuer members)
  exact ⟨fun w hw w' hw' id => hinv.eq_of_mem_utr hw hw', hinv.acceptedIds⟩

/-- Three wallets with the private keys `sk:…`. -/
def plainMembers : Dict String (String × PolicyConfig) where
  items := ["alice", "bob", "carol"].map fun pk => (pk, "sk:" ++ pk, .default)
  nodup := by decide

/-- A payment of one token, at second 1001. -/
def plainPayment (senderPk receiverPk transferId : String) : NetworkEvent :=
  .pay senderPk receiverPk 100 ⟨1001000000, fun _ => ⟨transferId, 1001000000⟩, "bundle"⟩

def plainDelivery (index : Nat) (receiverPk : String) : NetworkEvent :=
  .deliver index receiverPk fun _ => ⟨1002000000, 1002000000⟩

/-- Alice's token goes to Bob and back. Both bundles are delivered to the wrong wallet and twice. -/
def roundTrip : List NetworkEvent :=
  [.mint "alice" 100 ⟨"t1", 1000000000, 1000000000⟩, .hand "t1",
    plainPayment "alice" "bob" "x1", plainDelivery 0 "carol", plainDelivery 0 "bob",
    plainPayment "bob" "alice" "x2", plainDelivery 0 "bob", plainDelivery 1 "alice",
    plainDelivery 1 "alice"]

theorem one_purse_roundTrip :
    let n := runFrom (step plainCrypto) (start plainIssuer plainMembers) roundTrip
    (∀ w ∈ n.wallets.items, ∀ w' ∈ n.wallets.items, ∀ id, id ∈ w.utr.keys → id ∈ w'.utr.keys →
      w = w') ∧
    n.acceptedIds.Nodup :=
  one_purse (by decide +kernel)

/-- Each transfer is accepted on its first delivery to its receiver. -/
example : (runFrom (step plainCrypto) (start plainIssuer plainMembers) roundTrip).acceptances
    = [("x1", "bob"), ("x2", "alice")] := by
  decide +kernel

end Network

end PocketCash.Offline
