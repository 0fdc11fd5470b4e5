import PocketCash.Offline.Network

/-!
# The history of a token

A token counts its transfers twice: the payer advances `nonce` on the copy in the bundle, the payee
advances `hop_count`, and the payee writes the id and the hash of the transfer. All of them describe
the history of the token, the list of its accepted transfers, and a transfer links to the history at
the time at which it was made.
-/

namespace PocketCash.Offline

namespace Network

variable {c : Crypto} {n : Network}

/-! ### Places -/

lemma mem_outstanding {t : Transfer} :
    t ∈ n.outstanding ↔ t ∈ n.transfers ∧ t.transferId ∉ n.acceptedIds := by
  rw [outstanding, List.mem_filter, decide_eq_true_eq]

/-- A token is in one place at most. -/
lemma Inv.copies_le_one (h : n.Inv) (id : String) : n.copies id ≤ 1 :=
  (h.copies_le id).trans (List.nodup_iff_count_le_one.mp n.issuer.issuedTokens.keys_nodup id)

/-- A held token is not in a transfer that nobody has accepted. -/
lemma Inv.notMem_outstanding (h : n.Inv) {w : Wallet} (hw : w ∈ n.wallets.items) {t : Transfer}
    (ht : t ∈ n.outstanding) : t.tokenId ∉ w.utr.keys := by
  intro hheld
  have hmem : t.tokenId ∈ n.held := List.mem_flatMap.mpr ⟨w, hw, hheld⟩
  have hplace := List.count_pos_iff.mpr hmem
  have hother := List.count_pos_iff.mpr (List.mem_map_of_mem (f := Transfer.tokenId) ht)
  have hcopies := h.copies_le_one t.tokenId
  rw [copies] at hcopies
  omega

/-- Neither is a token that was not handed out. -/
lemma Inv.notMem_unhanded (h : n.Inv) {t : Transfer} (ht : t ∈ n.outstanding) :
    t.tokenId ∉ n.unhanded.keys := by
  intro hmem
  have hplace := List.count_pos_iff.mpr hmem
  have hother := List.count_pos_iff.mpr (List.mem_map_of_mem (f := Transfer.tokenId) ht)
  have hcopies := h.copies_le_one t.tokenId
  rw [copies] at hcopies
  omega

/-- A token is in one transfer at most that nobody has accepted. -/
lemma Inv.eq_of_outstanding (h : n.Inv) {t t' : Transfer} (ht : t ∈ n.outstanding)
    (ht' : t' ∈ n.outstanding) (hid : t.tokenId = t'.tokenId) : t = t' := by
  have hnodup : (n.outstanding.map Transfer.tokenId).Nodup := by
    rw [List.nodup_iff_count_le_one]
    intro id
    have hcopies := h.copies_le_one id
    rw [copies] at hcopies
    omega
  exact List.inj_on_of_nodup_map hnodup ht ht' hid

/-- A held token was issued. -/
lemma Inv.issued_of_held (h : n.Inv) {w : Wallet} (hw : w ∈ n.wallets.items) {id : String}
    (hid : id ∈ w.utr.keys) : id ∈ n.issuer.issuedTokens.keys := by
  have hplace := List.count_pos_iff.mpr
    (show id ∈ n.held from List.mem_flatMap.mpr ⟨w, hw, hid⟩)
  have hcopies := h.copies_le id
  rw [copies] at hcopies
  exact List.count_pos_iff.mp (by omega)

/-! ### Histories -/

/-- The accepted transfers of a token, in the order in which they were accepted. -/
def history (n : Network) (tokenId : String) : List Transfer :=
  (n.acceptances.filterMap fun p => n.transfers.find? fun t => t.transferId = p.1).filter
    fun t => t.tokenId = tokenId

lemma mem_history {t : Transfer} {tokenId : String} (h : t ∈ n.history tokenId) :
    t ∈ n.transfers ∧ t.transferId ∈ n.acceptedIds ∧ t.tokenId = tokenId := by
  rw [history, List.mem_filter, List.mem_filterMap, decide_eq_true_eq] at h
  obtain ⟨⟨p, hp, hfind⟩, hid⟩ := h
  have htransfer : t.transferId = p.1 := by simpa using List.find?_some hfind
  exact ⟨List.mem_of_find?_eq_some hfind, List.mem_map.mpr ⟨p, hp, htransfer.symm⟩, hid⟩

/-- The id of a transfer finds it. -/
lemma Inv.find?_transferId (h : n.Inv) {t : Transfer} (ht : t ∈ n.transfers) :
    (n.transfers.find? fun t' => t'.transferId = t.transferId) = some t :=
  KeyedList.find?_of_mem (d := ⟨n.transfers, h.transferIds⟩) ht

/-- Making transfers is no part of a history. -/
lemma Inv.history_emit (h : n.Inv) (bundle : PaymentBundle) (wallets : KeyedList Wallet.publicKeyHex)
    (tokenId : String) :
    history { n with wallets := wallets, emitted := n.emitted ++ [bundle] } tokenId
      = n.history tokenId := by
  refine congrArg (List.filter _) (List.filterMap_congr ?_)
  intro p hp
  obtain ⟨⟨t, ht, hid, -⟩, -⟩ := h.accepted p hp
  rw [transfers_emit, List.find?_append, ← hid, h.find?_transferId ht, Option.some_or]

/-- An accepted transfer goes to the end of the history of its token. -/
lemma Inv.history_accept (h : n.Inv) {t : Transfer} (ht : t ∈ n.transfers) (pk : String)
    (wallets : KeyedList Wallet.publicKeyHex) (tokenId : String) :
    history { n with wallets := wallets, acceptances := n.acceptances ++ [(t.transferId, pk)] } tokenId
      = n.history tokenId ++ if t.tokenId = tokenId then [t] else [] := by
  have hlast : [(t.transferId, pk)].filterMap
      (fun p => n.transfers.find? fun t' => t'.transferId = p.1) = [t] :=
    List.filterMap_cons_some (h.find?_transferId ht)
  have hsplit : history { n with
        wallets := wallets, acceptances := n.acceptances ++ [(t.transferId, pk)] } tokenId
      = n.history tokenId ++ List.filter (fun t => t.tokenId = tokenId) ([(t.transferId, pk)].filterMap
          fun p => n.transfers.find? fun t' => t'.transferId = p.1) := by
    rw [history, List.filterMap_append, List.filter_append]
    rfl
  rw [hsplit, hlast, List.filter_singleton]
  simp

/-- The past of a transfer: the transfers of its token that were accepted before it, which are all of
them if it is not accepted itself. -/
def PastOf (n : Network) (t : Transfer) (past : List Transfer) : Prop :=
  (t.transferId ∉ n.acceptedIds ∧ n.history t.tokenId = past) ∨
    ∃ later, n.history t.tokenId = past ++ t :: later

/-- An outstanding transfer would extend the whole history. -/
lemma PastOf.eq_history {t : Transfer} {past : List Transfer} (h : n.PastOf t past)
    (hnew : t.transferId ∉ n.acceptedIds) : n.history t.tokenId = past := by
  rcases h with ⟨-, hpast⟩ | ⟨later, hpast⟩
  · exact hpast
  · have hmem : t ∈ n.history t.tokenId := by simp [hpast]
    exact absurd (mem_history hmem).2.1 hnew

/-- Accepting a transfer leaves the past of every transfer as it is. -/
lemma PastOf.accept {t t' : Transfer} {past : List Transfer} (h : n.PastOf t' past) (hinv : n.Inv)
    (ht : t ∈ n.outstanding) (ht' : t' ∈ n.transfers) (pk : String)
    (wallets : KeyedList Wallet.publicKeyHex) :
    PastOf { n with wallets := wallets, acceptances := n.acceptances ++ [(t.transferId, pk)] } t'
      past := by
  have htransfer := (mem_outstanding.mp ht).1
  have hhistory := hinv.history_accept htransfer pk wallets t'.tokenId
  rcases h with ⟨hnew, hpast⟩ | ⟨later, hpast⟩
  · by_cases hsame : t' = t
    · subst hsame
      exact .inr ⟨[], by rw [hhistory, if_pos rfl, hpast]⟩
    · -- a token in two outstanding transfers would be in two places
      have hother : t.tokenId ≠ t'.tokenId := fun heq =>
        hsame (hinv.eq_of_outstanding (mem_outstanding.mpr ⟨ht', hnew⟩) ht heq.symm)
      have hid : t'.transferId ≠ t.transferId := fun heq =>
        hsame (List.inj_on_of_nodup_map hinv.transferIds ht' htransfer heq)
      refine .inl ⟨?_, by rw [hhistory, if_neg hother, List.append_nil, hpast]⟩
      simpa [acceptedIds, hid] using hnew
  · exact .inr ⟨later ++ if t.tokenId = t'.tokenId then [t] else [], by rw [hhistory, hpast]; simp⟩

/-! ### What tokens and transfers record -/

/-- The token counts the transfers of its history twice, and names the last one. -/
structure Records (c : Crypto) (token : Token) (past : List Transfer) : Prop where
  nonce : token.nonce = past.length
  hopCount : token.hopCount = past.length
  lastTransferId : token.lastTransferId = past.getLast?.map Transfer.transferId
  lastTransferHash : token.lastTransferHash = past.getLast?.map c.payloadHash

/-- The transfer counts itself after its past, within the limit, and links to the last transfer of
it. -/
structure Continues (c : Crypto) (maxHops : Int) (t : Transfer) (past : List Transfer) : Prop where
  nonce : t.nonce = past.length + 1
  hopCount : t.hopCount = past.length + 1
  bounded : t.nonce ≤ maxHops
  parentTransferId : t.parentTransferId = past.getLast?.map Transfer.transferId
  parentTransferHash : t.parentTransferHash = past.getLast?.map c.payloadHash
  prevTransferHash : t.prevTransferHash = past.getLast?.map c.payloadHash

/-- What is known about a token in the unspent register of `pk`. -/
structure Holds (c : Crypto) (maxHops : Int) (history : String → List Transfer) (pk : String)
    (token : Token) : Prop where
  records : Records c token (history token.tokenId)
  receiver : ∀ t ∈ (history token.tokenId).getLast?, t.receiverPk = pk
  bounded : token.nonce ≤ max 0 maxHops
  aware : token.createdAt.utcOffset.isSome = true

/-- What is known about the token that goes with a transfer. -/
structure Accompanies (token : Token) (t : Transfer) (past : List Transfer) : Prop where
  nonce : token.nonce = t.nonce
  hopCount : token.hopCount = past.length
  aware : token.createdAt.utcOffset.isSome = true

/-- What a wallet stores when it accepts a transfer records the history with the transfer. -/
lemma holds_receivedToken {maxHops : Int} {history : String → List Transfer} {w : Wallet}
    {t : Transfer} {token : Token} {past : List Transfer} (hcontinues : Continues c maxHops t past)
    (haccompanies : Accompanies token t past) (hreceiver : t.receiverPk = w.publicKeyHex)
    (hhistory : history token.tokenId = past ++ [t]) :
    Holds c maxHops history w.publicKeyHex (w.receivedToken c t token) := by
  have hnonce : (w.receivedToken c t token).nonce = t.nonce := haccompanies.nonce
  have hnow : history (w.receivedToken c t token).tokenId = past ++ [t] := hhistory
  have hlength : ((past ++ [t]).length : Int) = past.length + 1 := by simp
  have hlast : (past ++ [t]).getLast? = some t := by simp
  refine ⟨⟨?_, ?_, ?_, ?_⟩, ?_, ?_, haccompanies.aware⟩
  · rw [hnow, hnonce, hlength, hcontinues.nonce]
  · rw [hnow, hlength]
    exact congrArg (· + 1) haccompanies.hopCount
  · rw [hnow, hlast]
    rfl
  · rw [hnow, hlast]
    rfl
  · rw [hnow, hlast]
    rintro _ ⟨⟩
    exact hreceiver
  · rw [hnonce]
    exact hcontinues.bounded.trans (le_max_right _ _)

/-- The transfer that a wallet makes of a token below the limit continues the history. -/
lemma Holds.signedTransfer {maxHops : Int} {history : String → List Transfer} {pk : String}
    {token : Token} (h : Holds c maxHops history pk token) (hbelow : token.nonce < maxHops)
    (w : Wallet) (receiverPk : String) (draw : TransferDraw) :
    Continues c maxHops (w.signedTransfer c receiverPk token draw) (history token.tokenId) ∧
      Accompanies (Wallet.outboundToken receiverPk token)
        (w.signedTransfer c receiverPk token draw) (history token.tokenId) := by
  have hrecords := h.records
  constructor
  · exact ⟨congrArg (· + 1) hrecords.nonce, congrArg (· + 1) hrecords.hopCount, hbelow,
      hrecords.lastTransferId, hrecords.lastTransferHash, hrecords.lastTransferHash⟩
  · exact ⟨rfl, hrecords.hopCount, h.aware⟩

/-- What is known about the wallet of one of the members, if the transfers `made` were made. -/
structure WalletInv (c : Crypto) (members : Dict String (String × PolicyConfig)) (maxHops : Int)
    (made : List Transfer) (history : String → List Transfer) (w : Wallet) : Prop where
  member : (w.publicKeyHex, w.privateKeyHex, w.policy) ∈ members.items
  processed : ∀ id ∈ w.processedTransferIds, ∃ t ∈ made, t.transferId = id
  held : ∀ token ∈ w.utr.items, Holds c maxHops history w.publicKeyHex token

/-- What a run of wallets with one hop limit keeps. -/
structure HistoryInv (c : Crypto) (members : Dict String (String × PolicyConfig)) (maxHops : Int)
    (n : Network) : Prop where
  inv : n.Inv
  issued : ∀ t ∈ n.transfers, t.tokenId ∈ n.issuer.issuedTokens.keys
  unhanded : ∀ token ∈ n.unhanded.items, n.history token.tokenId = [] ∧ Records c token [] ∧
    token.createdAt.utcOffset.isSome = true
  wallets : ∀ w ∈ n.wallets.items, WalletInv c members maxHops n.transfers n.history w
  emitted : ∀ bundle ∈ n.emitted, ∀ t ∈ bundle.transfers, ∃ past token, n.PastOf t past ∧
    Continues c maxHops t past ∧ bundle.tokens.get? t.tokenId = some token ∧
    Accompanies token t past

variable {members : Dict String (String × PolicyConfig)} {maxHops : Int}

/-- A wallet is not concerned by what happens to tokens that it does not hold. -/
lemma WalletInv.congr {made made' : List Transfer} {history history' : String → List Transfer}
    {w : Wallet} (h : WalletInv c members maxHops made history w)
    (hmade : ∀ t ∈ made, t ∈ made')
    (hhistory : ∀ token ∈ w.utr.items, history' token.tokenId = history token.tokenId) :
    WalletInv c members maxHops made' history' w where
  member := h.member
  processed := by
    intro id hid
    obtain ⟨t, ht, hsame⟩ := h.processed id hid
    exact ⟨t, hmade t ht, hsame⟩
  held := by
    intro token htoken
    have hholds := h.held token htoken
    have hsame := hhistory token htoken
    exact ⟨hsame ▸ hholds.records, hsame ▸ hholds.receiver, hholds.bounded, hholds.aware⟩

lemma historyInv_start (c : Crypto) (issuer : Issuer) (members : Dict String (String × PolicyConfig))
    (maxHops : Int) : (start issuer members).HistoryInv c members maxHops where
  inv := inv_start issuer members
  issued := by simp [start, transfers]
  unhanded := List.forall_mem_nil _
  wallets := by
    intro w hw
    obtain ⟨m, hm, rfl⟩ := List.mem_map.mp hw
    exact ⟨hm, by simp [Wallet.new], List.forall_mem_nil _⟩
  emitted := List.forall_mem_nil _

namespace HistoryInv

lemma mint (h : n.HistoryInv c members maxHops) {ownerPk : String} {value : Int} {draw : MintDraw}
    (hnew : draw.tokenId ∉ n.issuer.issuedTokens.keys) :
    (n.step c (.mint ownerPk value draw)).HistoryInv c members maxHops where
  inv := h.inv.mint hnew
  issued := fun t ht => KeyedList.mem_keys_put.mpr (.inr (h.issued t ht))
  unhanded := by
    -- a transfer in the history would be of an issued token
    have hempty : n.history draw.tokenId = [] := by
      refine List.eq_nil_iff_forall_not_mem.mpr ?_
      intro t ht
      obtain ⟨htransfer, -, hid⟩ := mem_history ht
      exact hnew (hid ▸ h.issued t htransfer)
    exact KeyedList.forall_mem_put h.unhanded ⟨hempty, ⟨rfl, rfl, rfl, rfl⟩, rfl⟩
  wallets := h.wallets
  emitted := h.emitted

lemma handTo (h : n.HistoryInv c members maxHops) {token : Token} {w w' : Wallet}
    (htoken : n.unhanded.find? token.tokenId = some token)
    (hw : n.wallets.find? w'.publicKeyHex = some w)
    (hw' : w' = { w with utr := w.utr.put token }) :
    { n with wallets := n.wallets.put w',
             unhanded := n.unhanded.pop token.tokenId }.HistoryInv c members maxHops where
  inv := h.inv.handTo htoken hw hw'
  issued := h.issued
  unhanded := fun t ht => h.unhanded t (KeyedList.mem_pop.mp ht).1
  wallets := by
    obtain ⟨hempty, hrecords, haware⟩ := h.unhanded token (KeyedList.find?_eq_some_iff.mp htoken).1
    have hwallet := h.wallets w (KeyedList.find?_eq_some_iff.mp hw).1
    have hfresh : Holds c maxHops n.history w.publicKeyHex token := by
      have hnonce : token.nonce = 0 := hrecords.nonce
      exact ⟨by rwa [hempty], by simp [hempty], by omega, haware⟩
    subst hw'
    exact KeyedList.forall_mem_put h.wallets
      ⟨hwallet.member, hwallet.processed, KeyedList.forall_mem_put hwallet.held hfresh⟩
  emitted := h.emitted

/-- A spendable token leaves with a transfer that continues its history. -/
lemma payFrom (h : n.HistoryInv c members maxHops)
    (hshared : ∀ m ∈ members.items, m.2.2.maxHops = maxHops) {w w' : Wallet} {receiverPk : String}
    {amount : Int} {draw : PaymentDraw} {bundle : PaymentBundle} {selected : List Token}
    (hw : n.wallets.find? w'.publicKeyHex = some w)
    (hpays : w.PaysWith c w' receiverPk amount draw bundle selected)
    (hids : ((n.transfers ++ bundle.transfers).map Transfer.transferId).Nodup) :
    { n with wallets := n.wallets.put w',
             emitted := n.emitted ++ [bundle] }.HistoryInv c members maxHops := by
  let n' : Network := { n with wallets := n.wallets.put w', emitted := n.emitted ++ [bundle] }
  have hmem : w ∈ n.wallets.items := (KeyedList.find?_eq_some_iff.mp hw).1
  have hwallet := h.wallets w hmem
  have hchosen : ∀ token ∈ selected, token ∈ w.utr.items := fun token htoken =>
    hpays.perm.mem_iff.mpr (List.mem_append_left _ htoken)
  have htransfers : n'.transfers = n.transfers ++ bundle.transfers :=
    n.transfers_emit (n.wallets.put w') bundle
  have hmade : ∀ t ∈ n.transfers, t ∈ n'.transfers := fun t ht =>
    htransfers ▸ List.mem_append_left _ ht
  have hhistory : ∀ id, n'.history id = n.history id := fun id =>
    h.inv.history_emit bundle (n.wallets.put w') id
  have hpast : ∀ t past, n.PastOf t past → n'.PastOf t past := fun t past hpast => by
    rwa [PastOf, hhistory]
  refine ⟨h.inv.payFrom hw hpays.toPays hids, ?_, ?_, ?_, ?_⟩
  · show ∀ t ∈ n'.transfers, _
    rw [htransfers, List.forall_mem_append]
    refine ⟨h.issued, ?_⟩
    intro t ht
    obtain ⟨token, htoken, i, rfl, -⟩ := hpays.exists_of_mem ht
    exact h.inv.issued_of_held hmem (KeyedList.key_mem_keys (hchosen token htoken))
  · intro token htoken
    obtain ⟨hempty, hrest⟩ := h.unhanded token htoken
    exact ⟨(hhistory _).trans hempty, hrest⟩
  · have hothers : ∀ v ∈ n.wallets.items, WalletInv c members maxHops n'.transfers n'.history v :=
      fun v hv => (h.wallets v hv).congr hmade fun _ _ => hhistory _
    have hsender := hothers w hmem
    refine KeyedList.forall_mem_put hothers ⟨?_, ?_, ?_⟩
    · rw [hpays.publicKeyHex, hpays.privateKeyHex, hpays.policy]
      exact hsender.member
    · rw [hpays.processedTransferIds]
      exact hsender.processed
    · rw [hpays.publicKeyHex]
      exact fun token htoken => hsender.held token
        (hpays.perm.mem_iff.mpr (List.mem_append_right _ htoken))
  · show ∀ bundle' ∈ n.emitted ++ [bundle], _
    rw [List.forall_mem_append, List.forall_mem_singleton]
    constructor
    · intro bundle' hbundle' t ht
      obtain ⟨past, token, hold, hrest⟩ := h.emitted bundle' hbundle' t ht
      exact ⟨past, token, hpast t past hold, hrest⟩
    · intro t ht
      have hnew := h.inv.notMem_acceptedIds_of_new hids ht
      obtain ⟨token, htoken, i, rfl, hcopy⟩ := hpays.exists_of_mem ht
      have hbelow : token.nonce < maxHops := by
        rw [← hshared _ hwallet.member]
        exact (Wallet.isTokenSpendable_eq_true_iff.mp (hpays.spendable token htoken)).2
      obtain ⟨hcontinues, haccompanies⟩ := (hwallet.held token (hchosen token htoken)).signedTransfer
        hbelow w receiverPk (draw.transfers i)
      exact ⟨n.history token.tokenId, _, .inl ⟨hnew, hhistory _⟩, hcontinues, hcopy, haccompanies⟩

/-- An accepted transfer goes to the history of its token, which its receiver holds now. -/
lemma accept (h : n.HistoryInv c members maxHops) {w : Wallet} {bundle : PaymentBundle}
    {t : Transfer} {token : Token} {reading : ReceiptReading}
    (hw : n.wallets.find? w.publicKeyHex = some w) (hbundle : bundle ∈ n.emitted)
    (ht : t ∈ bundle.transfers) (htoken : bundle.tokens.get? t.tokenId = some token)
    (hreceives : w.Receives c t token reading) :
    { n with
      wallets := n.wallets.put (w.receive c t token)
      acceptances := n.acceptances ++
        [(t.transferId, w.publicKeyHex)] }.HistoryInv c members maxHops := by
  let n' : Network := { n with
    wallets := n.wallets.put (w.receive c t token)
    acceptances := n.acceptances ++ [(t.transferId, w.publicKeyHex)] }
  have htransfer : t ∈ n.transfers := List.mem_flatMap.mpr ⟨bundle, hbundle, ht⟩
  have hnew := h.inv.notMem_acceptedIds hw htransfer hreceives.receiver hreceives.unprocessed
  have hplace : t ∈ n.outstanding := mem_outstanding.mpr ⟨htransfer, hnew⟩
  have hid : token.tokenId = t.tokenId := by
    obtain ⟨token', htoken', hid⟩ := (h.inv.honest bundle hbundle).tokens t ht
    rw [htoken] at htoken'
    cases htoken'
    exact hid
  have hhistory : ∀ id, n'.history id = n.history id ++ if t.tokenId = id then [t] else [] :=
    h.inv.history_accept htransfer _ _
  have hsame : ∀ id, id ≠ t.tokenId → n'.history id = n.history id := by
    intro id hne
    rw [hhistory, if_neg (Ne.symm hne), List.append_nil]
  have hgrown : n'.history t.tokenId = n.history t.tokenId ++ [t] := by
    rw [hhistory, if_pos rfl]
  obtain ⟨past, copy, hpast, hcontinues, hcopy, haccompanies⟩ := h.emitted bundle hbundle t ht
  obtain rfl : copy = token := Option.some.inj (hcopy.symm.trans htoken)
  have hbefore : n.history t.tokenId = past := hpast.eq_history hnew
  refine ⟨h.inv.accept hw htransfer hid hreceives, h.issued, ?_, ?_, ?_⟩
  · intro other hother
    obtain ⟨hempty, hrest⟩ := h.unhanded other hother
    have hne : other.tokenId ≠ t.tokenId := fun heq =>
      h.inv.notMem_unhanded hplace (heq ▸ KeyedList.key_mem_keys hother)
    exact ⟨(hsame _ hne).trans hempty, hrest⟩
  · have hothers : ∀ v ∈ n.wallets.items, WalletInv c members maxHops n'.transfers n'.history v := by
      intro v hv
      refine (h.wallets v hv).congr (fun _ => id) ?_
      intro other hother
      exact hsame _ fun heq =>
        h.inv.notMem_outstanding hv hplace (heq ▸ KeyedList.key_mem_keys hother)
    have hreceiver := hothers w (KeyedList.find?_eq_some_iff.mp hw).1
    refine KeyedList.forall_mem_put hothers ⟨hreceiver.member, ?_, ?_⟩
    · intro id hprocessed
      rcases Finset.mem_insert.mp hprocessed with rfl | hold
      · exact ⟨t, htransfer, rfl⟩
      · exact hreceiver.processed id hold
    · refine KeyedList.forall_mem_put hreceiver.held ?_
      exact holds_receivedToken hcontinues haccompanies hreceives.receiver
        (by rw [hid, hgrown, hbefore])
  · intro bundle' hbundle' t' ht'
    obtain ⟨past', token', hpast', hrest⟩ := h.emitted bundle' hbundle' t' ht'
    exact ⟨past', token', hpast'.accept h.inv hplace
      (List.mem_flatMap.mpr ⟨bundle', hbundle', ht'⟩) _ _, hrest⟩

/-- A wallet that changes none of the registers that matter here. -/
lemma exchange (h : n.HistoryInv c members maxHops) {w w' : Wallet}
    (hw : n.wallets.find? w'.publicKeyHex = some w) (hpublic : w'.publicKeyHex = w.publicKeyHex)
    (hprivate : w'.privateKeyHex = w.privateKeyHex) (hpolicy : w'.policy = w.policy)
    (hutr : w'.utr = w.utr) (hprocessed : w'.processedTransferIds = w.processedTransferIds) :
    { n with wallets := n.wallets.put w' }.HistoryInv c members maxHops where
  inv := h.inv.exchange hw hutr hprocessed
  issued := h.issued
  unhanded := h.unhanded
  wallets := by
    have hwallet := h.wallets w (KeyedList.find?_eq_some_iff.mp hw).1
    refine KeyedList.forall_mem_put h.wallets ⟨?_, hprocessed ▸ hwallet.processed, ?_⟩
    · rw [hpublic, hprivate, hpolicy]
      exact hwallet.member
    · rw [hpublic, hutr]
      exact hwallet.held
  emitted := h.emitted

lemma step (h : n.HistoryInv c members maxHops)
    (hshared : ∀ m ∈ members.items, m.2.2.maxHops = maxHops) {e : NetworkEvent}
    (hids : n.DistinctIds c e) : (n.step c e).HistoryInv c members maxHops := by
  cases e with
  | mint ownerPk value draw => exact h.mint (hids.1 _ List.mem_cons_self)
  | hand tokenId =>
    rcases n.step_hand_cases c tokenId with hsame | ⟨token, w, w', htoken, hw, hw', hstep⟩
    · rwa [hsame]
    · rw [hstep]
      exact h.handTo htoken hw hw'
  | pay senderPk receiverPk amount draw =>
    rcases n.step_pay_cases c senderPk receiverPk amount draw with
      hsame | ⟨w, w', hw, ⟨syncRequired, rfl, hstep⟩ | ⟨bundle, selected, hpays, hstep⟩⟩
    · rwa [hsame]
    · rw [hstep]
      exact h.exchange hw rfl rfl rfl rfl rfl
    · have hdistinct := hids.2
      rw [hstep, transfers_emit] at hdistinct
      rw [hstep]
      exact h.payFrom hshared hw hpays hdistinct
  | deliver index receiverPk readings =>
    exact deliver_invariant (I := fun n : Network => n.HistoryInv c members maxHops) h
      (fun w hw => h.exchange hw rfl rfl rfl rfl rfl)
      (fun _ _ _ _ _ _ h hw hbundle ht htoken hreceives =>
        h.accept hw hbundle ht htoken hreceives) index receiverPk readings

end HistoryInv

/-- What a run of wallets with one hop limit keeps. -/
lemma historyInv_runFrom {issuer : Issuer} (hshared : ∀ m ∈ members.items, m.2.2.maxHops = maxHops)
    {es : List NetworkEvent} (hrun : Along (step c) (DistinctIds c) (start issuer members) es) :
    (runFrom (step c) (start issuer members) es).HistoryInv c members maxHops :=
  Along.invariant (I := fun n : Network => n.HistoryInv c members maxHops)
    (fun _ _ hids h => h.step hshared hids) hrun (historyInv_start c issuer members maxHops)

/-- In every run of wallets that share a policy, each token in an unspent register counts its
accepted transfers in both counters, within the limit, and names the last of them, by which its
holder got it; and each transfer that was made continues the transfers of its token that were
accepted before it, within the limit. -/
theorem history_of_run {issuer : Issuer} {policy : PolicyConfig}
    (hshared : ∀ m ∈ members.items, m.2.2 = policy) {es : List NetworkEvent}
    (hrun : Along (step c) (DistinctIds c) (start issuer members) es) :
    let n := runFrom (step c) (start issuer members) es
    (∀ w ∈ n.wallets.items, ∀ token ∈ w.utr.items,
      Records c token (n.history token.tokenId) ∧
      (∀ t ∈ (n.history token.tokenId).getLast?, t.receiverPk = w.publicKeyHex) ∧
      token.nonce ≤ max 0 policy.maxHops) ∧
    ∀ t ∈ n.transfers, ∃ past, n.PastOf t past ∧ Continues c policy.maxHops t past := by
  intro n
  have hinv : n.HistoryInv c members policy.maxHops :=
    historyInv_runFrom (fun m hm => congrArg PolicyConfig.maxHops (hshared m hm)) hrun
  constructor
  · intro w hw token htoken
    have hholds := (hinv.wallets w hw).held token htoken
    exact ⟨hholds.records, hholds.receiver, hholds.bounded⟩
  · intro t ht
    obtain ⟨bundle, hbundle, ht⟩ := List.mem_flatMap.mp ht
    obtain ⟨past, token, hpast, hcontinues, -⟩ := hinv.emitted bundle hbundle t ht
    exact ⟨past, hpast, hcontinues⟩

theorem history_of_run_roundTrip :
    let n := runFrom (step plainCrypto) (start plainIssuer plainMembers) roundTrip
    (∀ w ∈ n.wallets.items, ∀ token ∈ w.utr.items,
      Records plainCrypto token (n.history token.tokenId) ∧
      (∀ t ∈ (n.history token.tokenId).getLast?, t.receiverPk = w.publicKeyHex) ∧
      token.nonce ≤ max 0 PolicyConfig.default.maxHops) ∧
    ∀ t ∈ n.transfers, ∃ past,
      n.PastOf t past ∧ Continues plainCrypto PolicyConfig.default.maxHops t past :=
  history_of_run (by decide) (by decide +kernel)

/-- Alice's token in the round trip has two transfers. -/
example : ((runFrom (step plainCrypto) (start plainIssuer plainMembers) roundTrip).history "t1").map
    (fun t => (t.transferId, t.hopCount)) = [("x1", 1), ("x2", 2)] := by
  decide +kernel

/-- Nothing keeps a policy from setting a negative limit, which a new token exceeds. -/
theorem unbounded_newToken :
    let policy : PolicyConfig := { PolicyConfig.default with maxHops := -1 }
    let members : Dict String (String × PolicyConfig) :=
      ⟨[("alice", "sk:alice", policy)], by decide⟩
    let es : List NetworkEvent := [.mint "alice" 100 ⟨"t1", 1000000000, 1000000000⟩, .hand "t1"]
    let n := runFrom (step plainCrypto) (start plainIssuer members) es
    Along (step plainCrypto) (DistinctIds plainCrypto) (start plainIssuer members) es ∧
      ∃ w ∈ n.wallets.items, ∃ token ∈ w.utr.items, ¬ token.nonce ≤ policy.maxHops := by
  decide +kernel

end Network

end PocketCash.Offline
