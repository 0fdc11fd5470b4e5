import PocketCash.Library.Custody
import PocketCash.Dpc.Ledger
import PocketCash.Dpc.Storage
import PocketCash.Dpc.Wallet

/-!
# A network of `dpc` wallets

Wallets with different keys send each other tokens that one ledger mints. Messages may be delivered
late, out of order, repeatedly and to any wallet, tokens may return to earlier owners, and a
register may be replaced by the reload of its save.

A wallet never forgets a nonce. So the addressee of a message that is not the newest of its token
has seen the nonce of its last record, and `add_receipt` refuses it both as a new and as a returning
token. Only the addressee of the newest message can hold the token.
-/

namespace PocketCash.Dpc

/-- A token and its chain, as `mint_token` and `send_token` return them. -/
abbrev Parcel := Token × List TransferRecord

/-- The id of the token of a parcel. -/
def Parcel.tokenId (p : Parcel) : String := p.1.tokenId

/-- The wallets by public key, the ledger, and the parcels produced so far, newest first. -/
structure Network (c : Crypto) where
  wallets : KeyedList (DPCWallet.publicKeyHex c)
  ledger : IssuerLedger
  produced : List Parcel

namespace Network

variable {c : Crypto}

inductive Event
  | mint (issuerKeypair : DPCKeyPair) (receiverPubkeyHex : String) (amountSubunits : Int)
      (draw : IssuerLedger.MintDraw)
  | send (owner tokenId receiverPubkeyHex : String) (now : Int) (nonce : String)
  | deliver (owner : String) (parcel : Parcel) (now receivedAt : Int)
  | reload (owner savedAt : String)

/-- Wallets with new registers and a new ledger. -/
structure Start (n : Network c) : Prop where
  empty : ∀ w ∈ n.wallets.items, w.utr = .new w.walletId
  ledger : n.ledger = .new
  produced : n.produced = []

/-- One event. A call that raises keeps what it changed before, and a reload that raises replaces
nothing. -/
def step (n : Network c) : Event → Network c
  | .mint issuerKeypair receiverPubkeyHex amountSubunits draw =>
    match n.ledger.mintToken c issuerKeypair receiverPubkeyHex amountSubunits draw with
    | (ledger, .error _) => { n with ledger := ledger }
    | (ledger, .ok parcel) => { n with ledger := ledger, produced := parcel :: n.produced }
  | .send owner tokenId receiverPubkeyHex now nonce =>
    match n.wallets.find? owner with
    | none => n
    | some w =>
      match w.sendToken c tokenId receiverPubkeyHex now nonce with
      | (w', .error _) => { n with wallets := n.wallets.put w' }
      | (w', .ok parcel) =>
        { n with wallets := n.wallets.put w', produced := parcel :: n.produced }
  | .deliver owner (token, chain) now receivedAt =>
    match n.wallets.find? owner with
    | none => n
    | some w =>
      match w.receiveToken c token chain now receivedAt with
      | .error _ => n
      | .ok (w', _) => { n with wallets := n.wallets.put w' }
  | .reload owner savedAt =>
    match n.wallets.find? owner with
    | none => n
    | some w =>
      match UnspentTokenRegister.load c (w.utr.save savedAt) with
      | .error _ => n
      | .ok utr => { n with wallets := n.wallets.put { w with utr := utr } }

/-- Token ids are drawn once, and only produced parcels are delivered. -/
def Legal (n : Network c) : Event → Prop
  | .mint _ _ _ draw => draw.tokenId ∉ n.ledger.minted.keys
  | .deliver _ parcel _ _ => parcel ∈ n.produced
  | _ => True

instance (n : Network c) : DecidablePred n.Legal
  | .mint _ _ _ draw => inferInstanceAs (Decidable (draw.tokenId ∉ n.ledger.minted.keys))
  | .deliver _ parcel _ _ => inferInstanceAs (Decidable (parcel ∈ n.produced))
  | .send .. => .isTrue trivial
  | .reload .. => .isTrue trivial

/-- What an event does: nothing, or what a call that returned has done, or a send that raised. -/
inductive Effect (n : Network c) : Event → Network c → Prop
  | refused (e : Event) : Effect n e n
  | minted {issuerKeypair : DPCKeyPair} {receiverPubkeyHex : String} {amountSubunits : Int}
      {draw : IssuerLedger.MintDraw} {genesis : TransferRecord}
      (hmade : genesis.MadeFrom c ⟨draw.tokenId, 0, issuerKeypair.publicKeyHex c,
        receiverPubkeyHex, amountSubunits, draw.nonce⟩ genesisHash issuerKeypair.privateKeyBytes) :
      Effect n (.mint issuerKeypair receiverPubkeyHex amountSubunits draw)
        { n with
          ledger := { n.ledger with
            minted := n.ledger.minted.set draw.tokenId (IssuerLedger.mintRecord
              (IssuerLedger.mintedToken c issuerKeypair amountSubunits draw)) }
          produced := (IssuerLedger.mintedToken c issuerKeypair amountSubunits draw, [genesis]) ::
            n.produced }
  | gaveUp {owner tokenId receiverPubkeyHex nonce : String} {now : Int} {w w' : DPCWallet}
      (hw : w ∈ n.wallets.items) (hgaveUp : w.GaveUp tokenId w') :
      Effect n (.send owner tokenId receiverPubkeyHex now nonce)
        { n with wallets := n.wallets.put w' }
  | sent {owner tokenId receiverPubkeyHex nonce : String} {now : Int} {w : DPCWallet}
      {utr : UnspentTokenRegister} {receipt : Receipt} {parcel : Parcel}
      (hw : w ∈ n.wallets.items) (hspend : w.utr.spend tokenId = .ok (utr, receipt))
      (htransfer : DPCWallet.transfer c w.keypair receipt receiverPubkeyHex now nonce = .ok parcel) :
      Effect n (.send owner tokenId receiverPubkeyHex now nonce)
        { n with wallets := n.wallets.put { w with utr := utr }, produced := parcel :: n.produced }
  | accepted {parcel : Parcel} {now receivedAt : Int} {w : DPCWallet} {receipt : Receipt}
      (hw : w ∈ n.wallets.items) (haccepts : w.Accepts c parcel.1 parcel.2 now)
      (hadmits : w.utr.Admits receipt) (hid : receipt.tokenId = parcel.tokenId)
      (hchain : receipt.fullChain = parcel.2) (htoken : receipt.token = some parcel.1)
      (hends : receipt.EndsInFinalHop) :
      Effect n (.deliver (w.publicKeyHex c) parcel now receivedAt)
        { n with wallets := n.wallets.put { w with utr := w.utr.store receipt } }
  | reloaded {owner savedAt : String} {w : DPCWallet} {utr : UnspentTokenRegister}
      (hw : w ∈ n.wallets.items)
      (hload : UnspentTokenRegister.load c (w.utr.save savedAt) = .ok utr) :
      Effect n (.reload owner savedAt) { n with wallets := n.wallets.put { w with utr := utr } }

lemma effect_step (n : Network c) (e : Event) : n.Effect e (n.step e) := by
  cases e with
  | mint issuerKeypair receiverPubkeyHex amountSubunits draw =>
    rw [step]
    rcases n.ledger.mintToken_cases c issuerKeypair receiverPubkeyHex amountSubunits draw with
      ⟨e, hmint⟩ | ⟨genesis, hmade, hmint⟩
    · rw [hmint]
      exact .refused _
    · rw [hmint]
      exact .minted hmade
  | send owner tokenId receiverPubkeyHex now nonce =>
    rw [step]
    split
    · exact .refused _
    · rename_i w hfind
      have hw := (KeyedList.find?_eq_some_iff.mp hfind).1
      rcases w.sendToken_cases c tokenId receiverPubkeyHex now nonce with
        ⟨w', e, hgaveUp, hsend⟩ | ⟨utr, receipt, sent, hspend, htransfer, hsend⟩
      · rw [hsend]
        exact .gaveUp hw hgaveUp
      · rw [hsend]
        exact .sent hw hspend htransfer
  | deliver owner parcel now receivedAt =>
    obtain ⟨token, chain⟩ := parcel
    rw [step]
    split
    · exact .refused _
    · rename_i w hfind
      obtain ⟨hw, rfl⟩ := KeyedList.find?_eq_some_iff.mp hfind
      split
      · exact .refused _
      · rename_i w' receipt hreceive
        obtain ⟨haccepts, hadmits, rfl, hid, hchain, htoken, hends⟩ :=
          DPCWallet.receiveToken_eq_ok hreceive
        exact .accepted hw haccepts hadmits hid hchain htoken hends
  | reload owner savedAt =>
    rw [step]
    split
    · exact .refused _
    · rename_i w hfind
      split
      · exact .refused _
      · rename_i utr hload
        exact .reloaded (KeyedList.find?_eq_some_iff.mp hfind).1 hload

/-- No token is an entry of two wallets. -/
def OnePurse (n : Network c) : Prop :=
  ∀ w ∈ n.wallets.items, ∀ w' ∈ n.wallets.items, ∀ k,
    k ∈ w.utr.entries.keys → k ∈ w'.utr.entries.keys → w = w'

/-! ### The invariant -/

/-- The parcel is made out to `w`, and `w` has seen the nonce of its last record. -/
def SeenBy (c : Crypto) (w : DPCWallet) (p : Parcel) : Prop :=
  ∃ tip, p.2.getLast? = some tip ∧ tip.receiverPubkeyHex = w.publicKeyHex c ∧
    tip.nonce ∈ w.utr.seenNonces

/-- If the parcel is made out to `w`, then `w` has seen the nonce of its last record. -/
def SpentFor (c : Crypto) (w : DPCWallet) (p : Parcel) : Prop :=
  ∀ tip, p.2.getLast? = some tip → tip.receiverPubkeyHex = w.publicKeyHex c →
    tip.nonce ∈ w.utr.seenNonces

/-- An entry of `w`: its receipt is that of the newest parcel of its token, which `w` has seen. -/
structure Holds (n : Network c) (w : DPCWallet) (k : String) (receipt : Receipt) : Prop where
  tokenId : receipt.tokenId = k
  token : ∀ t, receipt.token = some t → t.tokenId = k
  newest : ∃ p, newest Parcel.tokenId n.produced k = some p ∧ p.2 = receipt.fullChain ∧
    SeenBy c w p

structure Inv (n : Network c) : Prop where
  minted : ∀ p ∈ n.produced, Parcel.tokenId p ∈ n.ledger.minted.keys
  held : ∀ w ∈ n.wallets.items, ∀ k receipt, w.utr.entries.get? k = some receipt →
    n.Holds w k receipt
  superseded : n.produced.Pairwise fun newer older =>
    Parcel.tokenId newer = Parcel.tokenId older →
      ∀ w ∈ n.wallets.items, SpentFor c w older

lemma Start.inv {n : Network c} (h : n.Start) : n.Inv where
  minted := by simp [h.produced]
  held := by
    intro w hw k receipt hget
    rw [h.empty w hw] at hget
    cases hget
  superseded := by simp [h.produced]

lemma Inv.onePurse {n : Network c} (h : n.Inv) : n.OnePurse := by
  intro w hw w' hw' k hk hk'
  obtain ⟨receipt, hget⟩ := Dict.mem_keys_iff_get?.mp hk
  obtain ⟨receipt', hget'⟩ := Dict.mem_keys_iff_get?.mp hk'
  obtain ⟨p, hp, -, tip, htip, howner, -⟩ := (h.held w hw k receipt hget).newest
  obtain ⟨p', hp', -, tip', htip', howner', -⟩ := (h.held w' hw' k receipt' hget').newest
  obtain rfl := Option.some.inj (hp.symm.trans hp')
  obtain rfl := Option.some.inj (htip.symm.trans htip')
  exact KeyedList.eq_of_key_eq hw hw' (howner.symm.trans howner')

/-! ### What a step keeps -/

/-- A wallet that holds no more and has seen no less. -/
structure Keeps (c : Crypto) (w w' : DPCWallet) : Prop where
  publicKeyHex : w'.publicKeyHex c = w.publicKeyHex c
  entries : ∀ k receipt, w'.utr.entries.get? k = some receipt → w.utr.entries.get? k = some receipt
  seenNonces : w.utr.seenNonces ⊆ w'.utr.seenNonces

lemma Keeps.refl (w : DPCWallet) : Keeps c w w := ⟨rfl, fun _ _ => id, subset_rfl⟩

lemma keeps_spend {w : DPCWallet} {tokenId : String} {utr : UnspentTokenRegister}
    {receipt : Receipt} (h : w.utr.spend tokenId = .ok (utr, receipt)) :
    Keeps c w { w with utr := utr } := by
  obtain ⟨-, rfl⟩ := UnspentTokenRegister.spend_eq_ok h
  refine ⟨rfl, ?_, subset_rfl⟩
  intro k receipt' hk
  rw [Dict.get?_pop] at hk
  split_ifs at hk
  exact hk

lemma keeps_restore {w : DPCWallet} {tokenId : String} {utr : UnspentTokenRegister}
    {receipt : Receipt} (h : w.utr.spend tokenId = .ok (utr, receipt))
    (hid : receipt.tokenId = tokenId) : Keeps c w { w with utr := utr.restoreUnspent receipt } := by
  obtain ⟨hget, -⟩ := UnspentTokenRegister.spend_eq_ok h
  have hspent : Keeps c w { w with utr := utr } := keeps_spend h
  refine ⟨rfl, ?_, hspent.seenNonces⟩
  intro k receipt' hk
  rw [UnspentTokenRegister.restoreUnspent, Dict.get?_set] at hk
  split_ifs at hk with hsame
  · rw [← Option.some.inj hk, hsame, hid, hget]
  · exact hspent.entries k receipt' hk

/-- A call that raises takes out one entry at most. -/
lemma keeps_gaveUp {w w' : DPCWallet} {tokenId : String} (h : w.GaveUp tokenId w')
    (hid : ∀ receipt, w.utr.entries.get? tokenId = some receipt → receipt.tokenId = tokenId) :
    Keeps c w w' := by
  cases h with
  | refused => exact .refl w
  | lost hspend => exact keeps_spend hspend
  | restored hspend =>
    exact keeps_restore hspend (hid _ (UnspentTokenRegister.spend_eq_ok hspend).1)

lemma keeps_reload {w : DPCWallet} {savedAt : String} {utr : UnspentTokenRegister}
    (h : UnspentTokenRegister.load c (w.utr.save savedAt) = .ok utr) :
    Keeps c w { w with utr := utr } := by
  obtain ⟨-, hentries, -, hnonces⟩ := UnspentTokenRegister.eq_of_load_save h
  refine ⟨rfl, ?_, hnonces.ge⟩
  intro k receipt hget
  rw [← hget, Dict.get?_perm hentries]

lemma Keeps.seenBy {w w' : DPCWallet} (h : Keeps c w w') {p : Parcel}
    (hp : SeenBy c w p) : SeenBy c w' p := by
  obtain ⟨tip, htip, howner, hseen⟩ := hp
  exact ⟨tip, htip, howner.trans h.publicKeyHex.symm, h.seenNonces hseen⟩

lemma SpentFor.mono {w w' : DPCWallet} {p : Parcel} (hp : SpentFor c w p)
    (hpk : w'.publicKeyHex c = w.publicKeyHex c)
    (hseen : w.utr.seenNonces ⊆ w'.utr.seenNonces) : SpentFor c w' p :=
  fun tip htip howner => hseen (hp tip htip (howner.trans hpk))

lemma Inv.put {n : Network c} (h : n.Inv) {w w' : DPCWallet} (hw : w ∈ n.wallets.items)
    (hkeeps : Keeps c w w') : Inv { n with wallets := n.wallets.put w' } where
  minted := h.minted
  held := by
    intro v hv k receipt hget
    rcases KeyedList.mem_put.mp hv with rfl | ⟨hv, -⟩
    · obtain ⟨hid, htoken, p, hp, hchain, hseen⟩ :=
        h.held w hw k receipt (hkeeps.entries k receipt hget)
      exact ⟨hid, htoken, p, hp, hchain, hkeeps.seenBy hseen⟩
    · obtain ⟨hid, htoken, hnewest⟩ := h.held v hv k receipt hget
      exact ⟨hid, htoken, hnewest⟩
  superseded := by
    apply h.superseded.imp
    intro _ _ hold hid v hv
    rcases KeyedList.mem_put.mp hv with rfl | ⟨hv, -⟩
    · exact (hold hid w hw).mono hkeeps.publicKeyHex hkeeps.seenNonces
    · exact hold hid v hv

lemma Inv.mint {n : Network c} (h : n.Inv) {k : String} (hfresh : k ∉ n.ledger.minted.keys)
    {parcel : Parcel} (hparcel : parcel.tokenId = k) {record : MintRecord} :
    Inv { n with
      ledger := { n.ledger with minted := n.ledger.minted.set k record }
      produced := parcel :: n.produced } where
  minted := by
    rintro p (_ | ⟨_, hp⟩)
    · exact Dict.mem_keys_set.mpr (.inl hparcel)
    · exact Dict.mem_keys_set.mpr (.inr (h.minted p hp))
  held := by
    intro v hv k' receipt hget
    obtain ⟨hid, htoken, p, hp, hchain, hseen⟩ := h.held v hv k' receipt hget
    obtain ⟨hmem, hpid⟩ := mem_of_newest hp
    have hne : parcel.tokenId ≠ k' := by
      rintro rfl
      exact hfresh (hparcel ▸ hpid ▸ h.minted p hmem)
    exact ⟨hid, htoken, p, by rw [newest_cons, if_neg hne, hp], hchain, hseen⟩
  superseded := by
    refine List.pairwise_cons.mpr ⟨fun older holder hid => ?_, h.superseded⟩
    exact absurd (h.minted older holder) (hid ▸ hparcel ▸ hfresh)

/-- Settling does not touch what was minted. -/
lemma Inv.of_ledger {n : Network c} (h : n.Inv) {ledger : IssuerLedger}
    (hminted : ledger.minted = n.ledger.minted) : Inv { n with ledger := ledger } where
  minted := hminted ▸ h.minted
  held := by
    intro w hw k receipt hget
    obtain ⟨hid, htoken, hnewest⟩ := h.held w hw k receipt hget
    exact ⟨hid, htoken, hnewest⟩
  superseded := h.superseded

/-- A superseded parcel is behind the newest one, which `w` has seen. -/
lemma Inv.spentFor {n : Network c} (h : n.Inv) {w : DPCWallet} (hw : w ∈ n.wallets.items)
    {k : String} {receipt : Receipt} (hholds : n.Holds w k receipt) {older : Parcel}
    (holder : older ∈ n.produced) (hid : older.tokenId = k) {v : DPCWallet}
    (hv : v ∈ n.wallets.items) : SpentFor c v older := by
  subst hid
  obtain ⟨p, hp, -, tip, htip, howner, hseen⟩ := hholds.newest
  rcases eq_or_of_newest h.superseded holder hp with rfl | hbehind
  · intro tip' htip' howner'
    obtain rfl := Option.some.inj (htip.symm.trans htip')
    obtain rfl := KeyedList.eq_of_key_eq hw hv (howner.symm.trans howner')
    exact hseen
  · exact hbehind (mem_of_newest hp).2 v hv

lemma Inv.send {n : Network c} (h : n.Inv) {w : DPCWallet} (hw : w ∈ n.wallets.items)
    {k : String} {receipt : Receipt} (hget : w.utr.entries.get? k = some receipt)
    {utr : UnspentTokenRegister} (hentries : utr.entries = KeyedList.pop w.utr.entries k)
    (hnonces : utr.seenNonces = w.utr.seenNonces) {parcel : Parcel}
    (hparcel : receipt.token = some parcel.1) :
    Inv { n with
      wallets := n.wallets.put { w with utr := utr }, produced := parcel :: n.produced } := by
  have hholds := h.held w hw k receipt hget
  have hid : parcel.tokenId = k := hholds.token _ hparcel
  refine ⟨?_, ?_, ?_⟩
  · rintro p (_ | ⟨_, hp⟩)
    · obtain ⟨p, hp, -⟩ := hholds.newest
      obtain ⟨hmem, hpid⟩ := mem_of_newest hp
      exact hid ▸ hpid ▸ h.minted p hmem
    · exact h.minted p hp
  · intro v hv k' receipt' hget'
    -- nobody holds the token that was sent, and the newest parcel of the others is unchanged
    have hothers : k' ≠ k ∧ ∃ u ∈ n.wallets.items, u.publicKeyHex c = v.publicKeyHex c ∧
        u.utr.seenNonces = v.utr.seenNonces ∧ u.utr.entries.get? k' = some receipt' := by
      rcases KeyedList.mem_put.mp hv with rfl | ⟨hv, hne⟩
      · rw [hentries, Dict.get?_pop] at hget'
        split_ifs at hget' with hk
        exact ⟨hk, w, hw, rfl, hnonces.symm, hget'⟩
      · refine ⟨?_, v, hv, rfl, rfl, hget'⟩
        rintro rfl
        have hsame := h.onePurse v hv w hw _ (Dict.mem_keys_iff_get?.mpr ⟨_, hget'⟩)
          (Dict.mem_keys_iff_get?.mpr ⟨_, hget⟩)
        exact hne (hsame ▸ rfl)
    obtain ⟨hk, u, hu, hpk, hseen, hold⟩ := hothers
    obtain ⟨hid', htoken, p, hp, hchain, tip, htip, howner, htipSeen⟩ := h.held u hu k' receipt' hold
    exact ⟨hid', htoken, p, by rw [newest_cons, if_neg (hid ▸ Ne.symm hk), hp], hchain, tip, htip,
      howner.trans hpk, hseen ▸ htipSeen⟩
  · refine List.pairwise_cons.mpr ⟨fun older holder hsame v hv => ?_, ?_⟩
    · rcases KeyedList.mem_put.mp hv with rfl | ⟨hv, -⟩
      · exact (h.spentFor hw hholds holder (hsame.symm.trans hid) hw).mono rfl hnonces.ge
      · exact h.spentFor hw hholds holder (hsame.symm.trans hid) hv
    · apply h.superseded.imp
      intro _ _ hold hsame v hv
      rcases KeyedList.mem_put.mp hv with rfl | ⟨hv, -⟩
      · exact (hold hsame w hw).mono rfl hnonces.ge
      · exact hold hsame v hv

lemma Inv.deliver {n : Network c} (h : n.Inv) {w : DPCWallet} (hw : w ∈ n.wallets.items)
    {parcel : Parcel} (hparcel : parcel ∈ n.produced) {receipt : Receipt}
    (hid : receipt.tokenId = parcel.1.tokenId) (hchain : receipt.fullChain = parcel.2)
    (htoken : receipt.token = some parcel.1) {tip : TransferRecord}
    (htip : parcel.2.getLast? = some tip) (howner : tip.receiverPubkeyHex = w.publicKeyHex c)
    (hadmits : w.utr.Admits receipt) :
    Inv { n with wallets := n.wallets.put { w with utr := w.utr.store receipt } } := by
  have hunseen := hadmits.tip_unseen (hchain ▸ htip)
  -- an addressee that has not seen the nonce is the addressee of the newest parcel
  have hnewest : newest Parcel.tokenId n.produced parcel.tokenId = some parcel := by
    obtain ⟨p, hp⟩ := exists_newest Parcel.tokenId hparcel
    rcases eq_or_of_newest h.superseded hparcel hp with rfl | hbehind
    · exact hp
    · exact absurd (hbehind (mem_of_newest hp).2 w hw tip htip howner) hunseen
  have hgrows : w.utr.seenNonces ⊆ (w.utr.store receipt).seenNonces := Finset.subset_union_left
  have htipSeen : tip.nonce ∈ (w.utr.store receipt).seenNonces := by
    apply Finset.mem_union_right
    rw [hchain]
    simpa [nonces] using ⟨tip, List.mem_of_getLast? htip, rfl⟩
  refine ⟨h.minted, fun v hv k receipt' hget => ?_, h.superseded.imp fun hold hsame v hv => ?_⟩
  · rcases KeyedList.mem_put.mp hv with rfl | ⟨hv, -⟩
    · rw [UnspentTokenRegister.store, Dict.get?_set] at hget
      split_ifs at hget with hk
      · obtain rfl := Option.some.inj hget
        refine ⟨hk.symm, ?_, parcel, hk ▸ hid ▸ hnewest, hchain.symm, tip, htip, howner, htipSeen⟩
        intro t ht
        obtain rfl := Option.some.inj (htoken.symm.trans ht)
        exact hid.symm.trans hk.symm
      · obtain ⟨hid', htoken', p, hp, hchain', tip', htip', howner', hseen'⟩ :=
          h.held w hw k receipt' hget
        exact ⟨hid', htoken', p, hp, hchain', tip', htip', howner', hgrows hseen'⟩
    · obtain ⟨hid', htoken', hnewest'⟩ := h.held v hv k receipt' hget
      exact ⟨hid', htoken', hnewest'⟩
  · rcases KeyedList.mem_put.mp hv with rfl | ⟨hv, -⟩
    · exact (hold hsame w hw).mono rfl hgrows
    · exact hold hsame v hv

lemma Inv.effect {n n' : Network c} {e : Event} (hlegal : n.Legal e) (h : n.Inv)
    (heffect : n.Effect e n') : n'.Inv := by
  cases heffect with
  | refused => exact h
  | minted hmade => exact h.mint hlegal rfl
  | gaveUp hw hgaveUp =>
    exact h.put hw (keeps_gaveUp hgaveUp fun receipt hget => (h.held _ hw _ receipt hget).tokenId)
  | sent hw hspend htransfer =>
    obtain ⟨hget, rfl⟩ := UnspentTokenRegister.spend_eq_ok hspend
    refine h.send hw hget ?_ ?_ (DPCWallet.transfer_eq_ok htransfer).1 <;> rfl
  | accepted hw haccepts hadmits hid hchain htoken hends =>
    obtain ⟨tip, htip, howner⟩ := haccepts.addressee
    exact h.deliver hw hlegal hid hchain htoken htip howner hadmits
  | reloaded hw hload => exact h.put hw (keeps_reload hload)

/-- The step lemma: every legal event keeps the invariant. -/
lemma Inv.step {n : Network c} {e : Event} (hlegal : n.Legal e) (h : n.Inv) : (n.step e).Inv :=
  h.effect hlegal (n.effect_step e)

/-! ### Runs -/

/-- Alice and Bob with empty registers. -/
def plainNetwork : Network plainCrypto where
  wallets := [DPCWallet.new "alice" Custody.alice, .new "bob" Custody.mallory].foldl
    KeyedList.put .empty
  ledger := .new
  produced := []

namespace RoundTrip

def aliceKey : String := Custody.alice.publicKeyHex plainCrypto
def bobKey : String := Custody.mallory.publicKeyHex plainCrypto
def back : TransferRecord :=
  Custody.plainRecord Custody.mallory Custody.alice Custody.token 1 "n2" Custody.spend.chainHash

def minted : Parcel := (Custody.token, [Custody.genesis])
def paid : Parcel := (Custody.token, [Custody.genesis, Custody.spend])
def returned : Parcel := (Custody.token, [Custody.genesis, Custody.spend, back])

/-- A token goes from Alice to Bob and back, and then the older messages arrive once more. -/
def events : List Event := [
  .mint Custody.issuer aliceKey 500 ⟨"t1", 1000, "n0"⟩,
  .deliver aliceKey minted 1001 1001,
  .send aliceKey "t1" bobKey 1002 "n1",
  .deliver bobKey paid 1003 1003,
  .send bobKey "t1" aliceKey 1004 "n2",
  .deliver aliceKey returned 1005 1005,
  .deliver bobKey paid 1006 1006,
  .deliver aliceKey minted 1006 1006]

end RoundTrip

/-- In every run, no token is an entry of two wallets. -/
theorem onePurse_of_run {n : Network c} {es : List Event} (hstart : n.Start)
    (hrun : Along step Legal n es) : (runFrom step n es).OnePurse :=
  (Along.invariant (fun _ _ hlegal h => Inv.step hlegal h) hrun hstart.inv).onePurse

theorem onePurse_of_run_roundTrip : (runFrom step plainNetwork RoundTrip.events).OnePurse :=
  onePurse_of_run ⟨by decide +kernel, rfl, rfl⟩ (by decide +kernel)

end Network

end PocketCash.Dpc
