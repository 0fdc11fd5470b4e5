import Mathlib.Algebra.BigOperators.Group.List.Basic
import PocketCash.Dpc.Network

/-!
# Change-making and redemption

`DPCWallet.swap_change` takes a receipt out of the register and makes two new tokens of its value,
under new ids and signed by the wallet itself. The ledger does not know these ids, so `settle_token`
refuses them, although every wallet accepts them.

What a wallet holds is redeemable exactly if its id was minted. Without swaps this is everything, and
what the holders can redeem is what was minted and is not settled yet.
-/

namespace PocketCash.Dpc

namespace DPCWallet

/-- What `swap_change` draws: the time, two token ids and the nonces of two records. -/
structure SwapDraw where
  now : Int
  paymentId : String
  changeId : String
  paymentNonce : String
  changeNonce : String

/-- `_make_split_record`. -/
def makeSplitRecord (c : Crypto) (keypair : DPCKeyPair) (token : Token)
    (receiverPubkeyHex nonce : String) : Except Raised TransferRecord := do
  let record ← TransferRecord.new c ⟨token.tokenId, 0, keypair.publicKeyHex c, receiverPubkeyHex,
    token.amountSubunits, nonce⟩ genesisHash
  record.sign c keypair.privateKeyBytes

/-- A token with the signature of the wallet. -/
def signToken (c : Crypto) (keypair : DPCKeyPair) (token : Token) : Token :=
  { token with
    issuerSignature := c.ed25519Sign keypair.privateKeyBytes (.genesis token.genesisPayload) }

/-- The `try` block of `swap_change`: the payment and the change. -/
def split (c : Crypto) (keypair : DPCKeyPair) (receipt : Receipt) (amountToSend : Int)
    (receiverPubkeyHex issuerPubkeyHex : String) (draw : SwapDraw) :
    Except Raised ((Token × List TransferRecord) × (Token × List TransferRecord)) := do
  let original ← requireToken receipt
  if amountToSend ≤ 0 ∨ amountToSend ≥ original.amountSubunits then
    throw (.dpc .insufficientFunds
      "Swap requires a positive amount smaller than the token value")
  let changeAmount := original.amountSubunits - amountToSend
  if amountToSend > maxSingleTxSubunits ∨ changeAmount > maxSingleTxSubunits then
    throw (.dpc .transactionValueCap "Swap output exceeds transaction value cap")
  let paymentToken := signToken c keypair
    ⟨draw.paymentId, issuerPubkeyHex, amountToSend, draw.now, original.ttlExpiry, ""⟩
  let changeToken := signToken c keypair
    ⟨draw.changeId, issuerPubkeyHex, changeAmount, draw.now, original.ttlExpiry, ""⟩
  let paymentRecord ← makeSplitRecord c keypair paymentToken receiverPubkeyHex draw.paymentNonce
  let changeRecord ← makeSplitRecord c keypair changeToken (keypair.publicKeyHex c) draw.changeNonce
  return ((paymentToken, [paymentRecord]), (changeToken, [changeRecord]))

/-- `except (InsufficientFundsError, TransactionValueCapError)`. -/
def restoredBySwap : Raised → Bool
  | .dpc .insufficientFunds _ => true
  | .dpc .transactionValueCap _ => true
  | _ => false

/-- Split one token into payment and change tokens for P2P change. -/
def swapChange (c : Crypto) (w : DPCWallet) (tokenId : String) (amountToSend : Int)
    (receiverPubkeyHex issuerPubkeyHex : String) (draw : SwapDraw) : DPCWallet ×
      Except Raised ((Token × List TransferRecord) × (Token × List TransferRecord)) :=
  match w.utr.spend tokenId with
  | .error e => (w, .error e)
  | .ok (utr, receipt) =>
    match split c w.keypair receipt amountToSend receiverPubkeyHex issuerPubkeyHex draw with
    | .ok parcels => ({ w with utr := utr }, .ok parcels)
    | .error e =>
      if restoredBySwap e then ({ w with utr := utr.restoreUnspent receipt }, .error e)
      else ({ w with utr := utr }, .error e)

/-- The wallet holds the token, and both parts are positive and within the cap. -/
def Splits (w : DPCWallet) (tokenId : String) (amountToSend : Int) : Prop :=
  ∃ receipt token, w.utr.entries.get? tokenId = some receipt ∧ receipt.token = some token ∧
    0 < amountToSend ∧ amountToSend < token.amountSubunits ∧ amountToSend ≤ maxSingleTxSubunits ∧
    token.amountSubunits - amountToSend ≤ maxSingleTxSubunits

/-- What is split is held, and both parts are positive and within the cap. -/
lemma splits_of_split {c : Crypto} {w : DPCWallet} {tokenId : String} {amountToSend : Int}
    {receiverPubkeyHex issuerPubkeyHex : String} {draw : SwapDraw} {receipt : Receipt}
    {parcels : (Token × List TransferRecord) × (Token × List TransferRecord)}
    (hget : w.utr.entries.get? tokenId = some receipt)
    (h : split c w.keypair receipt amountToSend receiverPubkeyHex issuerPubkeyHex draw
      = .ok parcels) : w.Splits tokenId amountToSend := by
  obtain ⟨token, htoken, h⟩ := bind_eq_ok_iff.mp h
  obtain ⟨hamount, h⟩ := guard_eq_ok_iff.mp h
  obtain ⟨hcap, -⟩ := guard_eq_ok_iff.mp h
  rw [not_or] at hamount hcap
  exact ⟨receipt, token, hget, requireToken_eq_ok_iff.mp htoken, by omega, by omega, by omega,
    by omega⟩

/-- `swap_change` raises and gives up, or takes out a receipt that may be split. -/
lemma swapChange_cases (c : Crypto) (w : DPCWallet) (tokenId : String) (amountToSend : Int)
    (receiverPubkeyHex issuerPubkeyHex : String) (draw : SwapDraw) :
    (∃ w' e, w.GaveUp tokenId w' ∧
      w.swapChange c tokenId amountToSend receiverPubkeyHex issuerPubkeyHex draw
        = (w', .error e)) ∨
    ∃ utr receipt parcels, w.utr.spend tokenId = .ok (utr, receipt) ∧
      w.Splits tokenId amountToSend ∧
      w.swapChange c tokenId amountToSend receiverPubkeyHex issuerPubkeyHex draw
        = ({ w with utr := utr }, .ok parcels) := by
  rw [swapChange]
  cases hspend : w.utr.spend tokenId with
  | error e => exact .inl ⟨w, e, .refused, rfl⟩
  | ok spent =>
    obtain ⟨utr, receipt⟩ := spent
    dsimp only
    split
    · rename_i parcels hsplit
      have hget := (UnspentTokenRegister.spend_eq_ok hspend).1
      exact .inr ⟨utr, receipt, parcels, rfl, splits_of_split hget hsplit, rfl⟩
    · rename_i e hsplit
      cases restoredBySwap e with
      | true => exact .inl ⟨_, e, .restored hspend, rfl⟩
      | false => exact .inl ⟨_, e, .lost hspend, rfl⟩

end DPCWallet

/-! ### Runs -/

/-- An event of the network, a settlement, or a swap. -/
inductive ChangeEvent
  | network (e : Network.Event)
  | settle (submission : IssuerLedger.Submission)
  | swap (owner tokenId : String) (amountToSend : Int) (receiverPubkeyHex issuerPubkeyHex : String)
      (draw : DPCWallet.SwapDraw)

namespace Network

variable {c : Crypto}

/-- One event. A swap that returns produces the payment and the change. -/
def change (n : Network c) : ChangeEvent → Network c
  | .network e => n.step e
  | .settle submission =>
    { n with ledger := (n.ledger.settleToken c submission.claimerPubkeyHex submission.token
        submission.chain submission.now).1 }
  | .swap owner tokenId amountToSend receiverPubkeyHex issuerPubkeyHex draw =>
    match n.wallets.find? owner with
    | none => n
    | some w =>
      match w.swapChange c tokenId amountToSend receiverPubkeyHex issuerPubkeyHex draw with
      | (w', .error _) => { n with wallets := n.wallets.put w' }
      | (w', .ok (payment, change)) =>
        { n with wallets := n.wallets.put w', produced := change :: payment :: n.produced }

/-- Minted ids are drawn once, and only produced parcels are delivered. -/
def LegalChange (n : Network c) : ChangeEvent → Prop
  | .network e => n.Legal e
  | _ => True

instance (n : Network c) : DecidablePred n.LegalChange
  | .network e => inferInstanceAs (Decidable (n.Legal e))
  | .settle _ => .isTrue trivial
  | .swap .. => .isTrue trivial

/-- The event is not a swap of a token that may be split. -/
def NoSplit (n : Network c) : ChangeEvent → Prop
  | .swap owner tokenId amountToSend _ _ _ =>
    ∀ w, n.wallets.find? owner = some w → ¬ w.Splits tokenId amountToSend
  | _ => True

/-- What an event does. -/
inductive ChangeEffect (n : Network c) : ChangeEvent → Network c → Prop
  | refused (e : ChangeEvent) : ChangeEffect n e n
  | network {e : Event} {n' : Network c} (heffect : n.Effect e n') :
      ChangeEffect n (.network e) n'
  | settled (submission : IssuerLedger.Submission) : ChangeEffect n (.settle submission)
      { n with ledger := (n.ledger.settleToken c submission.claimerPubkeyHex submission.token
          submission.chain submission.now).1 }
  | gaveUp {owner tokenId receiverPubkeyHex issuerPubkeyHex : String} {amountToSend : Int}
      {draw : DPCWallet.SwapDraw} {w w' : DPCWallet} (hw : w ∈ n.wallets.items)
      (hgaveUp : w.GaveUp tokenId w') :
      ChangeEffect n (.swap owner tokenId amountToSend receiverPubkeyHex issuerPubkeyHex draw)
        { n with wallets := n.wallets.put w' }
  | split {owner tokenId receiverPubkeyHex issuerPubkeyHex : String} {amountToSend : Int}
      {draw : DPCWallet.SwapDraw} {w : DPCWallet} {utr : UnspentTokenRegister} {receipt : Receipt}
      {payment change : Parcel} (hfind : n.wallets.find? owner = some w)
      (hspend : w.utr.spend tokenId = .ok (utr, receipt)) (hsplits : w.Splits tokenId amountToSend) :
      ChangeEffect n (.swap owner tokenId amountToSend receiverPubkeyHex issuerPubkeyHex draw)
        { n with
          wallets := n.wallets.put { w with utr := utr }
          produced := change :: payment :: n.produced }

lemma effect_change (n : Network c) (e : ChangeEvent) : n.ChangeEffect e (n.change e) := by
  cases e with
  | network e => exact .network (n.effect_step e)
  | settle submission => exact .settled submission
  | swap owner tokenId amountToSend receiverPubkeyHex issuerPubkeyHex draw =>
    rw [change]
    split
    · exact .refused _
    · rename_i w hfind
      rcases w.swapChange_cases c tokenId amountToSend receiverPubkeyHex issuerPubkeyHex draw with
        ⟨w', e, hgaveUp, hswap⟩ | ⟨utr, receipt, ⟨payment, change⟩, hspend, hsplits, hswap⟩
      · rw [hswap]
        exact .gaveUp (KeyedList.find?_eq_some_iff.mp hfind).1 hgaveUp
      · rw [hswap]
        exact .split hfind hspend hsplits

/-! ### What a wallet holds -/

/-- The receipt of an entry: a valid chain of a token with this id, which ends at the wallet. -/
structure Backed (c : Crypto) (w : DPCWallet) (k : String) (receipt : Receipt) : Prop where
  tokenId : receipt.tokenId = k
  token : ∃ token, receipt.token = some token ∧ token.tokenId = k ∧
    ChainValid c token receipt.fullChain
  addressee : ∃ tip, receipt.fullChain.getLast? = some tip ∧
    tip.receiverPubkeyHex = w.publicKeyHex c

def AllBacked (n : Network c) : Prop :=
  ∀ w ∈ n.wallets.items, ∀ k receipt, w.utr.entries.get? k = some receipt → Backed c w k receipt

lemma Start.allBacked {n : Network c} (h : n.Start) : n.AllBacked := by
  intro w hw k receipt hget
  rw [h.empty w hw] at hget
  cases hget

lemma AllBacked.keeps_gaveUp {n : Network c} (h : n.AllBacked) {w w' : DPCWallet}
    (hw : w ∈ n.wallets.items) {tokenId : String} (hgaveUp : w.GaveUp tokenId w') : Keeps c w w' :=
  Network.keeps_gaveUp hgaveUp fun receipt hget => (h w hw tokenId receipt hget).tokenId

/-- Each wallet after an event keeps what one before it had, or has just accepted a delivery. -/
lemma wallets_change {n : Network c} (hbacked : n.AllBacked) (e : ChangeEvent) :
    ∀ v ∈ (n.change e).wallets.items, (∃ w ∈ n.wallets.items, Keeps c w v) ∨
      ∃ w ∈ n.wallets.items, ∃ owner parcel now receivedAt receipt,
        e = .network (.deliver owner parcel now receivedAt) ∧
        v = { w with utr := w.utr.store receipt } ∧ w.Accepts c parcel.1 parcel.2 now ∧
        receipt.tokenId = parcel.1.tokenId ∧ receipt.fullChain = parcel.2 ∧
        receipt.token = some parcel.1 := by
  have hsame : ∀ v ∈ n.wallets.items, ∃ w ∈ n.wallets.items, Keeps c w v :=
    fun v hv => ⟨v, hv, .refl v⟩
  have hput : ∀ {w w'}, w ∈ n.wallets.items → Keeps c w w' →
      ∀ v ∈ (n.wallets.put w').items, ∃ w ∈ n.wallets.items, Keeps c w v := by
    intro w w' hw hkeeps v hv
    rcases KeyedList.mem_put.mp hv with rfl | ⟨hv, -⟩
    · exact ⟨w, hw, hkeeps⟩
    · exact hsame v hv
  intro v hv
  have heffect := n.effect_change e
  generalize n.change e = n' at hv heffect
  cases heffect with
  | refused | settled => exact .inl (hsame v hv)
  | gaveUp hw hgaveUp => exact .inl (hput hw (hbacked.keeps_gaveUp hw hgaveUp) v hv)
  | split hfind hspend =>
    exact .inl (hput (KeyedList.find?_eq_some_iff.mp hfind).1 (keeps_spend hspend) v hv)
  | network heffect =>
    cases heffect with
    | refused | minted => exact .inl (hsame v hv)
    | gaveUp hw hgaveUp => exact .inl (hput hw (hbacked.keeps_gaveUp hw hgaveUp) v hv)
    | sent hw hspend => exact .inl (hput hw (keeps_spend hspend) v hv)
    | reloaded hw hload => exact .inl (hput hw (keeps_reload hload) v hv)
    | accepted hw haccepts hadmits hid hchain htoken hends =>
      rcases KeyedList.mem_put.mp hv with rfl | ⟨hv, -⟩
      · exact .inr ⟨_, hw, _, _, _, _, _, rfl, rfl, haccepts, hid, hchain, htoken⟩
      · exact .inl (hsame v hv)

/-- In every run the entries are receipts of valid tokens. -/
lemma AllBacked.change {n : Network c} (h : n.AllBacked) (e : ChangeEvent) :
    (n.change e).AllBacked := by
  intro v hv k receipt hget
  rcases wallets_change h e v hv with ⟨w, hw, hkeeps⟩ |
    ⟨w, hw, owner, parcel, now, receivedAt, stored, -, rfl, haccepts, hid, hchain, htoken⟩
  · obtain ⟨hid, htoken, tip, htip, howner⟩ := h w hw k receipt (hkeeps.entries k receipt hget)
    exact ⟨hid, htoken, tip, htip, howner.trans hkeeps.publicKeyHex.symm⟩
  · rw [UnspentTokenRegister.store, Dict.get?_set] at hget
    split_ifs at hget with hk
    · cases hget
      exact ⟨hk.symm, ⟨parcel.1, htoken, hid.symm.trans hk.symm, hchain ▸ haccepts.valid⟩,
        hchain ▸ haccepts.addressee⟩
    · obtain ⟨hid', htoken', haddressee⟩ := h w hw k receipt hget
      exact ⟨hid', htoken', haddressee⟩

/-! ### Redemption -/

/-- A submission of what a wallet holds is accepted exactly if the id was minted. -/
lemma Backed.settleToken_iff {n : Network c} {w : DPCWallet} {k : String} {receipt : Receipt}
    (h : Backed c w k receipt) (hunsettled : n.ledger.settled.get? k = none) (now : Int) :
    ∃ token, receipt.token = some token ∧
      ((n.ledger.settleToken c (w.publicKeyHex c) token receipt.fullChain now).2.isOk = true ↔
        k ∈ n.ledger.minted.keys) := by
  obtain ⟨-, ⟨token, htoken, rfl, hvalid⟩, tip, htip, howner⟩ := h
  refine ⟨token, htoken, ?_⟩
  constructor
  · intro hok
    obtain ⟨settlement, hsettle⟩ := exists_eq_ok hok
    exact (IssuerLedger.valid_of_settleToken hsettle).1
  · intro hminted
    rw [IssuerLedger.settleToken_of_valid hminted hvalid htip howner hunsettled now]
    rfl

/-- Nothing is settled on the id of the entry, and the wallet can settle it. -/
def canSettle (n : Network c) (w : DPCWallet) (now : Int) (e : String × Receipt) : Bool :=
  (n.ledger.settled.get? e.1).isNone && match e.2.token with
    | none => false
    | some token =>
      (n.ledger.settleToken c (w.publicKeyHex c) token e.2.fullChain now).2.isOk

/-- The value of what the holders can redeem. -/
def redeemableValue (n : Network c) (now : Int) : Int :=
  (n.wallets.items.flatMap fun w =>
    (w.utr.entries.items.filter (n.canSettle w now)).map fun e => e.2.amount).sum

lemma Backed.canSettle_iff {n : Network c} {w : DPCWallet} {e : String × Receipt}
    (h : Backed c w e.1 e.2) (now : Int) : n.canSettle w now e = true ↔
      e.1 ∈ n.ledger.minted.keys ∧ e.1 ∉ n.ledger.settled.keys := by
  rw [canSettle, Bool.and_eq_true, Option.isNone_iff_eq_none]
  constructor
  · rintro ⟨hunsettled, hok⟩
    obtain ⟨token, htoken, hiff⟩ := h.settleToken_iff hunsettled now
    rw [htoken] at hok
    exact ⟨hiff.mp hok, Dict.get?_eq_none_iff.mp hunsettled⟩
  · rintro ⟨hminted, hsettled⟩
    have hunsettled := Dict.get?_eq_none_iff.mpr hsettled
    obtain ⟨token, htoken, hiff⟩ := h.settleToken_iff hunsettled now
    refine ⟨hunsettled, ?_⟩
    rw [htoken]
    exact hiff.mpr hminted

end Network

namespace IssuerLedger

/-- The value of all that was minted. -/
def mintedValue (ledger : IssuerLedger) : Int := (ledger.minted.items.map fun m => m.2.amount).sum

/-- The minted value of the ids that are settled. -/
def settledValue (ledger : IssuerLedger) : Int :=
  ((ledger.minted.items.filter fun m => m.1 ∈ ledger.settled.keys).map fun m => m.2.amount).sum

/-- The amount minted under an id. -/
def mintedAmount (ledger : IssuerLedger) (k : String) : Int :=
  ((ledger.minted.get? k).map MintRecord.amount).getD 0

/-- What was minted and is not settled. -/
def unsettledIds (ledger : IssuerLedger) : List String :=
  ledger.minted.keys.filter (· ∉ ledger.settled.keys)

lemma mintedValue_sub_settledValue (ledger : IssuerLedger) :
    ledger.mintedValue - ledger.settledValue = (ledger.unsettledIds.map ledger.mintedAmount).sum := by
  have hamount : ∀ m ∈ ledger.minted.items, ledger.mintedAmount m.1 = m.2.amount := by
    intro m hm
    rw [mintedAmount, Dict.get?, KeyedList.find?_of_mem hm]
    rfl
  have hunsettled : ledger.unsettledIds.map ledger.mintedAmount
      = (ledger.minted.items.filter fun m => !decide (m.1 ∈ ledger.settled.keys)).map
        fun m => m.2.amount := by
    have hkeys : ledger.minted.keys = ledger.minted.items.map Prod.fst := rfl
    rw [unsettledIds, hkeys, List.filter_map, List.map_map]
    simp only [Function.comp_def, decide_not]
    exact List.map_congr_left fun m hm => hamount m (List.mem_of_mem_filter hm)
  have hall := ((List.filter_append_perm (fun m => decide (m.1 ∈ ledger.settled.keys))
    ledger.minted.items).map fun m => m.2.amount).sum_eq
  rw [List.map_append, List.sum_append] at hall
  rw [hunsettled, mintedValue, settledValue, ← hall]
  exact add_sub_cancel_left _ _

end IssuerLedger

namespace Network

variable {c : Crypto}

/-! ### Runs without swaps -/

/-- What was produced and what is held are the tokens that the ledger minted under their ids. -/
structure Genuine (n : Network c) : Prop where
  produced : ∀ p ∈ n.produced,
    n.ledger.minted.get? p.tokenId = some (IssuerLedger.mintRecord p.1)
  entries : ∀ w ∈ n.wallets.items, ∀ k receipt, w.utr.entries.get? k = some receipt →
    ∃ token, receipt.token = some token ∧
      n.ledger.minted.get? k = some (IssuerLedger.mintRecord token)

lemma Start.genuine {n : Network c} (h : n.Start) : n.Genuine where
  produced := by simp [h.produced]
  entries := by
    intro w hw k receipt hget
    rw [h.empty w hw] at hget
    cases hget

/-- A mint record is never replaced. -/
lemma minted_change {n : Network c} {e : ChangeEvent} (hlegal : n.LegalChange e) {k : String}
    {record : MintRecord} (h : n.ledger.minted.get? k = some record) :
    (n.change e).ledger.minted.get? k = some record := by
  have heffect := n.effect_change e
  generalize n.change e = n' at heffect
  cases heffect with
  | refused | gaveUp | split => exact h
  | settled submission =>
    rw [IssuerLedger.minted_settleToken]
    exact h
  | network heffect =>
    cases heffect with
    | refused | gaveUp | sent | accepted | reloaded => exact h
    | @minted _ _ _ draw =>
      have hne : k ≠ draw.tokenId := by
        rintro rfl
        exact hlegal (Dict.mem_keys_iff_get?.mpr ⟨record, h⟩)
      rw [Dict.get?_set, if_neg hne]
      exact h

/-- A produced parcel was produced before, is a mint, or has the token of an entry. -/
lemma produced_change {n : Network c} {e : ChangeEvent} (hnoSplit : n.NoSplit e) :
    ∀ p ∈ (n.change e).produced, p ∈ n.produced ∨
      (n.change e).ledger.minted.get? p.tokenId = some (IssuerLedger.mintRecord p.1) ∨
      ∃ w ∈ n.wallets.items, ∃ k receipt, w.utr.entries.get? k = some receipt ∧
        receipt.token = some p.1 := by
  intro p hp
  have heffect := n.effect_change e
  generalize n.change e = n' at hp heffect ⊢
  cases heffect with
  | refused | settled | gaveUp => exact .inl hp
  | split hfind hspend hsplits => exact absurd hsplits (hnoSplit _ hfind)
  | network heffect =>
    cases heffect with
    | refused | gaveUp | accepted | reloaded => exact .inl hp
    | minted =>
      rcases List.mem_cons.mp hp with rfl | hp
      · exact .inr (.inl (Dict.get?_set.trans (if_pos rfl)))
      · exact .inl hp
    | sent hw hspend htransfer =>
      rcases List.mem_cons.mp hp with rfl | hp
      · exact .inr (.inr ⟨_, hw, _, _, (UnspentTokenRegister.spend_eq_ok hspend).1,
          (DPCWallet.transfer_eq_ok htransfer).1⟩)
      · exact .inl hp

lemma Genuine.change {n : Network c} (hbacked : n.AllBacked) {e : ChangeEvent}
    (hlegal : n.LegalChange e) (hnoSplit : n.NoSplit e) (h : n.Genuine) :
    (n.change e).Genuine where
  produced := by
    intro p hp
    rcases produced_change hnoSplit p hp with hold | hmint | ⟨w, hw, k, receipt, hget, htoken⟩
    · exact minted_change hlegal (h.produced p hold)
    · exact hmint
    · obtain ⟨token, htoken', hid, -⟩ := (hbacked w hw k receipt hget).token
      obtain ⟨token', htoken'', hminted⟩ := h.entries w hw k receipt hget
      obtain rfl := Option.some.inj (htoken.symm.trans htoken')
      obtain rfl := Option.some.inj (htoken.symm.trans htoken'')
      rw [← hid] at hminted
      exact minted_change hlegal hminted
  entries := by
    intro v hv k receipt hget
    rcases wallets_change hbacked e v hv with ⟨w, hw, hkeeps⟩ |
      ⟨w, hw, owner, parcel, now, receivedAt, stored, rfl, rfl, -, hid, -, htoken⟩
    · obtain ⟨token, htoken, hminted⟩ := h.entries w hw k receipt (hkeeps.entries k receipt hget)
      exact ⟨token, htoken, minted_change hlegal hminted⟩
    · rw [UnspentTokenRegister.store, Dict.get?_set] at hget
      split_ifs at hget with hk
      · cases hget
        refine ⟨parcel.1, htoken, minted_change hlegal ?_⟩
        rw [hk, hid]
        exact h.produced parcel hlegal
      · obtain ⟨token, htoken, hminted⟩ := h.entries w hw k receipt hget
        exact ⟨token, htoken, minted_change hlegal hminted⟩

lemma Inv.change {n : Network c} (hbacked : n.AllBacked) {e : ChangeEvent}
    (hlegal : n.LegalChange e) (hnoSplit : n.NoSplit e) (h : n.Inv) : (n.change e).Inv := by
  have heffect := n.effect_change e
  generalize n.change e = n' at heffect
  cases heffect with
  | refused => exact h
  | network heffect => exact h.effect hlegal heffect
  | settled submission => exact h.of_ledger (IssuerLedger.minted_settleToken ..)
  | gaveUp hw hgaveUp => exact h.put hw (hbacked.keeps_gaveUp hw hgaveUp)
  | split hfind hspend hsplits => exact absurd hsplits (hnoSplit _ hfind)

/-- Every minted id that is not settled is in some register. -/
def AllDelivered (n : Network c) : Prop :=
  ∀ k ∈ n.ledger.unsettledIds, ∃ w ∈ n.wallets.items, k ∈ w.utr.entries.keys

/-- The ids of the tokens that the wallet can redeem. -/
def settleableIds (n : Network c) (now : Int) (w : DPCWallet) : List String :=
  (w.utr.entries.items.filter (n.canSettle w now)).map Prod.fst

section redeem

variable {n : Network c} (hbacked : n.AllBacked) (hgenuine : n.Genuine)

include hbacked hgenuine in
lemma mem_settleableIds {w : DPCWallet} (hw : w ∈ n.wallets.items) {now : Int} {k : String} :
    k ∈ n.settleableIds now w ↔ k ∈ w.utr.entries.keys ∧ k ∉ n.ledger.settled.keys := by
  rw [settleableIds, List.mem_map, KeyedList.mem_keys (d := w.utr.entries)]
  constructor
  · rintro ⟨e, he, rfl⟩
    obtain ⟨he, hsettles⟩ := List.mem_filter.mp he
    have h := hbacked w hw e.1 e.2 (Dict.get?_eq_some_iff.mpr he)
    exact ⟨⟨e, he, rfl⟩, ((h.canSettle_iff now).mp hsettles).2⟩
  · rintro ⟨⟨e, he, rfl⟩, hunsettled⟩
    have h := hbacked w hw e.1 e.2 (Dict.get?_eq_some_iff.mpr he)
    obtain ⟨token, -, hminted⟩ := hgenuine.entries w hw e.1 e.2 (Dict.get?_eq_some_iff.mpr he)
    exact ⟨e, List.mem_filter.mpr ⟨he, (h.canSettle_iff now).mpr
      ⟨Dict.mem_keys_iff_get?.mpr ⟨_, hminted⟩, hunsettled⟩⟩, rfl⟩

include hgenuine in
lemma redeemableValue_eq_sum (now : Int) : n.redeemableValue now
    = ((n.wallets.items.flatMap (n.settleableIds now)).map n.ledger.mintedAmount).sum := by
  rw [redeemableValue, List.map_flatMap]
  congr 1
  apply List.flatMap_congr
  intro w hw
  rw [settleableIds, List.map_map]
  apply List.map_congr_left
  intro e he
  obtain ⟨token, htoken, hminted⟩ :=
    hgenuine.entries w hw e.1 e.2 (Dict.get?_eq_some_iff.mpr (List.mem_of_mem_filter he))
  simp [Receipt.amount, htoken, IssuerLedger.mintedAmount, hminted, IssuerLedger.mintRecord]

include hbacked hgenuine in
/-- If nothing is in flight, each unsettled id can be redeemed by one wallet. -/
lemma perm_unsettledIds (hinv : n.Inv) (hdelivered : n.AllDelivered) (now : Int) :
    (n.wallets.items.flatMap (n.settleableIds now)).Perm n.ledger.unsettledIds := by
  have hnodup : (n.wallets.items.flatMap (n.settleableIds now)).Nodup := by
    rw [List.nodup_flatMap]
    constructor
    · intro w _
      exact w.utr.entries.nodup.sublist (List.filter_sublist.map Prod.fst)
    · apply List.Pairwise.imp_of_mem _ n.wallets.items_nodup
      intro w w' hw hw' hne k hk hk'
      exact hne (hinv.onePurse w hw w' hw' k ((mem_settleableIds hbacked hgenuine hw).mp hk).1
        ((mem_settleableIds hbacked hgenuine hw').mp hk').1)
  have hnodup' : n.ledger.unsettledIds.Nodup := n.ledger.minted.keys_nodup.filter _
  rw [List.perm_ext_iff_of_nodup hnodup hnodup']
  intro k
  rw [List.mem_flatMap]
  constructor
  · rintro ⟨w, hw, hk⟩
    obtain ⟨hheld, hunsettled⟩ := (mem_settleableIds hbacked hgenuine hw).mp hk
    obtain ⟨receipt, hget⟩ := Dict.mem_keys_iff_get?.mp hheld
    obtain ⟨token, -, hminted⟩ := hgenuine.entries w hw k receipt hget
    exact List.mem_filter.mpr
      ⟨Dict.mem_keys_iff_get?.mpr ⟨_, hminted⟩, decide_eq_true hunsettled⟩
  · intro hk
    obtain ⟨w, hw, hheld⟩ := hdelivered k hk
    have hunsettled := of_decide_eq_true (List.mem_filter.mp hk).2
    exact ⟨w, hw, (mem_settleableIds hbacked hgenuine hw).mpr ⟨hheld, hunsettled⟩⟩

end redeem

/-- In every run, a holder can settle an unsettled token exactly if its id was minted. In a run in
which no swap returns this is every unsettled token, and if all are delivered their value is what
was minted less what is settled. -/
theorem redeemable_of_run {start : Network c} (hstart : start.Start) (es : List ChangeEvent) :
    let n := runFrom change start es
    (∀ w ∈ n.wallets.items, ∀ k receipt, w.utr.entries.get? k = some receipt →
      n.ledger.settled.get? k = none → ∀ now, ∃ token, receipt.token = some token ∧
        ((n.ledger.settleToken c (w.publicKeyHex c) token receipt.fullChain now).2.isOk = true ↔
          k ∈ n.ledger.minted.keys)) ∧
    (Along change LegalChange start es → Along change NoSplit start es →
      (∀ w ∈ n.wallets.items, ∀ k receipt, w.utr.entries.get? k = some receipt →
        n.ledger.settled.get? k = none → ∀ now, ∃ token, receipt.token = some token ∧
          (n.ledger.settleToken c (w.publicKeyHex c) token receipt.fullChain now).2.isOk = true) ∧
      (n.AllDelivered → ∀ now,
        n.redeemableValue now = n.ledger.mintedValue - n.ledger.settledValue)) := by
  intro n
  have hbacked : n.AllBacked :=
    runFrom_invariant (I := AllBacked) (fun _ e h => h.change e) hstart.allBacked es
  refine ⟨fun w hw k receipt hget hunsettled now =>
    (hbacked w hw k receipt hget).settleToken_iff hunsettled now, ?_⟩
  intro hlegal hnoSplit
  have hkept : n.AllBacked ∧ n.Inv ∧ n.Genuine := by
    refine Along.invariant (I := fun n => n.AllBacked ∧ n.Inv ∧ n.Genuine) ?_
      (hlegal.and hnoSplit) ⟨hstart.allBacked, hstart.inv, hstart.genuine⟩
    rintro m e ⟨hlegal, hnoSplit⟩ ⟨hbacked, hinv, hgenuine⟩
    exact ⟨hbacked.change e, hinv.change hbacked hlegal hnoSplit,
      hgenuine.change hbacked hlegal hnoSplit⟩
  obtain ⟨-, hinv, hgenuine⟩ := hkept
  constructor
  · intro w hw k receipt hget hunsettled now
    obtain ⟨token, htoken, hiff⟩ := (hbacked w hw k receipt hget).settleToken_iff hunsettled now
    obtain ⟨_, -, hminted⟩ := hgenuine.entries w hw k receipt hget
    exact ⟨token, htoken, hiff.mpr (Dict.mem_keys_iff_get?.mpr ⟨_, hminted⟩)⟩
  · intro hdelivered now
    have hperm := perm_unsettledIds hbacked hgenuine hinv hdelivered now
    rw [redeemableValue_eq_sum hgenuine, (hperm.map n.ledger.mintedAmount).sum_eq,
      IssuerLedger.mintedValue_sub_settledValue]

namespace Split

open Network.RoundTrip (aliceKey bobKey)

/-- The payment and the change of 300 and 200 that Alice makes of her token. -/
def payment : Token := Custody.plainToken Custody.alice "t2" 300 1000
def paymentRecord : TransferRecord :=
  Custody.plainRecord Custody.alice Custody.mallory payment 0 "n1" genesisHash
def rest : Token := Custody.plainToken Custody.alice "t3" 200 1000
def restRecord : TransferRecord :=
  Custody.plainRecord Custody.alice Custody.alice rest 0 "n2" genesisHash

/-- A token is issued to Alice. -/
def issued : List ChangeEvent := [
  .network (.mint Custody.issuer aliceKey 500 ⟨"t1", 1000, "n0"⟩),
  .network (.deliver aliceKey Network.RoundTrip.minted 1000 1000)]

/-- She pays Bob out of it, and both accept what they get. -/
def swapped : List ChangeEvent := issued ++ [
  .swap aliceKey "t1" 300 bobKey aliceKey ⟨1000, "t2", "t3", "n1", "n2"⟩,
  .network (.deliver bobKey (payment, [paymentRecord]) 1001 1001),
  .network (.deliver aliceKey (rest, [restRecord]) 1001 1001)]

end Split

theorem redeemable_of_run_issued :
    let n := runFrom change plainNetwork Split.issued
    n.redeemableValue 1002 = n.ledger.mintedValue - n.ledger.settledValue := by
  have hstart : plainNetwork.Start := ⟨by decide +kernel, rfl, rfl⟩
  exact ((redeemable_of_run hstart Split.issued).2 (by decide +kernel)
    ⟨trivial, trivial, trivial⟩).2 (by rw [AllDelivered]; decide +kernel) 1002

/-- Bob holds the payment and Alice the change. Neither can settle, and nothing is left of the 500
that were minted. -/
theorem swapChange_not_redeemable :
    let n := runFrom change plainNetwork Split.swapped
    Along change LegalChange plainNetwork Split.swapped ∧
    (∀ p ∈ n.produced, p.tokenId ≠ "t1" → ∃ w ∈ n.wallets.items, p.tokenId ∈ w.utr.entries.keys) ∧
    (∃ w ∈ n.wallets.items, (w.utr.entries.get? "t2").map Receipt.token = some (some Split.payment) ∧
      n.ledger.settled.get? "t2" = none ∧
      (n.ledger.settleToken plainCrypto (w.publicKeyHex plainCrypto) Split.payment
        [Split.paymentRecord] 1002).2
        = .error (.dpc .reconciliation "Token was not minted by this issuer")) ∧
    n.redeemableValue 1002 = 0 ∧ n.ledger.mintedValue = 500 ∧ n.ledger.settledValue = 0 := by
  decide +kernel

end Network

end PocketCash.Dpc
