import Mathlib.Data.Finset.Union
import Mathlib.Data.List.Sort
import PocketCash.Library.GreedyCover
import PocketCash.Offline.Server

/-!
# The offline wallet

`wallet/offline_wallet.py`. What a call reads from the clock and draws at random is passed as an
argument. A call that raises leaves the wallet as it was at that point.
-/

namespace PocketCash.Offline

/-- A mobile wallet maintaining unspent and spent token registers. -/
structure Wallet where
  privateKeyHex : String
  publicKeyHex : String
  policy : PolicyConfig
  utr : KeyedList Token.tokenId
  str : KeyedList Token.tokenId
  transferHistory : Dict String String
  transferHashes : Dict String String
  processedTransferIds : Finset String
  syncRequired : Finset String

/-- `reason` of `apply_transfer_with_reason`. -/
inductive ReceiptReason
  | ok
  | replayTransferId
  | wrongReceiver
  | maxHopsExceeded
  | brokenParentLink
  | brokenParentHashLink
  | brokenHashLink
  | tokenExpired
  | badTransferSig
  | maxBalanceExceeded
  | accepted
  deriving DecidableEq, Repr

/-- What is drawn for one transfer: its id and the time. -/
structure TransferDraw where
  transferId : String
  now : Int
  deriving DecidableEq, Repr

/-- What `create_payment` reads and draws: the time, and for each transfer and the bundle. -/
structure PaymentDraw where
  now : Int
  transfers : Nat → TransferDraw
  bundleId : String

/-- The clock readings made while a transfer is verified: by `is_not_expired`, and for the age since
`issue_timestamp`. -/
structure ReceiptReading where
  expiryNow : Int
  epochNow : Int
  deriving DecidableEq, Repr

/-- Return True if token is still within expiry period; a naive time raises `TypeError`. -/
def isNotExpired (createdAt : Datetime) (expirySeconds now : Int) : Except PyError Bool :=
  match createdAt.utcOffset with
  | some _ => .ok (now - createdAt.micros ≤ expirySeconds * 1000000)
  | none => .error .typeError

/-- A bundle holds one transfer for each of its tokens, made at an aware time. -/
structure PaymentBundle.Honest (bundle : PaymentBundle) : Prop where
  nodup : (bundle.transfers.map Transfer.tokenId).Nodup
  tokens : ∀ t ∈ bundle.transfers,
    ∃ token, bundle.tokens.get? t.tokenId = some token ∧ token.tokenId = t.tokenId
  aware : ∀ t ∈ bundle.transfers, t.timestamp.utcOffset.isSome = true

namespace Wallet

/-- A wallet before its first call. -/
def new (privateKeyHex publicKeyHex : String) (policy : PolicyConfig) : Wallet :=
  ⟨privateKeyHex, publicKeyHex, policy, .empty, .empty, .empty, .empty, ∅, ∅⟩

/-- Return available wallet balance from UTR. -/
def balance (w : Wallet) : Int := (w.utr.items.map Token.value).sum

/-- Receive an unspent token into UTR with balance-cap policy enforcement. -/
def receiveToken (w : Wallet) (token : Token) : Except PyError Wallet :=
  if token.currentOwner ≠ w.publicKeyHex then .error (.valueError "token owner mismatch")
  else if w.balance + token.value > w.policy.maxBalance then
    .error (.valueError "MAX_BALANCE exceeded")
  else .ok { w with utr := w.utr.put token }

/-! ### Payments -/

/-- `sorted(pool, key=lambda t: t.value)`, a stable sort. -/
def ascending (pool : List Token) : List Token :=
  pool.insertionSort fun s t => s.value ≤ t.value

/-- The loop of the two greedy selections, which differ in the message of the exception. -/
def takeUntilCovered (message : String) (amount : Int) :
    List Token → List Token → Int → Except PyError (List Token)
  | [], _, _ => .error (.valueError message)
  | token :: rest, selected, total =>
    if total + token.value ≥ amount then .ok (selected ++ [token])
    else takeUntilCovered message amount rest (selected ++ [token]) (total + token.value)

/-- Greedy token selection from a constrained token pool. -/
def selectTokensFromPool (pool : List Token) (amount : Int) : Except PyError (List Token) :=
  takeUntilCovered "Insufficient spendable funds" amount (ascending pool) [] 0

/-- Greedy token selection for a payment amount (no token splitting). -/
def selectTokens (w : Wallet) (amount : Int) : Except PyError (List Token) :=
  takeUntilCovered "Insufficient funds" amount (ascending w.utr.items) [] 0

/-- Check whether token can be used for an offline transfer. -/
def isTokenSpendable (w : Wallet) (token : Token) (nowEpoch : Int) : Bool :=
  let expired := nowEpoch - token.issueTimestamp > w.policy.tokenExpirySeconds
  let maxedHops := token.nonce ≥ w.policy.maxHops
  !(expired || maxedHops)

lemma isTokenSpendable_eq_true_iff {w : Wallet} {token : Token} {nowEpoch : Int} :
    w.isTokenSpendable token nowEpoch = true ↔
      nowEpoch - token.issueTimestamp ≤ w.policy.tokenExpirySeconds ∧
        token.nonce < w.policy.maxHops := by
  simp [isTokenSpendable]

/-- The tokens that cannot be spent are marked for a sync. -/
def markSyncRequired (w : Wallet) (nowEpoch : Int) : Wallet :=
  { w with
    syncRequired := w.syncRequired ∪
      ((w.utr.items.filter fun token => !w.isTokenSpendable token nowEpoch).map
        Token.tokenId).toFinset }

/-- The token that goes into the bundle. -/
def outboundToken (receiverPk : String) (token : Token) : Token :=
  { token with currentOwner := receiverPk, nonce := token.nonce + 1 }

/-- The transfer of a token before it is signed. -/
def unsignedTransfer (senderPk receiverPk : String) (token : Token) (draw : TransferDraw) :
    Transfer where
  transferId := draw.transferId
  tokenId := token.tokenId
  senderPk := senderPk
  receiverPk := receiverPk
  nonce := token.nonce + 1
  parentTransferId := token.lastTransferId
  parentTransferHash := token.lastTransferHash
  prevTransferHash := token.lastTransferHash
  hopCount := token.hopCount + 1
  signature := ""
  timestamp := ⟨draw.now, some 0⟩

/-- The signed transfer of a token. -/
def signedTransfer (c : Crypto) (w : Wallet) (receiverPk : String) (token : Token)
    (draw : TransferDraw) : Transfer :=
  let transfer := unsignedTransfer w.publicKeyHex receiverPk token draw
  { transfer with signature := c.sign (.transfer transfer.signingPayload) w.privateKeyHex }

end Wallet

/-- The state of the loop of `create_payment`. -/
structure Spending where
  wallet : Wallet
  transfers : List Transfer
  tokens : Dict String Token

/-- One round of the loop of `create_payment`. -/
def Spending.next (c : Crypto) (receiverPk : String) (loop : Spending)
    (chosen : Token × TransferDraw) : Spending where
  wallet := { loop.wallet with
    utr := loop.wallet.utr.pop chosen.1.tokenId
    str := loop.wallet.str.put chosen.1 }
  transfers := loop.transfers ++ [loop.wallet.signedTransfer c receiverPk chosen.1 chosen.2]
  tokens := loop.tokens.set chosen.1.tokenId (Wallet.outboundToken receiverPk chosen.1)

namespace Wallet

/-- The loop of `create_payment`. -/
def spend (c : Crypto) (w : Wallet) (receiverPk : String) (selected : List Token)
    (draws : Nat → TransferDraw) : Spending :=
  runFrom (Spending.next c receiverPk) ⟨w, [], .empty⟩
    (selected.mapIdx fun i token => (token, draws i))

/-- Create a signed payment bundle for receiver using whole tokens only. -/
def createPayment (c : Crypto) (w : Wallet) (receiverPk : String) (amount : Int)
    (draw : PaymentDraw) : Wallet × Except PyError PaymentBundle :=
  if amount ≤ 0 then (w, .error (.valueError "Amount must be positive"))
  else if amount > w.policy.maxTxValue then (w, .error (.valueError "MAX_TX_VALUE exceeded"))
  else
    let nowEpoch := wholeSeconds draw.now
    let spendable := w.utr.items.filter fun token => w.isTokenSpendable token nowEpoch
    let w := w.markSyncRequired nowEpoch
    match selectTokensFromPool spendable amount with
    | .error e => (w, .error e)
    | .ok selected =>
      let loop := w.spend c receiverPk selected draw.transfers
      (loop.wallet, .ok ⟨draw.bundleId, loop.transfers, loop.tokens⟩)

/-- The selection is a greedy cover. -/
lemma takeUntilCovered_eq_ok_iff {message : String} {amount total : Int}
    {pool selected chosen : List Token} :
    takeUntilCovered message amount pool selected total = .ok chosen ↔
      coverFrom Token.value amount pool selected total = some chosen := by
  induction pool generalizing selected total with
  | nil => simp [takeUntilCovered, coverFrom]
  | cons token pool ih =>
    rw [takeUntilCovered, coverFrom]
    split_ifs with hcovered
    · simp
    · exact ih

/-- What is selected: different tokens of the pool in ascending order that cover the amount. -/
lemma selectTokensFromPool_eq_ok {pool chosen : List Token} {amount : Int}
    (h : selectTokensFromPool pool amount = .ok chosen) :
    chosen.Subperm pool ∧ chosen.Pairwise (fun s t => s.value ≤ t.value) ∧
      amount ≤ (chosen.map Token.value).sum := by
  have hcover := takeUntilCovered_eq_ok_iff.mp h
  obtain ⟨taken, rfl, hsub, hcovers⟩ := exists_taken_of_coverFrom hcover
  rw [zero_add] at hcovers
  exact ⟨hsub.subperm.trans (List.perm_insertionSort _ pool).subperm,
    (ascending_insertionSort _ pool).sublist hsub, hcovers⟩

/-- The loop of `create_payment` moves the chosen tokens to the spent register. -/
lemma runFrom_spending (c : Crypto) (receiverPk : String) (loop : Spending)
    (chosen : List (Token × TransferDraw)) :
    runFrom (Spending.next c receiverPk) loop chosen =
      { wallet := { loop.wallet with
          utr := (chosen.map Prod.fst).foldl (fun d token => d.pop token.tokenId) loop.wallet.utr
          str := (chosen.map Prod.fst).foldl KeyedList.put loop.wallet.str }
        transfers := loop.transfers ++
          chosen.map fun p => loop.wallet.signedTransfer c receiverPk p.1 p.2
        tokens := ((chosen.map Prod.fst).map fun token =>
          (token.tokenId, outboundToken receiverPk token)).foldl KeyedList.put loop.tokens } := by
  induction chosen generalizing loop with
  | nil => simp
  | cons p chosen ih =>
    rw [runFrom_cons, ih]
    simp only [Spending.next, List.map_cons, List.foldl_cons, List.append_assoc,
      List.singleton_append]
    rfl

/-- What a completed payment does: the chosen tokens leave the unspent register, and the bundle holds
a transfer and a token for each. -/
structure Pays (c : Crypto) (w w' : Wallet) (receiverPk : String) (draw : PaymentDraw)
    (bundle : PaymentBundle) (selected : List Token) : Prop where
  publicKeyHex : w'.publicKeyHex = w.publicKeyHex
  processedTransferIds : w'.processedTransferIds = w.processedTransferIds
  perm : w.utr.items.Perm (selected ++ w'.utr.items)
  transfers : bundle.transfers =
    selected.mapIdx fun i token => w.signedTransfer c receiverPk token (draw.transfers i)
  tokens : bundle.tokens.items =
    selected.map fun token => (token.tokenId, outboundToken receiverPk token)

namespace Pays

variable {c : Crypto} {w w' : Wallet} {receiverPk : String} {draw : PaymentDraw}
  {bundle : PaymentBundle} {selected : List Token}

/-- No token is chosen twice. -/
lemma nodup (h : w.Pays c w' receiverPk draw bundle selected) :
    (selected.map Token.tokenId).Nodup := by
  have hnodup := (h.perm.map Token.tokenId).nodup_iff.mp w.utr.nodup
  rw [List.map_append] at hnodup
  exact (List.nodup_append.mp hnodup).1

lemma map_tokenId (h : w.Pays c w' receiverPk draw bundle selected) :
    bundle.transfers.map Transfer.tokenId = selected.map Token.tokenId := by
  rw [h.transfers, map_mapIdx]
  exact mapIdx_eq_map Token.tokenId selected

/-- The bundle has a copy of each chosen token under its id. -/
lemma get?_tokens (h : w.Pays c w' receiverPk draw bundle selected) {token : Token}
    (htoken : token ∈ selected) :
    bundle.tokens.get? token.tokenId = some (outboundToken receiverPk token) := by
  have hmem : (token.tokenId, outboundToken receiverPk token) ∈ bundle.tokens.items := by
    rw [h.tokens]
    exact List.mem_map_of_mem htoken
  rw [Dict.get?]
  exact congrArg (Option.map Prod.snd) (KeyedList.find?_of_mem hmem)

/-- Each transfer of the bundle was made for a chosen token, which is in the bundle. -/
lemma exists_of_mem (h : w.Pays c w' receiverPk draw bundle selected) {transfer : Transfer}
    (ht : transfer ∈ bundle.transfers) :
    ∃ token ∈ selected, ∃ i, transfer = w.signedTransfer c receiverPk token (draw.transfers i) ∧
      bundle.tokens.get? transfer.tokenId = some (outboundToken receiverPk token) := by
  rw [h.transfers, List.mem_mapIdx] at ht
  obtain ⟨i, hi, rfl⟩ := ht
  exact ⟨selected[i], List.getElem_mem hi, i, rfl, h.get?_tokens (List.getElem_mem hi)⟩

/-- A wallet makes honest bundles. -/
lemma honest (h : w.Pays c w' receiverPk draw bundle selected) : bundle.Honest := by
  refine ⟨h.map_tokenId ▸ h.nodup, ?_, ?_⟩
  · intro t ht
    obtain ⟨token, -, i, rfl, htoken⟩ := h.exists_of_mem ht
    exact ⟨_, htoken, rfl⟩
  · intro t ht
    obtain ⟨token, -, i, rfl, -⟩ := h.exists_of_mem ht
    rfl

end Pays

/-- The tokens of a completed payment are spendable and cover the amount, in ascending order. -/
structure PaysWith (c : Crypto) (w w' : Wallet) (receiverPk : String) (amount : Int)
    (draw : PaymentDraw) (bundle : PaymentBundle) (selected : List Token) : Prop
    extends w.Pays c w' receiverPk draw bundle selected where
  privateKeyHex : w'.privateKeyHex = w.privateKeyHex
  policy : w'.policy = w.policy
  spendable : ∀ token ∈ selected, w.isTokenSpendable token (wholeSeconds draw.now) = true
  ascending : selected.Pairwise fun s t => s.value ≤ t.value
  positive : 0 < amount
  covers : amount ≤ (selected.map Token.value).sum

/-- What `create_payment` does with the tokens it selects. -/
lemma paysWith_of_select {c : Crypto} {w : Wallet} {amount : Int} {draw : PaymentDraw}
    {selected : List Token} (hamount : 0 < amount)
    (hselected : selectTokensFromPool (w.utr.items.filter fun token =>
      w.isTokenSpendable token (wholeSeconds draw.now)) amount = .ok selected)
    (receiverPk : String) :
    let loop := (w.markSyncRequired (wholeSeconds draw.now)).spend c receiverPk selected draw.transfers
    w.PaysWith c loop.wallet receiverPk amount draw ⟨draw.bundleId, loop.transfers, loop.tokens⟩
      selected := by
  obtain ⟨hsub, hascending, hcovers⟩ := selectTokensFromPool_eq_ok hselected
  have hsub' : selected.Subperm w.utr.items := hsub.trans List.filter_sublist.subperm
  have hnodup : (selected.map Token.tokenId).Nodup := by
    obtain ⟨chosen, hperm, hchosen⟩ := hsub'
    exact (hperm.map Token.tokenId).nodup_iff.mp (w.utr.nodup.sublist (hchosen.map _))
  have hfst : (selected.mapIdx fun i token => (token, draw.transfers i)).map Prod.fst
      = selected := by
    rw [map_mapIdx]
    exact (mapIdx_eq_map id selected).trans (List.map_id _)
  dsimp only
  rw [spend, runFrom_spending, hfst]
  refine ⟨⟨rfl, rfl, KeyedList.perm_foldl_pop (fun _ ht => hsub'.subset ht) hnodup, ?_, ?_⟩, rfl, rfl,
    fun token ht => (List.mem_filter.mp (hsub.subset ht)).2, hascending, hamount, hcovers⟩
  · rw [List.nil_append, map_mapIdx]
    rfl
  · rw [KeyedList.items_foldl_put]
    · rfl
    · rw [KeyedList.keys_empty, List.nil_append, List.map_map]
      exact hnodup

/-- A payment raises and moves no token, or is completed. -/
lemma createPayment_cases (c : Crypto) (w : Wallet) (receiverPk : String) (amount : Int)
    (draw : PaymentDraw) :
    (∃ e syncRequired, w.createPayment c receiverPk amount draw
        = ({ w with syncRequired := syncRequired }, .error e)) ∨
      ∃ w' bundle selected, w.createPayment c receiverPk amount draw = (w', .ok bundle) ∧
        w.PaysWith c w' receiverPk amount draw bundle selected := by
  simp only [createPayment]
  split_ifs with hamount
  · exact .inl ⟨_, _, rfl⟩
  · exact .inl ⟨_, _, rfl⟩
  · split
    · exact .inl ⟨_, _, rfl⟩
    · rename_i selected hselected
      exact .inr ⟨_, _, selected, rfl, paysWith_of_select (Int.not_le.mp hamount) hselected receiverPk⟩

/-- The tokens of a payment that returns are selected from the spendable ones, for an amount within
the policy. -/
lemma createPayment_eq_ok {c : Crypto} {w w' : Wallet} {receiverPk : String} {amount : Int}
    {draw : PaymentDraw} {bundle : PaymentBundle}
    (h : w.createPayment c receiverPk amount draw = (w', .ok bundle)) :
    amount ≤ w.policy.maxTxValue ∧ ∃ selected,
      selectTokensFromPool (w.utr.items.filter fun token =>
        w.isTokenSpendable token (wholeSeconds draw.now)) amount = .ok selected ∧
      w.PaysWith c w' receiverPk amount draw bundle selected := by
  simp only [createPayment] at h
  split_ifs at h with hamount hcap
  · cases h
  · cases h
  · split at h
    · cases h
    · rename_i selected hselected
      cases h
      exact ⟨Int.not_lt.mp hcap, selected, hselected,
        paysWith_of_select (Int.not_le.mp hamount) hselected receiverPk⟩

/-! ### Receipts -/

/-- Verify transfer signature and policy constraints with explicit rejection reason. -/
def verifyTransferWithReason (c : Crypto) (w : Wallet) (transfer : Transfer) (token : Token)
    (reading : ReceiptReading) : Except PyError (Bool × ReceiptReason) := do
  if transfer.transferId ∈ w.processedTransferIds then return (false, .replayTransferId)
  else if transfer.receiverPk ≠ w.publicKeyHex then return (false, .wrongReceiver)
  else if transfer.hopCount > w.policy.maxHops then return (false, .maxHopsExceeded)
  else if transfer.nonce > w.policy.maxHops then return (false, .maxHopsExceeded)
  else if transfer.parentTransferId ≠ token.lastTransferId then
    return (false, .brokenParentLink)
  else if transfer.parentTransferHash ≠ token.lastTransferHash then
    return (false, .brokenParentHashLink)
  else if transfer.prevTransferHash ≠ token.lastTransferHash then return (false, .brokenHashLink)
  else
    let fresh ← isNotExpired token.createdAt w.policy.tokenExpirySeconds reading.expiryNow
    if !fresh then return (false, .tokenExpired)
    else if wholeSeconds reading.epochNow - token.issueTimestamp > w.policy.tokenExpirySeconds then
      return (false, .tokenExpired)
    else if !c.verify (.transfer transfer.signingPayload) transfer.signature transfer.senderPk then
      return (false, .badTransferSig)
    else return (true, .ok)

/-- The token as it is stored after its transfer was accepted. -/
def receivedToken (c : Crypto) (w : Wallet) (transfer : Transfer) (token : Token) : Token :=
  { token with
    currentOwner := w.publicKeyHex
    lastTransferId := some transfer.transferId
    lastTransferHash := some (c.payloadHash transfer)
    hopCount := token.hopCount + 1 }

/-- The wallet after a transfer was accepted. -/
def receive (c : Crypto) (w : Wallet) (transfer : Transfer) (token : Token) : Wallet :=
  { w with
    utr := w.utr.put (w.receivedToken c transfer token)
    transferHistory := w.transferHistory.set token.tokenId transfer.transferId
    transferHashes := w.transferHashes.set transfer.transferId (c.payloadHash transfer)
    processedTransferIds := insert transfer.transferId w.processedTransferIds }

@[simp] lemma receive_publicKeyHex (c : Crypto) (w : Wallet) (transfer : Transfer)
    (token : Token) : (w.receive c transfer token).publicKeyHex = w.publicKeyHex := rfl

/-- Apply verified transfer into wallet state with explicit reason. -/
def applyTransferWithReason (c : Crypto) (w : Wallet) (transfer : Transfer) (token : Token)
    (reading : ReceiptReading) : Except PyError (Wallet × Bool × ReceiptReason) := do
  let (ok, reason) ← w.verifyTransferWithReason c transfer token reading
  if !ok then return (w, false, reason)
  else if w.balance + token.value > w.policy.maxBalance then
    return (w, false, .maxBalanceExceeded)
  else return (w.receive c transfer token, true, .accepted)

/-- What a transfer passed before it was accepted. -/
structure Receives (c : Crypto) (w : Wallet) (transfer : Transfer) (token : Token)
    (reading : ReceiptReading) : Prop where
  unprocessed : transfer.transferId ∉ w.processedTransferIds
  receiver : transfer.receiverPk = w.publicKeyHex
  hops : transfer.hopCount ≤ w.policy.maxHops
  nonce : transfer.nonce ≤ w.policy.maxHops
  parent : transfer.parentTransferId = token.lastTransferId
  parentHash : transfer.parentTransferHash = token.lastTransferHash
  prevHash : transfer.prevTransferHash = token.lastTransferHash
  created : isNotExpired token.createdAt w.policy.tokenExpirySeconds reading.expiryNow = .ok true
  unexpired : wholeSeconds reading.epochNow - token.issueTimestamp ≤ w.policy.tokenExpirySeconds
  signed : c.verify (.transfer transfer.signingPayload) transfer.signature transfer.senderPk = true
  balance : w.balance + token.value ≤ w.policy.maxBalance

lemma verifyTransferWithReason_eq_true_iff {c : Crypto} {w : Wallet} {transfer : Transfer}
    {token : Token} {reading : ReceiptReading} {reason : ReceiptReason} :
    w.verifyTransferWithReason c transfer token reading = .ok (true, reason) ∧
        w.balance + token.value ≤ w.policy.maxBalance ↔
      w.Receives c transfer token reading ∧ reason = .ok := by
  simp only [verifyTransferWithReason, pure_eq_ok, reject_eq_ok_iff, bind_eq_ok_iff, not_not,
    Int.not_lt, Bool.not_eq_true, Bool.not_eq_false', Except.ok.injEq, Prod.mk.injEq, true_and]
  constructor
  · rintro ⟨⟨h₁, h₂, h₃, h₄, h₅, h₆, h₇, fresh, h₈, rfl, h₉, h₁₀, rfl⟩, hcap⟩
    exact ⟨⟨h₁, h₂, h₃, h₄, h₅, h₆, h₇, h₈, h₉, h₁₀, hcap⟩, rfl⟩
  · rintro ⟨h, rfl⟩
    exact ⟨⟨h.unprocessed, h.receiver, h.hops, h.nonce, h.parent, h.parentHash, h.prevHash, true,
      h.created, rfl, h.unexpired, h.signed, rfl⟩, h.balance⟩

/-- A transfer is accepted exactly if it passes all checks, and then stored. -/
lemma applyTransferWithReason_eq_true_iff {c : Crypto} {w w' : Wallet} {transfer : Transfer}
    {token : Token} {reading : ReceiptReading} {reason : ReceiptReason} :
    w.applyTransferWithReason c transfer token reading = .ok (w', true, reason) ↔
      w.Receives c transfer token reading ∧ w' = w.receive c transfer token ∧
        reason = .accepted := by
  simp only [applyTransferWithReason, pure_eq_ok, bind_eq_ok_iff]
  constructor
  · rintro ⟨⟨ok, why⟩, hverify, h⟩
    cases ok with
    | false => cases h
    | true =>
      simp only [Bool.not_true, Bool.false_eq_true, if_false] at h
      split_ifs at h with hcap
      · cases h
      · cases h
        exact ⟨(verifyTransferWithReason_eq_true_iff.mp ⟨hverify, Int.not_lt.mp hcap⟩).1, rfl, rfl⟩
  · rintro ⟨h, rfl, rfl⟩
    obtain ⟨hverify, hcap⟩ := verifyTransferWithReason_eq_true_iff.mpr ⟨h, rfl⟩
    exact ⟨_, hverify, by simp [Int.not_lt.mpr hcap]⟩

/-- A transfer that is not accepted leaves the wallet as it is. -/
lemma applyTransferWithReason_eq_false {c : Crypto} {w w' : Wallet} {transfer : Transfer}
    {token : Token} {reading : ReceiptReading} {reason : ReceiptReason}
    (h : w.applyTransferWithReason c transfer token reading = .ok (w', false, reason)) :
    w' = w := by
  simp only [applyTransferWithReason, pure_eq_ok, bind_eq_ok_iff] at h
  obtain ⟨⟨ok, why⟩, -, h⟩ := h
  split_ifs at h <;> cases h <;> rfl

/-! ### Bundles -/

end Wallet

/-- The state of the loop of `receive_bundle_with_reasons`: the wallet, the results so far, and the
exception that ended the loop. -/
structure Receiving where
  wallet : Wallet
  results : List (String × Bool × ReceiptReason)
  raised : Option PyError

/-- One round of the loop of `receive_bundle_with_reasons`. -/
def Receiving.next (c : Crypto) (tokens : Dict String Token) (loop : Receiving)
    (handled : Transfer × ReceiptReading) : Receiving :=
  match loop.raised with
  | some _ => loop
  | none =>
    match tokens.get? handled.1.tokenId with
    | none => { loop with raised := some (.keyError handled.1.tokenId) }
    | some token =>
      match loop.wallet.applyTransferWithReason c handled.1 token handled.2 with
      | .error e => { loop with raised := some e }
      | .ok (wallet, ok, reason) =>
        ⟨wallet, loop.results ++ [(handled.1.transferId, ok, reason)], none⟩

/-- A round refuses the transfer, or accepts it with the token of the bundle. -/
lemma Receiving.next_cases (c : Crypto) (tokens : Dict String Token) (loop : Receiving)
    (handled : Transfer × ReceiptReading) :
    ((loop.next c tokens handled).wallet = loop.wallet ∧
      ((loop.next c tokens handled).results.filter fun r => r.2.1)
        = loop.results.filter fun r => r.2.1) ∨
    ∃ token, tokens.get? handled.1.tokenId = some token ∧
      loop.wallet.Receives c handled.1 token handled.2 ∧
      (loop.next c tokens handled).wallet = loop.wallet.receive c handled.1 token ∧
      (loop.next c tokens handled).results
        = loop.results ++ [(handled.1.transferId, true, .accepted)] := by
  rw [Receiving.next]
  split
  · exact .inl ⟨rfl, rfl⟩
  · split
    · exact .inl ⟨rfl, rfl⟩
    · rename_i token htoken
      split
      · exact .inl ⟨rfl, rfl⟩
      · rename_i wallet ok reason happly
        cases ok with
        | false =>
          left
          exact ⟨Wallet.applyTransferWithReason_eq_false happly, by simp⟩
        | true =>
          obtain ⟨hreceives, rfl, rfl⟩ := Wallet.applyTransferWithReason_eq_true_iff.mp happly
          exact .inr ⟨token, htoken, hreceives, rfl, rfl⟩

namespace Wallet

/-- Apply all transfers and provide explicit accept/reject reasons. -/
def receiveBundleWithReasons (c : Crypto) (w : Wallet) (bundle : PaymentBundle)
    (readings : Nat → ReceiptReading) : Receiving :=
  runFrom (Receiving.next c bundle.tokens) ⟨w, [], none⟩
    (bundle.transfers.mapIdx fun i transfer => (transfer, readings i))

/-- Apply all transfers from a payment bundle. -/
def receiveBundle (c : Crypto) (w : Wallet) (bundle : PaymentBundle)
    (readings : Nat → ReceiptReading) : Wallet × Except PyError (List (String × Bool)) :=
  let loop := w.receiveBundleWithReasons c bundle readings
  match loop.raised with
  | some e => (loop.wallet, .error e)
  | none => (loop.wallet, .ok (loop.results.map fun r => (r.1, r.2.1)))

/-- `receive_bundle` drops the reasons, and nothing else. -/
lemma receiveBundle_fst (c : Crypto) (w : Wallet) (bundle : PaymentBundle)
    (readings : Nat → ReceiptReading) :
    (w.receiveBundle c bundle readings).1 = (w.receiveBundleWithReasons c bundle readings).wallet := by
  simp only [receiveBundle]
  split <;> rfl

end Wallet

end PocketCash.Offline
