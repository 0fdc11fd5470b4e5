import PocketCash.Offline.Receiving

/-!
# Bundles

`receive_bundle` applies the transfers of a bundle one after the other. A transfer that is refused, or
that raises because its token is missing, does not undo the ones before it. So a bundle is applied as
a whole exactly if all its transfers fit into the wallet together, or the wallet takes none of them.
-/

namespace PocketCash.Offline

/-! ### Bundles that change nothing -/

namespace Wallet

/-- Of the transfers up to the first that raises, the wallet as it is takes none. -/
def TakesNone (c : Crypto) (tokens : Dict String Token) (w : Wallet)
    (handled : List (Transfer × ReceiptReading)) : Prop :=
  ∀ before next after, handled = before ++ next :: after →
    (∀ x ∈ before, ¬ w.Fails c tokens x) → ¬ w.Takes c tokens next

/-- The registers and records that a receipt writes are the same. -/
structure SameRecords (w w' : Wallet) : Prop where
  utr : w'.utr = w.utr
  transferHistory : w'.transferHistory = w.transferHistory
  transferHashes : w'.transferHashes = w.transferHashes
  processedTransferIds : w'.processedTransferIds = w.processedTransferIds

lemma SameRecords.refl (w : Wallet) : w.SameRecords w := ⟨rfl, rfl, rfl, rfl⟩

section

variable {c : Crypto} {tokens : Dict String Token} {w : Wallet} {first : Transfer × ReceiptReading}
  {rest : List (Transfer × ReceiptReading)}

lemma takesNone_nil : w.TakesNone c tokens [] := by
  intro before next after h
  cases before <;> cases h

lemma takesNone_cons : w.TakesNone c tokens (first :: rest) ↔
    ¬ w.Takes c tokens first ∧ (¬ w.Fails c tokens first → w.TakesNone c tokens rest) := by
  constructor
  · intro h
    refine ⟨h [] first rest rfl (List.forall_mem_nil _), fun hfirst before next after hrest hbefore => ?_⟩
    exact h (first :: before) next after (by rw [hrest]; rfl)
      (List.forall_mem_cons.mpr ⟨hfirst, hbefore⟩)
  · rintro ⟨hfirst, hrest⟩ before next after h hbefore
    cases before with
    | nil =>
      cases h
      exact hfirst
    | cons x before =>
      obtain ⟨rfl, htail⟩ := List.cons.inj h
      obtain ⟨hx, hbefore⟩ := List.forall_mem_cons.mp hbefore
      exact hrest hx before next after htail hbefore

end

end Wallet

section

variable {c : Crypto} {tokens : Dict String Token} {loop : Receiving}

/-- The loop leaves the records alone exactly if it stores nothing. -/
lemma sameRecords_runFrom_iff (hraised : loop.raised = none)
    (handled : List (Transfer × ReceiptReading)) :
    loop.wallet.SameRecords (runFrom (Receiving.next c tokens) loop handled).wallet ↔
      loop.wallet.TakesNone c tokens handled := by
  induction handled generalizing loop with
  | nil => exact iff_of_true (.refl _) Wallet.takesNone_nil
  | cons first rest ih =>
    rw [runFrom_cons, Wallet.takesNone_cons]
    rcases Receiving.next_outcome hraised first with
      ⟨hfails, htakes, e, hnext⟩ | ⟨hfails, htakes, reason, hnext⟩ | ⟨token, hget, hreceives, hnext⟩
    · rw [hnext, Receiving.runFrom_of_raised rfl]
      exact iff_of_true (.refl _) ⟨htakes, fun h => absurd hfails h⟩
    · have hgoes : (loop.next c tokens first).raised = none := by rw [hnext]
      have hwallet : (loop.next c tokens first).wallet = loop.wallet := by rw [hnext]
      rw [and_iff_right htakes, imp_iff_right hfails, ← hwallet]
      exact ih hgoes
    · apply iff_of_false
      · intro hsame
        have hwallet : (loop.next c tokens first).wallet = loop.wallet.receive c first.1 token := by
          rw [hnext]
        -- the id of the transfer has been added
        have hadded := @Receiving.processedTransferIds_subset_runFrom c tokens
          (loop.next c tokens first) rest
        rw [hsame.processedTransferIds, hwallet] at hadded
        exact hreceives.unprocessed (hadded (Finset.mem_insert_self _ _))
      · exact fun h => h.1 ⟨token, hget, hreceives⟩

end

/-! ### Bundles that fit -/

namespace Wallet

/-- The checks on a transfer that do not depend on what was received before. -/
structure Admits (c : Crypto) (w : Wallet) (transfer : Transfer) (token : Token)
    (reading : ReceiptReading) : Prop where
  receiver : transfer.receiverPk = w.publicKeyHex
  hops : transfer.hopCount ≤ w.policy.maxHops
  nonce : transfer.nonce ≤ w.policy.maxHops
  parent : transfer.parentTransferId = token.lastTransferId
  parentHash : transfer.parentTransferHash = token.lastTransferHash
  prevHash : transfer.prevTransferHash = token.lastTransferHash
  created : isNotExpired token.createdAt w.policy.tokenExpirySeconds reading.expiryNow = .ok true
  unexpired : wholeSeconds reading.epochNow - token.issueTimestamp ≤ w.policy.tokenExpirySeconds
  signed : c.verify (.transfer transfer.signingPayload) transfer.signature transfer.senderPk = true

lemma receives_iff {c : Crypto} {w : Wallet} {transfer : Transfer} {token : Token}
    {reading : ReceiptReading} :
    w.Receives c transfer token reading ↔ w.Admits c transfer token reading ∧
      transfer.transferId ∉ w.processedTransferIds ∧
      w.balance + token.value ≤ w.policy.maxBalance := by
  constructor
  · intro h
    exact ⟨⟨h.receiver, h.hops, h.nonce, h.parent, h.parentHash, h.prevHash, h.created, h.unexpired,
      h.signed⟩, h.unprocessed, h.balance⟩
  · rintro ⟨h, hunprocessed, hbalance⟩
    exact ⟨hunprocessed, h.receiver, h.hops, h.nonce, h.parent, h.parentHash, h.prevHash, h.created,
      h.unexpired, h.signed, hbalance⟩

lemma admits_receive_iff {c : Crypto} {w : Wallet} {transfer received : Transfer}
    {token token' : Token} {reading : ReceiptReading} :
    (w.receive c received token').Admits c transfer token reading ↔
      w.Admits c transfer token reading :=
  ⟨fun h => ⟨h.receiver, h.hops, h.nonce, h.parent, h.parentHash, h.prevHash, h.created, h.unexpired,
      h.signed⟩,
    fun h => ⟨h.receiver, h.hops, h.nonce, h.parent, h.parentHash, h.prevHash, h.created, h.unexpired,
      h.signed⟩⟩

/-- The transfers fit into the wallet together, which stores the tokens `stored` for them: each
passes the checks with its token, their ids are new and different, and there is room for each token
when the ones before it are stored. -/
structure Fits (c : Crypto) (tokens : Dict String Token) (w : Wallet)
    (handled : List (Transfer × ReceiptReading)) (stored : List Token) : Prop where
  admitted : List.Forall₂ (fun x t => ∃ token, tokens.get? x.1.tokenId = some token ∧
    w.Admits c x.1 token x.2 ∧ t = w.receivedToken c x.1 token) handled stored
  nodup : (handled.map fun x => x.1.transferId).Nodup
  unprocessed : ∀ x ∈ handled, x.1.transferId ∉ w.processedTransferIds
  room : ∀ before t after, stored = before ++ t :: after →
    (before.foldl KeyedList.put w.utr).total Token.value + t.value ≤ w.policy.maxBalance

section

variable {c : Crypto} {tokens : Dict String Token} {w : Wallet} {first : Transfer × ReceiptReading}
  {rest : List (Transfer × ReceiptReading)}

lemma fits_nil : w.Fits c tokens [] [] := by
  refine ⟨.nil, List.nodup_nil, List.forall_mem_nil _, fun before t after h => ?_⟩
  cases before <;> cases h

/-- The first transfer fits alone, and the others into the wallet that has received it. -/
lemma exists_fits_cons_iff : (∃ stored, w.Fits c tokens (first :: rest) stored) ↔
    ∃ token, tokens.get? first.1.tokenId = some token ∧ w.Receives c first.1 token first.2 ∧
      ∃ stored, (w.receive c first.1 token).Fits c tokens rest stored := by
  constructor
  · rintro ⟨stored, hadmitted, hnodup, hunprocessed, hroom⟩
    cases hadmitted with
    | cons hfirst hrest =>
      rename_i t stored
      obtain ⟨token, hget, hadmits, rfl⟩ := hfirst
      rw [List.map_cons, List.nodup_cons] at hnodup
      rw [List.forall_mem_cons] at hunprocessed
      refine ⟨token, hget, receives_iff.mpr ⟨hadmits, hunprocessed.1, hroom []
        (w.receivedToken c first.1 token) stored rfl⟩, stored,
        hrest.imp ?_, hnodup.2, ?_, ?_⟩
      · rintro x t ⟨token', hget', hadmits', rfl⟩
        exact ⟨token', hget', admits_receive_iff.mpr hadmits', rfl⟩
      · intro x hx hmem
        rcases Finset.mem_insert.mp hmem with hsame | hold
        · exact hnodup.1 (hsame ▸ List.mem_map_of_mem hx)
        · exact hunprocessed.2 x hx hold
      · intro before t after hstored
        exact hroom (w.receivedToken c first.1 token :: before) t after (by rw [hstored]; rfl)
  · rintro ⟨token, hget, hreceives, stored, hadmitted, hnodup, hunprocessed, hroom⟩
    obtain ⟨hadmits, hnew, hbalance⟩ := receives_iff.mp hreceives
    refine ⟨w.receivedToken c first.1 token :: stored, .cons ⟨token, hget, hadmits, rfl⟩
      (hadmitted.imp ?_), ?_, ?_, ?_⟩
    · rintro x t ⟨token', hget', hadmits', rfl⟩
      exact ⟨token', hget', admits_receive_iff.mp hadmits', rfl⟩
    · rw [List.map_cons, List.nodup_cons]
      refine ⟨fun hmem => ?_, hnodup⟩
      obtain ⟨x, hx, hid⟩ := List.mem_map.mp hmem
      exact hunprocessed x hx (Finset.mem_insert.mpr (.inl hid))
    · refine List.forall_mem_cons.mpr ⟨hnew, fun x hx hmem => ?_⟩
      exact hunprocessed x hx (Finset.mem_insert_of_mem hmem)
    · intro before t after hstored
      cases before with
      | nil =>
        cases hstored
        exact hbalance
      | cons t' before =>
        obtain ⟨rfl, htail⟩ := List.cons.inj hstored
        exact hroom before t after htail

end

end Wallet

/-- Every round accepts its transfer exactly if the transfers fit together. -/
lemma along_acceptsNext_iff_fits {c : Crypto} {tokens : Dict String Token} {loop : Receiving}
    (hraised : loop.raised = none) (handled : List (Transfer × ReceiptReading)) :
    Along (Receiving.next c tokens) (Receiving.AcceptsNext c tokens) loop handled ↔
      ∃ stored, loop.wallet.Fits c tokens handled stored := by
  induction handled generalizing loop with
  | nil => exact iff_of_true trivial ⟨[], Wallet.fits_nil⟩
  | cons first rest ih =>
    rw [Along.cons_iff, Wallet.exists_fits_cons_iff]
    have hrest : ∀ token, tokens.get? first.1.tokenId = some token →
        loop.wallet.Receives c first.1 token first.2 →
        (Along (Receiving.next c tokens) (Receiving.AcceptsNext c tokens)
            (loop.next c tokens first) rest ↔
          ∃ stored, (loop.wallet.receive c first.1 token).Fits c tokens rest stored) := by
      intro token hget hreceives
      rw [Receiving.next_of_receives hraised hget hreceives]
      exact ih rfl
    constructor
    · rintro ⟨⟨token, hget, hreceives⟩, halong⟩
      exact ⟨token, hget, hreceives, (hrest token hget hreceives).mp halong⟩
    · rintro ⟨token, hget, hreceives, hfits⟩
      exact ⟨⟨token, hget, hreceives⟩, (hrest token hget hreceives).mpr hfits⟩

/-! ### All or nothing -/

namespace Wallet

/-- All transfers of the bundle are accepted, or the wallet is as before. -/
def AppliesWhole (c : Crypto) (w : Wallet) (bundle : PaymentBundle)
    (readings : Nat → ReceiptReading) : Prop :=
  let loop := w.receiveBundleWithReasons c bundle readings
  (loop.raised = none ∧ loop.answers = bundle.transfers.map fun t => (t.transferId, true)) ∨
    w.SameRecords loop.wallet

lemma appliesWhole_iff (c : Crypto) (w : Wallet) (bundle : PaymentBundle)
    (readings : Nat → ReceiptReading) :
    w.AppliesWhole c bundle readings ↔
      (∃ stored, w.Fits c bundle.tokens (rounds bundle readings) stored) ∨
        w.TakesNone c bundle.tokens (rounds bundle readings) := by
  have hstart : (⟨w, [], none⟩ : Receiving).raised = none := rfl
  have hfits : _ ↔ ∃ stored, w.Fits c bundle.tokens (rounds bundle readings) stored :=
    along_acceptsNext_iff_fits hstart (rounds bundle readings)
  exact or_congr (receiveBundleWithReasons_accepts_iff.trans hfits)
    (sameRecords_runFrom_iff hstart _)

/-- A bundle is applied as a whole exactly if all its transfers fit into the wallet together, or the
wallet as it is takes none of them. -/
theorem receiveBundle_appliesWhole_iff (c : Crypto) (w : Wallet) (bundle : PaymentBundle)
    (readings : Nat → ReceiptReading) :
    (w.AppliesWhole c bundle readings ↔
      (∃ stored, w.Fits c bundle.tokens (rounds bundle readings) stored) ∨
        w.TakesNone c bundle.tokens (rounds bundle readings)) ∧
    ((w.receiveBundle c bundle readings).2
          = .ok (bundle.transfers.map fun t => (t.transferId, true)) ∨
        w.SameRecords (w.receiveBundle c bundle readings).1 ↔
      (∃ stored, w.Fits c bundle.tokens (rounds bundle readings) stored) ∨
        w.TakesNone c bundle.tokens (rounds bundle readings)) := by
  refine ⟨appliesWhole_iff c w bundle readings, ?_⟩
  rw [receiveBundle_eq_ok_iff, receiveBundle_fst]
  exact appliesWhole_iff c w bundle readings

/-- Alice pays Bob with one token, and sends him a transfer to Carol along with it. -/
def mixedBundle : PaymentBundle :=
  plainBundle [plainTransfer "x1" "t1" "alice" "bob", plainTransfer "x2" "t2" "alice" "carol"]
    [plainToken "t1" "bob", plainToken "t2" "carol"]

/-- Bob keeps the first token when he refuses the second. -/
theorem not_appliesWhole_mixedBundle :
    ¬ (new "sk:bob" "bob" .default).AppliesWhole plainCrypto mixedBundle
      fun _ => ⟨1002000000, 1002000000⟩ := by
  rintro (⟨-, hanswers⟩ | hsame)
  · revert hanswers
    decide +kernel
  · have hids := hsame.processedTransferIds
    revert hids
    decide +kernel

end Wallet

end PocketCash.Offline
