import PocketCash.Library.Run
import PocketCash.Library.KeyedTotal
import PocketCash.Dpc.Storage

/-!
# Runs of one register

The calls that a wallet makes on its `UnspentTokenRegister`, in any order, and the replacement of
the register by the reload of its save. `restore_unspent` puts back the receipt that was spent last.

The set of seen nonces only grows, and `add_receipt` looks up the last nonce of what it stores in
both of its branches. So no two receipts of a run were added under one last nonce.
-/

namespace PocketCash.Dpc

/-- A register, the receipt that was spent last and may be put back, and the receipts that were
added so far, newest first. -/
structure RegisterRun where
  utr : UnspentTokenRegister
  justSpent : Option Receipt
  added : List Receipt

namespace RegisterRun

variable {c : Crypto}

inductive Event
  | add (receipt : Receipt)
  | spend (tokenId : String)
  | restore
  | reload (savedAt : String)

def start (walletId : String) : RegisterRun := ⟨.new walletId, none, []⟩

/-- One call. A call that raises changes nothing. -/
def step (c : Crypto) (r : RegisterRun) : Event → RegisterRun
  | .add receipt =>
    match r.utr.addReceipt receipt with
    | .error _ => r
    | .ok utr => ⟨utr, none, receipt :: r.added⟩
  | .spend tokenId =>
    match r.utr.spend tokenId with
    | .error _ => r
    | .ok (utr, receipt) => { r with utr := utr, justSpent := some receipt }
  | .restore =>
    match r.justSpent with
    | none => r
    | some receipt => { r with utr := r.utr.restoreUnspent receipt, justSpent := none }
  | .reload savedAt =>
    match UnspentTokenRegister.load c (r.utr.save savedAt) with
    | .error _ => r
    | .ok utr => { r with utr := utr }

end RegisterRun

/-! ### The balance -/

namespace UnspentTokenRegister

variable {utr utr' : UnspentTokenRegister} {receipt : Receipt} {k : String}

lemma totalBalance_eq_total (utr : UnspentTokenRegister) :
    utr.totalBalance = utr.entries.total fun entry => entry.2.amount := rfl

lemma totalBalance_of_perm (h : utr'.entries.items.Perm utr.entries.items) :
    utr'.totalBalance = utr.totalBalance := KeyedList.total_perm h

/-- Storing a receipt under a new id adds its amount. -/
lemma totalBalance_set (h : k ∉ utr.entries.keys) (receipt : Receipt)
    (hentries : utr'.entries = utr.entries.set k receipt) :
    utr'.totalBalance = utr.totalBalance + receipt.amount := by
  rw [totalBalance_eq_total, totalBalance_eq_total, hentries]
  exact KeyedList.total_put_of_notMem (a := (k, receipt)) h

/-- Taking a receipt out subtracts its amount. -/
lemma totalBalance_pop (h : utr.entries.get? k = some receipt)
    (hentries : utr'.entries = KeyedList.pop utr.entries k) :
    utr.totalBalance = utr'.totalBalance + receipt.amount := by
  obtain ⟨entry, hfind, rfl⟩ := Option.map_eq_some_iff.mp h
  rw [totalBalance_eq_total, totalBalance_eq_total, hentries, KeyedList.total_pop,
    KeyedList.totalAt_of_find? hfind, sub_add_cancel]

end UnspentTokenRegister

/-! ### The invariant -/

namespace RegisterRun

variable {c : Crypto} {r : RegisterRun}

/-- A receipt that was added, with the nonces of its chain in the set of seen nonces. -/
structure Known (r : RegisterRun) (receipt : Receipt) : Prop where
  added : receipt ∈ r.added
  seen : nonces receipt.fullChain ⊆ r.utr.seenNonces

/-- No added token has a negative amount. -/
def NonNegative (r : RegisterRun) : Prop := ∀ receipt ∈ r.added, 0 ≤ receipt.amount

structure Inv (r : RegisterRun) : Prop where
  entries : ∀ k receipt, r.utr.entries.get? k = some receipt →
    receipt.tokenId = k ∧ k ∉ r.utr.spentTokenIds ∧ r.Known receipt
  justSpent : ∀ receipt, r.justSpent = some receipt →
    receipt.tokenId ∈ r.utr.spentTokenIds ∧ r.Known receipt
  added : ∀ receipt ∈ r.added, receipt.finalHop.nonce ∈ r.utr.seenNonces
  nodup : (r.added.map fun receipt => receipt.finalHop.nonce).Nodup
  balance : r.NonNegative → r.utr.totalBalance ≤ maxWalletBalanceSubunits
  restored : r.NonNegative → ∀ receipt, r.justSpent = some receipt →
    r.utr.totalBalance + receipt.amount ≤ maxWalletBalanceSubunits

lemma inv_start (walletId : String) : (start walletId).Inv where
  entries := by
    intro k receipt hget
    cases hget
  justSpent := by
    intro receipt hjust
    cases hjust
  added := List.forall_mem_nil _
  nodup := List.nodup_nil
  balance := fun _ => show (0 : Int) ≤ maxWalletBalanceSubunits by decide
  restored := by
    intro _ receipt hjust
    cases hjust

lemma Known.store {receipt receipt' : Receipt} (h : r.Known receipt') :
    Known ⟨r.utr.store receipt, none, receipt :: r.added⟩ receipt' :=
  ⟨List.mem_cons_of_mem _ h.added, h.seen.trans Finset.subset_union_left⟩

lemma Inv.add (h : r.Inv) {receipt : Receipt} (hends : receipt.EndsInFinalHop)
    (hadmits : r.utr.Admits receipt) : Inv ⟨r.utr.store receipt, none, receipt :: r.added⟩ where
  entries := by
    intro k receipt' hget
    rw [UnspentTokenRegister.store, Dict.get?_set] at hget
    split_ifs at hget with hk
    · cases hget
      exact ⟨hk.symm, hk ▸ Finset.notMem_erase _ _, List.mem_cons_self, Finset.subset_union_right⟩
    · obtain ⟨hid, hunspent, hknown⟩ := h.entries k receipt' hget
      exact ⟨hid, fun hk => hunspent (Finset.mem_of_mem_erase hk), hknown.store⟩
  justSpent := by
    intro receipt' hjust
    cases hjust
  added := by
    rintro receipt' (_ | ⟨_, hmem⟩)
    · apply Finset.mem_union_right
      simpa [nonces] using ⟨_, List.mem_of_getLast? hends, rfl⟩
    · exact Finset.mem_union_left _ (h.added receipt' hmem)
  nodup := by
    -- the last nonces of what was added before are all seen
    refine List.nodup_cons.mpr ⟨?_, h.nodup⟩
    rw [List.mem_map]
    rintro ⟨receipt', hadded, hsame⟩
    have hnonce : receipt'.finalHop.nonce = receipt.finalHop.nonce := hsame
    exact hadmits.tip_unseen hends (hnonce ▸ h.added receipt' hadded)
  balance := by
    intro _
    rw [UnspentTokenRegister.totalBalance_set hadmits.absent receipt rfl]
    exact hadmits.cap
  restored := by
    intro _ receipt' hjust
    cases hjust

lemma Inv.spend (h : r.Inv) {tokenId : String} {receipt : Receipt}
    (hget : r.utr.entries.get? tokenId = some receipt) {utr : UnspentTokenRegister}
    (hentries : utr.entries = KeyedList.pop r.utr.entries tokenId)
    (hspent : utr.spentTokenIds = insert tokenId r.utr.spentTokenIds)
    (hseen : utr.seenNonces = r.utr.seenNonces) : Inv { r with utr := utr, justSpent := some receipt } := by
  obtain ⟨hid, -, hknown⟩ := h.entries tokenId receipt hget
  have hbalance := UnspentTokenRegister.totalBalance_pop hget hentries
  have hkept : ∀ receipt', r.Known receipt' →
      Known { r with utr := utr, justSpent := some receipt } receipt' :=
    fun receipt' hknown => ⟨hknown.added, hseen ▸ hknown.seen⟩
  refine ⟨?_, ?_, ?_, h.nodup, ?_, ?_⟩
  · intro k receipt' hget'
    rw [hentries, Dict.get?_pop] at hget'
    split_ifs at hget' with hk
    obtain ⟨hid', hunspent, hknown'⟩ := h.entries k receipt' hget'
    refine ⟨hid', ?_, hkept _ hknown'⟩
    rw [hspent, Finset.mem_insert, not_or]
    exact ⟨hk, hunspent⟩
  · rintro receipt' hjust
    cases hjust
    exact ⟨hspent ▸ hid ▸ Finset.mem_insert_self _ _, hkept _ hknown⟩
  · exact fun receipt' hadded => hseen ▸ h.added receipt' hadded
  · intro hamounts
    have hnonneg := hamounts receipt hknown.added
    have hcap := h.balance hamounts
    dsimp only
    omega
  · intro hamounts receipt' hjust
    cases hjust
    exact hbalance ▸ h.balance hamounts

lemma Inv.restore (h : r.Inv) {receipt : Receipt} (hjust : r.justSpent = some receipt) :
    Inv { r with utr := r.utr.restoreUnspent receipt, justSpent := none } := by
  obtain ⟨hspent, hknown⟩ := h.justSpent receipt hjust
  -- what is spent is not an entry
  have habsent : receipt.tokenId ∉ r.utr.entries.keys := by
    intro hmem
    obtain ⟨receipt', hget⟩ := Dict.mem_keys_iff_get?.mp hmem
    exact (h.entries _ receipt' hget).2.1 hspent
  have hkept : ∀ receipt', r.Known receipt' →
      Known { r with utr := r.utr.restoreUnspent receipt, justSpent := none } receipt' :=
    fun receipt' hknown => ⟨hknown.added, hknown.seen⟩
  refine ⟨?_, ?_, h.added, h.nodup, ?_, ?_⟩
  · intro k receipt' hget
    rw [UnspentTokenRegister.restoreUnspent, Dict.get?_set] at hget
    split_ifs at hget with hk
    · cases hget
      exact ⟨hk.symm, hk ▸ Finset.notMem_erase _ _, hkept _ hknown⟩
    · obtain ⟨hid, hunspent, hknown'⟩ := h.entries k receipt' hget
      exact ⟨hid, fun hk => hunspent (Finset.mem_of_mem_erase hk), hkept _ hknown'⟩
  · intro receipt' hnone
    cases hnone
  · intro hamounts
    have hbalance : (r.utr.restoreUnspent receipt).totalBalance
        = r.utr.totalBalance + receipt.amount :=
      UnspentTokenRegister.totalBalance_set habsent receipt rfl
    exact hbalance ▸ h.restored hamounts receipt hjust
  · intro _ receipt' hnone
    cases hnone

/-- The reload of a save is the same register in another order. -/
lemma Inv.reload (h : r.Inv) {utr : UnspentTokenRegister}
    (hentries : utr.entries.items.Perm r.utr.entries.items)
    (hspent : utr.spentTokenIds = r.utr.spentTokenIds) (hseen : utr.seenNonces = r.utr.seenNonces) :
    Inv { r with utr := utr } := by
  have hbalance := UnspentTokenRegister.totalBalance_of_perm hentries
  have hkept : ∀ receipt, r.Known receipt → Known { r with utr := utr } receipt :=
    fun receipt hknown => ⟨hknown.added, hseen ▸ hknown.seen⟩
  refine ⟨?_, ?_, ?_, h.nodup, ?_, ?_⟩
  · intro k receipt hget
    rw [Dict.get?_perm hentries] at hget
    obtain ⟨hid, hunspent, hknown⟩ := h.entries k receipt hget
    exact ⟨hid, hspent ▸ hunspent, hkept _ hknown⟩
  · intro receipt hjust
    obtain ⟨hmem, hknown⟩ := h.justSpent receipt hjust
    exact ⟨hspent ▸ hmem, hkept _ hknown⟩
  · exact fun receipt hadded => hseen ▸ h.added receipt hadded
  · exact fun hamounts => hbalance ▸ h.balance hamounts
  · exact fun hamounts receipt hjust => hbalance ▸ h.restored hamounts receipt hjust

/-- The chain of the receipt that the event adds ends in its final hop. -/
def Validated : Event → Prop
  | .add receipt => receipt.EndsInFinalHop
  | _ => True

lemma Inv.step {e : Event} (hvalidated : Validated e) (h : r.Inv) : (r.step c e).Inv := by
  cases e with
  | add receipt =>
    rw [RegisterRun.step]
    split
    · exact h
    · rename_i utr hadd
      obtain ⟨hadmits, rfl⟩ := UnspentTokenRegister.addReceipt_eq_ok_iff.mp hadd
      exact h.add hvalidated hadmits
  | spend tokenId =>
    rw [RegisterRun.step]
    split
    · exact h
    · rename_i utr receipt hspend
      obtain ⟨hget, rfl⟩ := UnspentTokenRegister.spend_eq_ok hspend
      exact h.spend hget rfl rfl rfl
  | restore =>
    rw [RegisterRun.step]
    split
    · exact h
    · rename_i receipt hjust
      exact h.restore hjust
  | reload savedAt =>
    rw [RegisterRun.step]
    split
    · exact h
    · rename_i utr hload
      obtain ⟨-, hentries, hspent, hseen⟩ := UnspentTokenRegister.eq_of_load_save hload
      exact h.reload hentries hspent hseen

/-- No call makes the register forget a nonce. -/
lemma seenNonces_step (r : RegisterRun) (e : Event) :
    r.utr.seenNonces ⊆ (r.step c e).utr.seenNonces := by
  cases e with
  | add receipt =>
    rw [RegisterRun.step]
    split
    · exact subset_rfl
    · rename_i utr hadd
      obtain ⟨-, rfl⟩ := UnspentTokenRegister.addReceipt_eq_ok_iff.mp hadd
      exact Finset.subset_union_left
  | spend tokenId =>
    rw [RegisterRun.step]
    split
    · exact subset_rfl
    · rename_i utr receipt hspend
      obtain ⟨-, rfl⟩ := UnspentTokenRegister.spend_eq_ok hspend
      exact subset_rfl
  | restore =>
    rw [RegisterRun.step]
    split <;> exact subset_rfl
  | reload savedAt =>
    rw [RegisterRun.step]
    split
    · exact subset_rfl
    · rename_i utr hload
      exact (UnspentTokenRegister.eq_of_load_save hload).2.2.2.ge

/-! ### Runs -/

/-- What holds after every run of a register. -/
theorem register_of_run (c : Crypto) (walletId : String) {es : List Event}
    (hvalidated : ∀ e ∈ es, Validated e) :
    let r := runFrom (step c) (start walletId) es
    (∀ k ∈ r.utr.entries.keys, k ∉ r.utr.spentTokenIds) ∧
    (∀ k receipt, r.utr.entries.get? k = some receipt →
      nonces receipt.fullChain ⊆ r.utr.seenNonces) ∧
    (∀ later, r.utr.seenNonces ⊆ (runFrom (step c) r later).utr.seenNonces) ∧
    (r.added.map fun receipt => receipt.finalHop.nonce).Nodup ∧
    ((∀ receipt ∈ r.added, 0 ≤ receipt.amount) →
      r.utr.totalBalance ≤ maxWalletBalanceSubunits) := by
  intro r
  have h : r.Inv := Along.invariant (fun _ _ hvalidated h => Inv.step hvalidated h)
    (Along.of_forall_mem hvalidated) (inv_start walletId)
  refine ⟨?_, ?_, ?_, h.nodup, h.balance⟩
  · intro k hk
    obtain ⟨receipt, hget⟩ := Dict.mem_keys_iff_get?.mp hk
    exact (h.entries k receipt hget).2.1
  · exact fun k receipt hget => (h.entries k receipt hget).2.2.seen
  · intro later
    exact runFrom_invariant (I := fun r' => r.utr.seenNonces ⊆ r'.utr.seenNonces)
      (fun r' e hseen => hseen.trans (seenNonces_step r' e)) subset_rfl later

/-- A record of Alice's token under the given nonce. -/
def plainHop (nonce : String) : TransferRecord :=
  ⟨"t1", 0, "issuer", "alice", 500, nonce, genesisHash, "", ""⟩

/-- The receipt of Alice's token with the records that follow the first. -/
def plainReceipt (records : List TransferRecord) : Receipt :=
  ⟨"t1", 1001, records.getLast?.getD (plainHop "n0"), plainHop "n0" :: records, false,
    some Custody.token⟩

lemma endsInFinalHop_plainReceipt (records : List TransferRecord) :
    (plainReceipt records).EndsInFinalHop := List.getLast?_cons

/-- Alice adds a token, fails to send it, sends it and gets it back. -/
def plainCalls : List Event := [
  .add (plainReceipt []),
  .spend "t1",
  .restore,
  .spend "t1",
  .add (plainReceipt [plainHop "n1", plainHop "n2"])]

theorem register_of_run_plainCalls :
    let r := runFrom (step plainCrypto) (start "alice") plainCalls
    (r.added.map fun receipt => receipt.finalHop.nonce).Nodup ∧
      r.utr.totalBalance ≤ maxWalletBalanceSubunits := by
  have hvalidated : ∀ e ∈ plainCalls, Validated e := by
    rw [plainCalls]
    simp only [List.forall_mem_cons]
    exact ⟨endsInFinalHop_plainReceipt _, trivial, trivial, trivial,
      endsInFinalHop_plainReceipt _, List.forall_mem_nil _⟩
  obtain ⟨-, -, -, hnonces, hbalance⟩ := register_of_run plainCrypto "alice" hvalidated
  exact ⟨hnonces, hbalance (by decide +kernel)⟩

end RegisterRun

end PocketCash.Dpc
