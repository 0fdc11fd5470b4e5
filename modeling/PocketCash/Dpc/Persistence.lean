import PocketCash.Dpc.Refusal
import PocketCash.Dpc.RegisterRun

/-!
# Persisting a purse

What `save` writes `load` reads, since the constructor refuses only records whose previous hash is not
hexadecimal, and no such record was ever constructed. The register comes back with its entries in
another order, which no later call can see. A record comes back with the chain hash it was stored
with, whatever the constructor computes.
-/

namespace PocketCash.Dpc

/-! ### Decoding -/

/-- The previous hash is hexadecimal, so that the constructor computes a chain hash. -/
def TransferRecord.HexLinked (r : TransferRecord) : Prop := ∃ prev, Hex.decode r.prevHash = some prev

/-- All records of the receipt are. -/
def Receipt.HexLinked (receipt : Receipt) : Prop :=
  receipt.finalHop.HexLinked ∧ ∀ record ∈ receipt.fullChain, record.HexLinked

instance (r : TransferRecord) : Decidable r.HexLinked :=
  decidable_of_iff (Hex.decode r.prevHash).isSome Option.isSome_iff_exists

instance (receipt : Receipt) : Decidable receipt.HexLinked :=
  inferInstanceAs (Decidable (_ ∧ _))

variable {c : Crypto}

lemma TransferRecord.fromDict_toDict {r : TransferRecord} (h : r.HexLinked) :
    fromDict c r.toDict = .ok r := by
  obtain ⟨prev, hprev⟩ := h
  have hexists : ∃ r', fromDict c r.toDict = .ok r' := by
    have hread : fromDict c r.toDict = do
        let record ← TransferRecord.new c r.payload r.prevHash
        return { record with chainHash := r.chainHash, signature := r.signature } := rfl
    rw [hread, TransferRecord.new, computeChainHash, fromhex_eq_ok_iff.mpr hprev]
    exact ⟨_, rfl⟩
  obtain ⟨r', hr'⟩ := hexists
  rw [hr', eq_of_fromDict hr']

lemma recordsFromList_toDict {rs : List TransferRecord} (h : ∀ r ∈ rs, r.HexLinked) :
    recordsFromList c (rs.map TransferRecord.toDict) = .ok rs := by
  induction rs with
  | nil => rfl
  | cons r rs ih =>
    obtain ⟨hr, hrs⟩ := List.forall_mem_cons.mp h
    rw [List.map_cons, recordsFromList, TransferRecord.fromDict_toDict hr, ok_bind, ih hrs]
    rfl

lemma Receipt.fromDict_toDict {receipt : Receipt} (h : receipt.HexLinked) :
    fromDict c receipt.toDict = .ok receipt := by
  have hread : fromDict c receipt.toDict = do
      let fullChain ← recordsFromList c (receipt.fullChain.map TransferRecord.toDict)
      let finalHop ← TransferRecord.fromDict c receipt.finalHop.toDict
      return ⟨receipt.tokenId, receipt.receivedAt, finalHop, fullChain, receipt.isRedeemed,
        receipt.token⟩ := by
    obtain ⟨_, _, _, _, _, token⟩ := receipt
    cases token <;> rfl
  rw [hread, recordsFromList_toDict h.2, TransferRecord.fromDict_toDict h.1]
  rfl

namespace UnspentTokenRegister

variable {utr utr' : UnspentTokenRegister}

/-- Every receipt of the register can be constructed again. -/
def HexLinked (utr : UnspentTokenRegister) : Prop :=
  ∀ e ∈ utr.entries.items, e.2.HexLinked

lemma loadEntries_toDict {saved : List (String × Receipt)} (h : ∀ e ∈ saved, e.2.HexLinked)
    (entries : Dict String Receipt) :
    loadEntries c entries (saved.map fun e => (e.1, e.2.toDict))
      = .ok (saved.foldl KeyedList.put entries) := by
  induction saved generalizing entries with
  | nil => rfl
  | cons e saved ih =>
    obtain ⟨he, hsaved⟩ := List.forall_mem_cons.mp h
    rw [List.map_cons, loadEntries, Receipt.fromDict_toDict he]
    exact ih hsaved _

/-- A saved register loads, and is the same as before. -/
lemma exists_load_save (h : utr.HexLinked) (savedAt : String) :
    ∃ utr', load c (utr.save savedAt) = .ok utr' ∧ utr'.walletId = utr.walletId ∧
      utr.Same utr' := by
  have hsaved : ∀ e ∈ utr.sortedEntries, e.2.HexLinked := fun e he =>
    h e ((List.mem_insertionSort _).mp he)
  have hread : load c (utr.save savedAt) = do
      let entries ← loadEntries c .empty (utr.sortedEntries.map fun e => (e.1, e.2.toDict))
      let spentTokenIds ← loadStrings (strings utr.spentTokenIds)
      let seenNonces ← loadStrings (strings utr.seenNonces)
      return ⟨utr.walletId, entries, spentTokenIds, seenNonces⟩ := rfl
  rw [loadEntries_toDict hsaved, loadStrings_strings, loadStrings_strings] at hread
  obtain ⟨hwallet, hentries, hspent, hseen⟩ := eq_of_load_save hread
  exact ⟨_, hread, hwallet, hentries, hspent, hseen⟩

/-! ### The order of the entries -/

lemma Same.symm (h : utr.Same utr') : utr'.Same utr :=
  ⟨h.entries.symm, h.spentTokenIds.symm, h.seenNonces.symm⟩

lemma Same.trans {utr'' : UnspentTokenRegister} (h : utr.Same utr') (h' : utr'.Same utr'') :
    utr.Same utr'' :=
  ⟨h'.entries.trans h.entries, h'.spentTokenIds.trans h.spentTokenIds,
    h'.seenNonces.trans h.seenNonces⟩

lemma Same.hexLinked (h : utr.Same utr') (hlinked : utr.HexLinked) : utr'.HexLinked :=
  fun e he => hlinked e (h.entries.mem_iff.mp he)

lemma Same.store (h : utr.Same utr') (receipt : Receipt) :
    (utr.store receipt).Same (utr'.store receipt) where
  entries := KeyedList.put_perm_put h.entries _
  spentTokenIds := by rw [UnspentTokenRegister.store, UnspentTokenRegister.store, h.spentTokenIds]
  seenNonces := by rw [UnspentTokenRegister.store, UnspentTokenRegister.store, h.seenNonces]

lemma Same.restoreUnspent (h : utr.Same utr') (receipt : Receipt) :
    (utr.restoreUnspent receipt).Same (utr'.restoreUnspent receipt) where
  entries := KeyedList.put_perm_put h.entries _
  spentTokenIds := congrArg (·.erase receipt.tokenId) h.spentTokenIds
  seenNonces := h.seenNonces

/-- `add_receipt` gives the same answer. -/
lemma Same.addReceipt (h : utr.Same utr') (receipt : Receipt) :
    utr'.addReceipt receipt = (utr.addReceipt receipt).map fun _ => utr'.store receipt := by
  have hkeys : receipt.tokenId ∈ utr'.entries.keys ↔ receipt.tokenId ∈ utr.entries.keys :=
    (h.entries.map Prod.fst).mem_iff
  have hbalance := totalBalance_of_perm h.entries
  rw [UnspentTokenRegister.addReceipt, UnspentTokenRegister.addReceipt, hbalance, h.spentTokenIds,
    h.seenNonces, UnspentTokenRegister.store, h.spentTokenIds, h.seenNonces]
  by_cases habsent : receipt.tokenId ∈ utr.entries.keys
  · simp [hkeys, habsent, Except.map]
  by_cases hspent : receipt.tokenId ∈ utr.spentTokenIds
  · cases htip : receipt.fullChain.getLast? with
    | none => simp [hkeys, habsent, hspent, lastRecord, htip, Except.map]
    | some tip =>
      by_cases hseen : tip.nonce ∈ utr.seenNonces
      · simp [hkeys, habsent, hspent, lastRecord, htip, hseen, Except.map]
      · by_cases hcap : utr.totalBalance + receipt.amount > maxWalletBalanceSubunits
        · simp [hkeys, habsent, hspent, lastRecord, htip, hseen, hcap, Except.map]
        · simp [hkeys, habsent, hspent, lastRecord, htip, hseen, hcap, Except.map]
  · by_cases hdisj : utr.seenNonces ∩ nonces receipt.fullChain = ∅
    · by_cases hcap : utr.totalBalance + receipt.amount > maxWalletBalanceSubunits
      · simp [hkeys, habsent, hspent, hdisj, hcap, Except.map]
      · simp [hkeys, habsent, hspent, hdisj, hcap, Except.map]
    · simp [hkeys, habsent, hspent, hdisj, Except.map]

/-- `spend` gives the same answer. -/
lemma Same.spend (h : utr.Same utr') (tokenId : String) :
    (∃ e, utr.spend tokenId = .error e ∧ utr'.spend tokenId = .error e) ∨
      ∃ v v' receipt, utr.spend tokenId = .ok (v, receipt) ∧
        utr'.spend tokenId = .ok (v', receipt) ∧ v.Same v' ∧ v.walletId = utr.walletId ∧
        v'.walletId = utr'.walletId := by
  rw [UnspentTokenRegister.spend, UnspentTokenRegister.spend, ← Dict.get?_perm h.entries]
  cases hget : utr'.entries.get? tokenId with
  | none => exact .inl ⟨_, rfl, rfl⟩
  | some receipt =>
    have hsame : Same { utr with
          entries := utr.entries.pop tokenId, spentTokenIds := insert tokenId utr.spentTokenIds }
        { utr' with
          entries := utr'.entries.pop tokenId, spentTokenIds := insert tokenId utr'.spentTokenIds } :=
      ⟨KeyedList.pop_perm_pop h.entries _, congrArg (insert tokenId) h.spentTokenIds, h.seenNonces⟩
    exact .inr ⟨_, _, receipt, rfl, rfl, hsame, rfl, rfl⟩

end UnspentTokenRegister

/-! ### Runs -/

namespace RegisterRun

open UnspentTokenRegister

/-- What the caller sees of a call: the exception, or the receipt that was spent. -/
def answer (c : Crypto) (r : RegisterRun) : Event → Except Raised (Option Receipt)
  | .add receipt => (r.utr.addReceipt receipt).map fun _ => none
  | .spend tokenId => (r.utr.spend tokenId).map fun spent => some spent.2
  | .restore => .ok none
  | .reload savedAt => (load c (r.utr.save savedAt)).map fun _ => none

/-- The answers to some calls, one after the other. -/
def answers (c : Crypto) : RegisterRun → List Event → List (Except Raised (Option Receipt))
  | _, [] => []
  | r, e :: es => r.answer c e :: answers c (r.step c e) es

/-- The records of the receipt that the event adds were constructed. -/
def Constructed : Event → Prop
  | .add receipt => receipt.HexLinked
  | _ => True

instance : DecidablePred Constructed
  | .add receipt => inferInstanceAs (Decidable receipt.HexLinked)
  | .spend _ | .restore | .reload _ => .isTrue trivial

/-- All receipts that are stored, or may be put back, were constructed. -/
structure HexLinked (r : RegisterRun) : Prop where
  utr : r.utr.HexLinked
  justSpent : ∀ receipt ∈ r.justSpent, receipt.HexLinked

variable {r r' : RegisterRun}

lemma forall_mem_none : ∀ receipt ∈ (none : Option Receipt), receipt.HexLinked :=
  fun receipt h => absurd h (Option.not_mem_none receipt)

lemma hexLinked_start (walletId : String) : (start walletId).HexLinked :=
  ⟨List.forall_mem_nil _, forall_mem_none⟩

lemma HexLinked.step (h : r.HexLinked) {e : Event} (he : Constructed e) :
    (r.step c e).HexLinked := by
  cases e with
  | add receipt =>
    rw [RegisterRun.step]
    split
    · exact h
    · rename_i utr hadd
      obtain ⟨-, rfl⟩ := addReceipt_eq_ok_iff.mp hadd
      exact ⟨KeyedList.forall_mem_put h.utr he, forall_mem_none⟩
  | spend tokenId =>
    rw [RegisterRun.step]
    split
    · exact h
    · rename_i utr receipt hspend
      obtain ⟨hget, rfl⟩ := spend_eq_ok hspend
      have hreceipt : receipt.HexLinked := h.utr _ (Dict.get?_eq_some_iff.mp hget)
      exact ⟨fun e he => h.utr e (KeyedList.mem_pop.mp he).1,
        fun receipt' hspent => Option.mem_some_iff.mp hspent ▸ hreceipt⟩
  | restore =>
    rw [RegisterRun.step]
    split
    · exact h
    · rename_i receipt hjust
      exact ⟨KeyedList.forall_mem_put h.utr (h.justSpent receipt hjust), forall_mem_none⟩
  | reload savedAt =>
    rw [RegisterRun.step]
    split
    · exact h
    · rename_i utr hload
      obtain ⟨-, hentries, -, -⟩ := eq_of_load_save hload
      exact ⟨fun e he => h.utr e (hentries.mem_iff.mp he), h.justSpent⟩

/-- The runs differ in the order of the entries at most. -/
structure Alike (r r' : RegisterRun) : Prop where
  walletId : r'.utr.walletId = r.utr.walletId
  same : r.utr.Same r'.utr
  justSpent : r'.justSpent = r.justSpent
  added : r'.added = r.added

lemma alike_step (h : r.Alike r') (hlinked : r.HexLinked) (e : Event) :
    r'.answer c e = r.answer c e ∧ (r.step c e).Alike (r'.step c e) := by
  cases e with
  | add receipt =>
    rw [answer, answer, RegisterRun.step, RegisterRun.step, h.same.addReceipt receipt]
    cases hadd : r.utr.addReceipt receipt with
    | error e => exact ⟨rfl, h⟩
    | ok utr =>
      obtain ⟨-, rfl⟩ := addReceipt_eq_ok_iff.mp hadd
      exact ⟨rfl, h.walletId, h.same.store receipt, rfl, congrArg (receipt :: ·) h.added⟩
  | spend tokenId =>
    rw [answer, answer, RegisterRun.step, RegisterRun.step]
    rcases h.same.spend tokenId with ⟨e, hraised, hraised'⟩ |
      ⟨v, v', receipt, hspend, hspend', hsame, hwallet, hwallet'⟩
    · rw [hraised, hraised']
      exact ⟨rfl, h⟩
    · rw [hspend, hspend']
      exact ⟨rfl, by rw [hwallet, hwallet', h.walletId], hsame, rfl, h.added⟩
  | restore =>
    rw [RegisterRun.step, RegisterRun.step, h.justSpent]
    refine ⟨rfl, ?_⟩
    cases r.justSpent with
    | none => exact ⟨h.walletId, h.same, h.justSpent, h.added⟩
    | some receipt => exact ⟨h.walletId, h.same.restoreUnspent receipt, rfl, h.added⟩
  | reload savedAt =>
    obtain ⟨utr, hload, hwallet, hsame⟩ := exists_load_save (c := c) hlinked.utr savedAt
    obtain ⟨utr', hload', hwallet', hsame'⟩ :=
      exists_load_save (c := c) (h.same.hexLinked hlinked.utr) savedAt
    rw [answer, answer, RegisterRun.step, RegisterRun.step, hload, hload']
    exact ⟨rfl, by rw [hwallet, hwallet', h.walletId], hsame.symm.trans (h.same.trans hsame'),
      h.justSpent, h.added⟩

/-- No later call tells the two apart. -/
lemma answers_of_alike (h : r.Alike r') (hlinked : r.HexLinked) {es : List Event}
    (hes : ∀ e ∈ es, Constructed e) :
    answers c r' es = answers c r es ∧ (runFrom (step c) r es).Alike (runFrom (step c) r' es) := by
  induction es generalizing r r' with
  | nil => exact ⟨rfl, h⟩
  | cons e es ih =>
    obtain ⟨he, hes⟩ := List.forall_mem_cons.mp hes
    obtain ⟨hanswer, halike⟩ := alike_step (c := c) h hlinked e
    obtain ⟨hanswers, hend⟩ := ih halike (hlinked.step he) hes
    exact ⟨by rw [answers, answers, hanswer, hanswers], hend⟩

/-- After every run, the saved register loads, with the same content, and answers every later call as
the register would have; and every chain of records is decoded as it was, with the same verdict,
whether it is valid or was tampered with. -/
theorem persisted_same (c : Crypto) (walletId : String) {es : List Event}
    (hes : ∀ e ∈ es, Constructed e) :
    let r := runFrom (step c) (start walletId) es
    (∀ savedAt, ∃ utr, load c (r.utr.save savedAt) = .ok utr ∧ utr.walletId = r.utr.walletId ∧
      r.utr.Same utr ∧ ∀ later, (∀ e ∈ later, Constructed e) →
        answers c { r with utr := utr } later = answers c r later) ∧
    ∀ records : List TransferRecord, (∀ record ∈ records, record.HexLinked) →
      recordsFromList c (records.map TransferRecord.toDict) = .ok records ∧
        ∀ token, (recordsFromList c (records.map TransferRecord.toDict)).bind
          (validateIntegrity c token) = validateIntegrity c token records := by
  intro r
  have hlinked : r.HexLinked := Along.invariant (I := HexLinked) (fun _ _ he h => h.step he)
    (Along.of_forall_mem hes) (hexLinked_start walletId)
  refine ⟨fun savedAt => ?_, fun records hrecords => ?_⟩
  · obtain ⟨utr, hload, hwallet, hsame⟩ := exists_load_save (c := c) hlinked.utr savedAt
    have halike : r.Alike { r with utr := utr } := ⟨hwallet, hsame, rfl, rfl⟩
    exact ⟨utr, hload, hwallet, hsame, fun later hlater => (answers_of_alike halike hlinked hlater).1⟩
  · have hdecoded := recordsFromList_toDict (c := c) hrecords
    exact ⟨hdecoded, fun token => by rw [hdecoded]; rfl⟩

/-- A record of Alice's token whose amount was changed after it was made. -/
def tamperedHop : TransferRecord := { Custody.genesis with amountSubunits := 50000 }

theorem persisted_same_plainCalls :
    let r := runFrom (step plainCrypto) (start "alice") plainCalls
    (∀ savedAt, ∃ utr, load plainCrypto (r.utr.save savedAt) = .ok utr ∧
      utr.walletId = r.utr.walletId ∧ r.utr.Same utr ∧
      ∀ later, (∀ e ∈ later, Constructed e) →
        answers plainCrypto { r with utr := utr } later = answers plainCrypto r later) ∧
    ∀ token, (recordsFromList plainCrypto ([tamperedHop].map TransferRecord.toDict)).bind
      (validateIntegrity plainCrypto token) = validateIntegrity plainCrypto token [tamperedHop] := by
  have hcalls : ∀ e ∈ plainCalls, Constructed e := by decide +kernel
  obtain ⟨hpurse, hchains⟩ := persisted_same plainCrypto "alice" hcalls
  exact ⟨hpurse, (hchains [tamperedHop] (by decide +kernel)).2⟩

end RegisterRun

end PocketCash.Dpc
