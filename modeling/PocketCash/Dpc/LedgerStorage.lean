import PocketCash.Dpc.Storage
import PocketCash.Dpc.Ledger

/-!
# Saving and reloading the issuer ledger

`IssuerLedger.save` and `load` of `dpc/reconciliation_engine.py`. A saved ledger loads as a ledger
with the same entries under the same ids. Loading reads the entries at once, where the source would
only stumble over one of another shape when it is used.
-/

namespace PocketCash.Dpc

/-! ### Dictionary forms -/

def MintRecord.toDict (r : MintRecord) : Json := .dict [
  ("amount", .int r.amount),
  ("issued_at", .int r.issuedAt),
  ("issuer_sig", .str r.issuerSig),
  ("ttl", .int r.ttl)]

def MintRecord.fromDict (data : Json) : Except PyError MintRecord := do
  let amount ← (← data.getItem "amount").asInt
  let issuerSig ← (← data.getItem "issuer_sig").asStr
  let issuedAt ← (← data.getItem "issued_at").asInt
  let ttl ← (← data.getItem "ttl").asInt
  return ⟨amount, issuerSig, issuedAt, ttl⟩

def Settlement.toDict (s : Settlement) : Json := .dict [
  ("chain_depth", .int s.chainDepth),
  ("claimer_pubkey", .str s.claimerPubkey),
  ("settled_at", .int s.settledAt),
  ("token_id", .str s.tokenId)]

def Settlement.fromDict (data : Json) : Except PyError Settlement := do
  let tokenId ← (← data.getItem "token_id").asStr
  let claimerPubkey ← (← data.getItem "claimer_pubkey").asStr
  let chainDepth ← (← data.getItem "chain_depth").asInt
  let settledAt ← (← data.getItem "settled_at").asInt
  return ⟨tokenId, claimerPubkey, chainDepth.toNat, settledAt⟩

def PendingClaim.toDict (p : PendingClaim) : Json := .dict [
  ("chain_depth", .int p.chainDepth),
  ("claimer_pubkey", .str p.claimerPubkey),
  ("submitted_at", .int p.submittedAt)]

def PendingClaim.fromDict (data : Json) : Except PyError PendingClaim := do
  let claimerPubkey ← (← data.getItem "claimer_pubkey").asStr
  let chainDepth ← (← data.getItem "chain_depth").asInt
  let submittedAt ← (← data.getItem "submitted_at").asInt
  return ⟨claimerPubkey, chainDepth.toNat, submittedAt⟩

/-- The claims pending for one id. -/
def pendingList (claims : List PendingClaim) : Json := .list (claims.map PendingClaim.toDict)

def pendingFromList (data : Json) : Except PyError (List PendingClaim) := do
  (← data.asList).mapM PendingClaim.fromDict

/-- A dictionary with its keys sorted. -/
def dictForm {ν : Type} (write : ν → Json) (d : Dict String ν) : Json :=
  .dict ((d.items.insertionSort fun e e' => e.1 ≤ e'.1).map fun e => (e.1, write e.2))

/-- Read the entries of a dictionary one after the other. -/
def readEntries {ν : Type} (read : Json → Except PyError ν) :
    Dict String ν → List (String × Json) → Except PyError (Dict String ν)
  | d, [] => .ok d
  | d, (key, data) :: rest => do
    let v ← read data
    readEntries read (d.set key v) rest

def dictFrom {ν : Type} (read : Json → Except PyError ν) (data : Json) :
    Except PyError (Dict String ν) := do
  readEntries read .empty (← data.items)

/-! ### The file -/

namespace IssuerLedger

/-- Persist issuer ledger state to JSON. -/
def save (ledger : IssuerLedger) (savedAt : String) : JsonText :=
  Json.dumps (.dict [
    ("data", .dict [
      ("blacklist", UnspentTokenRegister.strings ledger.blacklist),
      ("minted", dictForm MintRecord.toDict ledger.minted),
      ("pending", dictForm pendingList ledger.pending),
      ("settled", dictForm Settlement.toDict ledger.settled)]),
    ("dpc_version", .str "1.0"),
    ("saved_at", .str savedAt)])

/-- Load issuer ledger state from JSON. -/
def load (file : JsonText) : Except Raised IssuerLedger := do
  let payload ← file.loads
  if !(← payload.get "dpc_version" .null).isStr "1.0" then
    throw (.dpc .reconciliation "Unsupported issuer ledger version")
  let data ← payload.getItem "data"
  let minted ← dictFrom MintRecord.fromDict (← data.getItem "minted")
  let settled ← dictFrom Settlement.fromDict (← data.getItem "settled")
  let blacklist ← UnspentTokenRegister.loadStrings (← data.getItem "blacklist")
  let pending ← dictFrom pendingFromList (← data.getItem "pending")
  return ⟨minted, settled, blacklist, pending⟩

end IssuerLedger

/-! ### Round trip -/

lemma MintRecord.fromDict_toDict (r : MintRecord) : fromDict r.toDict = .ok r := rfl

lemma Settlement.fromDict_toDict (s : Settlement) : fromDict s.toDict = .ok s := rfl

lemma PendingClaim.fromDict_toDict (p : PendingClaim) : fromDict p.toDict = .ok p := rfl

lemma pendingFromList_pendingList (claims : List PendingClaim) :
    pendingFromList (pendingList claims) = .ok claims := by
  rw [pendingFromList, pendingList, Json.asList, ok_bind]
  exact mapM_map_eq_self fun p _ => p.fromDict_toDict

lemma readEntries_map {ν : Type} {read : Json → Except PyError ν} {write : ν → Json}
    (h : ∀ v, read (write v) = .ok v) (d : Dict String ν) (saved : List (String × ν)) :
    readEntries read d (saved.map fun e => (e.1, write e.2)) = .ok (saved.foldl KeyedList.put d) := by
  induction saved generalizing d with
  | nil => rfl
  | cons e saved ih =>
    rw [List.map_cons, readEntries, h, ok_bind, ih]
    rfl

/-- A written dictionary reads back with the same entries. -/
lemma dictFrom_dictForm {ν : Type} {read : Json → Except PyError ν} {write : ν → Json}
    (h : ∀ v, read (write v) = .ok v) (d : Dict String ν) :
    ∃ d', dictFrom read (dictForm write d) = .ok d' ∧ ∀ k, d'.get? k = d.get? k := by
  refine ⟨_, readEntries_map h _ _, fun k => Dict.get?_perm ?_ k⟩
  have hperm := List.perm_insertionSort (fun e e' : String × ν => e.1 ≤ e'.1) d.items
  rw [KeyedList.items_foldl_put]
  · exact hperm
  · exact (hperm.map Prod.fst).nodup_iff.mpr d.nodup

namespace IssuerLedger

/-- The ledgers hold the same entries. -/
structure Same (ledger ledger' : IssuerLedger) : Prop where
  minted : ∀ k, ledger'.minted.get? k = ledger.minted.get? k
  settled : ∀ k, ledger'.settled.get? k = ledger.settled.get? k
  blacklist : ledger'.blacklist = ledger.blacklist
  pending : ∀ k, ledger'.pending.get? k = ledger.pending.get? k

/-- A saved ledger loads, with the entries it had. -/
theorem exists_load_save (ledger : IssuerLedger) (savedAt : String) :
    ∃ ledger', load (ledger.save savedAt) = .ok ledger' ∧ ledger.Same ledger' := by
  obtain ⟨minted, hminted, hmintedGet⟩ :=
    dictFrom_dictForm MintRecord.fromDict_toDict ledger.minted
  obtain ⟨settled, hsettled, hsettledGet⟩ :=
    dictFrom_dictForm Settlement.fromDict_toDict ledger.settled
  obtain ⟨pending, hpending, hpendingGet⟩ :=
    dictFrom_dictForm pendingFromList_pendingList ledger.pending
  have hblacklist := UnspentTokenRegister.loadStrings_strings ledger.blacklist
  have hread : load (ledger.save savedAt) = do
      let minted ← dictFrom MintRecord.fromDict (dictForm MintRecord.toDict ledger.minted)
      let settled ← dictFrom Settlement.fromDict (dictForm Settlement.toDict ledger.settled)
      let blacklist ← UnspentTokenRegister.loadStrings
        (UnspentTokenRegister.strings ledger.blacklist)
      let pending ← dictFrom pendingFromList (dictForm pendingList ledger.pending)
      return ⟨minted, settled, blacklist, pending⟩ := rfl
  rw [hminted, hsettled, hblacklist, hpending] at hread
  exact ⟨_, hread, hmintedGet, hsettledGet, rfl, hpendingGet⟩

end IssuerLedger

end PocketCash.Dpc
