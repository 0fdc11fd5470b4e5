import PocketCash.Dpc.Documents
import PocketCash.Dpc.LedgerStorage

/-!
# The files of registers and ledgers

The bytes that `save` of `dpc/wallet.py` and `dpc/reconciliation_engine.py` write, and `load` of these
bytes. The receipts of a register go through their own JSON texts twice. What is loaded from the
bytes is what is loaded from the document that was saved.

The file of a ledger is canonical: ledgers with the same entries write the same bytes.
-/

namespace PocketCash.Dpc

open JsonEncoding

variable {c : Crypto}

/-! ### Registers -/

namespace UnspentTokenRegister

/-- The comprehension over the entries in `save`. -/
def entryDocuments (entries : List (String × Receipt)) : Except PyError (List (String × Json)) :=
  entries.mapM fun e => do
    return (e.1, ← loadDocument e.2.toJson)

/-- Persist the UTR to JSON: the bytes of the file. -/
def saveFile (utr : UnspentTokenRegister) (savedAt : String) : Except PyError Bytes := do
  let entries ← entryDocuments utr.entries.items
  return sortedBytes (.dict [
    ("dpc_version", .str "1.0"),
    ("saved_at", .str savedAt),
    ("data", .dict [
      ("wallet_id", .str utr.walletId),
      ("entries", .dict entries),
      ("spent_token_ids", strings utr.spentTokenIds),
      ("seen_nonces", strings utr.seenNonces)])])

/-- The comprehension over the entries in `load`. -/
def loadFileEntries (c : Crypto) :
    Dict String Receipt → List (String × Json) → Except Raised (Dict String Receipt)
  | entries, [] => .ok entries
  | entries, (tokenId, receiptData) :: rest => do
    let receipt ← Receipt.fromJson c (sortedBytes receiptData)
    loadFileEntries c (entries.set tokenId receipt) rest

/-- Load a UTR from JSON. -/
def loadFile (c : Crypto) (file : Bytes) : Except Raised UnspentTokenRegister := do
  let payload ← loadDocument file
  if !(← payload.get "dpc_version" .null).isStr "1.0" then
    throw (.dpc .walletState "Unsupported UTR version")
  let data ← payload.getItem "data"
  let walletId ← (← data.getItem "wallet_id").asStr
  let entries ← loadFileEntries c .empty (← (← data.getItem "entries").items)
  let spentTokenIds ← loadStrings (← data.getItem "spent_token_ids")
  let seenNonces ← loadStrings (← data.getItem "seen_nonces")
  return ⟨walletId, entries, spentTokenIds, seenNonces⟩

lemma entryDocuments_eq (entries : List (String × Receipt)) :
    entryDocuments entries = .ok (entries.map fun e => (e.1, sortKeys e.2.toDict)) := by
  induction entries with
  | nil => rfl
  | cons e entries ih =>
    have htext : loadDocument e.2.toJson = .ok (sortKeys e.2.toDict) :=
      loadDocument_sortedBytes (wellFormed_receipt e.2)
    rw [entryDocuments] at ih
    rw [entryDocuments, List.mapM_cons, htext, ih]
    rfl

lemma wellFormed_strings (s : Finset String) : WellFormed (strings s) :=
  .list (List.forall_mem_map.mpr fun _ _ => .str _)

@[simp] lemma sortKeys_strings (s : Finset String) : sortKeys (strings s) = strings s := by
  rw [strings, sortKeys, sortItems_eq_map, List.map_map]
  rfl

/-- An entry of the file is read as the receipt that was saved, or refused for the same reason. -/
lemma loadFileEntries_sorted (entries : Dict String Receipt) (saved : List (String × Receipt)) :
    loadFileEntries c entries (saved.map fun e => (e.1, sortKeys e.2.toDict))
      = loadEntries c entries (saved.map fun e => (e.1, e.2.toDict)) := by
  induction saved generalizing entries with
  | nil => rfl
  | cons e saved ih =>
    have hwell := wellFormed_receipt e.2
    have htext : Receipt.fromJson c (sortedBytes (sortKeys e.2.toDict))
        = Receipt.fromDict c e.2.toDict := by
      rw [Receipt.fromJson, loadDocument_sortedBytes hwell.sortKeys, sortKeys_sortKeys hwell,
        liftM_ok, ok_bind, Receipt.fromDict_sortKeys]
    rw [List.map_cons, List.map_cons, loadFileEntries, loadEntries, htext]
    exact congrArg _ (funext fun receipt => ih _)

lemma nodup_dataKeys : ["wallet_id", "entries", "spent_token_ids", "seen_nonces"].Nodup := by decide

lemma nodup_fileKeys : ["dpc_version", "saved_at", "data"].Nodup := by decide

/-- The `data` of a file. -/
def fileData (utr : UnspentTokenRegister) (entries : List (String × Json)) : Json := .dict [
  ("wallet_id", .str utr.walletId),
  ("entries", .dict entries),
  ("spent_token_ids", strings utr.spentTokenIds),
  ("seen_nonces", strings utr.seenNonces)]

/-- The document of a file. -/
def fileDict (utr : UnspentTokenRegister) (savedAt : String) (entries : List (String × Json)) :
    Json := .dict [
  ("dpc_version", .str "1.0"),
  ("saved_at", .str savedAt),
  ("data", utr.fileData entries)]

lemma wellFormed_fileDict (utr : UnspentTokenRegister) (savedAt : String)
    {entries : List (String × Json)} (hentries : WellFormed (.dict entries)) :
    WellFormed (utr.fileDict savedAt entries) := by
  have hdata : WellFormed (utr.fileData entries) := by
    apply WellFormed.dict
    · simp only [List.forall_mem_cons, List.not_mem_nil, false_imp_iff, implies_true, and_true]
      exact ⟨.str _, hentries, wellFormed_strings _, wellFormed_strings _⟩
    · exact nodup_dataKeys
  apply WellFormed.dict
  · simp only [List.forall_mem_cons, List.not_mem_nil, false_imp_iff, implies_true, and_true]
    exact ⟨.str _, .str _, hdata⟩
  · exact nodup_fileKeys

/-- What `load` reads in a file. -/
lemma loadFile_fileDict (utr : UnspentTokenRegister) (savedAt : String)
    {entries : List (String × Json)} (hentries : WellFormed (.dict entries)) :
    loadFile c (sortedBytes (utr.fileDict savedAt entries)) = (do
      let entries ← loadFileEntries c .empty (byKey (sortFields entries))
      let spentTokenIds ← loadStrings (strings utr.spentTokenIds)
      let seenNonces ← loadStrings (strings utr.seenNonces)
      return ⟨utr.walletId, entries, spentTokenIds, seenNonces⟩) := by
  have hfile : Json.SameFields (sortKeys (utr.fileDict savedAt entries)) (.dict [
      ("dpc_version", .str "1.0"),
      ("saved_at", .str savedAt),
      ("data", sortKeys (utr.fileData entries))]) := sameFields_sortFields nodup_fileKeys
  have hdata : Json.SameFields (sortKeys (utr.fileData entries)) (.dict [
      ("wallet_id", .str utr.walletId),
      ("entries", .dict (byKey (sortFields entries))),
      ("spent_token_ids", sortKeys (strings utr.spentTokenIds)),
      ("seen_nonces", sortKeys (strings utr.seenNonces))]) := sameFields_sortFields nodup_dataKeys
  have hdataItem : (sortKeys (utr.fileDict savedAt entries)).getItem "data"
      = .ok (sortKeys (utr.fileData entries)) := hfile.getItem _
  have hversion : (sortKeys (utr.fileDict savedAt entries)).get "dpc_version" .null
      = .ok (.str "1.0") := hfile.get _ _
  rw [loadFile, loadDocument_sortedBytes (utr.wellFormed_fileDict savedAt hentries)]
  simp only [liftM_ok, ok_bind, hversion, hdataItem, hdata.getItem]
  rw [sortKeys_strings, sortKeys_strings]
  rfl

/-- The file of every register loads exactly as the document that was saved: into the same register,
or with the same exception. -/
theorem loadFile_saveFile (c : Crypto) (utr : UnspentTokenRegister) (savedAt : String) :
    ∃ file, utr.saveFile savedAt = .ok file ∧ loadFile c file = load c (utr.save savedAt) := by
  have hwell : WellFormed (.dict (utr.entries.items.map fun e => (e.1, sortKeys e.2.toDict))) := by
    apply WellFormed.dict
    · exact List.forall_mem_map.mpr fun e _ => (wellFormed_receipt e.2).sortKeys
    · rw [List.map_map]
      exact utr.entries.nodup
  have hentries : byKey (sortFields (utr.entries.items.map fun e => (e.1, sortKeys e.2.toDict)))
      = utr.sortedEntries.map fun e => (e.1, sortKeys e.2.toDict) := by
    rw [byKey_sortFields_map (fun receipt : Receipt => sortKeys receipt.toDict)]
    refine List.map_congr_left fun e _ => ?_
    rw [sortKeys_sortKeys (wellFormed_receipt e.2)]
  refine ⟨_, by rw [saveFile, entryDocuments_eq]; rfl, ?_⟩
  have hload := utr.loadFile_fileDict (c := c) savedAt hwell
  rw [hentries, loadFileEntries_sorted] at hload
  exact hload

end UnspentTokenRegister

/-! ### Ledgers -/

/-- A dictionary of a ledger as it is kept. -/
def dictDocument {ν : Type} (write : ν → Json) (d : Dict String ν) : Json :=
  .dict (d.items.map fun e => (e.1, write e.2))

lemma sortKeys_mintRecord (r : MintRecord) : sortKeys r.toDict = r.toDict :=
  sortKeys_dict_eq (.refl _)
    (show ["amount", "issued_at", "issuer_sig", "ttl"].Pairwise (· < ·) by decide)

lemma sortKeys_settlement (s : Settlement) : sortKeys s.toDict = s.toDict :=
  sortKeys_dict_eq (.refl _)
    (show ["chain_depth", "claimer_pubkey", "settled_at", "token_id"].Pairwise (· < ·) by decide)

lemma sortKeys_pendingClaim (p : PendingClaim) : sortKeys p.toDict = p.toDict :=
  sortKeys_dict_eq (.refl _)
    (show ["chain_depth", "claimer_pubkey", "submitted_at"].Pairwise (· < ·) by decide)

lemma sortKeys_pendingList (claims : List PendingClaim) :
    sortKeys (pendingList claims) = pendingList claims := by
  rw [pendingList, sortKeys, sortItems_eq_map, List.map_map]
  exact congrArg Json.list (List.map_congr_left fun p _ => sortKeys_pendingClaim p)

lemma wellFormed_mintRecord (r : MintRecord) : WellFormed r.toDict := by
  apply WellFormed.dict
  · simp only [List.forall_mem_cons, List.not_mem_nil, false_imp_iff, implies_true, and_true]
    exact ⟨.int _, .int _, .str _, .int _⟩
  · simp only [List.map_cons, List.map_nil]
    decide

lemma wellFormed_settlement (s : Settlement) : WellFormed s.toDict := by
  apply WellFormed.dict
  · simp only [List.forall_mem_cons, List.not_mem_nil, false_imp_iff, implies_true, and_true]
    exact ⟨.int _, .str _, .int _, .str _⟩
  · simp only [List.map_cons, List.map_nil]
    decide

lemma wellFormed_pendingClaim (p : PendingClaim) : WellFormed p.toDict := by
  apply WellFormed.dict
  · simp only [List.forall_mem_cons, List.not_mem_nil, false_imp_iff, implies_true, and_true]
    exact ⟨.int _, .str _, .int _⟩
  · simp only [List.map_cons, List.map_nil]
    decide

lemma sortKeys_dictDocument {ν : Type} {write : ν → Json} (h : ∀ v, sortKeys (write v) = write v)
    (d : Dict String ν) : sortKeys (dictDocument write d) = dictForm write d := by
  rw [dictDocument, sortKeys, byKey_sortFields_map write, dictForm]
  exact congrArg Json.dict (List.map_congr_left fun e _ => by rw [h])

lemma wellFormed_dictDocument {ν : Type} {write : ν → Json} (h : ∀ v, WellFormed (write v))
    (d : Dict String ν) : WellFormed (dictDocument write d) := by
  apply WellFormed.dict
  · exact List.forall_mem_map.mpr fun e _ => h e.2
  · rw [List.map_map]
    exact d.nodup

/-- Dictionaries with the same entries have the same form. -/
lemma dictForm_congr {ν : Type} (write : ν → Json) {d d' : Dict String ν}
    (h : ∀ k, d'.get? k = d.get? k) : dictForm write d = dictForm write d' := by
  rw [dictForm, dictForm,
    insertionSort_eq_of_perm (Dict.perm_of_get? fun k => (h k).symm) d.nodup]

namespace IssuerLedger

/-- Persist issuer ledger state to JSON: the bytes of the file. -/
def saveFile (ledger : IssuerLedger) (savedAt : String) : Bytes := sortedBytes (.dict [
  ("dpc_version", .str "1.0"),
  ("saved_at", .str savedAt),
  ("data", .dict [
    ("minted", dictDocument MintRecord.toDict ledger.minted),
    ("settled", dictDocument Settlement.toDict ledger.settled),
    ("blacklist", UnspentTokenRegister.strings ledger.blacklist),
    ("pending", dictDocument pendingList ledger.pending)])])

/-- Load issuer ledger state from JSON. -/
def loadFile (file : Bytes) : Except Raised IssuerLedger := do
  load (.doc (← loadDocument file))

/-- The `data` of a file, and of the document that is saved. -/
def fileData (ledger : IssuerLedger) : List (String × Json) := [
  ("minted", dictDocument MintRecord.toDict ledger.minted),
  ("settled", dictDocument Settlement.toDict ledger.settled),
  ("blacklist", UnspentTokenRegister.strings ledger.blacklist),
  ("pending", dictDocument pendingList ledger.pending)]

def savedData (ledger : IssuerLedger) : List (String × Json) := [
  ("blacklist", UnspentTokenRegister.strings ledger.blacklist),
  ("minted", dictForm MintRecord.toDict ledger.minted),
  ("pending", dictForm pendingList ledger.pending),
  ("settled", dictForm Settlement.toDict ledger.settled)]

lemma sortFields_fileData_perm (ledger : IssuerLedger) :
    (sortFields ledger.fileData).Perm ledger.savedData := by
  simp only [fileData, sortFields, sortKeys_dictDocument sortKeys_mintRecord,
    sortKeys_dictDocument sortKeys_settlement, sortKeys_dictDocument sortKeys_pendingList,
    UnspentTokenRegister.sortKeys_strings]
  exact (@List.perm_middle _ _ [_, _] [_]).trans (((List.Perm.swap _ _ []).cons _).cons _)

lemma wellFormed_fileData (ledger : IssuerLedger) : WellFormed (.dict ledger.fileData) := by
  apply WellFormed.dict
  · simp only [fileData, List.forall_mem_cons, List.not_mem_nil, false_imp_iff, implies_true,
      and_true]
    refine ⟨wellFormed_dictDocument (fun r => ?_) _, wellFormed_dictDocument (fun r => ?_) _,
      UnspentTokenRegister.wellFormed_strings _, wellFormed_dictDocument (fun claims => ?_) _⟩
    · exact wellFormed_mintRecord r
    · exact wellFormed_settlement r
    · exact .list (List.forall_mem_map.mpr fun p _ => wellFormed_pendingClaim p)
  · simp only [fileData, List.map_cons, List.map_nil]
    decide

/-- The file holds the document that `save` writes. -/
lemma sortKeys_fileDict (ledger : IssuerLedger) (savedAt : String) :
    sortKeys (.dict [("dpc_version", .str "1.0"), ("saved_at", .str savedAt),
      ("data", .dict ledger.fileData)]) = .dict [("data", .dict ledger.savedData),
      ("dpc_version", .str "1.0"), ("saved_at", .str savedAt)] := by
  have hdata : sortKeys (.dict ledger.fileData) = .dict ledger.savedData := by
    apply sortKeys_dict_eq ledger.sortFields_fileData_perm
    simp only [savedData, List.map_cons, List.map_nil]
    decide
  have hvalues : sortFields [("dpc_version", .str "1.0"), ("saved_at", .str savedAt),
      ("data", .dict ledger.fileData)] = [("dpc_version", .str "1.0"),
      ("saved_at", .str savedAt), ("data", sortKeys (.dict ledger.fileData))] := rfl
  apply sortKeys_dict_eq
  · rw [hvalues, hdata]
    exact @List.perm_middle _ _ [_, _] []
  · simp only [List.map_cons, List.map_nil]
    decide

lemma loadDocument_saveFile (ledger : IssuerLedger) (savedAt : String) :
    loadDocument (ledger.saveFile savedAt) = .ok (.dict [("data", .dict ledger.savedData),
      ("dpc_version", .str "1.0"), ("saved_at", .str savedAt)]) := by
  have hwell : WellFormed (.dict [("dpc_version", .str "1.0"), ("saved_at", .str savedAt),
      ("data", .dict ledger.fileData)]) := by
    apply WellFormed.dict
    · simp only [List.forall_mem_cons, List.not_mem_nil, false_imp_iff, implies_true, and_true]
      exact ⟨.str _, .str _, ledger.wellFormed_fileData⟩
    · exact UnspentTokenRegister.nodup_fileKeys
  rw [← ledger.sortKeys_fileDict savedAt]
  exact loadDocument_sortedBytes hwell

/-- Ledgers with the same entries write the same file. -/
lemma Same.saveFile {ledger ledger' : IssuerLedger} (h : ledger.Same ledger') (savedAt : String) :
    ledger'.saveFile savedAt = ledger.saveFile savedAt := by
  have hdata : ledger'.savedData = ledger.savedData := by
    rw [savedData, savedData, dictForm_congr _ h.minted, dictForm_congr _ h.pending,
      dictForm_congr _ h.settled, h.blacklist]
  calc ledger'.saveFile savedAt
      = documentBytes (.dict [("data", .dict ledger'.savedData), ("dpc_version", .str "1.0"),
        ("saved_at", .str savedAt)]) := congrArg documentBytes (ledger'.sortKeys_fileDict savedAt)
    _ = documentBytes (.dict [("data", .dict ledger.savedData), ("dpc_version", .str "1.0"),
        ("saved_at", .str savedAt)]) := by rw [hdata]
    _ = ledger.saveFile savedAt := (congrArg documentBytes (ledger.sortKeys_fileDict savedAt)).symm

/-- The file of every ledger loads, with the entries the ledger had. -/
lemma exists_loadFile (ledger : IssuerLedger) (savedAt : String) :
    ∃ ledger', loadFile (ledger.saveFile savedAt) = .ok ledger' ∧ ledger.Same ledger' := by
  obtain ⟨ledger', hload, hsame⟩ := ledger.exists_load_save savedAt
  refine ⟨ledger', ?_, hsame⟩
  rw [loadFile, loadDocument_saveFile, liftM_ok, ok_bind]
  exact hload

/-- The file of every ledger loads, with the entries the ledger had, and two ledgers write the same
bytes exactly if they hold the same entries and are saved at the same time. -/
theorem saveFile_eq_iff (ledger : IssuerLedger) (savedAt : String) :
    (∃ ledger', loadFile (ledger.saveFile savedAt) = .ok ledger' ∧ ledger.Same ledger') ∧
    ∀ ledger' savedAt', ledger'.saveFile savedAt' = ledger.saveFile savedAt ↔
      ledger.Same ledger' ∧ savedAt' = savedAt := by
  refine ⟨ledger.exists_loadFile savedAt, fun ledger' savedAt' => ⟨fun h => ?_, ?_⟩⟩
  · obtain ⟨loaded, hload, hsame⟩ := ledger.exists_loadFile savedAt
    obtain ⟨loaded', hload', hsame'⟩ := ledger'.exists_loadFile savedAt'
    have hdocument := ledger.loadDocument_saveFile savedAt
    rw [← h, loadDocument_saveFile] at hdocument
    rw [h, hload] at hload'
    cases hload'
    refine ⟨⟨fun k => ?_, fun k => ?_, ?_, fun k => ?_⟩, ?_⟩
    · rw [← hsame'.minted, hsame.minted]
    · rw [← hsame'.settled, hsame.settled]
    · rw [← hsame'.blacklist, hsame.blacklist]
    · rw [← hsame'.pending, hsame.pending]
    · exact (by simpa using hdocument : ledger'.savedData = ledger.savedData ∧ _).2
  · rintro ⟨hsame, rfl⟩
    exact hsame.saveFile savedAt'

end IssuerLedger

end PocketCash.Dpc
