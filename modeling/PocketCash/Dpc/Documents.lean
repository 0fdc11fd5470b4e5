import PocketCash.Library.JsonSorted
import PocketCash.Dpc.Storage

/-!
# JSON texts of tokens and receipts

`to_json` and `from_json` of `dpc/token_model.py`, on the bytes of the texts. The texts have sorted
keys, which the readers do not notice: they read what they would read from the dictionary forms.
-/

namespace PocketCash.Dpc

open JsonEncoding

/-! ### Texts -/

/-- Serialize this token as deterministic JSON. -/
def Token.toJson (token : Token) : Bytes := sortedBytes token.toDict

/-- Deserialize a token from JSON. -/
def Token.fromJson (text : Bytes) : Except PyError Token := do
  Token.fromDict (← loadDocument text)

/-- Serialize this receipt as deterministic JSON. -/
def Receipt.toJson (receipt : Receipt) : Bytes := sortedBytes receipt.toDict

/-- Deserialize a receipt from JSON. -/
def Receipt.fromJson (c : Crypto) (text : Bytes) : Except Raised Receipt := do
  Receipt.fromDict c (← loadDocument text)

variable {c : Crypto}

@[simp] lemma liftM_ok {α : Type} (a : α) :
    (liftM (.ok a : Except PyError α) : Except Raised α) = .ok a := rfl

/-! ### Tokens -/

lemma Token.fromDict_toDict (token : Token) : Token.fromDict token.toDict = .ok token := rfl

/-- The order of its fields does not matter for a token. -/
lemma Token.fromDict_congr {data data' : Json} (h : data.SameFields data') :
    Token.fromDict data = Token.fromDict data' := by
  simp only [Token.fromDict, h.checkKwargs, h.kwarg]

lemma sameFields_token (token : Token) :
    Json.SameFields (sortKeys token.toDict) token.toDict := by
  apply sameFields_sortKeys
  · simp only [List.forall_mem_cons, List.not_mem_nil, false_imp_iff, implies_true, and_true,
      sortKeys]
  · simp only [List.map_cons, List.map_nil]
    decide

lemma Token.fromDict_sortKeys (token : Token) :
    Token.fromDict (sortKeys token.toDict) = .ok token :=
  fromDict_congr (sameFields_token token)

lemma wellFormed_token (token : Token) : WellFormed token.toDict := by
  apply WellFormed.dict
  · simp only [List.forall_mem_cons, List.not_mem_nil, false_imp_iff, implies_true, and_true]
    exact ⟨.str _, .str _, .int _, .int _, .int _, .str _⟩
  · simp only [List.map_cons, List.map_nil]
    decide

/-- A token is read back from its text. -/
lemma Token.fromJson_toJson (token : Token) : fromJson token.toJson = .ok token := by
  rw [fromJson, toJson, loadDocument_sortedBytes (wellFormed_token token), ok_bind,
    fromDict_sortKeys]

/-! ### Records -/

lemma TransferRecord.fromDict_congr {d d' : Json} (h : d.SameFields d') :
    TransferRecord.fromDict c d = TransferRecord.fromDict c d' := by
  simp only [TransferRecord.fromDict, h.getItem]

lemma sameFields_record (r : TransferRecord) : Json.SameFields (sortKeys r.toDict) r.toDict := by
  apply sameFields_sortKeys
  · simp only [List.forall_mem_cons, List.not_mem_nil, false_imp_iff, implies_true, and_true,
      sortKeys]
  · simp only [List.map_cons, List.map_nil]
    decide

lemma wellFormed_record (r : TransferRecord) : WellFormed r.toDict := by
  apply WellFormed.dict
  · simp only [List.forall_mem_cons, List.not_mem_nil, false_imp_iff, implies_true, and_true]
    exact ⟨.str _, .int _, .str _, .str _, .int _, .str _, .str _, .str _, .str _⟩
  · simp only [List.map_cons, List.map_nil]
    decide

lemma recordsFromList_sortItems (rs : List TransferRecord) :
    recordsFromList c (sortItems (rs.map TransferRecord.toDict))
      = recordsFromList c (rs.map TransferRecord.toDict) := by
  induction rs with
  | nil => rfl
  | cons r rs ih =>
    rw [List.map_cons, sortItems, recordsFromList, recordsFromList, ih,
      TransferRecord.fromDict_congr (sameFields_record r)]

/-! ### Receipts -/

lemma nodup_receiptKeys : ["token_id", "received_at", "final_hop", "full_chain", "is_redeemed",
    "token"].Nodup := by decide

lemma wellFormed_receipt (receipt : Receipt) : WellFormed receipt.toDict := by
  apply WellFormed.dict
  · simp only [List.forall_mem_cons, List.not_mem_nil, false_imp_iff, implies_true, and_true]
    refine ⟨.str _, .int _, wellFormed_record _, .list ?_, .bool _, ?_⟩
    · exact List.forall_mem_map.mpr fun r _ => wellFormed_record r
    · cases receipt.token with
      | none => exact .null
      | some token => exact wellFormed_token token
  · exact nodup_receiptKeys

lemma Receipt.fromDict_congr {d d' : Json} (h : d.SameFields d') :
    Receipt.fromDict c d = Receipt.fromDict c d' := by
  simp only [Receipt.fromDict, h.get, h.getItem]

/-- The value under `token` is a token or `null`. -/
def optTokenFrom (data : Json) : Except Raised (Option Token) :=
  match data with
  | .null => pure none
  | data => do
    let token ← Token.fromDict data
    pure (some token)

lemma optTokenFrom_sortKeys {data : Json} (h : data = .null ∨ ∃ token, data = Token.toDict token) :
    optTokenFrom (sortKeys data) = optTokenFrom data := by
  rcases h with rfl | ⟨token, rfl⟩
  · rfl
  · change (do
      let token ← Token.fromDict (sortKeys token.toDict)
      pure (some token) : Except Raised (Option Token)) = _
    rw [Token.fromDict_sortKeys]
    rfl

/-- A dictionary with the fields of a receipt. -/
def Receipt.fields (receipt : Receipt) (finalHop : Json) (fullChain : List Json) (token : Json) :
    List (String × Json) := [
  ("token_id", .str receipt.tokenId),
  ("received_at", .int receipt.receivedAt),
  ("final_hop", finalHop),
  ("full_chain", .list fullChain),
  ("is_redeemed", .bool receipt.isRedeemed),
  ("token", token)]

lemma Receipt.exists_toDict (receipt : Receipt) :
    ∃ token : Json, (token = .null ∨ ∃ t, token = Token.toDict t) ∧
      receipt.toDict = .dict (receipt.fields receipt.finalHop.toDict
        (receipt.fullChain.map TransferRecord.toDict) token) := by
  refine ⟨_, ?_, rfl⟩
  cases receipt.token with
  | none => exact .inl rfl
  | some token => exact .inr ⟨token, rfl⟩

lemma Receipt.fromDict_fields (receipt : Receipt) (finalHop : Json) (fullChain : List Json)
    (token : Json) :
    fromDict c (.dict (receipt.fields finalHop fullChain token)) = do
      let token ← optTokenFrom token
      let fullChain ← recordsFromList c fullChain
      let finalHop ← TransferRecord.fromDict c finalHop
      return ⟨receipt.tokenId, receipt.receivedAt, finalHop, fullChain, receipt.isRedeemed,
        token⟩ := by
  cases token with
  | dict fields =>
    simp only [optTokenFrom, bind_assoc, pure_bind]
    rfl
  | _ => rfl

/-- A receipt with sorted keys is read as the receipt itself, or refused for the same reason. -/
lemma Receipt.fromDict_sortKeys (receipt : Receipt) :
    fromDict c (sortKeys receipt.toDict) = fromDict c receipt.toDict := by
  obtain ⟨token, htoken, hdict⟩ := receipt.exists_toDict
  rw [hdict]
  calc fromDict c (sortKeys (.dict (receipt.fields receipt.finalHop.toDict
        (receipt.fullChain.map TransferRecord.toDict) token)))
      = fromDict c (.dict (receipt.fields (sortKeys receipt.finalHop.toDict)
        (sortItems (receipt.fullChain.map TransferRecord.toDict)) (sortKeys token))) :=
        fromDict_congr (sameFields_sortFields nodup_receiptKeys)
    _ = fromDict c (.dict (receipt.fields receipt.finalHop.toDict
        (receipt.fullChain.map TransferRecord.toDict) token)) := by
        rw [fromDict_fields, fromDict_fields, optTokenFrom_sortKeys htoken,
          recordsFromList_sortItems,
          TransferRecord.fromDict_congr (sameFields_record receipt.finalHop)]

/-- The text of a receipt is read as its dictionary form. -/
lemma Receipt.fromJson_toJson (receipt : Receipt) :
    fromJson c receipt.toJson = fromDict c receipt.toDict := by
  rw [fromJson, toJson, loadDocument_sortedBytes (wellFormed_receipt receipt), liftM_ok, ok_bind,
    fromDict_sortKeys]

end PocketCash.Dpc
