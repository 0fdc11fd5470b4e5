import Mathlib.Algebra.Ring.Int.Defs
import Mathlib.Data.List.Sort
import PocketCash.Library.KeyedList
import PocketCash.Canonical.Token

/-!
# The canonical wallet

`wallet/wallet.py`: a wallet keeps the tokens it can spend in the unspent token register `utr` and
copies of the tokens it has signed away in the spent token register `str`. Methods that can raise
after changing the wallet return the changed wallet together with the exception.
-/

namespace PocketCash.Canonical

/-- A token register: tokens stored under their own id. -/
abbrev Register := KeyedList Token.tokenId

/-- The `KeyStore` protocol: `get_private_key`. -/
abbrev KeyStore := String → Except PyError String

/-- `DictKeyStore.get_private_key`. -/
def dictKeyStore (keys : Dict String String) : KeyStore := fun publicKey =>
  match keys.get? publicKey with
  | some privateKey => .ok privateKey
  | none => .error (.keyError publicKey)

/-- Wallet maintaining unspent token register (UTR) and spent token register (STR). -/
structure Wallet where
  ownerPk : String
  keystore : KeyStore
  utr : Register
  str : Register

/-! ### Token selection -/

/-- The sum of the values of `tokens`. -/
def totalValue (tokens : List Token) : Int := (tokens.map Token.value).sum

/-- `sorted(tokens, key=lambda tok: tok.value)`, a stable sort. -/
def ascending (tokens : List Token) : List Token :=
  tokens.insertionSort fun s t => s.value ≤ t.value

/-- The inner function `search` of `_find_exact_token_subset`: `rest` is `tokens[index:]`, and
`best` is passed in and returned. -/
def search (amount : Int) :
    List Token → List Token → Int → Option (List Token) → Option (List Token)
  | rest, selected, total, best =>
    if total = amount then
      if best.all fun b => selected.length < b.length then some selected else best
    else if total > amount then best
    else
      match rest with
      | [] => best
      | token :: rest =>
        if best.any fun b => selected.length ≥ b.length then best
        else search amount rest selected total
          (search amount rest (selected ++ [token]) (total + token.value) best)

lemma search_nil (amount : Int) (selected : List Token) (total : Int)
    (best : Option (List Token)) :
    search amount [] selected total best =
      if total = amount then
        if best.all fun b => selected.length < b.length then some selected else best
      else if total > amount then best
      else best := rfl

lemma search_cons (amount : Int) (token : Token) (rest selected : List Token) (total : Int)
    (best : Option (List Token)) :
    search amount (token :: rest) selected total best =
      if total = amount then
        if best.all fun b => selected.length < b.length then some selected else best
      else if total > amount then best
      else if best.any fun b => selected.length ≥ b.length then best
      else search amount rest selected total
        (search amount rest (selected ++ [token]) (total + token.value) best) := rfl

/-- Return a smallest exact-value subset when one exists. -/
def findExactTokenSubset (tokens : List Token) (amount : Int) : Option (List Token) :=
  search amount tokens [] 0 none

/-- The greedy loop of `select_tokens`. -/
def takeUntilCovered (amount : Int) :
    List Token → List Token → Int → Except PyError (List Token)
  | [], _, _ => .error (.valueError "insufficient funds")
  | token :: rest, selected, total =>
    if total + token.value ≥ amount then .ok (selected ++ [token])
    else takeUntilCovered amount rest (selected ++ [token]) (total + token.value)

namespace Wallet

/-- Select a token set with sum at least the requested amount, of that sum exactly if possible. -/
def selectTokens (w : Wallet) (amount : Int) : Except PyError (List Token) :=
  if amount < 0 then .error (.valueError "amount must be non-negative")
  else if amount = 0 then .ok []
  else
    let tokens := ascending w.utr.items
    match findExactTokenSubset tokens amount with
    | some exact => .ok exact
    | none => takeUntilCovered amount tokens [] 0

/-! ### Adding, sending and receiving -/

/-- Add a token to UTR after ownership and signature-chain validation. -/
def addToken (c : Crypto) (w : Wallet) (token : Token) : Except PyError Wallet :=
  if token.ownerPk ≠ w.ownerPk then .error (.valueError "token is not owned by this wallet")
  else if !token.validateChain c token.issuerPk then
    .error (.valueError "invalid token transfer chain")
  else .ok { w with utr := w.utr.put token }

/-- The loop of `send_tokens`. The `i`-th token it reaches is stamped with `stamp i`. -/
def sendLoop (c : Crypto) (stamp : Nat → Stamp) (senderSk receiverPk : String) :
    Nat → Wallet → List Token → Wallet × Except PyError (List JsonText)
  | _, w, [] => (w, .ok [])
  | i, w, token :: rest =>
    match w.utr.find? token.tokenId with
    | none => (w, .error (.valueError ("token " ++ token.tokenId ++ " unavailable")))
    | some localToken =>
      let popped := { w with utr := w.utr.pop token.tokenId }
      match localToken.appendTransfer c (stamp i) senderSk receiverPk with
      | .error e => (popped, .error e)
      | .ok sent =>
        match sendLoop c stamp senderSk receiverPk (i + 1)
            { popped with str := popped.str.put sent } rest with
        | (w', .error e) => (w', .error e)
        | (w', .ok payloads) => (w', .ok (sent.toJson :: payloads))

/-- Transfer selected tokens and return serialized payloads. -/
def sendTokens (c : Crypto) (stamp : Nat → Stamp) (w : Wallet) (receiverPk : String)
    (tokens : List Token) : Wallet × Except PyError (List JsonText) :=
  match w.keystore w.ownerPk with
  | .error e => (w, .error e)
  | .ok senderSk => sendLoop c stamp senderSk receiverPk 0 w tokens

/-- Select and send enough tokens to cover a requested price. -/
def initiatePayment (c : Crypto) (stamp : Nat → Stamp) (w : Wallet) (price : Int)
    (receiverPk : String) : Wallet × Except PyError (List JsonText) :=
  match w.selectTokens price with
  | .error e => (w, .error e)
  | .ok tokens => w.sendTokens c stamp receiverPk tokens

/-- Validate inbound payment value and choose change tokens from receiver wallet. -/
def processPayment (w : Wallet) (tokens : List Token) (price : Int) :
    Except PyError (List Token) :=
  if totalValue tokens < price then
    .error (.valueError "reject_payment: total paid less than price")
  else w.selectTokens (totalValue tokens - price)

/-- The `try` block of `receive_token`. -/
def acceptToken (c : Crypto) (w : Wallet) (payload : JsonText) : Except PyError Wallet :=
  match tokenFromPayload payload with
  | .error e => .error e
  | .ok token =>
    if token.ownerPk ≠ w.ownerPk then
      .error (.valueError "token receiver does not match wallet owner")
    else if !token.validateChain c token.issuerPk then
      .error (.valueError "invalid token transfer chain")
    else if token.tokenId ∈ w.str.keys then
      .error (.valueError "token already spent by this wallet")
    else .ok { w with utr := w.utr.put token }

/-- Receive a token payload atomically. -/
def receiveToken (c : Crypto) (w : Wallet) (payload : JsonText) : Wallet × Bool :=
  match w.acceptToken c payload with
  | .ok w' => (w', true)
  | .error _ => ({ w with utr := w.utr, str := w.str }, false)

/-- Sync local STR against settlement by removing settled token IDs. -/
def sync (w : Wallet) (settledTokenIds : List String) : Wallet :=
  { w with str := settledTokenIds.foldl KeyedList.pop w.str }

end Wallet

/-! ### What a completed send does -/

/-- A token keeps its id when it is handed on. -/
lemma map_tokenId_of_extends {receiverPk : String} {moved : List (Token × Token)}
    (h : ∀ p ∈ moved, p.1.Extends p.2 receiverPk) :
    (moved.map Prod.snd).map Token.tokenId = (moved.map Prod.fst).map Token.tokenId := by
  rw [List.map_map, List.map_map]
  exact List.map_congr_left fun p hp => (h p hp).tokenId_eq

/-- A token keeps its value when it is handed on. -/
lemma totalValue_of_extends {receiverPk : String} {moved : List (Token × Token)}
    (h : ∀ p ∈ moved, p.1.Extends p.2 receiverPk) :
    totalValue (moved.map Prod.snd) = totalValue (moved.map Prod.fst) := by
  rw [totalValue, totalValue, List.map_map, List.map_map]
  have hvalue := List.map_congr_left fun p hp => (h p hp).value_eq
  exact congrArg List.sum hvalue

/-- A completed `send_tokens`. Each pair of `moved` is a token that left the UTR and the same
token with one transfer to `receiverPk` appended, which is now in the STR. -/
structure Wallet.Sends (w w' : Wallet) (receiverPk : String) (moved : List (Token × Token)) :
    Prop where
  ownerPk_eq : w'.ownerPk = w.ownerPk
  keystore_eq : w'.keystore = w.keystore
  utr_perm : w.utr.items.Perm (moved.map Prod.fst ++ w'.utr.items)
  moved_extends : ∀ p ∈ moved, p.1.Extends p.2 receiverPk
  find?_str : ∀ p ∈ moved, w'.str.find? p.2.tokenId = some p.2
  find?_str_of_notMem :
    ∀ k, k ∉ moved.map (fun p => p.2.tokenId) → w'.str.find? k = w.str.find? k

namespace Wallet.Sends

variable {w w' : Wallet} {receiverPk : String} {moved : List (Token × Token)}

lemma map_tokenId (h : w.Sends w' receiverPk moved) :
    (moved.map Prod.snd).map Token.tokenId = (moved.map Prod.fst).map Token.tokenId :=
  map_tokenId_of_extends h.moved_extends

lemma totalValue_eq (h : w.Sends w' receiverPk moved) :
    totalValue (moved.map Prod.snd) = totalValue (moved.map Prod.fst) :=
  totalValue_of_extends h.moved_extends

lemma mem_utr (h : w.Sends w' receiverPk moved) {p : Token × Token} (hp : p ∈ moved) :
    p.1 ∈ w.utr.items :=
  h.utr_perm.mem_iff.mpr (List.mem_append_left _ (List.mem_map_of_mem hp))

/-- The ids of the UTR split into those sent and those kept. -/
lemma keys_perm (h : w.Sends w' receiverPk moved) :
    w.utr.keys.Perm ((moved.map Prod.fst).map Token.tokenId ++ w'.utr.keys) := by
  simpa [KeyedList.keys] using h.utr_perm.map Token.tokenId

/-- One more token is sent first. -/
lemma cons {token sent : Token} (hfind : w.utr.find? token.tokenId = some token)
    (hext : token.Extends sent receiverPk)
    (h : Wallet.Sends { w with utr := w.utr.pop token.tokenId, str := w.str.put sent } w'
      receiverPk moved) :
    w.Sends w' receiverPk ((token, sent) :: moved) := by
  -- the id just sent is no longer in the UTR, so it is not sent again
  have hfresh : sent.tokenId ∉ moved.map fun p => p.2.tokenId := by
    intro hmem
    obtain ⟨p, hp, hpid⟩ := List.mem_map.mp hmem
    rw [hext.tokenId_eq, (h.moved_extends p hp).tokenId_eq] at hpid
    exact (KeyedList.mem_pop.mp (h.mem_utr hp)).2 hpid
  refine ⟨h.ownerPk_eq, h.keystore_eq, ?_, ?_, ?_, ?_⟩
  · exact (KeyedList.perm_pop hfind).trans (h.utr_perm.cons token)
  · rintro p (_ | ⟨_, hp⟩)
    · exact hext
    · exact h.moved_extends p hp
  · rintro p (_ | ⟨_, hp⟩)
    · rw [h.find?_str_of_notMem _ hfresh]
      exact KeyedList.find?_put_self
    · exact h.find?_str p hp
  · intro k hk
    rw [List.map_cons, List.mem_cons, not_or] at hk
    rw [h.find?_str_of_notMem k hk.2, KeyedList.find?_put, if_neg hk.1]

end Wallet.Sends

/-- The moved tokens of a completed send loop are those asked for, and the payloads are their new
versions. -/
lemma Wallet.sends_of_sendLoop {c : Crypto} {stamp : Nat → Stamp} {senderSk receiverPk : String}
    {i : Nat} {w w' : Wallet} {tokens : List Token} {payloads : List JsonText}
    (h : sendLoop c stamp senderSk receiverPk i w tokens = (w', .ok payloads)) :
    ∃ moved, w.Sends w' receiverPk moved ∧ payloads = (moved.map Prod.snd).map Token.toJson ∧
      (moved.map Prod.fst).map Token.tokenId = tokens.map Token.tokenId := by
  induction tokens generalizing i w payloads with
  | nil =>
    cases h
    exact ⟨[], ⟨rfl, rfl, .refl _, by simp, by simp, by simp⟩, rfl, rfl⟩
  | cons token rest ih =>
    rw [sendLoop] at h
    cases hfind : w.utr.find? token.tokenId with
    | none => simp [hfind] at h
    | some localToken =>
      cases happend : localToken.appendTransfer c (stamp i) senderSk receiverPk with
      | error e => simp [hfind, happend] at h
      | ok sent =>
        have hext := Token.extends_of_appendTransfer happend
        cases hrest : sendLoop c stamp senderSk receiverPk (i + 1)
            { w with utr := w.utr.pop token.tokenId, str := w.str.put sent } rest with
        | mk w'' result =>
          cases result with
          | error e => simp [hfind, happend, hrest] at h
          | ok payloads' =>
            simp only [hfind, happend, hrest, Prod.mk.injEq, Except.ok.injEq] at h
            obtain ⟨rfl, rfl⟩ := h
            obtain ⟨moved, hsends, rfl, hids⟩ := ih hrest
            obtain ⟨-, hid⟩ := KeyedList.find?_eq_some_iff.mp hfind
            rw [← hid] at hfind hsends
            exact ⟨(localToken, sent) :: moved, hsends.cons hfind hext, rfl,
              by simpa [hid] using hids⟩

/-- The specification of a `send_tokens` that returns. -/
theorem Wallet.sends_of_sendTokens {c : Crypto} {stamp : Nat → Stamp} {receiverPk : String}
    {w w' : Wallet} {tokens : List Token} {payloads : List JsonText}
    (h : w.sendTokens c stamp receiverPk tokens = (w', .ok payloads)) :
    ∃ moved, w.Sends w' receiverPk moved ∧ payloads = (moved.map Prod.snd).map Token.toJson ∧
      (moved.map Prod.fst).map Token.tokenId = tokens.map Token.tokenId := by
  rw [sendTokens] at h
  split at h
  · cases h
  · exact sends_of_sendLoop h

/-- What `send_tokens` does to a wallet even if it raises half-way. -/
structure Wallet.Spends (w w' : Wallet) : Prop where
  ownerPk_eq : w'.ownerPk = w.ownerPk
  mem_utr : ∀ t ∈ w'.utr.items, t ∈ w.utr.items
  mem_str_keys : ∀ k ∈ w.str.keys, k ∈ w'.str.keys

lemma Wallet.Spends.refl (w : Wallet) : w.Spends w := ⟨rfl, fun _ => id, fun _ => id⟩

lemma Wallet.Spends.trans {w w' w'' : Wallet} (h : w.Spends w') (h' : w'.Spends w'') :
    w.Spends w'' :=
  ⟨h'.ownerPk_eq.trans h.ownerPk_eq, fun t ht => h.mem_utr t (h'.mem_utr t ht),
    fun k hk => h'.mem_str_keys k (h.mem_str_keys k hk)⟩

lemma Wallet.spends_sendLoop (c : Crypto) (stamp : Nat → Stamp) (senderSk receiverPk : String)
    (i : Nat) (w : Wallet) (tokens : List Token) :
    w.Spends (sendLoop c stamp senderSk receiverPk i w tokens).1 := by
  induction tokens generalizing i w with
  | nil => exact .refl w
  | cons token rest ih =>
    rw [sendLoop]
    have hpopped : w.Spends { w with utr := w.utr.pop token.tokenId } :=
      ⟨rfl, fun t ht => (KeyedList.mem_pop.mp ht).1, fun _ => id⟩
    split
    · exact .refl w
    · dsimp only
      split
      · exact hpopped
      · rename_i sent happend
        have hparked : w.Spends { w with utr := w.utr.pop token.tokenId, str := w.str.put sent } :=
          ⟨rfl, hpopped.mem_utr, fun k hk => KeyedList.mem_keys_put.mpr (.inr hk)⟩
        have hrest := hparked.trans (ih (i + 1) _)
        split <;> rename_i hloop <;> rw [hloop] at hrest <;> exact hrest

lemma Wallet.spends_sendTokens (c : Crypto) (stamp : Nat → Stamp) (w : Wallet)
    (receiverPk : String) (tokens : List Token) :
    w.Spends (w.sendTokens c stamp receiverPk tokens).1 := by
  rw [sendTokens]
  split
  · exact .refl w
  · exact spends_sendLoop ..

/-! ### What receiving does -/

/-- The checks `receive_token` makes on the token it reads. -/
structure Wallet.Accepts (c : Crypto) (w : Wallet) (token : Token) : Prop where
  owner : token.ownerPk = w.ownerPk
  chain : token.validateChain c token.issuerPk = true
  notSpent : token.tokenId ∉ w.str.keys

lemma Wallet.receiveToken_cases (c : Crypto) (w : Wallet) (payload : JsonText) :
    (∃ token, tokenFromPayload payload = .ok token ∧ w.Accepts c token ∧
      w.receiveToken c payload = ({ w with utr := w.utr.put token }, true)) ∨
    ((∀ token, tokenFromPayload payload = .ok token → ¬ w.Accepts c token) ∧
      w.receiveToken c payload = (w, false)) := by
  rw [receiveToken, acceptToken]
  cases tokenFromPayload payload with
  | error e => exact .inr ⟨by simp, rfl⟩
  | ok token =>
    have hrefused : ¬ w.Accepts c token → ∀ read, Except.ok (ε := PyError) token = .ok read →
        ¬ w.Accepts c read := fun h read hread => Except.ok.inj hread ▸ h
    by_cases howner : token.ownerPk = w.ownerPk
    swap
    · exact .inr ⟨hrefused fun h => howner h.owner, by simp [howner]⟩
    by_cases hchain : token.validateChain c token.issuerPk = true
    swap
    · exact .inr ⟨hrefused fun h => hchain h.chain, by simp [howner, hchain]⟩
    by_cases hspent : token.tokenId ∈ w.str.keys
    · exact .inr ⟨hrefused fun h => h.notSpent hspent, by simp [howner, hchain, hspent]⟩
    · exact .inl ⟨token, rfl, ⟨howner, hchain, hspent⟩, by simp [howner, hchain, hspent]⟩

lemma Wallet.receiveToken_toJson (c : Crypto) (w : Wallet) (token : Token) :
    (w.Accepts c token ∧
      w.receiveToken c token.toJson = ({ w with utr := w.utr.put token }, true)) ∨
    (¬ w.Accepts c token ∧ w.receiveToken c token.toJson = (w, false)) := by
  rcases receiveToken_cases c w token.toJson with ⟨read, hread, h⟩ | ⟨hrefused, h⟩
  · rw [tokenFromPayload_toJson] at hread
    cases hread
    exact .inl h
  · exact .inr ⟨hrefused token (tokenFromPayload_toJson token), h⟩

/-- The wallet of `owner` with one token issued to it for each id and value. -/
def plainWallet (owner : String) (purse : List (String × Int)) : Wallet where
  ownerPk := owner
  keystore := fun publicKey => .ok ("sk:" ++ publicKey)
  utr := (purse.map fun q => plainToken q.1 q.2 owner).foldl KeyedList.put .empty
  str := .empty

end PocketCash.Canonical
