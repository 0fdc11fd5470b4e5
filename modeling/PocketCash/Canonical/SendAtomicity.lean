import PocketCash.Canonical.Wallet

/-!
# Sends that raise

`send_tokens` pops, signs and parks one token after the other. A token that is not available or cannot
be signed makes it raise, and the tokens before it stay popped. So a call that raises leaves the
registers alone only if it has not popped any token.
-/

namespace PocketCash.Canonical

namespace Wallet

/-- The token at position `i` is held, and can be signed away with the `i`-th stamp from `start`. -/
def Sendable (c : Crypto) (stamp : Nat → Stamp) (senderSk receiverPk : String) (w : Wallet)
    (start : Nat) (tokens : List Token) : Prop :=
  ∀ i token, tokens[i]? = some token → ∃ held sent, w.utr.find? token.tokenId = some held ∧
    held.appendTransfer c (stamp (start + i)) senderSk receiverPk = .ok sent

/-- There is a key to sign with, no id is named twice, and all tokens are held and can be signed
away. -/
def CanSend (c : Crypto) (stamp : Nat → Stamp) (w : Wallet) (receiverPk : String)
    (tokens : List Token) : Prop :=
  ∃ senderSk, w.keystore w.ownerPk = .ok senderSk ∧ (tokens.map Token.tokenId).Nodup ∧
    w.Sendable c stamp senderSk receiverPk 0 tokens

section

variable {c : Crypto} {stamp : Nat → Stamp} {senderSk receiverPk : String} {w w' : Wallet}
  {start : Nat} {token held : Token} {rest tokens : List Token}

/-- The first token can be sent, and then the others without it. -/
lemma sendable_cons_iff :
    token.tokenId ∉ rest.map Token.tokenId ∧
        w.Sendable c stamp senderSk receiverPk start (token :: rest) ↔
      ∃ held sent, w.utr.find? token.tokenId = some held ∧
        held.appendTransfer c (stamp start) senderSk receiverPk = .ok sent ∧
        Sendable c stamp senderSk receiverPk
          { w with utr := w.utr.pop token.tokenId, str := w.str.put sent } (start + 1) rest := by
  constructor
  · rintro ⟨hfresh, hall⟩
    obtain ⟨held, sent, hheld, hsent⟩ := hall 0 token rfl
    refine ⟨held, sent, hheld, hsent, fun i next hnext => ?_⟩
    have hne : next.tokenId ≠ token.tokenId := fun hsame =>
      hfresh (List.mem_map.mpr ⟨next, List.mem_of_getElem? hnext, hsame⟩)
    obtain ⟨held', sent', hheld', hsent'⟩ := hall (i + 1) next hnext
    refine ⟨held', sent', ?_, ?_⟩
    · rw [KeyedList.find?_pop, if_neg hne]
      exact hheld'
    · rw [Nat.add_assoc, Nat.add_comm 1 i]
      exact hsent'
  · rintro ⟨held, sent, hheld, hsent, hrest⟩
    have hkept : ∀ i next, rest[i]? = some next → next.tokenId ≠ token.tokenId ∧
        ∃ held' sent', w.utr.find? next.tokenId = some held' ∧
          held'.appendTransfer c (stamp (start + (i + 1))) senderSk receiverPk = .ok sent' := by
      intro i next hnext
      obtain ⟨held', sent', hheld', hsent'⟩ := hrest i next hnext
      rw [KeyedList.find?_pop] at hheld'
      split_ifs at hheld' with hsame
      rw [Nat.add_assoc, Nat.add_comm 1 i] at hsent'
      exact ⟨hsame, held', sent', hheld', hsent'⟩
    refine ⟨fun hmem => ?_, fun i next hnext => ?_⟩
    · obtain ⟨next, hnext, hsame⟩ := List.mem_map.mp hmem
      obtain ⟨i, hi⟩ := List.mem_iff_getElem?.mp hnext
      exact (hkept i next hi).1 hsame
    · cases i with
      | zero =>
        cases hnext
        exact ⟨held, sent, hheld, hsent⟩
      | succ i => exact (hkept i next hnext).2

/-- After a token that is held and can be signed, the loop goes on without it. -/
lemma sendLoop_cons {sent : Token} (hheld : w.utr.find? token.tokenId = some held)
    (hsent : held.appendTransfer c (stamp start) senderSk receiverPk = .ok sent) :
    sendLoop c stamp senderSk receiverPk start w (token :: rest) =
      let later := sendLoop c stamp senderSk receiverPk (start + 1)
        { w with utr := w.utr.pop token.tokenId, str := w.str.put sent } rest
      (later.1, later.2.map fun payloads => sent.toJson :: payloads) := by
  simp only [sendLoop, hheld, hsent]
  split <;> rename_i hlater <;> rw [hlater] <;> rfl

/-- The loop returns exactly if no token is named twice and all can be sent. -/
lemma exists_sendLoop_ok_iff :
    (∃ payloads, (sendLoop c stamp senderSk receiverPk start w tokens).2 = .ok payloads) ↔
      (tokens.map Token.tokenId).Nodup ∧ w.Sendable c stamp senderSk receiverPk start tokens := by
  induction tokens generalizing start w with
  | nil =>
    exact iff_of_true ⟨[], rfl⟩ ⟨List.nodup_nil, fun i token h => by simp at h⟩
  | cons token rest ih =>
    rw [List.map_cons, List.nodup_cons, and_right_comm, sendable_cons_iff]
    cases hheld : w.utr.find? token.tokenId with
    | none => simp [sendLoop, hheld]
    | some held =>
      cases hsent : held.appendTransfer c (stamp start) senderSk receiverPk with
      | error e => simp [sendLoop, hheld, hsent]
      | ok sent =>
        have hlater := @ih { w with utr := w.utr.pop token.tokenId, str := w.str.put sent } (start + 1)
        rw [sendLoop_cons hheld hsent]
        simp only [Option.some.injEq, Except.ok.injEq, ↓existsAndEq, hsent, true_and]
        rw [and_comm, ← hlater]
        cases (sendLoop c stamp senderSk receiverPk (start + 1)
          { w with utr := w.utr.pop token.tokenId, str := w.str.put sent } rest).2 with
        | error e => simp [Except.map]
        | ok payloads => simp [Except.map]

/-- A token that is held when the loop starts with it is no longer in the UTR at the end. -/
lemma notMem_keys_sendLoop (hheld : w.utr.find? token.tokenId = some held) :
    token.tokenId ∉ (sendLoop c stamp senderSk receiverPk start w (token :: rest)).1.utr.keys := by
  have hpopped : token.tokenId ∉ (w.utr.pop token.tokenId).keys := fun hmem =>
    (KeyedList.mem_keys_pop.mp hmem).2 rfl
  cases hsent : held.appendTransfer c (stamp start) senderSk receiverPk with
  | error e => simpa only [sendLoop, hheld, hsent] using hpopped
  | ok sent =>
    rw [sendLoop_cons hheld hsent]
    intro hmem
    obtain ⟨t, ht, hid⟩ := KeyedList.mem_keys.mp hmem
    have hlater := (spends_sendLoop c stamp senderSk receiverPk (start + 1)
      { w with utr := w.utr.pop token.tokenId, str := w.str.put sent } rest).mem_utr t ht
    exact hpopped (KeyedList.mem_keys.mpr ⟨t, hlater, hid⟩)

end

/-- If it raises, `send_tokens` leaves both registers as they were: this holds exactly if there is no
key, if the first token is not held, or if all tokens can be sent. -/
theorem sendTokens_atomic_iff (c : Crypto) (stamp : Nat → Stamp) (w : Wallet) (receiverPk : String)
    (tokens : List Token) :
    (∀ e, (w.sendTokens c stamp receiverPk tokens).2 = .error e →
        (w.sendTokens c stamp receiverPk tokens).1.utr = w.utr ∧
        (w.sendTokens c stamp receiverPk tokens).1.str = w.str) ↔
      (∃ e, w.keystore w.ownerPk = .error e) ∨
      (∃ token, tokens.head? = some token ∧ token.tokenId ∉ w.utr.keys) ∨
      w.CanSend c stamp receiverPk tokens := by
  rw [sendTokens, CanSend]
  cases hkey : w.keystore w.ownerPk with
  | error e => exact iff_of_true (fun _ _ => ⟨rfl, rfl⟩) (.inl ⟨e, rfl⟩)
  | ok senderSk =>
    simp only [reduceCtorEq, exists_false, false_or, Except.ok.injEq, exists_eq_left']
    rw [← exists_sendLoop_ok_iff]
    cases tokens with
    | nil => exact iff_of_true (fun _ _ => ⟨rfl, rfl⟩) (.inr ⟨[], rfl⟩)
    | cons token rest =>
      simp only [List.head?_cons, Option.some.injEq, exists_eq_left']
      cases hheld : w.utr.find? token.tokenId with
      | none =>
        refine iff_of_true ?_ (.inl (KeyedList.find?_eq_none_iff.mp hheld))
        simp [sendLoop, hheld]
      | some held =>
        have hmem := KeyedList.mem_keys_iff_find?.mpr ⟨held, hheld⟩
        have hgone : (sendLoop c stamp senderSk receiverPk 0 w (token :: rest)).1.utr ≠ w.utr :=
          fun hsame => notMem_keys_sendLoop hheld (hsame ▸ hmem)
        rw [or_iff_right (not_not_intro hmem)]
        cases (sendLoop c stamp senderSk receiverPk 0 w (token :: rest)).2 with
        | error e => exact iff_of_false (fun hsame => hgone (hsame e rfl).1) (by simp)
        | ok payloads => exact iff_of_true (by simp) ⟨payloads, rfl⟩

/-- The first of two tokens is held and the second is not. -/
theorem sendTokens_not_atomic :
    let w := plainWallet "alice" [("a", 5)]
    let sent := w.sendTokens plainCrypto (plainStamp "alice") "bob"
      [plainToken "a" 5 "alice", plainToken "b" 1 "alice"]
    (∃ e, sent.2 = .error e) ∧ sent.1.utr ≠ w.utr ∧ sent.1.str ≠ w.str := by
  refine ⟨⟨_, rfl⟩, ?_, ?_⟩
  · decide
  · decide

end Wallet

end PocketCash.Canonical
