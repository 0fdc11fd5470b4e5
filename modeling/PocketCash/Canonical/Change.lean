import Mathlib.Data.List.Sublists
import PocketCash.Library.SublistOrder
import PocketCash.Canonical.History

/-!
# Change from the receiver's own purse

The receiver of a payment selects its change from all it holds, which by then includes the tokens
just received, and the sender refuses any of these. The search takes the smallest exact subset, and
among equally small ones the first in ascending order of value. So a session for which the receiver
has the exact change returns exactly if such a subset of its own tokens is preferred to every one
that uses a received token.
-/

namespace PocketCash.Canonical

/-! ### What the search prefers -/

/-- A subset of the tokens with the exact value. -/
structure IsExact (tokens : List Token) (amount : Int) (chosen : List Token) : Prop where
  sublist : chosen.Sublist tokens
  total : totalValue chosen = amount

lemma IsExact.missing_nonneg {tokens chosen : List Token} {missing : Int}
    (htokens : Nonnegative tokens) (h : IsExact tokens missing chosen) : 0 ≤ missing := by
  rw [← h.total]
  exact (htokens.sublist h.sublist).totalValue_nonneg

lemma IsExact.eq_zero_of_nil {chosen : List Token} {missing : Int} (h : IsExact [] missing chosen) :
    missing = 0 := by
  rw [← h.total, List.sublist_nil.mp h.sublist, totalValue_nil]

/-- A solution does without the first token, or takes it and solves for what is still missing. -/
lemma IsExact.of_cons {token : Token} {rest chosen : List Token} {missing : Int}
    (h : IsExact (token :: rest) missing chosen) :
    IsExact rest missing chosen ∨
      ∃ chosen', chosen = token :: chosen' ∧ IsExact rest (missing - token.value) chosen' := by
  obtain ⟨hsub, htotal⟩ := h
  rcases List.sublist_cons_iff.mp hsub with hskipped | ⟨chosen', rfl, htaken⟩
  · exact .inl ⟨hskipped, htotal⟩
  · rw [totalValue_cons] at htotal
    exact .inr ⟨chosen', rfl, htaken, by omega⟩

/-- The result of a search for a subset of `rest` with the value `missing`: what it was given, if no
solution makes it shorter, or the preferred solution behind `selected`. -/
def Finds (rest : List Token) (missing : Int) (selected : List Token)
    (best result : Option (List Token)) : Prop :=
  (result = best ∧ ∀ chosen, IsExact rest missing chosen →
    ∃ b, best = some b ∧ b.length ≤ selected.length + chosen.length) ∨
  ∃ chosen, IsExact rest missing chosen ∧ result = some (selected ++ chosen) ∧
    (∀ b, best = some b → selected.length + chosen.length < b.length) ∧
    ∀ other, IsExact rest missing other → other ≠ chosen → Prefers rest chosen other

namespace Finds

variable {rest selected : List Token} {missing : Int} {best : Option (List Token)} {token : Token}

lemma of_no_solution (h : ∀ chosen, ¬ IsExact rest missing chosen) :
    Finds rest missing selected best best :=
  .inl ⟨rfl, fun chosen hchosen => absurd hchosen (h chosen)⟩

/-- Nothing is missing. -/
lemma of_complete : Finds rest 0 selected best
    (if best.all fun b => selected.length < b.length then some selected else best) := by
  by_cases hshorter : best.all fun b => selected.length < b.length
  · rw [if_pos hshorter]
    refine .inr ⟨[], ⟨List.nil_sublist _, rfl⟩, by simp, ?_, ?_⟩
    · rintro b rfl
      simpa using hshorter
    · exact fun other _ hne => .inl (List.length_pos_of_ne_nil hne)
  · rw [if_neg hshorter]
    refine .inl ⟨rfl, fun chosen _ => ?_⟩
    cases best with
    | none => exact absurd rfl hshorter
    | some b =>
      have hlong : b.length ≤ selected.length := by simpa using hshorter
      exact ⟨b, rfl, by omega⟩

/-- What was given is not longer than what is selected already. -/
lemma of_long (h : best.any fun b => selected.length ≥ b.length) :
    Finds rest missing selected best best := by
  refine .inl ⟨rfl, fun chosen _ => ?_⟩
  cases best with
  | none => cases h
  | some b =>
    have hlong : b.length ≤ selected.length := by simpa using h
    exact ⟨b, rfl, by omega⟩

/-- No solution behind `selected` is shorter than what was found. -/
lemma length_le {found : Option (List Token)} (h : Finds rest missing selected best found)
    {chosen : List Token} (hchosen : IsExact rest missing chosen) :
    ∃ b, found = some b ∧ b.length ≤ selected.length + chosen.length := by
  rcases h with ⟨rfl, hnone⟩ | ⟨first, -, rfl, -, hpreferred⟩
  · exact hnone chosen hchosen
  · refine ⟨_, rfl, ?_⟩
    rw [List.length_append]
    by_cases heq : chosen = first
    · rw [heq]
    · exact Nat.add_le_add_left (hpreferred chosen hchosen heq).length_le _

/-- The branch with `token`, and then the branch without it. -/
lemma of_branches {found result : Option (List Token)}
    (htake : Finds rest (missing - token.value) (selected ++ [token]) best found)
    (hskip : Finds rest missing selected found result) :
    Finds (token :: rest) missing selected best result := by
  have hlength : (selected ++ [token]).length = selected.length + 1 := by simp
  -- no subset with `token` beats what the first branch found
  have htaken : ∀ chosen, IsExact rest (missing - token.value) chosen →
      ∃ b, found = some b ∧ b.length ≤ selected.length + 1 + chosen.length := by
    intro chosen hchosen
    rw [← hlength]
    exact htake.length_le hchosen
  rcases hskip with ⟨rfl, hnone⟩ | ⟨chosen, hchosen, rfl, hshorter, hpreferred⟩
  · rcases htake with ⟨rfl, -⟩ | ⟨chosen, hchosen, rfl, hshorter, hpreferred⟩
    · refine .inl ⟨rfl, fun chosen hchosen => ?_⟩
      rcases hchosen.of_cons with hskipped | ⟨chosen', rfl, hwith⟩
      · exact hnone chosen hskipped
      · obtain ⟨b, hb, hle⟩ := htaken chosen' hwith
        exact ⟨b, hb, by rw [List.length_cons]; omega⟩
    · have htotal : totalValue (token :: chosen) = missing := by
        rw [totalValue_cons, hchosen.total]
        omega
      refine .inr ⟨token :: chosen, ⟨hchosen.sublist.cons_cons token, htotal⟩, by simp, ?_, ?_⟩
      · intro b hb
        have hlt := hshorter b hb
        rw [List.length_cons]
        omega
      · intro other hother hne
        rcases hother.of_cons with hskipped | ⟨other', rfl, hwith⟩
        · obtain ⟨b, hb, hle⟩ := hnone other hskipped
          cases hb
          rw [List.length_append, hlength] at hle
          exact .takes hchosen.sublist hskipped.sublist (by omega)
        · exact (hpreferred other' hwith fun heq => hne (heq ▸ rfl)).both
  · refine .inr ⟨chosen, ⟨hchosen.sublist.cons token, hchosen.total⟩, rfl, ?_, ?_⟩
    · intro b hb
      rcases htake with ⟨rfl, -⟩ | ⟨first, -, rfl, hlonger, -⟩
      · exact hshorter b hb
      · have hlt := hshorter _ rfl
        have hlt' := hlonger b hb
        rw [List.length_append] at hlt
        omega
    · intro other hother hne
      rcases hother.of_cons with hskipped | ⟨other', rfl, hwith⟩
      · exact (hpreferred other hskipped hne).neither
      · obtain ⟨b, hb, hle⟩ := htaken other' hwith
        have hlt := hshorter b hb
        exact .inl (by rw [List.length_cons]; omega)

end Finds

/-- The specification of the search. -/
lemma finds_search {amount : Int} {rest : List Token} (hrest : Nonnegative rest)
    (selected : List Token) (total : Int) (best : Option (List Token)) :
    Finds rest (amount - total) selected best (search amount rest selected total best) := by
  induction rest generalizing selected total best with
  | nil =>
    rw [search_nil]
    by_cases htotal : total = amount
    · rw [if_pos htotal, htotal, sub_self]
      exact .of_complete
    · rw [if_neg htotal, ite_self]
      refine .of_no_solution fun chosen hchosen => htotal ?_
      have hmissing := hchosen.eq_zero_of_nil
      omega
  | cons token rest ih =>
    have hrest' : Nonnegative rest := hrest.sublist (List.sublist_cons_self token rest)
    rw [search_cons]
    by_cases htotal : total = amount
    · rw [if_pos htotal, htotal, sub_self]
      exact .of_complete
    · rw [if_neg htotal]
      split_ifs with hover hlong
      · refine .of_no_solution fun chosen hchosen => ?_
        have hmissing := hchosen.missing_nonneg hrest
        omega
      · exact .of_long hlong
      · have htake := ih hrest' (selected ++ [token]) (total + token.value) best
        rw [← sub_sub] at htake
        exact .of_branches htake (ih hrest' selected total _)

/-- `_find_exact_token_subset` finds a subset that it prefers to every other. -/
theorem findExactTokenSubset_prefers {tokens chosen : List Token} {amount : Int}
    (htokens : Nonnegative tokens) (h : findExactTokenSubset tokens amount = some chosen) :
    IsExact tokens amount chosen ∧
      ∀ other, IsExact tokens amount other → other ≠ chosen → Prefers tokens chosen other := by
  have hfinds : Finds tokens (amount - 0) [] none (findExactTokenSubset tokens amount) :=
    finds_search htokens [] 0 none
  rw [sub_zero, h] at hfinds
  rcases hfinds with ⟨hnone, -⟩ | ⟨chosen', hexact, heq, -, hpreferred⟩
  · cases hnone
  · obtain rfl : chosen = chosen' := by simpa using heq
    exact ⟨hexact, hpreferred⟩

/-! ### Copies -/

section copies

variable {f : Token → Token}

/-- The search looks at values only. -/
lemma search_map {amount : Int} {rest : List Token} (hf : ∀ t ∈ rest, (f t).value = t.value)
    (selected : List Token) (total : Int) (best : Option (List Token)) :
    search amount (rest.map f) (selected.map f) total (best.map (List.map f))
      = (search amount rest selected total best).map (List.map f) := by
  have hall : ∀ (selected : List Token) (best : Option (List Token)),
      ((best.map (List.map f)).all fun b => (selected.map f).length < b.length)
        = best.all fun b => selected.length < b.length := by
    intro selected best
    cases best <;> simp
  have hany : ∀ (selected : List Token) (best : Option (List Token)),
      ((best.map (List.map f)).any fun b => (selected.map f).length ≥ b.length)
        = best.any fun b => selected.length ≥ b.length := by
    intro selected best
    cases best <;> simp
  induction rest generalizing selected total best with
  | nil =>
    rw [List.map_nil, search_nil, search_nil, hall]
    split_ifs <;> rfl
  | cons token rest ih =>
    have hrest : ∀ t ∈ rest, (f t).value = t.value := fun t ht => hf t (List.mem_cons_of_mem _ ht)
    have htake := ih hrest (selected ++ [token]) (total + token.value) best
    rw [List.map_append, List.map_singleton] at htake
    rw [List.map_cons, search_cons, search_cons, hall, hany, hf token List.mem_cons_self, htake,
      ih hrest]
    split_ifs <;> rfl

lemma ascending_map {tokens : List Token} (hf : ∀ t ∈ tokens, (f t).value = t.value) :
    ascending (tokens.map f) = (ascending tokens).map f := by
  apply Eq.symm
  apply List.map_insertionSort (r := fun s t : Token => s.value ≤ t.value)
    (s := fun s t : Token => s.value ≤ t.value)
  intro s hs t ht
  rw [hf s hs, hf t ht]

lemma findExactTokenSubset_map {tokens : List Token} (hf : ∀ t ∈ tokens, (f t).value = t.value)
    (amount : Int) : findExactTokenSubset (ascending (tokens.map f)) amount
      = (findExactTokenSubset (ascending tokens) amount).map (List.map f) := by
  rw [ascending_map hf]
  exact search_map (fun t ht => hf t ((ascending_perm tokens).mem_iff.mp ht)) [] 0 none

end copies

/-! ### Selections that return -/

lemma findExactTokenSubset_zero (tokens : List Token) : findExactTokenSubset tokens 0 = some [] := by
  cases tokens <;> rfl

/-- A wallet selects the exact subset that the search finds. -/
lemma Wallet.selectTokens_of_find {w : Wallet} {amount : Int} {chosen : List Token}
    (hamount : 0 ≤ amount) (h : findExactTokenSubset (ascending w.utr.items) amount = some chosen) :
    w.selectTokens amount = .ok chosen := by
  rw [selectTokens, if_neg (Int.not_lt.mpr hamount)]
  split_ifs with hzero
  · rw [hzero, findExactTokenSubset_zero] at h
    cases h
    rfl
  · dsimp only
    rw [h]

/-! ### Sends that return -/

namespace Wallet

variable {c : Crypto} {w w' : Wallet} {receiverPk : String} {tokens : List Token}

/-- The wallet can sign for its owner. -/
def HasKey (c : Crypto) (w : Wallet) : Prop :=
  ∃ senderSk, w.keystore w.ownerPk = .ok senderSk ∧ c.KeyPair senderSk w.ownerPk

lemma exists_sendLoop {senderSk : String} (hkey : c.KeyPair senderSk w.ownerPk) (howned : w.Owned)
    (hmem : ∀ t ∈ tokens, t.tokenId ∈ w.utr.keys) (hnodup : (tokens.map Token.tokenId).Nodup)
    (stamp : Nat → Stamp) (receiverPk : String) (i : Nat) :
    ∃ w' payloads, sendLoop c stamp senderSk receiverPk i w tokens = (w', .ok payloads) := by
  induction tokens generalizing w i with
  | nil => exact ⟨w, [], rfl⟩
  | cons token rest ih =>
    obtain ⟨hfirst, hrest⟩ := List.forall_mem_cons.mp hmem
    rw [List.map_cons, List.nodup_cons] at hnodup
    obtain ⟨localToken, hfind⟩ := KeyedList.mem_keys_iff_find?.mp hfirst
    have hlocal := (KeyedList.find?_eq_some_iff.mp hfind).1
    obtain ⟨sent, happend⟩ := Token.exists_appendTransfer (howned _ hlocal ▸ hkey) (stamp i) receiverPk
    -- the tokens behind it have other ids, so they are still there
    have hleft : ∀ t ∈ rest, t.tokenId ∈ (w.utr.pop token.tokenId).keys := by
      intro t ht
      refine KeyedList.mem_keys_pop.mpr ⟨hrest t ht, fun heq => hnodup.1 ?_⟩
      exact heq ▸ List.mem_map_of_mem ht
    obtain ⟨w', payloads, hloop⟩ :=
      ih (w := { w with utr := w.utr.pop token.tokenId, str := w.str.put sent }) hkey
        (fun t ht => howned t (KeyedList.mem_pop.mp ht).1) hleft hnodup.2 (i + 1)
    refine ⟨w', sent.toJson :: payloads, ?_⟩
    rw [sendLoop, hfind]
    dsimp only
    rw [happend]
    dsimp only
    rw [hloop]

/-- A wallet with its key sends any of its tokens. -/
lemma exists_sendTokens (hkey : w.HasKey c) (howned : w.Owned)
    (htokens : tokens.Subperm w.utr.items) (stamp : Nat → Stamp) (receiverPk : String) :
    ∃ w' payloads, w.sendTokens c stamp receiverPk tokens = (w', .ok payloads) := by
  obtain ⟨senderSk, hsk, hsigns⟩ := hkey
  have hnodup : (tokens.map Token.tokenId).Nodup := by
    obtain ⟨chosen, hperm, hchosen⟩ := htokens
    exact (hperm.map Token.tokenId).nodup_iff.mp (w.utr.nodup.sublist (hchosen.map _))
  obtain ⟨w', payloads, hloop⟩ := exists_sendLoop hsigns howned
    (fun t ht => KeyedList.key_mem_keys (htokens.subset ht)) hnodup stamp receiverPk 0
  refine ⟨w', payloads, ?_⟩
  rw [sendTokens, hsk]
  exact hloop

/-- A wallet takes a list of tokens exactly if it accepts each of them. -/
lemma receiveAll_eq_ok_iff {refusal : String} :
    (∃ w', w.receiveAll c refusal (tokens.map Token.toJson) = (w', .ok ())) ↔
      ∀ t ∈ tokens, w.Accepts c t := by
  constructor
  · rintro ⟨w', h⟩
    exact (receiveAll_eq_ok h).2
  · intro h
    induction tokens generalizing w with
    | nil => exact ⟨w, rfl⟩
    | cons t rest ih =>
      obtain ⟨hfirst, hrest⟩ := List.forall_mem_cons.mp h
      obtain ⟨w', hw'⟩ := ih (w := { w with utr := w.utr.put t })
        fun s hs => ⟨(hrest s hs).owner, (hrest s hs).chain, (hrest s hs).notSpent⟩
      refine ⟨w', ?_⟩
      rw [List.map_cons, receiveAll]
      rcases receiveToken_toJson c w t with ⟨-, hreceive⟩ | ⟨hrefused, -⟩
      · rw [hreceive]
        exact hw'
      · exact absurd hfirst hrefused

/-- A wallet of the receiver takes a sent token unless it has spent it. -/
lemma accepts_of_sendTokens {stamp : Nat → Stamp} {payloads : List JsonText}
    {moved : List (Token × Token)} (hkey : w.HasKey c) (howned : w.Owned) (hsound : w.Sound c)
    (h : w.sendTokens c stamp receiverPk tokens = (w', .ok payloads))
    (hpayloads : payloads = (moved.map Prod.snd).map Token.toJson) {receiver : Wallet}
    (hreceiver : receiver.ownerPk = receiverPk) :
    ∀ q ∈ moved, receiver.Accepts c q.2 ↔ q.2.tokenId ∉ receiver.str.keys := by
  intro q hq
  obtain ⟨senderSk, hsk, hsigns⟩ := hkey
  rw [sendTokens, hsk] at h
  have hpayload : q.2.toJson ∈ payloads := by
    rw [hpayloads]
    exact List.mem_map_of_mem (List.mem_map_of_mem hq)
  obtain ⟨t, hjson, howner, hchain⟩ := valid_of_sendLoop hsigns.signsFor howned hsound h _ hpayload
  obtain rfl := toJson_injective hjson
  exact ⟨fun haccepts => haccepts.notSpent,
    fun hnotSpent => ⟨howner.trans hreceiver.symm, hchain, hnotSpent⟩⟩

end Wallet

/-! ### The session -/

namespace PaymentSession

variable {c : Crypto} {payStamp changeStamp : Nat → Stamp} {p : PaymentSession}

/-- The session returns, and the change consists of tokens that the receiver held before. -/
def ReturnsOwnChange (c : Crypto) (payStamp changeStamp : Nat → Stamp) (p : PaymentSession) : Prop :=
  ∃ p' payloads, p.execute c payStamp changeStamp = (p', .ok payloads) ∧
    ∀ payload ∈ payloads.2, ∃ t ∈ p.receiverWallet.utr.items, ∃ t',
      payload = t'.toJson ∧ t.Extends t' p.senderWallet.ownerPk

/-- What the receiver and the sender's selection hold together, in ascending order of value, own
tokens first among equals. -/
def pool (p : PaymentSession) (paid : List Token) : List Token :=
  ascending (p.receiverWallet.utr.items ++ paid)

/-- Some of the receiver's own tokens make the exact change, and are preferred to all tokens of the
pool that make it with one of the sender's. -/
def PrefersOwn (p : PaymentSession) (paid : List Token) : Prop :=
  ∃ chosen, IsExact (p.pool paid) (totalValue paid - p.price) chosen ∧
    chosen ⊆ p.receiverWallet.utr.items ∧
    ∀ other, IsExact (p.pool paid) (totalValue paid - p.price) other →
      ¬ other ⊆ p.receiverWallet.utr.items → Prefers (p.pool paid) chosen other

/-- The search finds own tokens exactly if they are preferred. -/
lemma prefersOwn_iff {paid chosen : List Token} (hpool : Nonnegative (p.pool paid))
    (hnodup : (p.pool paid).Nodup)
    (h : findExactTokenSubset (p.pool paid) (totalValue paid - p.price) = some chosen) :
    p.PrefersOwn paid ↔ chosen ⊆ p.receiverWallet.utr.items := by
  obtain ⟨hexact, hpreferred⟩ := findExactTokenSubset_prefers hpool h
  constructor
  · rintro ⟨own, hown, hsubset, hbeats⟩
    by_contra hpaid
    have hne : own ≠ chosen := fun heq => hpaid (heq ▸ hsubset)
    exact (hbeats chosen hexact hpaid).asymm hnodup (hpreferred own hown hne)
  · intro hsubset
    refine ⟨chosen, hexact, hsubset, fun other hother hpaid => hpreferred other hother ?_⟩
    rintro rfl
    exact hpaid hsubset

/-- The part of an `attempt` after the receiver has taken the payment. -/
lemma attempt_returns_iff (changeStamp : Nat → Stamp) {sender receiver : Wallet}
    {moved : List (Token × Token)} {change : List Token}
    (hpay : p.senderWallet.initiatePayment c payStamp p.price p.receiverWallet.ownerPk
      = (sender, .ok ((moved.map Prod.snd).map Token.toJson)))
    (hreceive : p.receiverWallet.receiveAll c "receiver rejected payment token"
      ((moved.map Prod.snd).map Token.toJson) = (receiver, .ok ()))
    (hcovers : p.price ≤ totalValue (moved.map Prod.snd))
    (hselect : receiver.selectTokens (totalValue (moved.map Prod.snd) - p.price) = .ok change)
    (hkey : receiver.HasKey c) (howned : receiver.Owned) (hsound : receiver.Sound c) :
    ((∃ p' payloads, p.attempt c payStamp changeStamp = (p', .ok payloads)) ↔
        ∀ t ∈ change, t.tokenId ∉ sender.str.keys) ∧
      ∃ changed : List (Token × Token), changed.map Prod.fst = change ∧
        (∀ q ∈ changed, q.1.Extends q.2 sender.ownerPk) ∧
        ∀ p' payloads, p.attempt c payStamp changeStamp = (p', .ok payloads) →
          payloads.2 = (changed.map Prod.snd).map Token.toJson := by
  have hprocess : receiver.processPayment
      ((moved.map Prod.snd).map fun t => { t with transferChain := [] }) p.price = .ok change := by
    rw [Wallet.processPayment, totalValue_map_chainless, if_neg (Int.not_lt.mpr hcovers)]
    exact hselect
  obtain ⟨receiver', changePayloads, hsend⟩ := Wallet.exists_sendTokens hkey howned
    (Wallet.selectTokens_cases hselect).1 changeStamp sender.ownerPk
  obtain ⟨changed, hsends, hchangePayloads, hchanged⟩ := Wallet.sends_of_selectTokens hselect hsend
  have haccepts : ∀ q ∈ changed, sender.Accepts c q.2 ↔ q.2.tokenId ∉ sender.str.keys :=
    Wallet.accepts_of_sendTokens hkey howned hsound hsend hchangePayloads rfl
  have hback : (∃ w', sender.receiveAll c "sender rejected change token" changePayloads
      = (w', .ok ())) ↔ ∀ t ∈ change, t.tokenId ∉ sender.str.keys := by
    rw [hchangePayloads, Wallet.receiveAll_eq_ok_iff, ← hchanged, List.forall_mem_map,
      List.forall_mem_map]
    apply forall₂_congr
    intro q hq
    rw [haccepts q hq, (hsends.moved_extends q hq).tokenId_eq]
  rw [← hback]
  rcases hresult : sender.receiveAll c "sender rejected change token" changePayloads with
    ⟨sender', e | u⟩
  · have hraises : p.attempt c payStamp changeStamp = (⟨sender', receiver', p.price⟩, .error e) := by
      simp only [attempt, hpay, hreceive, mapM_tokenFromJson_toJson, hprocess, hsend, hresult]
    rw [hraises]
    refine ⟨⟨?_, ?_⟩, changed, hchanged, hsends.moved_extends, ?_⟩
    · rintro ⟨p', payloads, h⟩
      cases h
    · rintro ⟨w', h⟩
      cases h
    · intro p' payloads h
      cases h
  · have hruns : p.attempt c payStamp changeStamp = (⟨sender', receiver', p.price⟩,
        .ok ((moved.map Prod.snd).map Token.toJson, changePayloads)) := by
      simp only [attempt, hpay, hreceive, mapM_tokenFromJson_toJson, hprocess, hsend, hresult]
    rw [hruns]
    refine ⟨⟨fun _ => ⟨sender', rfl⟩, fun _ => ⟨_, _, rfl⟩⟩, changed, hchanged,
      hsends.moved_extends, ?_⟩
    intro p' payloads h
    cases h
    exact hchangePayloads

end PaymentSession

namespace Wallet

/-- The wallet's last version of a token it has spent, and any other token as it is. -/
def recorded (w : Wallet) (t : Token) : Token := (w.str.find? t.tokenId).getD t

lemma recorded_tokenId (w : Wallet) (t : Token) : (w.recorded t).tokenId = t.tokenId := by
  rw [recorded]
  cases hfind : w.str.find? t.tokenId with
  | none => rfl
  | some last => exact (KeyedList.find?_eq_some_iff.mp hfind).2

lemma recorded_of_notMem {w : Wallet} {t : Token} (ht : t.tokenId ∉ w.str.keys) :
    w.recorded t = t := by
  rw [recorded, KeyedList.find?_eq_none_iff.mpr ht, Option.getD_none]

namespace Sends

variable {w w' : Wallet} {receiverPk : String} {moved : List (Token × Token)}

/-- A wallet that had spent nothing has spent just the tokens of the send. -/
lemma mem_str_keys_iff (h : w.Sends w' receiverPk moved) (hstr : w.str = .empty) {k : String} :
    k ∈ w'.str.keys ↔ k ∈ (moved.map Prod.fst).map Token.tokenId := by
  rw [← h.map_tokenId, List.map_map]
  by_cases hk : k ∈ moved.map fun q => q.2.tokenId
  · refine iff_of_true ?_ hk
    obtain ⟨q, hq, rfl⟩ := List.mem_map.mp hk
    exact KeyedList.mem_keys_iff_find?.mpr ⟨q.2, h.find?_str q hq⟩
  · refine iff_of_false ?_ hk
    rw [← KeyedList.find?_eq_none_iff, h.find?_str_of_notMem k hk, hstr]
    rfl

lemma recorded_fst (h : w.Sends w' receiverPk moved) {q : Token × Token} (hq : q ∈ moved) :
    w'.recorded q.1 = q.2 := by
  rw [recorded, ← (h.moved_extends q hq).tokenId_eq, h.find?_str q hq, Option.getD_some]

/-- What the receiver holds after a send is what both sides held before it, with the sent tokens in
their new version. -/
lemma map_recorded (h : w.Sends w' receiverPk moved) {own : List Token}
    (hown : ∀ t ∈ own, t.tokenId ∉ w'.str.keys) :
    (own ++ moved.map Prod.fst).map w'.recorded = own ++ moved.map Prod.snd := by
  have hkept : own.map w'.recorded = own :=
    (List.map_congr_left fun t ht => recorded_of_notMem (hown t ht)).trans (List.map_id own)
  rw [List.map_append, hkept, List.map_map]
  exact congrArg (own ++ ·) (List.map_congr_left fun q hq => h.recorded_fst hq)

end Sends

end Wallet

namespace PaymentSession

variable {c : Crypto} {payStamp changeStamp : Nat → Stamp} {p : PaymentSession}

lemma execute_eq_ok_iff {p' : PaymentSession} {payloads : List JsonText × List JsonText} :
    p.execute c payStamp changeStamp = (p', .ok payloads) ↔
      p.attempt c payStamp changeStamp = (p', .ok payloads) := by
  rw [execute]
  rcases p.attempt c payStamp changeStamp with ⟨p₁, e | payloads₁⟩
  · constructor <;> intro h <;> cases h
  · rfl

namespace Ready

/-- What a party brings to the session. -/
lemma party (h : p.Ready c) {w : Wallet} (hw : w ∈ [p.senderWallet, p.receiverWallet]) :
    w.HasKey c ∧ w.Owned ∧ w.Sound c :=
  ⟨h.keys w hw, fun t ht => (h.owned w hw t ht).1, fun t ht => (h.owned w hw t ht).2.1⟩

/-- The tokens of the pool are different and none has a negative value. -/
lemma pool (h : p.Ready c) {paid : List Token} (hpaid : paid.Subperm p.senderWallet.utr.items) :
    (p.pool paid).Nodup ∧ Nonnegative (p.pool paid) := by
  have hperm := ascending_perm (p.receiverWallet.utr.items ++ paid)
  obtain ⟨hsender, hreceiver⟩ := h.nonnegative
  constructor
  · obtain ⟨paid', hpaidPerm, hsub⟩ := hpaid
    refine hperm.nodup_iff.mpr (List.nodup_append'.mpr ⟨KeyedList.items_nodup _, ?_, ?_⟩)
    · exact hpaidPerm.nodup_iff.mp ((KeyedList.items_nodup _).sublist hsub)
    · intro t hown ht
      have hsent := hsub.subset (hpaidPerm.mem_iff.mpr ht)
      exact h.disjoint (KeyedList.key_mem_keys hsent) (KeyedList.key_mem_keys hown)
  · intro t ht
    rcases List.mem_append.mp (hperm.mem_iff.mp ht) with hown | hsent
    · exact hreceiver t hown
    · exact hsender t (hpaid.subset hsent)

/-- The payment of a session: the sender sends what it has selected, and the receiver, that has
spent nothing, takes it. -/
lemma exists_payment (h : p.Ready c) (hsenderStr : p.senderWallet.str = .empty)
    (hreceiverStr : p.receiverWallet.str = .empty) {paid : List Token}
    (hselect : p.senderWallet.selectTokens p.price = .ok paid) (payStamp : Nat → Stamp) :
    ∃ sender receiver moved, moved.map Prod.fst = paid ∧
      p.senderWallet.initiatePayment c payStamp p.price p.receiverWallet.ownerPk
        = (sender, .ok ((moved.map Prod.snd).map Token.toJson)) ∧
      p.senderWallet.Sends sender p.receiverWallet.ownerPk moved ∧
      p.receiverWallet.receiveAll c "receiver rejected payment token"
        ((moved.map Prod.snd).map Token.toJson) = (receiver, .ok ()) ∧
      (receiver.HasKey c ∧ receiver.Owned ∧ receiver.Sound c) ∧
      (∀ t ∈ p.receiverWallet.utr.items, t.tokenId ∉ sender.str.keys) ∧
      receiver.utr.items
        = (p.receiverWallet.utr.items ++ moved.map Prod.fst).map sender.recorded := by
  obtain ⟨hkey, howned, hsound⟩ := h.party (w := p.senderWallet) (by simp)
  obtain ⟨hrkey, hrowned, hrsound⟩ := h.party (w := p.receiverWallet) (by simp)
  obtain ⟨hsubperm, -⟩ := Wallet.selectTokens_cases hselect
  obtain ⟨sender, payloads, hsend⟩ :=
    Wallet.exists_sendTokens hkey howned hsubperm payStamp p.receiverWallet.ownerPk
  obtain ⟨moved, hsends, hpayloads, rfl⟩ := Wallet.sends_of_selectTokens hselect hsend
  have hpay : p.senderWallet.initiatePayment c payStamp p.price p.receiverWallet.ownerPk
      = (sender, .ok ((moved.map Prod.snd).map Token.toJson)) := by
    rw [Wallet.initiatePayment, hselect, ← hpayloads]
    exact hsend
  have haccepts : ∀ q ∈ moved, p.receiverWallet.Accepts c q.2 := by
    intro q hq
    rw [Wallet.accepts_of_sendTokens hkey howned hsound hsend hpayloads rfl q hq, hreceiverStr]
    exact List.not_mem_nil
  obtain ⟨receiver, hreceive⟩ : ∃ receiver,
      p.receiverWallet.receiveAll c "receiver rejected payment token"
        ((moved.map Prod.snd).map Token.toJson) = (receiver, .ok ()) :=
    Wallet.receiveAll_eq_ok_iff.mpr (List.forall_mem_map.mpr haccepts)
  have hkept := ((Wallet.Owned.closed c).and (Wallet.Sound.closed c)).receiveAll
    ⟨hrowned, hrsound⟩ "receiver rejected payment token" ((moved.map Prod.snd).map Token.toJson)
  rw [hreceive] at hkept
  obtain ⟨hreceiver, -⟩ := Wallet.receiveAll_eq_ok hreceive
  have hrkey' : receiver.HasKey c := by
    rw [hreceiver]
    exact hrkey
  have hunspent : ∀ t ∈ p.receiverWallet.utr.items, t.tokenId ∉ sender.str.keys := by
    intro t ht hspent
    obtain ⟨s, hs, hid⟩ := List.mem_map.mp ((hsends.mem_str_keys_iff hsenderStr).mp hspent)
    refine h.disjoint (KeyedList.key_mem_keys (hsubperm.subset hs)) ?_
    rw [hid]
    exact KeyedList.key_mem_keys ht
  refine ⟨sender, receiver, moved, rfl, hpay, hsends, hreceive, ⟨hrkey', hkept⟩, hunspent, ?_⟩
  rw [hsends.map_recorded hunspent, hreceiver]
  apply hsends.items_foldl_put
  intro t ht hheld
  exact h.disjoint (KeyedList.key_mem_keys (hsubperm.subset ht)) hheld

end Ready

/-- Tokens of the pool are unknown to the sender's STR exactly if they are the receiver's own. -/
lemma unspent_iff_subset {sender : Wallet} {receiverPk : String} {moved : List (Token × Token)}
    {chosen : List Token} (hsends : p.senderWallet.Sends sender receiverPk moved)
    (hstr : p.senderWallet.str = .empty)
    (hunspent : ∀ t ∈ p.receiverWallet.utr.items, t.tokenId ∉ sender.str.keys)
    (hchosen : chosen ⊆ p.pool (moved.map Prod.fst)) :
    (∀ t ∈ chosen, t.tokenId ∉ sender.str.keys) ↔ chosen ⊆ p.receiverWallet.utr.items := by
  constructor
  · intro h t ht
    have hmem := (ascending_perm _).mem_iff.mp (hchosen ht)
    rcases List.mem_append.mp hmem with hown | hpaid
    · exact hown
    · exact absurd ((hsends.mem_str_keys_iff hstr).mpr (List.mem_map_of_mem hpaid)) (h t ht)
  · exact fun h t ht => hunspent t (h ht)

/-- For a session whose receiver has the exact change: it returns, with own tokens of the receiver
as change, exactly if the search prefers these. -/
theorem execute_returnsOwnChange_iff (hready : p.Ready c) (hsenderStr : p.senderWallet.str = .empty)
    (hreceiverStr : p.receiverWallet.str = .empty) (hprice : 0 ≤ p.price)
    (hcovers : p.price ≤ totalValue p.senderWallet.utr.items) :
    ∃ paid, p.senderWallet.selectTokens p.price = .ok paid ∧
      (HasExactSubset p.receiverWallet.utr.items (totalValue paid - p.price) →
        (p.ReturnsOwnChange c payStamp changeStamp ↔ p.PrefersOwn paid)) := by
  obtain ⟨paid, hselect⟩ := Wallet.exists_selectTokens hprice hcovers
  refine ⟨paid, hselect, fun hex => ?_⟩
  have hselects := Wallet.selects_of_selectTokens hready.nonnegative.1 hselect
  obtain ⟨hnodup, hnonneg⟩ := hready.pool hselects.subperm
  obtain ⟨sender, receiver, moved, rfl, hpay, hsends, hreceive, ⟨hkey, howned, hsound⟩, hunspent,
    hitems⟩ := hready.exists_payment hsenderStr hreceiverStr hselect payStamp
  have htotal := hsends.totalValue_eq
  -- what the search finds in the pool, and the copies of it that the receiver selects
  obtain ⟨chosen, hfind⟩ : ∃ chosen, findExactTokenSubset (p.pool (moved.map Prod.fst))
      (totalValue (moved.map Prod.fst) - p.price) = some chosen := by
    rw [← Option.ne_none_iff_exists', Ne, findExactTokenSubset_eq_none_iff hnonneg, not_not]
    obtain ⟨own, hsub, hsum⟩ := hex
    exact HasExactSubset.perm (ascending_perm _).symm
      ⟨own, hsub.trans (List.sublist_append_left _ _), hsum⟩
  have hvalue : ∀ t ∈ p.receiverWallet.utr.items ++ moved.map Prod.fst,
      (sender.recorded t).value = t.value := by
    intro t ht
    rcases List.mem_append.mp ht with hown | hpaid
    · rw [Wallet.recorded_of_notMem (hunspent t hown)]
    · obtain ⟨q, hq, rfl⟩ := List.mem_map.mp hpaid
      rw [hsends.recorded_fst hq, (hsends.moved_extends q hq).value_eq]
  have hchange : receiver.selectTokens (totalValue (moved.map Prod.snd) - p.price)
      = .ok (chosen.map sender.recorded) := by
    rw [htotal]
    apply Wallet.selectTokens_of_find
    · have hpaid := hselects.covers
      omega
    · rw [hitems, findExactTokenSubset_map hvalue]
      exact congrArg (Option.map _) hfind
  have hcovered : p.price ≤ totalValue (moved.map Prod.snd) := by
    rw [htotal]
    exact hselects.covers
  obtain ⟨hreturns, changed, hchanged, hextends, hpayloads⟩ :=
    attempt_returns_iff changeStamp hpay hreceive hcovered hchange hkey howned hsound
  have hsubset : (∃ p' payloads, p.attempt c payStamp changeStamp = (p', .ok payloads)) ↔
      chosen ⊆ p.receiverWallet.utr.items := by
    rw [hreturns, List.forall_mem_map]
    simp only [Wallet.recorded_tokenId]
    exact unspent_iff_subset hsends hsenderStr hunspent
      (findExactTokenSubset_sublist hfind).1.subset
  rw [prefersOwn_iff hnonneg hnodup hfind, ← hsubset]
  constructor
  · rintro ⟨p', payloads, hexecute, -⟩
    exact ⟨p', payloads, execute_eq_ok_iff.mp hexecute⟩
  · rintro ⟨p', payloads, hattempt⟩
    have hown := hsubset.mp ⟨p', payloads, hattempt⟩
    refine ⟨p', payloads, execute_eq_ok_iff.mpr hattempt, fun payload hpayload => ?_⟩
    rw [hpayloads p' payloads hattempt] at hpayload
    obtain ⟨t', ht', rfl⟩ := List.mem_map.mp hpayload
    obtain ⟨q, hq, rfl⟩ := List.mem_map.mp ht'
    have hmem : q.1 ∈ chosen.map sender.recorded := hchanged ▸ List.mem_map_of_mem hq
    obtain ⟨t, ht, heq⟩ := List.mem_map.mp hmem
    rw [Wallet.recorded_of_notMem (hunspent t (hown ht))] at heq
    exact ⟨q.1, heq ▸ hown ht, q.2, rfl, hsends.ownerPk_eq ▸ hextends q hq⟩

/-- Change of four from two tokens of two: no token of ten makes it. -/
theorem execute_returnsOwnChange_cash_like_change :
    let p := plainSession [("s-10", 10)] [("r-2a", 2), ("r-2b", 2), ("r-1", 1)] 6
    p.ReturnsOwnChange plainCrypto (plainStamp "pay") (plainStamp "change") := by
  intro p
  have hready : p.Ready plainCrypto := plainSession_ready (by decide) (by decide)
  obtain ⟨paid, hselect, hiff⟩ :=
    execute_returnsOwnChange_iff hready rfl rfl (by decide) (by decide)
  have hpaid : p.senderWallet.selectTokens p.price = .ok [plainToken "s-10" 10 "alice"] := by decide
  obtain rfl : paid = [plainToken "s-10" 10 "alice"] := Except.ok.inj (hselect.symm.trans hpaid)
  let change := [plainToken "r-2a" 2 "bob", plainToken "r-2b" 2 "bob"]
  have hchange : change.Sublist p.receiverWallet.utr.items := by decide
  have hexact : IsExact (p.pool [plainToken "s-10" 10 "alice"]) 4 change := ⟨by decide, rfl⟩
  refine (hiff ⟨change, hchange, rfl⟩).mpr ⟨change, hexact, hchange.subset, ?_⟩
  intro other hother hpaidUsed
  have hown : ∀ tokens ∈ (p.pool [plainToken "s-10" 10 "alice"]).sublists,
      totalValue tokens = 4 → tokens ⊆ p.receiverWallet.utr.items := by decide
  exact absurd (hown other (List.mem_sublists.mpr hother.sublist) hother.total) hpaidUsed

/-- A sender with tokens of 10 and 4 pays both for a price of 9. The receiver has the change of 5
in three tokens, but selects its token of 1 and the received token of 4, and the session raises. -/
theorem execute_selects_received_token :
    let p := plainSession [("s-10", 10), ("s-4", 4)] [("r-2a", 2), ("r-2b", 2), ("r-1", 1)] 9
    let paid := [plainToken "s-4" 4 "alice", plainToken "s-10" 10 "alice"]
    p.Ready plainCrypto ∧ p.senderWallet.str = .empty ∧ p.receiverWallet.str = .empty ∧
      0 ≤ p.price ∧ p.price ≤ totalValue p.senderWallet.utr.items ∧
      p.senderWallet.selectTokens p.price = .ok paid ∧
      HasExactSubset p.receiverWallet.utr.items (totalValue paid - p.price) ∧
      (p.execute plainCrypto (plainStamp "pay") (plainStamp "change")).2.map (fun _ => ())
        = .error (.valueError "sender rejected change token") ∧
      ¬ p.ReturnsOwnChange plainCrypto (plainStamp "pay") (plainStamp "change") := by
  intro p paid
  have hraises : (p.execute plainCrypto (plainStamp "pay") (plainStamp "change")).2.map
      (fun _ => ()) = .error (.valueError "sender rejected change token") := by decide +kernel
  refine ⟨plainSession_ready (by decide) (by decide), rfl, rfl, by decide, by decide, by decide,
    ⟨_, .refl _, by decide⟩, hraises, ?_⟩
  rintro ⟨p', payloads, hexecute, -⟩
  rw [hexecute] at hraises
  cases hraises

end PaymentSession

end PocketCash.Canonical
