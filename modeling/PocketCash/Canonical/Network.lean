import PocketCash.Library.Run
import PocketCash.Library.Custody
import PocketCash.Canonical.Reconciliation
import PocketCash.Canonical.Wallet

/-!
# A network of canonical wallets

Wallets with distinct owners exchange payloads over a medium that may delay, reorder and repeat
them, a reconciliation engine settles tokens, and wallets sync their spent registers with what has
been settled. A run is a list of these events in any order.

The custodian of a token is the wallet its newest payload was made out to, or the one it was issued
to. Only a custodian holds the token as long as no wallet accepts a superseded payload. The spent
register prevents that for a wallet that spent the token, until `sync` removes the id.
-/

namespace PocketCash.Canonical

/-- The wallets, the payloads emitted so far and the tokens added so far (each newest first), and
the engine. A payload that was delivered stays among the emitted ones: it can be delivered again. -/
structure Network where
  wallets : KeyedList Wallet.ownerPk
  emitted : List JsonText
  issued : List Token
  engine : ReconciliationEngine

namespace Network

inductive Event
  | add (owner : String) (token : Token)
  | send (owner receiverPk : String) (tokens : List Token) (stamp : Nat → Stamp)
  | deliver (owner : String) (payload : JsonText)
  | submit (source : String) (token : Token) (atTime : Int)
  | sync (owner : String) (settledTokenIds : List String)

/-- The tokens of the emitted payloads, newest first. -/
def messages (n : Network) : List Token :=
  n.emitted.filterMap fun payload => (tokenFromPayload payload).toOption

/-- All tokens handed to somebody, newest first. -/
def history (n : Network) : List Token := n.messages ++ n.issued

/-- Wallets without tokens, and nothing issued, sent or settled yet. -/
structure Start (n : Network) : Prop where
  empty : ∀ w ∈ n.wallets.items, w.utr = .empty ∧ w.str = .empty
  emitted : n.emitted = []
  issued : n.issued = []
  engine : n.engine = .new

/-- One event. A call that raises keeps what it changed before. -/
def step (c : Crypto) (fromIsoformat : IsoReader) (n : Network) : Event → Network
  | .add owner token =>
    match n.wallets.find? owner with
    | none => n
    | some w =>
      match w.addToken c token with
      | .error _ => n
      | .ok w' => { n with wallets := n.wallets.put w', issued := token :: n.issued }
  | .send owner receiverPk tokens stamp =>
    match n.wallets.find? owner with
    | none => n
    | some w =>
      match w.sendTokens c stamp receiverPk tokens with
      | (w', .error _) => { n with wallets := n.wallets.put w' }
      | (w', .ok payloads) =>
        { n with wallets := n.wallets.put w', emitted := payloads.reverse ++ n.emitted }
  | .deliver owner payload =>
    match n.wallets.find? owner with
    | none => n
    | some w => { n with wallets := n.wallets.put (w.receiveToken c payload).1 }
  | .submit source token atTime =>
    { n with engine := (n.engine.submit c fromIsoformat source token atTime).1 }
  | .sync owner settledTokenIds =>
    match n.wallets.find? owner with
    | none => n
    | some w => { n with wallets := n.wallets.put (w.sync settledTokenIds) }

/-- What the environment guarantees: a token id is issued once, only emitted payloads are
delivered, and wallets sync only for settled ids. -/
def Legal (n : Network) : Event → Prop
  | .add _ token => token.tokenId ∉ n.issued.map Token.tokenId
  | .deliver _ payload => payload ∈ n.emitted
  | .sync _ settledTokenIds => ∀ k ∈ settledTokenIds, k ∈ n.engine.acceptedByTokenId.keys
  | _ => True

/-- A payload handed to its addressee is the newest of its token, or the addressee has the token in
its spent register. -/
def ReplaySafe (n : Network) : Event → Prop
  | .deliver owner payload =>
    ∀ w token, n.wallets.find? owner = some w → tokenFromPayload payload = .ok token →
      token.ownerPk = owner → token.tokenId ∉ w.str.keys →
        newest Token.tokenId n.messages token.tokenId = some token
  | _ => True

/-- No token is in the unspent registers of two wallets. -/
def OnePurse (n : Network) : Prop :=
  ∀ w ∈ n.wallets.items, ∀ w' ∈ n.wallets.items, ∀ k, k ∈ w.utr.keys → k ∈ w'.utr.keys → w = w'

/-! ### The custodian of a token -/

/-- The owner of the newest version of a token. -/
def custodian (n : Network) (tokenId : String) : Option String :=
  (newest Token.tokenId n.history tokenId).map Token.ownerPk

/-- Only custodians hold tokens, and what is sent was issued before. -/
structure Inv (n : Network) : Prop where
  held : ∀ w ∈ n.wallets.items, ∀ t ∈ w.utr.items, n.custodian t.tokenId = some w.ownerPk
  issued : ∀ t ∈ n.messages, t.tokenId ∈ n.issued.map Token.tokenId

lemma Start.inv {n : Network} (h : n.Start) : n.Inv where
  held := by
    intro w hw t ht
    rw [(h.empty w hw).1] at ht
    cases ht
  issued := by
    intro t ht
    rw [messages, h.emitted] at ht
    cases ht

lemma Inv.onePurse {n : Network} (h : n.Inv) : n.OnePurse := by
  intro w hw w' hw' k hk hk'
  obtain ⟨t, ht, rfl⟩ := KeyedList.mem_keys.mp hk
  obtain ⟨t', ht', hid⟩ := KeyedList.mem_keys.mp hk'
  have hcustodian := h.held w' hw' t' ht'
  rw [hid, h.held w hw t ht] at hcustodian
  exact KeyedList.eq_of_key_eq hw hw' (Option.some.inj hcustodian)

/-- A token with a custodian was issued. -/
lemma Inv.issued_of_held {n : Network} (h : n.Inv) {w : Wallet} (hw : w ∈ n.wallets.items)
    {t : Token} (ht : t ∈ w.utr.items) : t.tokenId ∈ n.issued.map Token.tokenId := by
  obtain ⟨s, hs, -⟩ := Option.map_eq_some_iff.mp (h.held w hw t ht)
  obtain ⟨hmem, hid⟩ := mem_of_newest hs
  rcases List.mem_append.mp hmem with hmsg | hissued
  · exact hid ▸ h.issued s hmsg
  · exact hid ▸ List.mem_map_of_mem hissued

lemma custodian_of_newest {n : Network} {t : Token}
    (h : newest Token.tokenId n.messages t.tokenId = some t) :
    n.custodian t.tokenId = some t.ownerPk := by
  rw [custodian, history, newest_append, h]
  rfl

lemma messages_send (n : Network) (moved : List Token) (wallets : KeyedList Wallet.ownerPk) :
    messages { n with
      wallets := wallets, emitted := (moved.map Token.toJson).reverse ++ n.emitted }
      = moved.reverse ++ n.messages := by
  have hread : (moved.map Token.toJson).reverse.filterMap
      (fun payload => (tokenFromPayload payload).toOption) = moved.reverse := by
    rw [← List.map_reverse, List.filterMap_map]
    have hsome : (fun payload => (tokenFromPayload payload).toOption) ∘ Token.toJson = some :=
      funext fun t => by simp [tokenFromPayload_toJson, Except.toOption]
    rw [hsome, List.filterMap_some]
  simp only [messages, List.filterMap_append, hread]

/-! ### What a step keeps -/

/-- Replacing the wallet of an owner by one that holds no more tokens. -/
lemma Inv.put {n : Network} (h : n.Inv) {w w' : Wallet} (hw : w ∈ n.wallets.items)
    (howner : w'.ownerPk = w.ownerPk) (hutr : ∀ t ∈ w'.utr.items, t ∈ w.utr.items) :
    Inv { n with wallets := n.wallets.put w' } where
  held := by
    intro v hv t ht
    rcases KeyedList.mem_put.mp hv with rfl | ⟨hv, -⟩
    · exact howner ▸ h.held w hw t (hutr t ht)
    · exact h.held v hv t ht
  issued := h.issued

lemma Inv.add {n : Network} (h : n.Inv) {w w' : Wallet} (hw : w ∈ n.wallets.items) {c : Crypto}
    {token : Token} (hfresh : token.tokenId ∉ n.issued.map Token.tokenId)
    (hadd : w.addToken c token = .ok w') :
    Inv { n with wallets := n.wallets.put w', issued := token :: n.issued } := by
  rw [Wallet.addToken] at hadd
  split_ifs at hadd with howner hchain
  obtain rfl := Except.ok.inj hadd
  have hunsent : newest Token.tokenId n.messages token.tokenId = none := by
    rw [newest_eq_none_iff]
    intro hmem
    obtain ⟨s, hs, hid⟩ := List.mem_map.mp hmem
    exact hfresh (hid ▸ h.issued s hs)
  have hcustodian : ∀ k, custodian { n with
      wallets := n.wallets.put { w with utr := w.utr.put token }
      issued := token :: n.issued } k
        = if token.tokenId = k then some token.ownerPk else n.custodian k := by
    intro k
    simp only [custodian, history]
    change ((newest Token.tokenId (n.messages ++ token :: n.issued) k).map _) = _
    rw [newest_append, newest_append, newest_cons]
    split_ifs with hk
    · rw [← hk, hunsent]
      rfl
    · rfl
  have hunheld : ∀ v ∈ n.wallets.items, ∀ t ∈ v.utr.items, token.tokenId ≠ t.tokenId :=
    fun v hv t ht hid => hfresh (hid ▸ h.issued_of_held hv ht)
  refine ⟨?_, fun s hs => List.mem_cons_of_mem _ (h.issued s hs)⟩
  intro v hv t ht
  rw [hcustodian]
  rcases KeyedList.mem_put.mp hv with rfl | ⟨hv, -⟩
  · rcases KeyedList.mem_put.mp ht with rfl | ⟨ht, hne⟩
    · rw [if_pos rfl]
      exact congrArg some (not_not.mp howner)
    · rw [if_neg (Ne.symm hne)]
      exact h.held w hw t ht
  · rw [if_neg (hunheld v hv t ht)]
    exact h.held v hv t ht

lemma Inv.send {n : Network} (h : n.Inv) {w w' : Wallet} (hw : w ∈ n.wallets.items)
    {receiverPk : String} {moved : List (Token × Token)} (hsends : w.Sends w' receiverPk moved) :
    Inv { n with
      wallets := n.wallets.put w'
      emitted := ((moved.map Prod.snd).map Token.toJson).reverse ++ n.emitted } := by
  have hkept : ∀ t ∈ w'.utr.items, t ∈ w.utr.items := fun t ht =>
    hsends.utr_perm.mem_iff.mpr (List.mem_append_right _ ht)
  have hkeys := hsends.keys_perm.nodup_iff.mp (KeyedList.keys_nodup _)
  -- a token that was not sent has the custodian it had, and no other wallet held one that was
  have hcustodian : ∀ k, k ∉ (moved.map Prod.fst).map Token.tokenId →
      custodian { n with
        wallets := n.wallets.put w'
        emitted := ((moved.map Prod.snd).map Token.toJson).reverse ++ n.emitted } k
        = n.custodian k := by
    intro k hk
    have hunsent : newest Token.tokenId (moved.map Prod.snd).reverse k = none := by
      rw [newest_eq_none_iff, List.map_reverse, List.mem_reverse, hsends.map_tokenId]
      exact hk
    rw [custodian, history]
    rw [messages_send, List.append_assoc, newest_append, hunsent]
    rfl
  constructor
  · intro v hv t ht
    rw [hcustodian]
    · rcases KeyedList.mem_put.mp hv with rfl | ⟨hv, -⟩
      · exact hsends.ownerPk_eq ▸ h.held w hw t (hkept t ht)
      · exact h.held v hv t ht
    · intro hmoved
      rcases KeyedList.mem_put.mp hv with rfl | ⟨hv, hne⟩
      · exact (List.nodup_append'.mp hkeys).2.2 hmoved (KeyedList.key_mem_keys ht)
      · have hid := hsends.keys_perm.mem_iff.mpr (List.mem_append_left _ hmoved)
        have hsame := h.onePurse v hv w hw _ (KeyedList.key_mem_keys ht) hid
        exact hne (hsends.ownerPk_eq.symm ▸ hsame ▸ rfl)
  · intro s hs
    rw [messages_send, List.mem_append, List.mem_reverse] at hs
    rcases hs with hs | hs
    · obtain ⟨q, hq, rfl⟩ := List.mem_map.mp hs
      rw [(hsends.moved_extends q hq).tokenId_eq]
      exact h.issued_of_held hw (hsends.mem_utr hq)
    · exact h.issued s hs

lemma Inv.receive {n : Network} (h : n.Inv) {w : Wallet} (hw : w ∈ n.wallets.items) {token : Token}
    (howner : token.ownerPk = w.ownerPk)
    (hnewest : newest Token.tokenId n.messages token.tokenId = some token) :
    Inv { n with wallets := n.wallets.put { w with utr := w.utr.put token } } where
  held := by
    intro v hv t ht
    rcases KeyedList.mem_put.mp hv with rfl | ⟨hv, -⟩
    · rcases KeyedList.mem_put.mp ht with rfl | ⟨ht, -⟩
      · exact (custodian_of_newest hnewest).trans (congrArg some howner)
      · exact h.held w hw t ht
    · exact h.held v hv t ht
  issued := h.issued

/-- The step lemma: every legal event that replays nothing keeps the invariant. -/
lemma Inv.step {c : Crypto} {fromIsoformat : IsoReader} {n : Network} {e : Event}
    (hlegal : n.Legal e) (hsafe : n.ReplaySafe e) (h : n.Inv) : (n.step c fromIsoformat e).Inv := by
  cases e with
  | add owner token =>
    rw [Network.step]
    split
    · exact h
    · rename_i w hfind
      split
      · exact h
      · rename_i w' hadd
        exact h.add (KeyedList.find?_eq_some_iff.mp hfind).1 hlegal hadd
  | send owner receiverPk tokens stamp =>
    rw [Network.step]
    split
    · exact h
    · rename_i w hfind
      have hw := (KeyedList.find?_eq_some_iff.mp hfind).1
      split
      · rename_i w' e hsend
        have hspends := Wallet.spends_sendTokens c stamp w receiverPk tokens
        rw [hsend] at hspends
        exact h.put hw hspends.ownerPk_eq hspends.mem_utr
      · rename_i w' payloads hsend
        obtain ⟨moved, hsends, rfl, -⟩ := Wallet.sends_of_sendTokens hsend
        exact h.send hw hsends
  | deliver owner payload =>
    rw [Network.step]
    split
    · exact h
    · rename_i w hfind
      obtain ⟨hw, howner⟩ := KeyedList.find?_eq_some_iff.mp hfind
      rcases w.receiveToken_cases c payload with ⟨token, hread, haccept, hres⟩ | ⟨-, hres⟩
      · rw [hres]
        exact h.receive hw haccept.owner
          (hsafe w token hfind hread (haccept.owner.trans howner) haccept.notSpent)
      · rw [hres]
        exact h.put hw rfl fun t ht => ht
  | submit source token atTime => exact ⟨h.held, h.issued⟩
  | sync owner settledTokenIds =>
    rw [Network.step]
    split
    · exact h
    · rename_i w hfind
      exact h.put (KeyedList.find?_eq_some_iff.mp hfind).1 rfl fun t ht => ht

/-! ### Runs -/

/-- Alice, Bob and Carol, and the steps of one note of 50 among them. -/
def plainNetwork : Network where
  wallets := ["alice", "bob", "carol"].foldl (fun ws owner => ws.put (plainWallet owner [])) .empty
  emitted := []
  issued := []
  engine := .new

def plainIso : IsoReader := fun _ => .ok 1893456000000000

namespace Note

def issued : Token := plainToken "tok-w1" 50 "alice"
def first : Token := plainTransfer issued "alice" "bob"
def second : Token := plainTransfer first "bob" "carol"

/-- The note goes to Bob and to Carol, who settles it, and Bob syncs. -/
def settled : List Event := [
  .add "alice" issued,
  .send "alice" "bob" [issued] (plainStamp "alice"),
  .deliver "bob" first.toJson,
  .send "bob" "carol" [first] (plainStamp "bob"),
  .deliver "carol" second.toJson,
  .submit "carol" second 1772355600000000,
  .sync "bob" ["tok-w1"]]

end Note

/-- The payload Bob spent on is delivered to him again. -/
def Note.replayed : List Event := Note.settled ++ [.deliver "bob" Note.first.toJson]

set_option maxRecDepth 2000 in
lemma Note.legal_replayed :
    Along (step plainCrypto plainIso) Legal plainNetwork Note.replayed := by
  refine ⟨?_, trivial, ?_, trivial, ?_, trivial, ?_, ?_, trivial⟩
  · change Note.issued.tokenId ∉ []
    decide
  · exact List.mem_cons_self
  · exact List.mem_cons_self
  · change ∀ k ∈ ["tok-w1"], k ∈ (runFrom (step plainCrypto plainIso) plainNetwork
      (Note.settled.take 6)).engine.acceptedByTokenId.keys
    decide
  · exact List.mem_cons_of_mem _ List.mem_cons_self

/-- In every run in which no superseded payload gets past a spent register, no token is in two
purses. -/
theorem onePurse_of_replaySafe {c : Crypto} {fromIsoformat : IsoReader} {n : Network}
    {es : List Event} (hstart : n.Start)
    (hrun : Along (step c fromIsoformat) (fun n e => n.Legal e ∧ n.ReplaySafe e) n es) :
    (runFrom (step c fromIsoformat) n es).OnePurse :=
  (Along.invariant (fun _ _ hg hinv => Inv.step hg.1 hg.2 hinv) hrun hstart.inv).onePurse

/-- Delivered once and in order, the note stays in one purse. -/
theorem onePurse_of_replaySafe_settled :
    (runFrom (step plainCrypto plainIso) plainNetwork Note.settled).OnePurse := by
  refine onePurse_of_replaySafe ⟨by decide, rfl, rfl, rfl⟩ ?_
  have hsafe : Along (step plainCrypto plainIso) ReplaySafe plainNetwork Note.settled := by
    have hread : ∀ (owner : String) (n : Network) (t : Token),
        newest Token.tokenId n.messages t.tokenId = some t →
          n.ReplaySafe (.deliver owner t.toJson) := by
      intro owner n t hnewest w token _ hread _ _
      rw [tokenFromPayload_toJson] at hread
      cases hread
      exact hnewest
    exact ⟨trivial, trivial, hread _ _ _ (by decide +kernel), trivial,
      hread _ _ _ (by decide +kernel), trivial, trivial, trivial⟩
  exact (Along.append_iff.mp Note.legal_replayed).1.and hsafe

/-- When Bob accepts the payload he spent on, he and Carol both hold the note. -/
theorem replay_after_sync :
    plainNetwork.Start ∧
    Along (step plainCrypto plainIso) Legal plainNetwork Note.replayed ∧
    ¬ (runFrom (step plainCrypto plainIso) plainNetwork Note.replayed).OnePurse := by
  refine ⟨⟨by decide, rfl, rfl, rfl⟩, Note.legal_replayed, ?_⟩
  intro h
  have hholders : ∀ owner ∈ ["bob", "carol"],
      ∃ w ∈ (runFrom (step plainCrypto plainIso) plainNetwork Note.replayed).wallets.items,
        w.ownerPk = owner ∧ "tok-w1" ∈ w.utr.keys := by decide +kernel
  obtain ⟨bob, hbob, hbobPk, hbobKey⟩ := hholders "bob" (by decide)
  obtain ⟨carol, hcarol, hcarolPk, hcarolKey⟩ := hholders "carol" (by decide)
  have hsame := h bob hbob carol hcarol "tok-w1" hbobKey hcarolKey
  rw [hsame, hcarolPk] at hbobPk
  revert hbobPk
  decide

/-! ### Without sync -/

/-- Every wallet keeps in its spent register the tokens of the superseded payloads made out to
it. -/
def Parked (n : Network) : Prop :=
  n.messages.Pairwise fun newer older => newer.tokenId = older.tokenId →
    ∀ w ∈ n.wallets.items, w.ownerPk = older.ownerPk → older.tokenId ∈ w.str.keys

lemma Start.parked {n : Network} (h : n.Start) : n.Parked := by
  rw [Parked, messages, h.emitted]
  exact .nil

lemma Parked.replaySafe {n : Network} (h : n.Parked) {e : Event} (hlegal : n.Legal e) :
    n.ReplaySafe e := by
  cases e with
  | deliver owner payload =>
    intro w token hfind hread howner hspent
    obtain ⟨hw, hwOwner⟩ := KeyedList.find?_eq_some_iff.mp hfind
    have hmem : token ∈ n.messages :=
      List.mem_filterMap.mpr ⟨payload, hlegal, by simp [hread, Except.toOption]⟩
    obtain ⟨m, hm⟩ := exists_newest Token.tokenId hmem
    rcases eq_or_of_newest h hmem hm with rfl | hparked
    · exact hm
    · exact absurd (hparked (mem_of_newest hm).2 w hw (hwOwner.trans howner.symm)) hspent
  | _ => trivial

/-- Replacing the wallet of an owner by one that has spent no less. -/
lemma Parked.put {n : Network} (h : n.Parked) {w w' : Wallet} (hw : w ∈ n.wallets.items)
    (howner : w'.ownerPk = w.ownerPk) (hstr : ∀ k ∈ w.str.keys, k ∈ w'.str.keys) :
    Parked { n with wallets := n.wallets.put w' } := by
  refine List.Pairwise.imp (fun hkept hid v hv hpk => ?_) h
  rcases KeyedList.mem_put.mp hv with rfl | ⟨hv, -⟩
  · exact hstr _ (hkept hid w hw (howner.symm.trans hpk))
  · exact hkept hid v hv hpk

lemma Parked.send {n : Network} (hinv : n.Inv) (h : n.Parked) {w w' : Wallet}
    (hw : w ∈ n.wallets.items) {receiverPk : String} {moved : List (Token × Token)}
    (hsends : w.Sends w' receiverPk moved) (hspends : w.Spends w') :
    Parked { n with
      wallets := n.wallets.put w'
      emitted := ((moved.map Prod.snd).map Token.toJson).reverse ++ n.emitted } := by
  have hkeys := hsends.keys_perm.nodup_iff.mp (KeyedList.keys_nodup _)
  have hold := h.put hw hsends.ownerPk_eq hspends.mem_str_keys
  rw [Parked, messages_send]
  refine List.pairwise_append.mpr ⟨?_, hold, ?_⟩
  · -- the ids sent by one call are different
    have hnodup : ((moved.map Prod.snd).reverse.map Token.tokenId).Nodup := by
      rw [List.map_reverse, List.nodup_reverse, hsends.map_tokenId]
      exact (List.nodup_append.mp hkeys).1
    exact (List.pairwise_map.mp hnodup).imp fun hne hid => absurd hid hne
  · intro newer hnewer older holder hid v hv hpk
    obtain ⟨q, hq, rfl⟩ := List.mem_map.mp (List.mem_reverse.mp hnewer)
    rcases KeyedList.mem_put.mp hv with rfl | ⟨hv, hne⟩
    · rw [← hid]
      exact KeyedList.mem_keys_iff_find?.mpr ⟨q.2, hsends.find?_str q hq⟩
    · -- the sender held the token, so the newest payload was made out to it, not to `v`
      obtain ⟨m, hm⟩ := exists_newest Token.tokenId holder
      rcases eq_or_of_newest h holder hm with rfl | hparked
      · have hheld := hinv.held w hw q.1 (hsends.mem_utr hq)
        rw [← (hsends.moved_extends q hq).tokenId_eq, hid, custodian_of_newest hm] at hheld
        exact absurd (hpk.trans (Option.some.inj hheld)) (hsends.ownerPk_eq ▸ hne)
      · exact hparked (mem_of_newest hm).2 v hv hpk

lemma Parked.step {c : Crypto} {fromIsoformat : IsoReader} {n : Network} {e : Event}
    (hsync : ∀ owner ids, e ≠ .sync owner ids) (hinv : n.Inv) (h : n.Parked) :
    (n.step c fromIsoformat e).Parked := by
  cases e with
  | add owner token =>
    rw [Network.step]
    split
    · exact h
    · rename_i w hfind
      split
      · exact h
      · rename_i w' hadd
        rw [Wallet.addToken] at hadd
        split_ifs at hadd
        obtain rfl := Except.ok.inj hadd
        exact h.put (KeyedList.find?_eq_some_iff.mp hfind).1 rfl fun _ => id
  | send owner receiverPk tokens stamp =>
    rw [Network.step]
    split
    · exact h
    · rename_i w hfind
      have hw := (KeyedList.find?_eq_some_iff.mp hfind).1
      have hspends := Wallet.spends_sendTokens c stamp w receiverPk tokens
      split
      · rename_i w' e hsend
        rw [hsend] at hspends
        exact h.put hw hspends.ownerPk_eq hspends.mem_str_keys
      · rename_i w' payloads hsend
        rw [hsend] at hspends
        obtain ⟨moved, hsends, rfl, -⟩ := Wallet.sends_of_sendTokens hsend
        exact h.send hinv hw hsends hspends
  | deliver owner payload =>
    rw [Network.step]
    split
    · exact h
    · rename_i w hfind
      have hw := (KeyedList.find?_eq_some_iff.mp hfind).1
      rcases w.receiveToken_cases c payload with ⟨token, -, -, hres⟩ | ⟨-, hres⟩
      · rw [hres]
        exact h.put hw rfl fun _ => id
      · rw [hres]
        exact h.put hw rfl fun _ => id
  | submit source token atTime => exact h
  | sync owner settledTokenIds => exact absurd rfl (hsync owner settledTokenIds)

/-- Replays can only get past a register that was synced: without `sync` no token is ever in two
purses. -/
theorem onePurse_of_noSync {c : Crypto} {fromIsoformat : IsoReader} {n : Network}
    {es : List Event} (hstart : n.Start)
    (hrun : Along (step c fromIsoformat)
      (fun n e => n.Legal e ∧ ∀ owner ids, e ≠ .sync owner ids) n es) :
    (runFrom (step c fromIsoformat) n es).OnePurse := by
  have hinv := Along.invariant (I := fun n => n.Inv ∧ n.Parked)
    (fun n e hg h => ⟨h.1.step hg.1 (h.2.replaySafe hg.1), h.2.step hg.2 h.1⟩) hrun
    ⟨hstart.inv, hstart.parked⟩
  exact hinv.1.onePurse

end Network

end PocketCash.Canonical
