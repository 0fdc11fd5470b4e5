import PocketCash.Library.KeyedTotal
import PocketCash.Offline.Wallet

/-!
# The loop of `receive_bundle`

A round raises, refuses its transfer, or stores the token. After an exception nothing more is done,
and results are only added, so the answers of the whole loop tell what each round has done.
-/

namespace PocketCash.Offline

/-- The value of the tokens of a bundle. -/
def PaymentBundle.value (bundle : PaymentBundle) : Int :=
  (bundle.tokens.items.map fun p => p.2.value).sum

/-- The answers that `receive_bundle` gives. -/
def Receiving.answers (loop : Receiving) : List (String × Bool) :=
  loop.results.map fun r => (r.1, r.2.1)

namespace Wallet

/-- The bundle has the token of the transfer, and the wallet takes it. -/
def Takes (c : Crypto) (tokens : Dict String Token) (w : Wallet)
    (handled : Transfer × ReceiptReading) : Prop :=
  ∃ token, tokens.get? handled.1.tokenId = some token ∧ w.Receives c handled.1 token handled.2

/-- The bundle has no such token, or the expiry check of the token raises. -/
def Fails (c : Crypto) (tokens : Dict String Token) (w : Wallet)
    (handled : Transfer × ReceiptReading) : Prop :=
  ∀ token, tokens.get? handled.1.tokenId = some token →
    ∃ e, w.applyTransferWithReason c handled.1 token handled.2 = .error e

end Wallet

/-- This round accepts its transfer. -/
def Receiving.AcceptsNext (c : Crypto) (tokens : Dict String Token) (loop : Receiving)
    (handled : Transfer × ReceiptReading) : Prop :=
  ∃ token, tokens.get? handled.1.tokenId = some token ∧
    loop.wallet.Receives c handled.1 token handled.2

namespace Receiving

variable {c : Crypto} {tokens : Dict String Token} {loop : Receiving}
  {handled : Transfer × ReceiptReading} {l : List (Transfer × ReceiptReading)}

/-! ### One round -/

lemma next_of_receives {token : Token} (h : loop.raised = none)
    (htoken : tokens.get? handled.1.tokenId = some token)
    (hreceives : loop.wallet.Receives c handled.1 token handled.2) :
    loop.next c tokens handled = ⟨loop.wallet.receive c handled.1 token,
      loop.results ++ [(handled.1.transferId, true, .accepted)], none⟩ := by
  have hanswer := Wallet.applyTransferWithReason_eq_true_iff.mpr ⟨hreceives, rfl, rfl⟩
  simp only [next, h, htoken, hanswer]

/-- A round raises, refuses the transfer, or stores the token. -/
lemma next_outcome (h : loop.raised = none) (handled : Transfer × ReceiptReading) :
    (loop.wallet.Fails c tokens handled ∧ ¬ loop.wallet.Takes c tokens handled ∧
      ∃ e, loop.next c tokens handled = ⟨loop.wallet, loop.results, some e⟩) ∨
    (¬ loop.wallet.Fails c tokens handled ∧ ¬ loop.wallet.Takes c tokens handled ∧
      ∃ reason, loop.next c tokens handled
        = ⟨loop.wallet, loop.results ++ [(handled.1.transferId, false, reason)], none⟩) ∨
    ∃ token, tokens.get? handled.1.tokenId = some token ∧
      loop.wallet.Receives c handled.1 token handled.2 ∧
      loop.next c tokens handled = ⟨loop.wallet.receive c handled.1 token,
        loop.results ++ [(handled.1.transferId, true, .accepted)], none⟩ := by
  by_cases htakes : loop.wallet.Takes c tokens handled
  · obtain ⟨token, htoken, hreceives⟩ := htakes
    exact .inr (.inr ⟨token, htoken, hreceives, next_of_receives h htoken hreceives⟩)
  · rw [next, h]
    cases htoken : tokens.get? handled.1.tokenId with
    | none =>
      have hfails : loop.wallet.Fails c tokens handled := fun token hget => by simp [htoken] at hget
      exact .inl ⟨hfails, htakes, _, rfl⟩
    | some token =>
      cases hanswer : loop.wallet.applyTransferWithReason c handled.1 token handled.2 with
      | error e =>
        refine .inl ⟨fun token' hget => ?_, htakes, e, by simp only [hanswer]⟩
        obtain rfl := Option.some.inj (htoken.symm.trans hget)
        exact ⟨e, hanswer⟩
      | ok answer =>
        obtain ⟨wallet, ok, reason⟩ := answer
        cases ok with
        | true =>
          obtain ⟨hreceives, -, -⟩ := Wallet.applyTransferWithReason_eq_true_iff.mp hanswer
          exact absurd ⟨token, htoken, hreceives⟩ htakes
        | false =>
          obtain rfl := Wallet.applyTransferWithReason_eq_false hanswer
          refine .inr (.inl ⟨fun hfails => ?_, htakes, reason, by simp only [hanswer]⟩)
          obtain ⟨e, he⟩ := hfails token htoken
          cases hanswer.symm.trans he

/-! ### The whole loop -/

/-- An exception ends the loop. -/
lemma runFrom_of_raised {e : PyError} (h : loop.raised = some e) :
    runFrom (next c tokens) loop l = loop := by
  induction l with
  | nil => rfl
  | cons handled l ih =>
    have hnext : loop.next c tokens handled = loop := by rw [next, h]
    rw [runFrom_cons, hnext, ih]

/-- Results are only added. -/
lemma results_prefix_next : loop.results <+: (loop.next c tokens handled).results := by
  rw [next]
  split
  · exact List.prefix_rfl
  · split
    · exact List.prefix_rfl
    · split
      · exact List.prefix_rfl
      · exact List.prefix_append _ _

lemma results_prefix_runFrom : loop.results <+: (runFrom (next c tokens) loop l).results :=
  runFrom_invariant (I := fun later : Receiving => loop.results <+: later.results)
    (fun _ _ h => h.trans results_prefix_next) List.prefix_rfl l

/-- Ids of processed transfers are only added. -/
lemma processedTransferIds_subset_runFrom :
    loop.wallet.processedTransferIds ⊆
      (runFrom (next c tokens) loop l).wallet.processedTransferIds := by
  refine runFrom_invariant
    (I := fun later : Receiving => loop.wallet.processedTransferIds ⊆ later.wallet.processedTransferIds)
    (fun later handled hlater => ?_) (Finset.Subset.refl _) l
  rcases next_cases c tokens later handled with ⟨hwallet, -⟩ | ⟨token, -, -, hwallet, -⟩
  · rw [hwallet]
    exact hlater
  · rw [hwallet]
    exact hlater.trans (Finset.subset_insert _ _)

/-- The loop reports every transfer as accepted exactly if every round accepts its transfer. -/
lemma all_accepted_iff (h : loop.raised = none) :
    ((runFrom (next c tokens) loop l).raised = none ∧
      (runFrom (next c tokens) loop l).answers
        = loop.answers ++ l.map fun p => (p.1.transferId, true)) ↔
      Along (next c tokens) (AcceptsNext c tokens) loop l := by
  induction l generalizing loop with
  | nil => simp [h]
  | cons handled l ih =>
    rw [Along.cons_iff, runFrom_cons]
    rcases @next_outcome c tokens loop h handled with
      ⟨-, hrefuses, e, hnext⟩ | ⟨-, hrefuses, reason, hnext⟩ | ⟨token, htoken, hreceives, hnext⟩
    · rw [hnext, runFrom_of_raised rfl]
      refine iff_of_false ?_ fun hrest => hrefuses hrest.1
      rintro ⟨hraised, -⟩
      cases hraised
    · refine iff_of_false ?_ fun hrest => hrefuses hrest.1
      rintro ⟨-, hanswers⟩
      -- the answer to this transfer stays
      obtain ⟨rest, hrest⟩ := @results_prefix_runFrom c tokens (loop.next c tokens handled) l
      rw [hnext] at hrest hanswers
      simp [answers, ← hrest] at hanswers
    · have hraised : (loop.next c tokens handled).raised = none := by rw [hnext]
      have hanswers : (loop.next c tokens handled).answers
          = loop.answers ++ [(handled.1.transferId, true)] := by
        rw [hnext]
        exact List.map_append
      have haccepts : loop.AcceptsNext c tokens handled := ⟨token, htoken, hreceives⟩
      rw [and_iff_right haccepts, ← ih hraised, hanswers, List.append_assoc,
        List.singleton_append, List.map_cons]

end Receiving

namespace Wallet

/-- The rounds of the loop of `receive_bundle`. -/
def rounds (bundle : PaymentBundle) (readings : Nat → ReceiptReading) :
    List (Transfer × ReceiptReading) :=
  bundle.transfers.mapIdx fun i transfer => (transfer, readings i)

variable {c : Crypto} {w : Wallet} {bundle : PaymentBundle} {readings : Nat → ReceiptReading}

lemma map_fst_rounds (bundle : PaymentBundle) (readings : Nat → ReceiptReading) :
    (rounds bundle readings).map Prod.fst = bundle.transfers := by
  rw [rounds, map_mapIdx]
  exact (mapIdx_eq_map id bundle.transfers).trans (List.map_id _)

/-- `receive_bundle` gives the answers of its loop, if the loop does not raise. -/
lemma receiveBundle_eq_ok_iff {answers : List (String × Bool)} :
    (w.receiveBundle c bundle readings).2 = .ok answers ↔
      (w.receiveBundleWithReasons c bundle readings).raised = none ∧
        (w.receiveBundleWithReasons c bundle readings).answers = answers := by
  simp only [receiveBundle]
  split
  · rename_i e hraised
    simp [hraised]
  · rename_i hraised
    simp [hraised, Receiving.answers]

/-- All transfers are reported as accepted exactly if every round accepts its transfer. -/
lemma receiveBundleWithReasons_accepts_iff :
    ((w.receiveBundleWithReasons c bundle readings).raised = none ∧
      (w.receiveBundleWithReasons c bundle readings).answers
        = bundle.transfers.map fun t => (t.transferId, true)) ↔
      Along (Receiving.next c bundle.tokens) (Receiving.AcceptsNext c bundle.tokens) ⟨w, [], none⟩
        (rounds bundle readings) := by
  have hids : ((rounds bundle readings).map fun p => (p.1.transferId, true))
      = bundle.transfers.map fun t => (t.transferId, true) := by
    rw [← map_fst_rounds bundle readings, List.map_map]
    rfl
  rw [← Receiving.all_accepted_iff rfl, hids]
  rfl

/-- Storing a token adds its value and takes away that of the one it replaces. -/
lemma balance_receive (c : Crypto) (w : Wallet) (transfer : Transfer) (token : Token) :
    (w.receive c transfer token).balance
      = w.balance + token.value - w.utr.totalAt Token.value token.tokenId :=
  w.utr.total_put (w.receivedToken c transfer token)

end Wallet

end PocketCash.Offline
