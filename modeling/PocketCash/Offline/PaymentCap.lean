import PocketCash.Offline.Receiving

/-!
# The value of a payment

`create_payment` compares the requested amount with `MAX_TX_VALUE` and then takes whole tokens,
smallest first, until they cover it. The tokens it sends may be worth more than the limit. They are not
exactly if some number of the smallest spendable tokens is worth at least the amount and at most the
limit.
-/

namespace PocketCash.Offline

namespace Wallet

/-- The tokens that can be spent, in ascending order of value. -/
def spendableAscending (w : Wallet) (nowEpoch : Int) : List Token :=
  ascending (w.utr.items.filter fun token => w.isTokenSpendable token nowEpoch)

/-- Some number of the smallest spendable tokens covers the amount within the limit. -/
def CoversWithin (w : Wallet) (nowEpoch amount limit : Int) : Prop :=
  ∃ k, amount ≤ (((w.spendableAscending nowEpoch).take k).map Token.value).sum ∧
    (((w.spendableAscending nowEpoch).take k).map Token.value).sum ≤ limit

section

variable {c : Crypto} {w w' : Wallet} {receiverPk : String} {amount : Int} {draw : PaymentDraw}
  {bundle : PaymentBundle}

/-- A bundle holds the shortest cover of the amount by the smallest tokens. -/
lemma exists_shortestCover (h : w.createPayment c receiverPk amount draw = (w', .ok bundle)) :
    ∃ selected, ShortestCover Token.value amount (w.spendableAscending (wholeSeconds draw.now))
        selected ∧ 0 < amount ∧ bundle.value = (selected.map Token.value).sum := by
  obtain ⟨-, selected, hselected, hpays⟩ := createPayment_eq_ok h
  have hcover := takeUntilCovered_eq_ok_iff.mp hselected
  refine ⟨selected, shortestCover_of_eq_some hpays.positive hcover, hpays.positive, ?_⟩
  rw [PaymentBundle.value, hpays.tokens, List.map_map]
  rfl

/-- The tokens of a payment cover the amount, and are within the limit exactly if some number of the
smallest spendable tokens is. -/
theorem createPayment_withinCap_iff
    (h : w.createPayment c receiverPk amount draw = (w', .ok bundle)) :
    amount ≤ bundle.value ∧ bundle.value ≤ w.policy.maxTxValue ↔
      w.CoversWithin (wholeSeconds draw.now) amount w.policy.maxTxValue := by
  obtain ⟨selected, hcover, hpositive, htotal⟩ := exists_shortestCover h
  rw [htotal]
  constructor
  · rintro ⟨hcovers, hlimit⟩
    refine ⟨selected.length, ?_⟩
    rw [← List.prefix_iff_eq_take.mp hcover.initial]
    exact ⟨hcovers, hlimit⟩
  · rintro ⟨k, hcovers, hlimit⟩
    have hleast := hcover.total_le hpositive (ascending_insertionSort _ _) (List.take_prefix k _)
      hcovers
    exact ⟨hcover.covers, hleast.trans hlimit⟩

end

/-- Alice's wallet with two tokens of the given values. -/
def aliceWallet (first second : Int) : Wallet :=
  { new "sk:alice" "alice" .default with
    utr := (KeyedList.empty.put { plainToken "t1" "alice" with value := first }).put
      { plainToken "t2" "alice" with value := second } }

def aliceDraw : PaymentDraw := ⟨1002000000, fun _ => ⟨"x", 1002000000⟩, "bundle"⟩

theorem createPayment_withinCap_aliceWallet :
    ∃ w' bundle, (aliceWallet 100 200).createPayment plainCrypto "bob" 250 aliceDraw
        = (w', .ok bundle) ∧ 250 ≤ bundle.value ∧ bundle.value ≤ 1000 := by
  obtain ⟨w', bundle, hpays⟩ : ∃ w' bundle,
      (aliceWallet 100 200).createPayment plainCrypto "bob" 250 aliceDraw = (w', .ok bundle) :=
    ⟨_, _, rfl⟩
  exact ⟨w', bundle, hpays, (createPayment_withinCap_iff hpays).mpr ⟨2, by decide +kernel⟩⟩

/-- For 950, Alice sends her tokens of 900 and 1000. -/
theorem createPayment_over_cap :
    ∃ w' bundle, (aliceWallet 900 1000).createPayment plainCrypto "bob" 950 aliceDraw
        = (w', .ok bundle) ∧
      ¬ (950 ≤ bundle.value ∧ bundle.value ≤ (aliceWallet 900 1000).policy.maxTxValue) := by
  refine ⟨_, _, rfl, ?_⟩
  decide +kernel

end Wallet

end PocketCash.Offline
