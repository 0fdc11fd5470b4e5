import PocketCash.Offline.Bundle

/-!
# What a bundle credits

A transfer is accepted by its id and its links, and its token is written under the id of the token. A
token that was held under this id, from before or from an earlier transfer of the bundle, is lost
with its value, although both transfers are reported as accepted. So the balance grows by what is
reported accepted exactly if nothing of value is overwritten.
-/

namespace PocketCash.Offline

/-! ### What is reported and what is overwritten -/

/-- The value of the token of a transfer, if the answer is `True`. -/
def creditOf (tokens : Dict String Token) (transfer : Transfer) (answer : String × Bool) : Int :=
  if answer.2 then ((tokens.get? transfer.tokenId).map Token.value).getD 0 else 0

/-- The sum of the values of the tokens whose transfers were reported accepted. -/
def reportedValue (tokens : Dict String Token) (transfers : List Transfer)
    (answers : List (String × Bool)) : Int :=
  (List.zipWith (creditOf tokens) transfers answers).sum

/-- The answer of `apply_transfer`. -/
def Wallet.applies (c : Crypto) (w : Wallet) (transfer : Transfer) (token : Token)
    (reading : ReceiptReading) : Bool :=
  match w.applyTransferWithReason c transfer token reading with
  | .ok (_, ok, _) => ok
  | .error _ => false

/-- The value of the token that a round overwrites. -/
def Receiving.overwritten (c : Crypto) (tokens : Dict String Token) (loop : Receiving)
    (handled : Transfer × ReceiptReading) : Int :=
  match loop.raised, tokens.get? handled.1.tokenId with
  | none, some token =>
    if loop.wallet.applies c handled.1 token handled.2 then
      loop.wallet.utr.totalAt Token.value token.tokenId
    else 0
  | _, _ => 0

/-- The value of all tokens that the rounds of a loop overwrite. -/
def Receiving.overwrittenAll (c : Crypto) (tokens : Dict String Token) :
    Receiving → List (Transfer × ReceiptReading) → Int
  | _, [] => 0
  | loop, handled :: rest =>
    loop.overwritten c tokens handled + overwrittenAll c tokens (loop.next c tokens handled) rest

/-- If the round accepts the transfer, the id of its token is free. -/
def Receiving.FindsFree (c : Crypto) (tokens : Dict String Token) (loop : Receiving)
    (handled : Transfer × ReceiptReading) : Prop :=
  loop.raised = none → ∀ token, tokens.get? handled.1.tokenId = some token →
    loop.wallet.Receives c handled.1 token handled.2 → token.tokenId ∉ loop.wallet.utr.keys

section

variable {c : Crypto} {tokens : Dict String Token} {loop : Receiving}
  {handled : Transfer × ReceiptReading}

lemma Wallet.applies_iff {w : Wallet} {transfer : Transfer} {token : Token}
    {reading : ReceiptReading} :
    w.applies c transfer token reading = true ↔ w.Receives c transfer token reading := by
  rw [applies]
  constructor
  · intro h
    split at h
    · rename_i w' ok reason happly
      obtain rfl : ok = true := h
      exact (applyTransferWithReason_eq_true_iff.mp happly).1
    · cases h
  · intro h
    rw [applyTransferWithReason_eq_true_iff.mpr ⟨h, rfl, rfl⟩]

lemma Receiving.overwritten_of_not_takes (h : ¬ loop.wallet.Takes c tokens handled) :
    loop.overwritten c tokens handled = 0 := by
  rw [overwritten]
  split
  · rename_i token hraised hget
    exact if_neg fun happlies => h ⟨token, hget, Wallet.applies_iff.mp happlies⟩
  · rfl

lemma Receiving.overwritten_of_receives (hraised : loop.raised = none) {token : Token}
    (hget : tokens.get? handled.1.tokenId = some token)
    (h : loop.wallet.Receives c handled.1 token handled.2) :
    loop.overwritten c tokens handled = loop.wallet.utr.totalAt Token.value token.tokenId := by
  simp only [overwritten, hraised, hget, Wallet.applies_iff.mpr h, if_true]

lemma Receiving.overwrittenAll_of_raised {e : PyError} (hraised : loop.raised = some e)
    (rest : List (Transfer × ReceiptReading)) : loop.overwrittenAll c tokens rest = 0 := by
  induction rest with
  | nil => rfl
  | cons handled rest ih =>
    have hnext : loop.next c tokens handled = loop := by rw [Receiving.next, hraised]
    rw [overwrittenAll, hnext, ih, overwritten, hraised]
    rfl

end

/-! ### The balance after a bundle -/

/-- What is overwritten is missing in the balance. -/
lemma balance_runFrom (c : Crypto) (tokens : Dict String Token) (loop : Receiving)
    (handled : List (Transfer × ReceiptReading)) :
    ∃ reported, (runFrom (Receiving.next c tokens) loop handled).answers = loop.answers ++ reported ∧
      (runFrom (Receiving.next c tokens) loop handled).wallet.balance
          + loop.overwrittenAll c tokens handled
        = loop.wallet.balance + reportedValue tokens (handled.map Prod.fst) reported := by
  induction handled generalizing loop with
  | nil => exact ⟨[], by simp, by simp [Receiving.overwrittenAll, reportedValue]⟩
  | cons first rest ih =>
    cases hraised : loop.raised with
    | some e =>
      refine ⟨[], ?_, ?_⟩
      · rw [Receiving.runFrom_of_raised hraised, List.append_nil]
      · rw [Receiving.runFrom_of_raised hraised, Receiving.overwrittenAll_of_raised hraised]
        simp [reportedValue]
    | none =>
      rw [runFrom_cons, Receiving.overwrittenAll, List.map_cons]
      rcases Receiving.next_outcome hraised first with
        ⟨-, htakes, e, hnext⟩ | ⟨-, htakes, reason, hnext⟩ | ⟨token, hget, hreceives, hnext⟩
      · rw [hnext, Receiving.runFrom_of_raised rfl, Receiving.overwritten_of_not_takes htakes,
          Receiving.overwrittenAll_of_raised rfl]
        exact ⟨[], (List.append_nil _).symm, by simp [reportedValue]⟩
      · obtain ⟨reported, hanswers, hbalance⟩ := ih (loop.next c tokens first)
        rw [Receiving.overwritten_of_not_takes htakes]
        refine ⟨(first.1.transferId, false) :: reported, ?_, ?_⟩
        · rw [hanswers, hnext]
          simp [Receiving.answers]
        · have hwallet : (loop.next c tokens first).wallet = loop.wallet := by rw [hnext]
          rw [zero_add, hbalance, hwallet]
          simp [reportedValue, creditOf]
      · obtain ⟨reported, hanswers, hbalance⟩ := ih (loop.next c tokens first)
        rw [Receiving.overwritten_of_receives hraised hget hreceives]
        refine ⟨(first.1.transferId, true) :: reported, ?_, ?_⟩
        · rw [hanswers, hnext]
          simp [Receiving.answers]
        · have hwallet : (loop.next c tokens first).wallet = loop.wallet.receive c first.1 token := by
            rw [hnext]
          have hcredit : creditOf tokens first.1 (first.1.transferId, true) = token.value := by
            simp [creditOf, hget]
          rw [hwallet, Wallet.balance_receive] at hbalance
          rw [reportedValue, List.zipWith_cons_cons, List.sum_cons, hcredit, ← reportedValue]
          omega

/-! ### Tokens of positive value -/

section

variable {c : Crypto} {tokens : Dict String Token} {loop : Receiving}

/-- Tokens of positive value are written over exactly if the id is not free. -/
lemma Receiving.overwritten_eq_zero_iff (hutr : ∀ t ∈ loop.wallet.utr.items, 0 < t.value)
    (handled : Transfer × ReceiptReading) :
    0 ≤ loop.overwritten c tokens handled ∧
      (loop.overwritten c tokens handled = 0 ↔ loop.FindsFree c tokens handled) := by
  by_cases hraised : loop.raised = none
  swap
  · have hzero : loop.overwritten c tokens handled = 0 := by
      obtain ⟨e, he⟩ := Option.ne_none_iff_exists'.mp hraised
      rw [overwritten, he]
    exact ⟨hzero.ge, iff_of_true hzero fun h => absurd h hraised⟩
  by_cases htakes : loop.wallet.Takes c tokens handled
  swap
  · have hzero := overwritten_of_not_takes htakes
    exact ⟨hzero.ge, iff_of_true hzero fun _ token hget hreceives =>
      absurd ⟨token, hget, hreceives⟩ htakes⟩
  obtain ⟨token, hget, hreceives⟩ := htakes
  have hfree : loop.FindsFree c tokens handled ↔ token.tokenId ∉ loop.wallet.utr.keys := by
    refine ⟨fun h => h hraised token hget hreceives, fun h _ token' hget' _ => ?_⟩
    obtain rfl := Option.some.inj (hget.symm.trans hget')
    exact h
  rw [overwritten_of_receives hraised hget hreceives, hfree]
  by_cases hmem : token.tokenId ∈ loop.wallet.utr.keys
  · obtain ⟨held, hfind⟩ := KeyedList.mem_keys_iff_find?.mp hmem
    have hpositive := hutr held (KeyedList.find?_eq_some_iff.mp hfind).1
    rw [KeyedList.totalAt_of_find? hfind]
    exact ⟨hpositive.le, iff_of_false hpositive.ne' fun h => h hmem⟩
  · have hzero : loop.wallet.utr.totalAt Token.value token.tokenId = 0 :=
      KeyedList.totalAt_of_notMem hmem
    exact ⟨hzero.ge, iff_of_true hzero hmem⟩

/-- A round stores tokens of the bundle. -/
lemma Receiving.positive_next (hutr : ∀ t ∈ loop.wallet.utr.items, 0 < t.value)
    (htokens : ∀ entry ∈ tokens.items, 0 < entry.2.value) (handled : Transfer × ReceiptReading) :
    ∀ t ∈ (loop.next c tokens handled).wallet.utr.items, 0 < t.value := by
  rcases next_cases c tokens loop handled with ⟨hwallet, -⟩ | ⟨token, hget, -, hwallet, -⟩
  · rw [hwallet]
    exact hutr
  · obtain ⟨entry, hentry, rfl⟩ := Option.map_eq_some_iff.mp hget
    rw [hwallet]
    exact KeyedList.forall_mem_put hutr (htokens entry (KeyedList.find?_eq_some_iff.mp hentry).1)

/-- With positive values, nothing of value is overwritten exactly if every accepted token finds its
id free. -/
lemma Receiving.overwrittenAll_eq_zero_iff (hutr : ∀ t ∈ loop.wallet.utr.items, 0 < t.value)
    (htokens : ∀ entry ∈ tokens.items, 0 < entry.2.value)
    (handled : List (Transfer × ReceiptReading)) :
    0 ≤ loop.overwrittenAll c tokens handled ∧
      (loop.overwrittenAll c tokens handled = 0 ↔
        Along (Receiving.next c tokens) (FindsFree c tokens) loop handled) := by
  induction handled generalizing loop with
  | nil => exact ⟨le_rfl, iff_of_true rfl trivial⟩
  | cons first rest ih =>
    obtain ⟨hnonneg, hfirst⟩ := overwritten_eq_zero_iff (c := c) hutr first
    obtain ⟨hnonneg', hrest⟩ := ih (positive_next hutr htokens first)
    rw [overwrittenAll, Along.cons_iff, ← hfirst, ← hrest]
    omega

end

namespace Wallet

/-- The balance grows by the value of the tokens that are reported accepted exactly if the tokens that
are overwritten have no value in total; if all values are positive, exactly if no accepted token
overwrites another one. -/
theorem balance_receiveBundle_iff (c : Crypto) (w : Wallet) (bundle : PaymentBundle)
    (readings : Nat → ReceiptReading) :
    let answers := (w.receiveBundleWithReasons c bundle readings).answers
    ((w.receiveBundle c bundle readings).1.balance
        = w.balance + reportedValue bundle.tokens bundle.transfers answers ↔
      Receiving.overwrittenAll c bundle.tokens ⟨w, [], none⟩ (rounds bundle readings) = 0) ∧
    ((∀ t ∈ w.utr.items, 0 < t.value) → (∀ entry ∈ bundle.tokens.items, 0 < entry.2.value) →
      ((w.receiveBundle c bundle readings).1.balance
          = w.balance + reportedValue bundle.tokens bundle.transfers answers ↔
        Along (Receiving.next c bundle.tokens) (Receiving.FindsFree c bundle.tokens) ⟨w, [], none⟩
          (rounds bundle readings))) := by
  obtain ⟨reported, hanswers, hbalance⟩ :=
    balance_runFrom c bundle.tokens ⟨w, [], none⟩ (rounds bundle readings)
  rw [map_fst_rounds] at hbalance
  have hreported : (w.receiveBundleWithReasons c bundle readings).answers = reported :=
    hanswers.trans (List.nil_append _)
  have hiff : (w.receiveBundle c bundle readings).1.balance
        = w.balance + reportedValue bundle.tokens bundle.transfers reported ↔
      Receiving.overwrittenAll c bundle.tokens ⟨w, [], none⟩ (rounds bundle readings) = 0 := by
    rw [receiveBundle_fst, receiveBundleWithReasons, ← rounds, ← hbalance]
    omega
  dsimp only
  rw [hreported]
  refine ⟨hiff, fun hutr htokens => hiff.trans ?_⟩
  exact (Receiving.overwrittenAll_eq_zero_iff hutr htokens _).2

/-- Bob, who holds a token of 100, is sent the same token again from a copy of the wallet of Alice. -/
theorem balance_clonedToken :
    let w := { new "sk:bob" "bob" .default with utr := KeyedList.empty.put (plainToken "t1" "bob") }
    let bundle := plainBundle [plainTransfer "x1" "t1" "alice" "bob"] [plainToken "t1" "bob"]
    let readings := fun _ => ⟨1002000000, 1002000000⟩
    let answers := (w.receiveBundleWithReasons plainCrypto bundle readings).answers
    answers = [("x1", true)] ∧
      (w.receiveBundle plainCrypto bundle readings).1.balance
        ≠ w.balance + reportedValue bundle.tokens bundle.transfers answers := by
  decide +kernel

end Wallet

end PocketCash.Offline
