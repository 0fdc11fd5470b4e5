import PocketCash.Canonical.Selection

/-!
# Redundant tokens

An exact selection of tokens of positive value has no token to spare. The greedy selection takes the
smallest tokens first, and when a larger one covers the amount the smallest ones may not be needed any
more. It has a token to spare exactly if its tokens without the smallest cover the amount.
-/

namespace PocketCash.Canonical

/-- The rest does not cover the amount if a token is dropped. -/
def NoneToSpare (amount : Int) (chosen : List Token) : Prop :=
  ∀ before token after, chosen = before ++ token :: after →
    totalValue (before ++ after) < amount

/-- Whenever the `k` smallest tokens fall short of the amount, so do the `k` smallest ones without
the first. -/
def SmallestNeeded (tokens : List Token) (amount : Int) : Prop :=
  ∀ k, totalValue ((ascending tokens).take k) < amount →
    totalValue ((ascending tokens).tail.take k) < amount

/-- An exact selection has no token of positive value to spare. -/
lemma noneToSpare_of_exact {chosen : List Token} (hpositive : ∀ t ∈ chosen, 0 < t.value) :
    NoneToSpare (totalValue chosen) chosen := by
  rintro before token after rfl
  have htoken := hpositive token (by simp)
  simp only [totalValue_append, totalValue_cons]
  omega

namespace Wallet

variable {w : Wallet} {amount : Int} {chosen : List Token}

/-- A selection that is not exact is the shortest cover by the smallest tokens. -/
lemma shortestCover_of_selectTokens (hamount : 0 < amount) (h : w.selectTokens amount = .ok chosen)
    (hexact : totalValue chosen ≠ amount) :
    ShortestCover Token.value amount (ascending w.utr.items) chosen := by
  rw [selectTokens, if_neg (Int.not_lt.mpr hamount.le), if_neg hamount.ne'] at h
  dsimp only at h
  cases hfind : findExactTokenSubset (ascending w.utr.items) amount with
  | some exact =>
    rw [hfind] at h
    obtain rfl := Except.ok.inj h
    exact absurd (findExactTokenSubset_sublist hfind).2 hexact
  | none =>
    rw [hfind] at h
    exact shortestCover_of_eq_some hamount (takeUntilCovered_eq_ok_iff.mp h)

lemma noneToSpare_iff (hpositive : ∀ t ∈ w.utr.items, 0 < t.value) (hamount : 0 < amount)
    (h : w.selectTokens amount = .ok chosen) :
    NoneToSpare amount chosen ↔
      HasExactSubset w.utr.items amount ∨ SmallestNeeded w.utr.items amount := by
  have hselects := selects_of_selectTokens (fun t ht => (hpositive t ht).le) h
  by_cases hexact : totalValue chosen = amount
  · refine iff_of_true ?_ (.inl (hselects.exact_iff.mp hexact))
    rw [← hexact]
    exact noneToSpare_of_exact fun t ht => hpositive t (hselects.subperm.subset ht)
  · have hcover := shortestCover_of_selectTokens hamount h hexact
    have hnonneg : ∀ t ∈ ascending w.utr.items, 0 ≤ t.value := fun t ht =>
      (hpositive t ((ascending_perm _).mem_iff.mp ht)).le
    rw [or_iff_right fun hex => hexact (hselects.exact_iff.mpr hex)]
    exact (hcover.irredundant_iff hamount (ascending_insertionSort _ _)).trans
      (hcover.tail_lt_iff hamount hnonneg)

/-- For an amount that the wallet has, `select_tokens` returns tokens that cover it, with none to
spare exactly if the amount can be hit or the smallest token is always needed. -/
theorem selectTokens_minimal_iff (hpositive : ∀ t ∈ w.utr.items, 0 < t.value) (hamount : 0 < amount)
    (hbalance : amount ≤ totalValue w.utr.items) :
    ∃ chosen, w.selectTokens amount = .ok chosen ∧
      (amount ≤ totalValue chosen ∧ NoneToSpare amount chosen ↔
        HasExactSubset w.utr.items amount ∨ SmallestNeeded w.utr.items amount) := by
  obtain ⟨chosen, hselect⟩ := exists_selectTokens hamount.le hbalance
  have hselects := selects_of_selectTokens (fun t ht => (hpositive t ht).le) hselect
  refine ⟨chosen, hselect, ?_⟩
  rw [and_iff_right hselects.covers]
  exact noneToSpare_iff hpositive hamount hselect

/-- For 7, a wallet with 3 and 5 needs both. -/
theorem selectTokens_minimal_three_five :
    ∃ chosen, (plainWallet "alice" [("a", 3), ("b", 5)]).selectTokens 7 = .ok chosen ∧
      7 ≤ totalValue chosen ∧ NoneToSpare 7 chosen := by
  have hpositive : ∀ t ∈ (plainWallet "alice" [("a", 3), ("b", 5)]).utr.items, 0 < t.value := by
    decide
  have hbalance : 7 ≤ totalValue (plainWallet "alice" [("a", 3), ("b", 5)]).utr.items := by decide
  have hlength : (ascending (plainWallet "alice" [("a", 3), ("b", 5)]).utr.items).length = 2 := by
    decide
  obtain ⟨chosen, hselect, hiff⟩ := selectTokens_minimal_iff hpositive (by decide) hbalance
  refine ⟨chosen, hselect, hiff.mpr (.inr fun k hk => ?_)⟩
  match k with
  | 0 => decide
  | 1 => decide
  | k + 2 =>
    rw [List.take_of_length_le (by omega)] at hk
    exact absurd hk (by decide)

/-- For 4, a wallet with 1 and 5 selects both. -/
theorem selectTokens_one_five :
    ∃ chosen, (plainWallet "alice" [("a", 1), ("b", 5)]).selectTokens 4 = .ok chosen ∧
      totalValue (plainWallet "alice" [("a", 1), ("b", 5)]).utr.items = 6 ∧
      (∀ t ∈ (plainWallet "alice" [("a", 1), ("b", 5)]).utr.items, 0 < t.value) ∧
      ¬ NoneToSpare 4 chosen := by
  refine ⟨_, rfl, by decide, by decide, fun hneeded => ?_⟩
  have hdropped := hneeded [] _ _ rfl
  revert hdropped
  decide

end Wallet

end PocketCash.Canonical
