import PocketCash.Canonical.Selection

/-!
# The exact-change search

The search prunes a branch when its total exceeds the amount or when it is as long as the best subset
so far. With values that are not negative neither rule cuts off a shorter exact subset, so that
`select_tokens` raises only for amounts below zero or above the balance.
-/

namespace PocketCash.Canonical

namespace Wallet

variable {w : Wallet} {amount : Int}

/-- The selected tokens are worth no more than the wallet. -/
lemma Selects.totalValue_le {chosen : List Token} (hutr : Nonnegative w.utr.items)
    (h : w.Selects amount chosen) : totalValue chosen ≤ totalValue w.utr.items := by
  obtain ⟨chosen', hperm, hsub⟩ := h.subperm
  rw [← totalValue_perm hperm]
  exact (hsub.map Token.value).sum_le_sum (List.forall_mem_map.mpr hutr)

/-- `select_tokens` raises exactly for the amounts that no selection covers. -/
lemma selectTokens_eq_error_iff (hutr : Nonnegative w.utr.items) :
    (∃ e, w.selectTokens amount = .error e) ↔ amount < 0 ∨ totalValue w.utr.items < amount := by
  constructor
  · rintro ⟨e, hraised⟩
    by_contra hcovered
    rw [not_or, Int.not_lt, Int.not_lt] at hcovered
    obtain ⟨chosen, hselect⟩ := exists_selectTokens hcovered.1 hcovered.2
    rw [hraised] at hselect
    cases hselect
  · intro hbad
    cases hselect : w.selectTokens amount with
    | error e => exact ⟨e, rfl⟩
    | ok chosen =>
      have hselects := selects_of_selectTokens hutr hselect
      have hle := hselects.totalValue_le hutr
      have hcovers := hselects.covers
      rcases hbad with hneg | hpoor
      · rw [selectTokens, if_pos hneg] at hselect
        cases hselect
      · omega

/-- The search finds nothing exactly if there is no exact subset, and otherwise one with the fewest
tokens. `select_tokens` raises exactly for amounts below zero or above the balance, and hits the
amount whenever some subset does. -/
theorem exactChange_complete {tokens : List Token} {sought : Int} (htokens : Nonnegative tokens)
    (hutr : Nonnegative w.utr.items) :
    (findExactTokenSubset tokens sought = none ↔ ¬ HasExactSubset tokens sought) ∧
    (∀ chosen, findExactTokenSubset tokens sought = some chosen →
      chosen.Sublist tokens ∧ totalValue chosen = sought ∧
        ∀ other, other.Sublist tokens → totalValue other = sought →
          chosen.length ≤ other.length) ∧
    ((∃ e, w.selectTokens amount = .error e) ↔ amount < 0 ∨ totalValue w.utr.items < amount) ∧
    (∀ chosen, w.selectTokens amount = .ok chosen →
      chosen.Subperm w.utr.items ∧ amount ≤ totalValue chosen ∧
        (totalValue chosen = amount ↔ HasExactSubset w.utr.items amount)) := by
  refine ⟨findExactTokenSubset_eq_none_iff htokens,
    fun chosen hfind => findExactTokenSubset_eq_some htokens hfind, selectTokens_eq_error_iff hutr,
    fun chosen hselect => ?_⟩
  have hselects := selects_of_selectTokens hutr hselect
  exact ⟨hselects.subperm, hselects.covers, hselects.exact_iff⟩

/-- With 2, 3 and 5, the search for 5 finds the single token, and 11 cannot be selected. -/
theorem exactChange_complete_two_three_five :
    let w := plainWallet "alice" [("a", 2), ("b", 3), ("c", 5)]
    (∀ chosen, findExactTokenSubset w.utr.items 5 = some chosen →
      ∀ other, other.Sublist w.utr.items → totalValue other = 5 → chosen.length ≤ other.length) ∧
    ∃ e, w.selectTokens 11 = .error e := by
  intro w
  have hutr : Nonnegative w.utr.items := by
    rw [Nonnegative]
    decide
  obtain ⟨-, hfewest, hraises, -⟩ :=
    @exactChange_complete w 11 w.utr.items 5 hutr hutr
  exact ⟨fun chosen hfind => (hfewest chosen hfind).2.2, hraises.mpr (.inr (by decide))⟩

end Wallet

end PocketCash.Canonical
