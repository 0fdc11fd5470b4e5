import Mathlib.Algebra.Order.BigOperators.Group.List
import PocketCash.Library.GreedyCover
import PocketCash.Canonical.Wallet

/-!
# Token selection

`select_tokens` returns tokens of the wallet that cover the amount. It hits the amount exactly
whenever some subset of the wallet's tokens does: the depth-first search of
`_find_exact_token_subset` only prunes branches that cannot hold a shorter exact subset, provided
no token has a negative value. Without an exact subset it takes the shortest prefix of the tokens
in ascending order of value that reaches the amount.
-/

namespace PocketCash.Canonical

@[simp] lemma totalValue_nil : totalValue [] = 0 := rfl

@[simp] lemma totalValue_cons (t : Token) (ts : List Token) :
    totalValue (t :: ts) = t.value + totalValue ts := by simp [totalValue]

@[simp] lemma totalValue_append (ts ts' : List Token) :
    totalValue (ts ++ ts') = totalValue ts + totalValue ts' := by simp [totalValue]

lemma totalValue_perm {ts ts' : List Token} (h : ts.Perm ts') :
    totalValue ts = totalValue ts' := (h.map Token.value).sum_eq

/-- Every token of the list has a value that is not negative. -/
def Nonnegative (tokens : List Token) : Prop := ∀ t ∈ tokens, 0 ≤ t.value

lemma Nonnegative.sublist {tokens chosen : List Token} (h : Nonnegative tokens)
    (hsub : chosen.Sublist tokens) : Nonnegative chosen := fun t ht => h t (hsub.subset ht)

lemma Nonnegative.totalValue_nonneg {tokens : List Token} (h : Nonnegative tokens) :
    0 ≤ totalValue tokens :=
  List.sum_nonneg (by simpa [Nonnegative] using h)

/-- Some of the tokens, none of them twice, sum to `amount`. -/
def HasExactSubset (tokens : List Token) (amount : Int) : Prop :=
  ∃ chosen, chosen.Sublist tokens ∧ totalValue chosen = amount

lemma HasExactSubset.zero (tokens : List Token) : HasExactSubset tokens 0 :=
  ⟨[], List.nil_sublist _, rfl⟩

lemma HasExactSubset.of_subperm {tokens chosen : List Token} (h : chosen.Subperm tokens) :
    HasExactSubset tokens (totalValue chosen) := by
  obtain ⟨chosen', hperm, hsub⟩ := h
  exact ⟨chosen', hsub, totalValue_perm hperm⟩

/-- The order of the tokens does not matter. -/
lemma HasExactSubset.perm {tokens tokens' : List Token} {amount : Int} (h : tokens.Perm tokens')
    (hex : HasExactSubset tokens amount) : HasExactSubset tokens' amount := by
  obtain ⟨chosen, hsub, rfl⟩ := hex
  exact .of_subperm (hsub.subperm.trans h.subperm)

lemma ascending_perm (tokens : List Token) : (ascending tokens).Perm tokens :=
  List.perm_insertionSort _ tokens

/-! ### The exact search -/

/-- What `search` returns is the `best` it was given or an exact extension of `selected`. -/
lemma search_sound (amount : Int) (rest selected : List Token) (total : Int)
    (best : Option (List Token)) :
    search amount rest selected total best = best ∨
      ∃ chosen, chosen.Sublist rest ∧ total + totalValue chosen = amount ∧
        search amount rest selected total best = some (selected ++ chosen) := by
  induction rest generalizing selected total best with
  | nil =>
    rw [search_nil]
    split_ifs with hexact hshorter hover
    · exact .inr ⟨[], .slnil, by simpa using hexact, by simp⟩
    all_goals exact .inl rfl
  | cons token rest ih =>
    rw [search_cons]
    split_ifs with hexact hshorter hover hlong
    · exact .inr ⟨[], List.nil_sublist _, by simpa using hexact, by simp⟩
    · exact .inl rfl
    · exact .inl rfl
    · exact .inl rfl
    · -- the branch without `token` runs last, with the other branch's result as `best`
      rcases ih selected total
          (search amount rest (selected ++ [token]) (total + token.value) best) with
        hskip | ⟨chosen, hsub, hsum, hres⟩
      · rw [hskip]
        rcases ih (selected ++ [token]) (total + token.value) best with
          htake | ⟨chosen, hsub, hsum, hres⟩
        · exact .inl htake
        · refine .inr ⟨token :: chosen, hsub.cons_cons token, ?_, by simpa using hres⟩
          rw [totalValue_cons]
          omega
      · exact .inr ⟨chosen, hsub.cons token, hsum, hres⟩

/-- `search` never returns something longer than the `best` it was given. -/
lemma search_length_le (amount : Int) (rest selected : List Token) (total : Int)
    (b : List Token) :
    ∃ b', search amount rest selected total (some b) = some b' ∧ b'.length ≤ b.length := by
  induction rest generalizing selected total b with
  | nil =>
    rw [search_nil]
    split_ifs with hexact hshorter hover
    · exact ⟨selected, rfl, by simpa using Nat.le_of_lt (of_decide_eq_true hshorter)⟩
    all_goals exact ⟨b, rfl, le_rfl⟩
  | cons token rest ih =>
    rw [search_cons]
    split_ifs with hexact hshorter hover hlong
    · exact ⟨selected, rfl, by simpa using Nat.le_of_lt (of_decide_eq_true hshorter)⟩
    · exact ⟨b, rfl, le_rfl⟩
    · exact ⟨b, rfl, le_rfl⟩
    · exact ⟨b, rfl, le_rfl⟩
    · obtain ⟨b₁, hb₁, hle₁⟩ := ih (selected ++ [token]) (total + token.value) b
      obtain ⟨b₂, hb₂, hle₂⟩ := ih selected total b₁
      rw [hb₁]
      exact ⟨b₂, hb₂, hle₂.trans hle₁⟩

/-- No exact extension of `selected` is shorter than what `search` returns. -/
lemma search_complete {amount : Int} {rest chosen : List Token} (selected : List Token)
    {total : Int} (best : Option (List Token)) (hrest : Nonnegative rest) (hsub : chosen.Sublist rest)
    (hsum : total + totalValue chosen = amount) :
    ∃ b, search amount rest selected total best = some b ∧
      b.length ≤ selected.length + chosen.length := by
  have hnonneg := (hrest.sublist hsub).totalValue_nonneg
  induction rest generalizing selected chosen total best with
  | nil =>
    obtain rfl := List.eq_nil_of_sublist_nil hsub
    have hexact : total = amount := by simpa using hsum
    rw [search_nil, if_pos hexact]
    cases best with
    | none => exact ⟨selected, rfl, by simp⟩
    | some b =>
      by_cases hshorter : selected.length < b.length
      · exact ⟨selected, by simp [hshorter], by simp⟩
      · exact ⟨b, by simp [hshorter], by simp; omega⟩
  | cons token rest ih =>
    rw [search_cons]
    by_cases hexact : total = amount
    · rw [if_pos hexact]
      cases best with
      | none => exact ⟨selected, rfl, by simp⟩
      | some b =>
        by_cases hshorter : selected.length < b.length
        · exact ⟨selected, by simp [hshorter], by simp⟩
        · exact ⟨b, by simp [hshorter], by omega⟩
    · rw [if_neg hexact, if_neg (by omega)]
      split_ifs with hlong
      · obtain ⟨b, rfl, hb⟩ : ∃ b, best = some b ∧ b.length ≤ selected.length := by
          simpa [Option.any_eq_true] using hlong
        exact ⟨b, rfl, by omega⟩
      · have hrest' : Nonnegative rest := hrest.sublist (List.sublist_cons_self token rest)
        rcases List.sublist_cons_iff.mp hsub with hskip | ⟨chosen', rfl, htake⟩
        · exact ih selected _ hrest' hskip hsum (hrest'.sublist hskip).totalValue_nonneg
        · rw [totalValue_cons, ← add_assoc] at hsum
          obtain ⟨b₁, hb₁, hle₁⟩ := ih (selected ++ [token]) best hrest' htake hsum
            (hrest'.sublist htake).totalValue_nonneg
          obtain ⟨b₂, hb₂, hle₂⟩ := search_length_le amount rest selected total b₁
          rw [hb₁]
          simp only [List.length_append, List.length_cons, List.length_nil] at hle₁ ⊢
          exact ⟨b₂, hb₂, by omega⟩

/-- What `_find_exact_token_subset` returns is an exact subset, whatever the values. -/
lemma findExactTokenSubset_sublist {tokens chosen : List Token} {amount : Int}
    (h : findExactTokenSubset tokens amount = some chosen) :
    chosen.Sublist tokens ∧ totalValue chosen = amount := by
  rcases search_sound amount tokens [] 0 none with hnone | ⟨b, hsub, hsum, hb⟩
  · exact absurd (h.symm.trans hnone) (by simp)
  · obtain rfl : chosen = b := by simpa using h.symm.trans hb
    exact ⟨hsub, by simpa using hsum⟩

/-- `_find_exact_token_subset` finds a smallest exact subset. -/
theorem findExactTokenSubset_eq_some {tokens chosen : List Token} {amount : Int}
    (htokens : Nonnegative tokens) (h : findExactTokenSubset tokens amount = some chosen) :
    chosen.Sublist tokens ∧ totalValue chosen = amount ∧
      ∀ other, other.Sublist tokens → totalValue other = amount →
        chosen.length ≤ other.length := by
  have hshortest : ∀ other, other.Sublist tokens → totalValue other = amount →
      chosen.length ≤ other.length := by
    intro other hsub hsum
    obtain ⟨b, hb, hle⟩ := search_complete [] none htokens hsub
      (by simpa using hsum : 0 + totalValue other = amount)
    obtain rfl : chosen = b := Option.some.inj (h.symm.trans hb)
    simpa using hle
  obtain ⟨hsub, hsum⟩ := findExactTokenSubset_sublist h
  exact ⟨hsub, hsum, hshortest⟩

/-- `_find_exact_token_subset` finds nothing only when there is no exact subset. -/
theorem findExactTokenSubset_eq_none_iff {tokens : List Token} {amount : Int}
    (htokens : Nonnegative tokens) :
    findExactTokenSubset tokens amount = none ↔ ¬ HasExactSubset tokens amount := by
  constructor
  · rintro hnone ⟨chosen, hsub, hsum⟩
    obtain ⟨b, hb, -⟩ := search_complete [] none htokens hsub
      (by simpa using hsum : 0 + totalValue chosen = amount)
    exact absurd (hnone.symm.trans hb) (by simp)
  · intro hno
    cases hfind : findExactTokenSubset tokens amount with
    | none => rfl
    | some chosen =>
      obtain ⟨hsub, hsum, -⟩ := findExactTokenSubset_eq_some htokens hfind
      exact absurd ⟨chosen, hsub, hsum⟩ hno

/-! ### The greedy cover -/

lemma takeUntilCovered_eq_ok_iff {amount total : Int} {rest selected chosen : List Token} :
    takeUntilCovered amount rest selected total = .ok chosen ↔
      coverFrom Token.value amount rest selected total = some chosen := by
  induction rest generalizing selected total with
  | nil => simp [takeUntilCovered, coverFrom]
  | cons token rest ih =>
    rw [takeUntilCovered, coverFrom]
    split_ifs with hcovered
    · simp
    · exact ih

/-- The sum reached by adding values one after the other to `total` until it is at least
`amount`. -/
def leastCover (amount : Int) : List Token → Int → Int
  | [], total => total
  | token :: rest, total =>
    if total + token.value ≥ amount then total + token.value
    else leastCover amount rest (total + token.value)

lemma takeUntilCovered_eq_ok {amount : Int} {rest selected chosen : List Token} {total : Int}
    (h : takeUntilCovered amount rest selected total = .ok chosen) :
    ∃ taken, taken.Sublist rest ∧ chosen = selected ++ taken ∧
      total + totalValue taken = leastCover amount rest total ∧
      amount ≤ total + totalValue taken := by
  induction rest generalizing selected total with
  | nil => cases h
  | cons token rest ih =>
    rw [takeUntilCovered] at h
    rw [leastCover]
    split_ifs at h ⊢ with hcovered
    · cases h
      exact ⟨[token], by simp, rfl, by simp, by simpa using hcovered⟩
    · obtain ⟨taken, hsub, rfl, hsum, hle⟩ := ih h
      refine ⟨token :: taken, hsub.cons_cons token, by simp, ?_, ?_⟩ <;>
        rw [totalValue_cons] <;> omega

/-! ### The selection -/

/-- The tokens `select_tokens` returns: different tokens of the wallet, of the exact amount if
that is possible and otherwise of the sum of the greedy cover. -/
structure Wallet.Selects (w : Wallet) (amount : Int) (chosen : List Token) : Prop where
  subperm : chosen.Subperm w.utr.items
  covers : amount ≤ totalValue chosen
  exact_iff : totalValue chosen = amount ↔ HasExactSubset w.utr.items amount
  cover : ¬ HasExactSubset w.utr.items amount →
    totalValue chosen = leastCover amount (ascending w.utr.items) 0

/-- The two ways `select_tokens` can answer: an exact selection, or the greedy cover after the
search found none. -/
lemma Wallet.selectTokens_cases {w : Wallet} {amount : Int} {chosen : List Token}
    (h : w.selectTokens amount = .ok chosen) :
    chosen.Subperm w.utr.items ∧ (totalValue chosen = amount ∨
      findExactTokenSubset (ascending w.utr.items) amount = none ∧ amount ≤ totalValue chosen ∧
        totalValue chosen = leastCover amount (ascending w.utr.items) 0) := by
  have hsub_of : chosen.Sublist (ascending w.utr.items) → chosen.Subperm w.utr.items :=
    fun hsub => hsub.subperm.trans (ascending_perm _).subperm
  rw [selectTokens] at h
  split_ifs at h with hneg hzero
  · cases h
    exact ⟨hsub_of (List.nil_sublist _), .inl hzero.symm⟩
  · dsimp only at h
    cases hfind : findExactTokenSubset (ascending w.utr.items) amount with
    | some exact =>
      rw [hfind] at h
      obtain rfl : exact = chosen := by simpa using h
      obtain ⟨hsub, hsum⟩ := findExactTokenSubset_sublist hfind
      exact ⟨hsub_of hsub, .inl hsum⟩
    | none =>
      rw [hfind] at h
      obtain ⟨taken, hsub, htaken, hsum, hle⟩ := takeUntilCovered_eq_ok h
      obtain rfl : chosen = taken := by simpa using htaken
      exact ⟨hsub_of hsub, .inr ⟨rfl, by simpa using hle, by simpa using hsum⟩⟩

/-- The specification of a `select_tokens` that returns. -/
theorem Wallet.selects_of_selectTokens {w : Wallet} {amount : Int} {chosen : List Token}
    (hutr : Nonnegative w.utr.items) (h : w.selectTokens amount = .ok chosen) :
    w.Selects amount chosen := by
  have hsorted : Nonnegative (ascending w.utr.items) := fun t ht =>
    hutr t ((ascending_perm _).mem_iff.mp ht)
  obtain ⟨hsub, hsum | ⟨hnone, hle, hcover⟩⟩ := selectTokens_cases h
  · have hex : HasExactSubset w.utr.items amount := hsum ▸ .of_subperm hsub
    exact ⟨hsub, hsum.ge, iff_of_true hsum hex, fun hno => absurd hex hno⟩
  · have hno : ¬ HasExactSubset w.utr.items amount := fun hex =>
      (findExactTokenSubset_eq_none_iff hsorted).mp hnone (hex.perm (ascending_perm _).symm)
    exact ⟨hsub, hle, ⟨fun hsum => hsum ▸ .of_subperm hsub, fun hex => absurd hex hno⟩,
      fun _ => hcover⟩

/-! ### Selections that return -/

/-- A wallet selects tokens for every amount that it has. -/
lemma Wallet.exists_selectTokens {w : Wallet} {amount : Int} (hamount : 0 ≤ amount)
    (hcovers : amount ≤ totalValue w.utr.items) : ∃ chosen, w.selectTokens amount = .ok chosen := by
  rw [selectTokens, if_neg (Int.not_lt.mpr hamount)]
  split_ifs with hzero
  · exact ⟨[], rfl⟩
  · dsimp only
    cases findExactTokenSubset (ascending w.utr.items) amount with
    | some chosen => exact ⟨chosen, rfl⟩
    | none =>
      have htotal : totalValue (ascending w.utr.items) = totalValue w.utr.items :=
        totalValue_perm (ascending_perm _)
      obtain ⟨chosen, hcover⟩ : ∃ chosen,
          coverFrom Token.value amount (ascending w.utr.items) [] 0 = some chosen :=
        exists_coverFrom (by omega) (by rw [← totalValue, htotal]; omega) []
      exact ⟨chosen, takeUntilCovered_eq_ok_iff.mpr hcover⟩

end PocketCash.Canonical
