import Mathlib.Algebra.Order.BigOperators.Group.List
import Mathlib.Algebra.Order.Ring.Int
import Mathlib.Data.List.Sort
import Mathlib.Tactic.Common

/-!
# Greedy covers

To cover an amount, take items from the front of a list until their values reach it. The result is the
shortest prefix that covers the amount.

If the values ascend, no prefix that covers the amount has a smaller total. And an item can be left
out of the shortest one only if the first item can, which happens if some number of items from the
second on reach an amount that as many from the first on do not.
-/

namespace PocketCash

variable {α : Type*} {f : α → Int} {amount : Int} {l chosen : List α}

/-- Take items until `total` and their values together reach the amount. -/
def coverFrom (f : α → Int) (amount : Int) : List α → List α → Int → Option (List α)
  | [], _, _ => none
  | a :: rest, selected, total =>
    if total + f a ≥ amount then some (selected ++ [a])
    else coverFrom f amount rest (selected ++ [a]) (total + f a)

/-- A list whose first items sum to at least the amount, but no fewer of them. -/
structure ShortestCover (f : α → Int) (amount : Int) (l chosen : List α) : Prop where
  initial : chosen <+: l
  covers : amount ≤ (chosen.map f).sum
  short : ∀ p, p <+: l → p.length < chosen.length → (p.map f).sum < amount

/-- The values ascend. -/
def Ascending (f : α → Int) (l : List α) : Prop := l.Pairwise fun a b => f a ≤ f b

lemma ascending_insertionSort (f : α → Int) (l : List α) :
    Ascending f (l.insertionSort fun a b => f a ≤ f b) := by
  have htotal : Std.Total fun a b : α => f a ≤ f b := ⟨fun a b => Int.le_total _ _⟩
  have htrans : IsTrans α fun a b => f a ≤ f b := ⟨fun _ _ _ => Int.le_trans⟩
  exact List.pairwise_insertionSort _ l

/-- A cover takes items from the front. -/
lemma exists_taken_of_coverFrom {selected : List α} {total : Int}
    (h : coverFrom f amount l selected total = some chosen) :
    ∃ taken, chosen = selected ++ taken ∧ taken.Sublist l ∧ amount ≤ total + (taken.map f).sum := by
  induction l generalizing selected total with
  | nil => cases h
  | cons a rest ih =>
    rw [coverFrom] at h
    split_ifs at h with hcovered
    · cases h
      exact ⟨[a], rfl, List.singleton_sublist.mpr List.mem_cons_self, by simpa using hcovered⟩
    · obtain ⟨taken, rfl, hsub, hcovers⟩ := ih h
      refine ⟨a :: taken, by simp, hsub.cons_cons a, ?_⟩
      rw [List.map_cons, List.sum_cons]
      omega

/-- What all items reach is covered. -/
lemma exists_coverFrom {total : Int} (hmissing : total < amount)
    (hcovers : amount ≤ total + (l.map f).sum) (selected : List α) :
    ∃ chosen, coverFrom f amount l selected total = some chosen := by
  induction l generalizing selected total with
  | nil =>
    rw [List.map_nil, List.sum_nil] at hcovers
    omega
  | cons a rest ih =>
    rw [coverFrom]
    split_ifs with hcovered
    · exact ⟨_, rfl⟩
    · rw [List.map_cons, List.sum_cons] at hcovers
      apply ih
      · omega
      · omega

/-- What the greedy loop has passed covers less than the amount. -/
lemma shortestCover_of_coverFrom {rest selected : List α} {total : Int}
    (htotal : total = (selected.map f).sum)
    (hshort : ∀ p, p <+: selected → (p.map f).sum < amount)
    (h : coverFrom f amount rest selected total = some chosen) :
    ShortestCover f amount (selected ++ rest) chosen := by
  induction rest generalizing selected total with
  | nil => cases h
  | cons a rest ih =>
    rw [coverFrom] at h
    have hsum : ((selected ++ [a]).map f).sum = total + f a := by simp [htotal]
    have hsplit : selected ++ a :: rest = (selected ++ [a]) ++ rest := by simp
    split_ifs at h with hcovered
    · cases h
      refine ⟨⟨rest, hsplit.symm⟩, by omega, fun p hp hlength => hshort p ?_⟩
      rw [List.length_append, List.length_singleton] at hlength
      exact List.prefix_of_prefix_length_le hp (List.prefix_append _ _) (by omega)
    · rw [hsplit]
      refine ih hsum.symm (fun p hp => ?_) h
      rcases List.prefix_concat_iff.mp hp with rfl | hp
      · rw [hsum]
        omega
      · exact hshort p hp

theorem shortestCover_of_eq_some (hpos : 0 < amount) (h : coverFrom f amount l [] 0 = some chosen) :
    ShortestCover f amount l chosen := by
  have hshort : ∀ p : List α, p <+: [] → (p.map f).sum < amount := by
    intro p hp
    rw [List.prefix_nil.mp hp]
    exact hpos
  exact shortestCover_of_coverFrom rfl hshort h

namespace ShortestCover

/-- The last item is what was missing. -/
lemma eq_concat (h : ShortestCover f amount l chosen) (hpos : 0 < amount) :
    ∃ passed last, chosen = passed ++ [last] ∧ (passed.map f).sum < amount ∧ 0 < f last := by
  rcases List.eq_nil_or_concat chosen with rfl | ⟨passed, last, rfl⟩
  · exact absurd h.covers (Int.not_le.mpr hpos)
  · rw [List.concat_eq_append] at h ⊢
    have hpassed := h.short passed ((List.prefix_append passed [last]).trans h.initial) (by simp)
    have hcovers := h.covers
    rw [List.map_append, List.sum_append, List.map_singleton, List.sum_singleton] at hcovers
    exact ⟨passed, last, rfl, hpassed, by omega⟩

/-- Among the prefixes of an ascending list that cover the amount, the shortest has the least total. -/
theorem total_le (h : ShortestCover f amount l chosen) (hpos : 0 < amount) (hasc : Ascending f l)
    {p : List α} (hp : p <+: l) (hcovers : amount ≤ (p.map f).sum) :
    (chosen.map f).sum ≤ (p.map f).sum := by
  have hlength : chosen.length ≤ p.length := by
    by_contra hshorter
    exact absurd hcovers (Int.not_le.mpr (h.short p hp (Nat.not_le.mp hshorter)))
  obtain ⟨extra, rfl⟩ := List.prefix_of_prefix_length_le h.initial hp hlength
  obtain ⟨passed, last, rfl, -, hlast⟩ := h.eq_concat hpos
  have hsorted : Ascending f (passed ++ [last] ++ extra) := hasc.sublist hp.sublist
  have hextra : ∀ a ∈ extra, f last ≤ f a :=
    fun a ha => (List.pairwise_append.mp hsorted).2.2 last (by simp) a ha
  have hnonneg : 0 ≤ (extra.map f).sum := List.sum_nonneg (List.forall_mem_map.mpr fun a ha =>
    (hlast.trans_le (hextra a ha)).le)
  simp only [List.map_append, List.sum_append] at hnonneg ⊢
  omega

/-- An item can be left out of the cover only if the first one can. -/
theorem irredundant_iff (h : ShortestCover f amount l chosen) (hpos : 0 < amount)
    (hasc : Ascending f l) :
    (∀ before a after, chosen = before ++ a :: after → ((before ++ after).map f).sum < amount) ↔
      (chosen.tail.map f).sum < amount := by
  have hsorted : Ascending f chosen := hasc.sublist h.initial.sublist
  cases chosen with
  | nil => exact absurd h.covers (Int.not_le.mpr hpos)
  | cons first rest =>
    rw [List.tail_cons]
    refine ⟨fun hall => hall [] first rest rfl, fun hrest before a after hsplit => ?_⟩
    have hfirst : f first ≤ f a := by
      cases before with
      | nil =>
        cases hsplit
        exact le_rfl
      | cons b before =>
        obtain ⟨rfl, rfl⟩ := List.cons.inj hsplit
        exact List.rel_of_pairwise_cons hsorted (by simp)
    have htotal := congrArg (fun l => (l.map f).sum) hsplit
    simp only [List.map_cons, List.sum_cons, List.map_append, List.sum_append] at htotal ⊢
    omega

/-- The first item can be left out exactly if some number of items from the second on reach the
amount and as many from the first on do not. -/
theorem tail_lt_iff (h : ShortestCover f amount l chosen) (hpos : 0 < amount)
    (hnonneg : ∀ a ∈ l, 0 ≤ f a) :
    (chosen.tail.map f).sum < amount ↔
      ∀ k, ((l.take k).map f).sum < amount → ((l.tail.take k).map f).sum < amount := by
  have hmono : ∀ p q : List α, p <+: q → q.Sublist l → (p.map f).sum ≤ (q.map f).sum := by
    intro p q hpq hq
    refine (hpq.sublist.map f).sum_le_sum (List.forall_mem_map.mpr fun a ha => ?_)
    exact hnonneg a (hq.subset ha)
  obtain ⟨passed, last, rfl, hpassed, -⟩ := h.eq_concat hpos
  have htake : passed ++ [last] = l.take (passed.length + 1) := by
    have hprefix := List.prefix_iff_eq_take.mp h.initial
    rwa [List.length_append, List.length_singleton] at hprefix
  have htail : (passed ++ [last]).tail = l.tail.take passed.length := by
    rw [htake, ← List.drop_one, List.drop_take, Nat.add_sub_cancel, List.drop_one]
  rw [htail]
  constructor
  · intro hlt k hk
    have hle : k ≤ passed.length := by
      by_contra hlonger
      have hlonger : l.take (passed.length + 1) <+: l.take k :=
        List.take_prefix_take_left (by omega)
      have hcovers := hmono _ _ hlonger (List.take_sublist k l)
      rw [← htake] at hcovers
      exact absurd (h.covers.trans hcovers) (Int.not_le.mpr hk)
    exact (hmono _ _ (List.take_prefix_take_left hle)
      ((List.take_sublist _ _).trans (List.tail_sublist l))).trans_lt hlt
  · intro hall
    refine hall passed.length (h.short _ (List.take_prefix _ _) ?_)
    rw [List.length_append, List.length_singleton]
    exact Nat.lt_succ_of_le (List.length_take_le _ _)

end ShortestCover

end PocketCash
