import Mathlib.Data.List.Nodup
import Mathlib.Tactic.Common

/-!
# The order of a depth-first search for sublists

A search that decides one element after the other, and tries first to take it, meets the sublists
of a list in the order `Precedes`. If it also keeps the first of the shortest solutions it has met,
it prefers solutions in the order `Prefers`.
-/

namespace PocketCash

variable {α : Type*}

/-- At the first element of the list in which two sublists differ, it is the first that has it. -/
inductive Precedes : List α → List α → List α → Prop
  | takes {a : α} {l chosen other : List α} :
      chosen.Sublist l → other.Sublist l → Precedes (a :: l) (a :: chosen) other
  | both {a : α} {l chosen other : List α} :
      Precedes l chosen other → Precedes (a :: l) (a :: chosen) (a :: other)
  | neither {a : α} {l chosen other : List α} :
      Precedes l chosen other → Precedes (a :: l) chosen other

namespace Precedes

variable {a : α} {l chosen other : List α}

lemma sublist (h : Precedes l chosen other) : chosen.Sublist l ∧ other.Sublist l := by
  induction h with
  | takes hchosen hother => exact ⟨hchosen.cons_cons _, hother.cons _⟩
  | both _ ih => exact ⟨ih.1.cons_cons _, ih.2.cons_cons _⟩
  | neither _ ih => exact ⟨ih.1.cons _, ih.2.cons _⟩

/-- A sublist of the rest of a list does not start with its first element. -/
lemma ne_cons (hnodup : (a :: l).Nodup) (hother : other.Sublist l) : other ≠ a :: chosen := by
  rintro rfl
  exact (List.nodup_cons.mp hnodup).1 (hother.subset List.mem_cons_self)

/-- What comes before a sublist that takes the first element takes it too. -/
lemma cons_inv (hnodup : (a :: l).Nodup) (h : Precedes (a :: l) other (a :: chosen)) :
    ∃ rest, other = a :: rest ∧ Precedes l rest chosen := by
  cases h with
  | takes _ hchosen => exact absurd rfl (ne_cons hnodup hchosen)
  | both h => exact ⟨_, rfl, h⟩
  | neither h => exact absurd rfl (ne_cons hnodup h.sublist.2)

lemma asymm (hnodup : l.Nodup) (h : Precedes l chosen other) : ¬ Precedes l other chosen := by
  intro h'
  induction h with
  | takes _ hother =>
    obtain ⟨rest, rfl, -⟩ := cons_inv hnodup h'
    exact absurd rfl (ne_cons hnodup hother)
  | both h ih =>
    obtain ⟨rest, heq, hrest⟩ := cons_inv hnodup h'
    cases heq
    exact ih hnodup.of_cons hrest
  | neither h ih =>
    cases h' with
    | takes => exact absurd rfl (ne_cons hnodup h.sublist.2)
    | both => exact absurd rfl (ne_cons hnodup h.sublist.1)
    | neither h' => exact ih hnodup.of_cons h'

end Precedes

/-- The first sublist is shorter, or equally long and met first. -/
def Prefers (l chosen other : List α) : Prop :=
  chosen.length < other.length ∨ chosen.length = other.length ∧ Precedes l chosen other

namespace Prefers

variable {a : α} {l chosen other : List α}

lemma length_le (h : Prefers l chosen other) : chosen.length ≤ other.length := by
  rcases h with hlt | ⟨heq, -⟩
  · exact Nat.le_of_lt hlt
  · exact Nat.le_of_eq heq

lemma asymm (hnodup : l.Nodup) (h : Prefers l chosen other) : ¬ Prefers l other chosen := by
  rcases h with hlt | ⟨heq, hprecedes⟩
  · rintro (hlt' | ⟨heq', -⟩) <;> omega
  · rintro (hlt' | ⟨-, hprecedes'⟩)
    · omega
    · exact hprecedes.asymm hnodup hprecedes'

lemma both (h : Prefers l chosen other) : Prefers (a :: l) (a :: chosen) (a :: other) := by
  rcases h with hlt | ⟨heq, hprecedes⟩
  · exact .inl (by simpa using hlt)
  · exact .inr ⟨by simpa using heq, hprecedes.both⟩

lemma neither (h : Prefers l chosen other) : Prefers (a :: l) chosen other := by
  rcases h with hlt | ⟨heq, hprecedes⟩
  · exact .inl hlt
  · exact .inr ⟨heq, hprecedes.neither⟩

/-- The branch that takes an element is searched first. -/
lemma takes (hchosen : chosen.Sublist l) (hother : other.Sublist l)
    (hle : chosen.length < other.length) : Prefers (a :: l) (a :: chosen) other := by
  rcases Nat.eq_or_lt_of_le hle with heq | hlt
  · exact .inr ⟨by simpa using heq, .takes hchosen hother⟩
  · exact .inl (by simpa using hlt)

end Prefers

end PocketCash
