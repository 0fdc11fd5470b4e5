import Mathlib.Data.List.Induction
import Mathlib.Tactic.Common

/-!
# Hash-linked lists

A list in which every record names the digest of the record before it, and only the first record
names none. If no two records that occur have one digest, then the digest of the last record fixes
the list: the records agree from the end backwards, and the lists end together, because a record
that names no parent can only be the first.
-/

namespace PocketCash

variable {R H : Type*}

/-- The first record of the list names `previous` as its parent, each other record the digest of
the record before it. -/
def HashLinked (digest : R → H) (parent : R → Option H) : Option H → List R → Prop
  | _, [] => True
  | previous, r :: rest => parent r = previous ∧ HashLinked digest parent (some (digest r)) rest

namespace HashLinked

variable {digest : R → H} {parent : R → Option H} {previous : Option H} {l l' : List R} {r : R}

/-- The parent of a record is the digest of the last record of the list before it. -/
lemma concat_iff : HashLinked digest parent previous (l ++ [r]) ↔
    HashLinked digest parent previous l ∧
      parent r = (l.getLast?.map digest).or previous := by
  induction l generalizing previous with
  | nil => simp [HashLinked]
  | cons first rest ih =>
    have hlast : ((first :: rest).getLast?.map digest).or previous
        = (rest.getLast?.map digest).or (some (digest first)) := by
      rw [List.getLast?_cons]
      cases rest.getLast? <;> rfl
    rw [List.cons_append, HashLinked, HashLinked, ih, hlast, and_assoc]

/-- The last digest fixes the list. -/
theorem eq_of_getLast? (hinj : ∀ r ∈ l, ∀ r' ∈ l', digest r = digest r' → r = r')
    (h : HashLinked digest parent none l) (h' : HashLinked digest parent none l')
    (hlast : l.getLast?.map digest = l'.getLast?.map digest) : l = l' := by
  -- from the last record backwards
  induction l using List.reverseRecOn generalizing l' with
  | nil =>
    cases l' using List.reverseRecOn with
    | nil => rfl
    | append_singleton rest' r' => simp at hlast
  | append_singleton rest r ih =>
    cases l' using List.reverseRecOn with
    | nil => simp at hlast
    | append_singleton rest' r' =>
      have hdigest : digest r = digest r' := by simpa using hlast
      obtain rfl : r = r' := hinj r (by simp) r' (by simp) hdigest
      rw [concat_iff, Option.or_none] at h h'
      have hrest : rest = rest' := by
        apply ih _ h.1 h'.1 (h.2.symm.trans h'.2)
        intro s hs s' hs'
        exact hinj s (List.mem_append_left _ hs) s' (List.mem_append_left _ hs')
      rw [hrest]

end HashLinked

end PocketCash
