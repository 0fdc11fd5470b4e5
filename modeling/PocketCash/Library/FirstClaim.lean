import PocketCash.Library.KeyedList
import PocketCash.Library.Run

/-!
# First valid claims

Claims about objects are filed one after the other. A claim stands if it is valid and no earlier
claim about its object stands; all others are turned down and forgotten. So the standing claim about
an object is the first valid one, whatever else was filed.
-/

namespace PocketCash

variable {κ α : Type*} [DecidableEq κ] {object : α → κ} (valid : α → Prop) [DecidablePred valid]

/-- File the claim `a` when the claims in `d` stand. -/
def fileClaim (d : KeyedList object) (a : α) : KeyedList object :=
  if valid a ∧ object a ∉ d.keys then d.put a else d

variable (object) in
/-- The claims that stand after `claims` were filed. -/
def standing (claims : List α) : KeyedList object := runFrom (fileClaim valid) .empty claims

variable {valid}

lemma fileClaim_of_stands {d : KeyedList object} {a : α} (h : valid a ∧ object a ∉ d.keys) :
    (fileClaim valid d a).items = d.items ++ [a] := by
  rw [fileClaim, if_pos h]
  exact KeyedList.items_put_of_notMem h.2

lemma fileClaim_of_turnedDown {d : KeyedList object} {a : α} (h : ¬ (valid a ∧ object a ∉ d.keys)) :
    fileClaim valid d a = d :=
  if_neg h

/-- Filing a claim fills the place of its object if that is free. -/
lemma find?_fileClaim (d : KeyedList object) (a : α) (k : κ) :
    (fileClaim valid d a).find? k
      = (d.find? k).or (if valid a ∧ object a = k then some a else none) := by
  by_cases h : valid a ∧ object a ∉ d.keys
  · rw [fileClaim, if_pos h, KeyedList.find?_put]
    by_cases hk : object a = k
    · subst hk
      rw [if_pos rfl, if_pos ⟨h.1, rfl⟩, KeyedList.find?_eq_none_iff.mpr h.2]
      rfl
    · rw [if_neg (Ne.symm hk), if_neg fun h' => hk h'.2, Option.or_none]
  · rw [fileClaim_of_turnedDown h]
    split_ifs with hk
    · obtain ⟨hvalid, rfl⟩ := hk
      obtain ⟨b, hb⟩ := KeyedList.mem_keys_iff_find?.mp (not_not.mp fun hnot => h ⟨hvalid, hnot⟩)
      rw [hb]
      rfl
    · rw [Option.or_none]

lemma find?_runFrom_fileClaim (d : KeyedList object) (claims : List α) (k : κ) :
    (runFrom (fileClaim valid) d claims).find? k
      = (d.find? k).or (claims.find? fun a => valid a ∧ object a = k) := by
  induction claims generalizing d with
  | nil => simp
  | cons a claims ih =>
    rw [runFrom_cons, ih, find?_fileClaim, Option.or_assoc, List.find?_cons]
    congr 1
    by_cases h : valid a ∧ object a = k <;> simp [h]

/-- The standing claim about an object is the first valid one. -/
theorem find?_standing (claims : List α) (k : κ) :
    (standing object valid claims).find? k = claims.find? fun a => valid a ∧ object a = k :=
  find?_runFrom_fileClaim .empty claims k

/-- A claim stands about an object exactly if some claim about it is valid. -/
theorem mem_keys_standing {claims : List α} {k : κ} :
    k ∈ (standing object valid claims).keys ↔ ∃ a ∈ claims, valid a ∧ object a = k := by
  rw [KeyedList.mem_keys_iff_find?, find?_standing, ← Option.isSome_iff_exists, List.find?_isSome]
  simp

lemma standing_concat (claims : List α) (a : α) :
    standing object valid (claims ++ [a]) = fileClaim valid (standing object valid claims) a :=
  runFrom_append _ _ _ _

/-- Once a claim stands, it stands for ever. -/
lemma find?_standing_append {claims : List α} {k : κ} {a : α}
    (h : (standing object valid claims).find? k = some a) (later : List α) :
    (standing object valid (claims ++ later)).find? k = some a := by
  rw [find?_standing] at h ⊢
  rw [List.find?_append, h]
  rfl

/-- The objects claimed do not depend on the order of the claims. -/
theorem keys_standing_perm {claims claims' : List α} (h : claims.Perm claims') :
    (standing object valid claims).keys.Perm (standing object valid claims').keys := by
  refine (List.perm_ext_iff_of_nodup (KeyedList.keys_nodup _) (KeyedList.keys_nodup _)).mpr
    fun k => ?_
  rw [mem_keys_standing, mem_keys_standing]
  simp only [h.mem_iff]

end PocketCash
