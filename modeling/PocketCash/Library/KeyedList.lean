import Mathlib.Data.List.Nodup
import Mathlib.Data.List.Perm.Basic
import Mathlib.Tactic.Common

/-!
# Insertion-ordered keyed collections

A `KeyedList key` is a list of items, each stored under the key it carries itself, with no two
items under one key. It is the value of an insertion-ordered dictionary whose entries are only
ever written as `d[key a] = a`: writing an existing key replaces the item in place, a new key is
appended at the end.

A dictionary from `κ` to `ν` is the special case of pairs keyed by their first component.
-/

namespace PocketCash

/-- Items listed in insertion order, pairwise different in their `key`. -/
structure KeyedList {κ α : Type*} (key : α → κ) where
  items : List α
  nodup : (items.map key).Nodup

/-- Among items with different keys, at most one has a given key. -/
lemma length_filter_key_le_one {κ α : Type*} [DecidableEq κ] {key : α → κ} {l : List α}
    (h : (l.map key).Nodup) (k : κ) : (l.filter fun a => key a = k).length ≤ 1 := by
  have hcount := List.nodup_iff_count_le_one.mp h k
  rwa [List.count, List.countP_map, List.countP_eq_length_filter] at hcount

namespace KeyedList

variable {κ α : Type*} {key : α → κ}

@[ext] lemma ext {d e : KeyedList key} (h : d.items = e.items) : d = e := by
  cases d; cases e; cases h; rfl

instance [DecidableEq α] : DecidableEq (KeyedList key) := fun _ _ =>
  decidable_of_iff _ KeyedList.ext_iff.symm

/-- The collection without items. -/
def empty : KeyedList key := ⟨[], by simp⟩

/-- The keys in insertion order. -/
def keys (d : KeyedList key) : List κ := d.items.map key

@[simp] lemma keys_empty : (empty : KeyedList key).keys = [] := rfl

lemma keys_nodup (d : KeyedList key) : d.keys.Nodup := d.nodup

lemma mem_keys {d : KeyedList key} {k : κ} : k ∈ d.keys ↔ ∃ a ∈ d.items, key a = k := by
  simp [keys]

lemma key_mem_keys {d : KeyedList key} {a : α} (h : a ∈ d.items) : key a ∈ d.keys :=
  List.mem_map_of_mem h

/-- Two stored items under one key are the same item. -/
lemma eq_of_key_eq {d : KeyedList key} {a b : α} (ha : a ∈ d.items) (hb : b ∈ d.items)
    (h : key a = key b) : a = b :=
  List.inj_on_of_nodup_map d.nodup ha hb h

/-- Lists of stored items are equal when their keys are. -/
lemma eq_of_map_key_eq {d : KeyedList key} {l l' : List α} (hl : ∀ a ∈ l, a ∈ d.items)
    (hl' : ∀ a ∈ l', a ∈ d.items) (h : l.map key = l'.map key) : l = l' := by
  induction l generalizing l' with
  | nil => simpa using h.symm
  | cons a l ih =>
    cases l' with
    | nil => simp at h
    | cons a' l' =>
      simp only [List.map_cons, List.cons.injEq] at h
      simp only [List.forall_mem_cons] at hl hl'
      rw [eq_of_key_eq hl.1 hl'.1 h.1, ih hl.2 hl'.2 h.2]

lemma items_nodup (d : KeyedList key) : d.items.Nodup := List.Nodup.of_map key d.nodup

variable [DecidableEq κ]

/-! ### Lookup -/

/-- The item stored under `k`. -/
def find? (d : KeyedList key) (k : κ) : Option α := d.items.find? fun a => key a = k

lemma find?_eq_some_iff {d : KeyedList key} {k : κ} {a : α} :
    d.find? k = some a ↔ a ∈ d.items ∧ key a = k := by
  have hsound : ∀ b, d.find? k = some b → b ∈ d.items ∧ key b = k := fun b hb =>
    ⟨List.mem_of_find?_eq_some hb, by simpa using List.find?_some hb⟩
  refine ⟨hsound a, ?_⟩
  rintro ⟨ha, hk⟩
  cases hf : d.find? k with
  | none => exact absurd hk (by simpa using List.find?_eq_none.mp hf a ha)
  | some b =>
    obtain ⟨hb, hbk⟩ := hsound b hf
    rw [eq_of_key_eq hb ha (hbk.trans hk.symm)]

lemma find?_eq_none_iff {d : KeyedList key} {k : κ} : d.find? k = none ↔ k ∉ d.keys := by
  simp [find?, mem_keys]

lemma find?_of_mem {d : KeyedList key} {a : α} (h : a ∈ d.items) : d.find? (key a) = some a :=
  find?_eq_some_iff.mpr ⟨h, rfl⟩

lemma mem_keys_iff_find? {d : KeyedList key} {k : κ} : k ∈ d.keys ↔ ∃ a, d.find? k = some a := by
  rw [← Option.isSome_iff_exists, ← Option.ne_none_iff_isSome, Ne, find?_eq_none_iff, not_not]

/-- The order of the items does not matter for lookup. -/
lemma find?_perm {d e : KeyedList key} (h : d.items.Perm e.items) (k : κ) :
    d.find? k = e.find? k := by
  ext a
  rw [find?_eq_some_iff, find?_eq_some_iff, h.mem_iff]

/-- An item stays where more items are appended. -/
lemma find?_of_items_append {d e : KeyedList key} {l : List α} (hitems : e.items = d.items ++ l)
    {k : κ} {a : α} (h : d.find? k = some a) : e.find? k = some a := by
  obtain ⟨hmem, hk⟩ := find?_eq_some_iff.mp h
  exact find?_eq_some_iff.mpr ⟨hitems ▸ List.mem_append_left _ hmem, hk⟩

/-! ### Removal -/

/-- Remove the item stored under `k`, if any. -/
def pop (d : KeyedList key) (k : κ) : KeyedList key where
  items := d.items.filter fun a => key a ≠ k
  nodup := d.nodup.sublist (List.filter_sublist.map key)

lemma mem_pop {d : KeyedList key} {k : κ} {a : α} :
    a ∈ (d.pop k).items ↔ a ∈ d.items ∧ key a ≠ k := by
  simp [pop]

lemma mem_keys_pop {d : KeyedList key} {k k' : κ} :
    k' ∈ (d.pop k).keys ↔ k' ∈ d.keys ∧ k' ≠ k := by
  simp only [mem_keys, mem_pop]
  constructor
  · rintro ⟨a, ⟨ha, hne⟩, rfl⟩
    exact ⟨⟨a, ha, rfl⟩, hne⟩
  · rintro ⟨⟨a, ha, rfl⟩, hne⟩
    exact ⟨a, ⟨ha, hne⟩, rfl⟩

lemma find?_pop {d : KeyedList key} {k k' : κ} :
    (d.pop k).find? k' = if k' = k then none else d.find? k' := by
  split_ifs with h
  · rw [find?_eq_none_iff, mem_keys_pop]
    exact fun hk => hk.2 h
  · ext a
    simp only [find?_eq_some_iff, mem_pop]
    constructor
    · rintro ⟨⟨ha, -⟩, hk⟩
      exact ⟨ha, hk⟩
    · rintro ⟨ha, rfl⟩
      exact ⟨⟨ha, h⟩, rfl⟩

/-- Popping a stored item splits it off the list of items. -/
lemma perm_pop {d : KeyedList key} {k : κ} {a : α} (h : d.find? k = some a) :
    d.items.Perm (a :: (d.pop k).items) := by
  obtain ⟨ha, rfl⟩ := find?_eq_some_iff.mp h
  have hand : a ∉ (d.pop (key a)).items := fun hmem => (mem_pop.mp hmem).2 rfl
  refine (List.perm_ext_iff_of_nodup d.items_nodup
    (List.nodup_cons.mpr ⟨hand, items_nodup _⟩)).mpr fun b => ?_
  rw [List.mem_cons, mem_pop]
  constructor
  · intro hb
    by_cases hk : key b = key a
    · exact .inl (eq_of_key_eq hb ha hk)
    · exact .inr ⟨hb, hk⟩
  · rintro (rfl | ⟨hb, -⟩)
    · exact ha
    · exact hb

/-! ### Writing -/

/-- Store `a` under its key: in place when the key is present, at the end otherwise. -/
def put (d : KeyedList key) (a : α) : KeyedList key where
  items := if key a ∈ d.keys then d.items.map fun b => if key b = key a then a else b
    else d.items ++ [a]
  nodup := by
    split_ifs with h
    · have hsame : (d.items.map fun b => if key b = key a then a else b).map key
          = d.items.map key := by
        rw [List.map_map]
        apply List.map_congr_left
        intro b _
        by_cases hb : key b = key a <;> simp [hb]
      rw [hsame]
      exact d.nodup
    · rw [List.map_append, List.nodup_append]
      refine ⟨d.nodup, by simp, ?_⟩
      rintro k hk _ hka rfl
      simp only [List.map_cons, List.map_nil, List.mem_singleton] at hka
      subst hka
      exact h hk

/-- A new key goes to the end. -/
lemma items_put_of_notMem {d : KeyedList key} {a : α} (h : key a ∉ d.keys) :
    (d.put a).items = d.items ++ [a] := by
  simp [put, h]

/-- A known key stays in its place. -/
lemma items_put_of_mem {d : KeyedList key} {a : α} (h : key a ∈ d.keys) :
    (d.put a).items = d.items.map fun b => if key b = key a then a else b := by
  simp [put, h]

/-- Storing new items under new keys appends them. -/
lemma items_foldl_put {d : KeyedList key} {l : List α} (h : (d.keys ++ l.map key).Nodup) :
    (l.foldl put d).items = d.items ++ l := by
  induction l generalizing d with
  | nil => simp
  | cons a l ih =>
    have ha : key a ∉ d.keys := fun hmem =>
      (List.nodup_append.mp h).2.2 _ hmem _ (by simp) rfl
    have hitems := items_put_of_notMem ha
    rw [List.foldl_cons, ih, hitems, List.append_assoc]
    · rfl
    · simpa [keys, hitems] using h

lemma mem_put {d : KeyedList key} {a b : α} :
    b ∈ (d.put a).items ↔ b = a ∨ (b ∈ d.items ∧ key b ≠ key a) := by
  by_cases h : key a ∈ d.keys
  · obtain ⟨c, hc, hca⟩ := mem_keys.mp h
    simp only [put, if_pos h, List.mem_map]
    constructor
    · rintro ⟨e, he, rfl⟩
      by_cases hk : key e = key a
      · exact .inl (if_pos hk)
      · rw [if_neg hk]
        exact .inr ⟨he, hk⟩
    · rintro (rfl | ⟨hb, hk⟩)
      · exact ⟨c, hc, if_pos hca⟩
      · exact ⟨b, hb, if_neg hk⟩
  · rw [items_put_of_notMem h, List.mem_append, List.mem_singleton]
    constructor
    · rintro (hb | rfl)
      · exact .inr ⟨hb, fun hk => h (hk ▸ key_mem_keys hb)⟩
      · exact .inl rfl
    · rintro (rfl | ⟨hb, -⟩)
      · exact .inr rfl
      · exact .inl hb

/-- What holds of all items and of a new one holds after storing it. -/
lemma forall_mem_put {d : KeyedList key} {a : α} {p : α → Prop} (h : ∀ b ∈ d.items, p b)
    (ha : p a) : ∀ b ∈ (d.put a).items, p b := by
  intro b hb
  rcases mem_put.mp hb with rfl | ⟨hmem, -⟩
  · exact ha
  · exact h b hmem

lemma mem_keys_put {d : KeyedList key} {a : α} {k : κ} :
    k ∈ (d.put a).keys ↔ k = key a ∨ k ∈ d.keys := by
  simp only [mem_keys, mem_put]
  constructor
  · rintro ⟨b, rfl | ⟨hb, -⟩, rfl⟩
    · exact .inl rfl
    · exact .inr ⟨b, hb, rfl⟩
  · rintro (rfl | ⟨b, hb, rfl⟩)
    · exact ⟨a, .inl rfl, rfl⟩
    · by_cases hk : key b = key a
      · exact ⟨a, .inl rfl, hk.symm⟩
      · exact ⟨b, .inr ⟨hb, hk⟩, rfl⟩

lemma find?_put {d : KeyedList key} {a : α} {k : κ} :
    (d.put a).find? k = if k = key a then some a else d.find? k := by
  split_ifs with h
  · exact find?_eq_some_iff.mpr ⟨mem_put.mpr (.inl rfl), h.symm⟩
  · ext b
    simp only [find?_eq_some_iff, mem_put]
    constructor
    · rintro ⟨rfl | ⟨hb, -⟩, hk⟩
      · exact absurd hk.symm h
      · exact ⟨hb, hk⟩
    · rintro ⟨hb, rfl⟩
      exact ⟨.inr ⟨hb, h⟩, rfl⟩

@[simp] lemma find?_put_self {d : KeyedList key} {a : α} : (d.put a).find? (key a) = some a := by
  simp [find?_put]

lemma find?_put_put {d : KeyedList key} {a b : α} (h : key a ≠ key b) :
    ((d.put a).put b).find? (key a) = some a := by
  rw [find?_put, if_neg h, find?_put_self]

/-- Storing an item makes it stand beside the items under other keys. -/
lemma perm_put (d : KeyedList key) (a : α) : (d.put a).items.Perm (a :: (d.pop (key a)).items) := by
  have hand : a ∉ (d.pop (key a)).items := fun hmem => (mem_pop.mp hmem).2 rfl
  refine (List.perm_ext_iff_of_nodup (items_nodup _)
    (List.nodup_cons.mpr ⟨hand, items_nodup _⟩)).mpr fun b => ?_
  rw [List.mem_cons, mem_put, mem_pop]

lemma pop_perm_pop {d e : KeyedList key} (h : d.items.Perm e.items) (k : κ) :
    (d.pop k).items.Perm (e.pop k).items := h.filter _

lemma put_perm_put {d e : KeyedList key} (h : d.items.Perm e.items) (a : α) :
    (d.put a).items.Perm (e.put a).items :=
  (perm_put d a).trans (((pop_perm_pop h _).cons a).trans (perm_put e a).symm)

/-- Putting a stored item back after it was popped moves it to the end. -/
lemma perm_put_pop {d : KeyedList key} {a : α} (h : d.find? (key a) = some a) :
    ((d.pop (key a)).put a).items.Perm d.items := by
  rw [items_put_of_notMem fun hmem => (mem_keys_pop.mp hmem).2 rfl]
  exact (List.perm_append_singleton _ _).trans (perm_pop h).symm

/-- Of two writes under one key, the second counts. -/
lemma put_put {d : KeyedList key} {a b : α} (h : key a = key b) : (d.put a).put b = d.put b := by
  have hmem : key b ∈ (d.put a).keys := mem_keys_put.mpr (.inl h.symm)
  apply ext
  rw [items_put_of_mem hmem]
  by_cases hold : key b ∈ d.keys
  · rw [items_put_of_mem hold, items_put_of_mem (h ▸ hold), List.map_map]
    apply List.map_congr_left
    intro c _
    by_cases hc : key c = key b <;> simp [hc, h]
  · have hothers : ∀ c ∈ d.items, (if key c = key b then b else c) = c := fun c hc =>
      if_neg fun hkey : key c = key b => hold (hkey ▸ key_mem_keys hc)
    rw [items_put_of_notMem hold, items_put_of_notMem (h ▸ hold), List.map_append,
      List.map_congr_left hothers]
    simp [h]

/-- Storing an item that is stored changes nothing. -/
lemma put_of_find? {d : KeyedList key} {a : α} (h : d.find? (key a) = some a) : d.put a = d := by
  obtain ⟨hmem, -⟩ := find?_eq_some_iff.mp h
  apply ext
  rw [items_put_of_mem (key_mem_keys hmem)]
  refine (List.map_congr_left fun b hb => ?_).trans (List.map_id _)
  split_ifs with hkey
  · exact eq_of_key_eq hmem hb hkey.symm
  · rfl

/-- A stored item leaves with its key. -/
lemma pop_put {d : KeyedList key} {a : α} : (d.put a).pop (key a) = d.pop (key a) := by
  apply ext
  show (d.put a).items.filter _ = d.items.filter _
  by_cases hmem : key a ∈ d.keys
  · have hkey : ∀ b, key (if key b = key a then a else b) = key b := by
      intro b
      split_ifs with hb
      · exact hb.symm
      · rfl
    have hfilter : ((fun b => decide (key b ≠ key a)) ∘ fun b => if key b = key a then a else b)
        = fun b => decide (key b ≠ key a) := by
      funext b
      rw [Function.comp_apply, hkey]
    rw [items_put_of_mem hmem, List.filter_map, hfilter]
    refine (List.map_congr_left fun b hb => ?_).trans (List.map_id _)
    rw [List.mem_filter, decide_eq_true_eq] at hb
    exact if_neg hb.2
  · rw [items_put_of_notMem hmem, List.filter_append]
    simp

/-- Popping stored items splits them off the list of items. -/
lemma perm_foldl_pop {d : KeyedList key} {l : List α} (hl : ∀ a ∈ l, a ∈ d.items)
    (hnodup : (l.map key).Nodup) :
    d.items.Perm (l ++ (l.foldl (fun d a => d.pop (key a)) d).items) := by
  induction l generalizing d with
  | nil => simp
  | cons a l ih =>
    rw [List.map_cons, List.nodup_cons] at hnodup
    rw [List.forall_mem_cons] at hl
    have hrest : ∀ b ∈ l, b ∈ (d.pop (key a)).items := fun b hb =>
      mem_pop.mpr ⟨hl.2 b hb, fun hkey => hnodup.1 (hkey ▸ List.mem_map_of_mem hb)⟩
    exact (perm_pop (find?_of_mem hl.1)).trans ((ih hrest hnodup.2).cons a)

lemma count_keys_put {d : KeyedList key} {a : α} (h : key a ∉ d.keys) (k : κ) :
    (d.put a).keys.count k = d.keys.count k + if key a = k then 1 else 0 := by
  rw [keys, items_put_of_notMem h, List.map_append, List.count_append, keys]
  simp [List.count_singleton]

lemma count_keys_pop {d : KeyedList key} {k : κ} {a : α} (h : d.find? k = some a) (k' : κ) :
    d.keys.count k' = (d.pop k).keys.count k' + if key a = k' then 1 else 0 := by
  rw [keys, ((perm_pop h).map key).count_eq, List.map_cons, List.count_cons, keys]
  simp

/-- Exchanging a stored item changes what all items together hold in its part only. -/
lemma exists_flatMap_put {β : Type*} {d : KeyedList key} {a a' : α} (f : α → List β)
    (h : d.find? (key a') = some a) :
    ∃ rest, (d.items.flatMap f).Perm (f a ++ rest) ∧
      ((d.put a').items.flatMap f).Perm (f a' ++ rest) :=
  ⟨(d.pop (key a')).items.flatMap f, (perm_pop h).flatMap_right f, (d.perm_put a').flatMap_right f⟩

/-- If an item is exchanged and what it holds then is, together with what is outside, what it held
before together with what was outside, and something new, then only the new is added to all that is
held and outside. -/
lemma perm_flatMap_put_append {β : Type*} {d : KeyedList key} {a a' : α} {f : α → List β}
    (h : d.find? (key a') = some a) {new outside outside' : List β}
    (hmoved : (f a' ++ outside').Perm (new ++ (f a ++ outside))) :
    ((d.put a').items.flatMap f ++ outside').Perm (new ++ (d.items.flatMap f ++ outside)) := by
  classical
  obtain ⟨rest, hbefore, hafter⟩ := exists_flatMap_put f h
  rw [List.perm_iff_count] at hbefore hafter hmoved ⊢
  intro b
  have hbefore := hbefore b
  have hafter := hafter b
  have hmoved := hmoved b
  simp only [List.count_append] at hbefore hafter hmoved
  simp only [List.count_append, hbefore, hafter]
  omega

end KeyedList

/-! ### Dictionaries -/

/-- An insertion-ordered dictionary. -/
abbrev Dict (κ ν : Type*) := KeyedList (Prod.fst : κ × ν → κ)

namespace Dict

variable {κ ν : Type*} [DecidableEq κ]

/-- `d.get(k)`. -/
def get? (d : Dict κ ν) (k : κ) : Option ν := (d.find? k).map Prod.snd

/-- `d[k] = v`. -/
def set (d : Dict κ ν) (k : κ) (v : ν) : Dict κ ν := d.put (k, v)

lemma get?_eq_none_iff {d : Dict κ ν} {k : κ} : d.get? k = none ↔ k ∉ d.keys := by
  simp [get?, KeyedList.find?_eq_none_iff]

lemma get?_eq_some_iff {d : Dict κ ν} {k : κ} {v : ν} : d.get? k = some v ↔ (k, v) ∈ d.items := by
  constructor
  · intro h
    obtain ⟨⟨k', v'⟩, hfind, rfl⟩ := Option.map_eq_some_iff.mp h
    obtain ⟨hmem, rfl⟩ := KeyedList.find?_eq_some_iff.mp hfind
    exact hmem
  · intro h
    rw [get?, KeyedList.find?_eq_some_iff.mpr ⟨h, rfl⟩]
    rfl

@[simp] lemma get?_empty (k : κ) : get? (KeyedList.empty : Dict κ ν) k = none := rfl

lemma get?_set {d : Dict κ ν} {k k' : κ} {v : ν} :
    (d.set k v).get? k' = if k' = k then some v else d.get? k' := by
  rw [get?, set]
  rw [KeyedList.find?_put]
  split_ifs <;> rfl

lemma get?_pop {d : Dict κ ν} {k k' : κ} :
    get? (KeyedList.pop d k) k' = if k' = k then none else d.get? k' := by
  rw [get?]
  rw [KeyedList.find?_pop]
  split_ifs <;> rfl

lemma get?_perm {d e : Dict κ ν} (h : d.items.Perm e.items) (k : κ) : d.get? k = e.get? k := by
  rw [get?, get?, KeyedList.find?_perm h]

/-- Dictionaries that answer alike hold the same items. -/
lemma perm_of_get? {d e : Dict κ ν} (h : ∀ k, d.get? k = e.get? k) : d.items.Perm e.items := by
  refine (List.perm_ext_iff_of_nodup (KeyedList.items_nodup d) (KeyedList.items_nodup e)).mpr ?_
  rintro ⟨k, v⟩
  rw [← get?_eq_some_iff, ← get?_eq_some_iff, h]

lemma mem_keys_iff_get? {d : Dict κ ν} {k : κ} : k ∈ d.keys ↔ ∃ v, d.get? k = some v := by
  rw [← not_iff_not, ← get?_eq_none_iff, Option.eq_none_iff_forall_not_mem]
  simp

lemma mem_keys_set {d : Dict κ ν} {k k' : κ} {v : ν} :
    k' ∈ (d.set k v).keys ↔ k' = k ∨ k' ∈ d.keys :=
  KeyedList.mem_keys_put

/-- A new key goes to the end. -/
lemma keys_set_of_notMem {d : Dict κ ν} {k : κ} {v : ν} (h : k ∉ d.keys) :
    (d.set k v).keys = d.keys ++ [k] := by
  rw [set, KeyedList.keys, KeyedList.items_put_of_notMem h, List.map_append]
  rfl

/-- Writing the value that is there changes nothing. -/
lemma set_of_get? {d : Dict κ ν} {k : κ} {v : ν} (h : d.get? k = some v) : d.set k v = d := by
  obtain ⟨entry, hentry, rfl⟩ := Option.map_eq_some_iff.mp h
  obtain ⟨-, rfl⟩ := KeyedList.find?_eq_some_iff.mp hentry
  exact KeyedList.put_of_find? hentry

/-- One value is written under several keys. -/
lemma get?_foldl_set {d : Dict κ ν} {ks : List κ} {v : ν} {k : κ} :
    (ks.foldl (fun d k => d.set k v) d).get? k = if k ∈ ks then some v else d.get? k := by
  induction ks generalizing d with
  | nil => rfl
  | cons k' ks ih =>
    rw [List.foldl_cons, ih, get?_set]
    by_cases hk : k ∈ ks
    · rw [if_pos hk, if_pos (List.mem_cons_of_mem _ hk)]
    · by_cases heq : k = k' <;> simp [hk, heq]

/-- Nothing changes exactly if the value is there already under all of them. -/
lemma foldl_set_eq_iff {d : Dict κ ν} {ks : List κ} {v : ν} :
    ks.foldl (fun d k => d.set k v) d = d ↔ ∀ k ∈ ks, d.get? k = some v := by
  constructor
  · intro h k hk
    rw [← h, get?_foldl_set, if_pos hk]
  · intro h
    induction ks with
    | nil => rfl
    | cons k ks ih =>
      obtain ⟨hk, hks⟩ := List.forall_mem_cons.mp h
      rw [List.foldl_cons, set_of_get? hk, ih hks]

/-- What is appended to the list under a key is found there, and under no other key. -/
lemma exists_mem_set_append {d : Dict κ (List ν)} {k k' : κ} {v v' : ν} :
    (∃ l, (d.set k ((d.get? k).getD [] ++ [v])).get? k' = some l ∧ v' ∈ l) ↔
      (∃ l, d.get? k' = some l ∧ v' ∈ l) ∨ k' = k ∧ v' = v := by
  rw [get?_set]
  by_cases hk : k' = k
  · subst hk
    cases d.get? k' <;> simp
  · simp [hk]

end Dict

end PocketCash
