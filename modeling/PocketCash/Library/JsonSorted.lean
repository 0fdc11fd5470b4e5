import Mathlib.Data.List.Sort
import Mathlib.Data.String.Basic
import PocketCash.Library.JsonFormat

/-!
# JSON documents with sorted keys

`json.dumps(j, sort_keys=True, separators=(",", ":"))`. Sorting permutes the fields of each
dictionary, and what is read under a key does not depend on their order.
-/

namespace PocketCash

namespace Json

/-! ### Fields up to their order -/

lemma lookup_eq_some_iff {fields : List (String × Json)} (hnodup : (fields.map Prod.fst).Nodup)
    {key : String} {value : Json} : fields.lookup key = some value ↔ (key, value) ∈ fields := by
  induction fields with
  | nil => simp
  | cons field fields ih =>
    obtain ⟨key', value'⟩ := field
    rw [List.map_cons, List.nodup_cons] at hnodup
    rw [List.mem_cons, Prod.mk.injEq]
    by_cases hkey : key = key'
    · subst hkey
      have hnot : (key, value) ∉ fields := fun hmem =>
        hnodup.1 (List.mem_map.mpr ⟨(key, value), hmem, rfl⟩)
      simp [hnot, eq_comm]
    · have hbeq : (key == key') = false := beq_false_of_ne hkey
      simp [List.lookup_cons, hbeq, hkey, ih hnodup.2]

lemma lookup_perm {fields fields' : List (String × Json)} (hnodup : (fields.map Prod.fst).Nodup)
    (h : fields.Perm fields') (key : String) : fields.lookup key = fields'.lookup key := by
  have hnodup' := (h.map Prod.fst).nodup_iff.mp hnodup
  ext value
  rw [lookup_eq_some_iff hnodup, lookup_eq_some_iff hnodup', h.mem_iff]

/-- The keys of a dictionary, in order. -/
def keys : Json → List String
  | .dict fields => fields.map Prod.fst
  | _ => []

/-- Entries whose keys are in one order are in one order. -/
lemma eq_of_perm_of_keys {fields fields' : List (String × Json)} (hperm : fields.Perm fields')
    (hkeys : fields.map Prod.fst = fields'.map Prod.fst) (hnodup : (fields.map Prod.fst).Nodup) :
    fields = fields' := by
  induction fields generalizing fields' with
  | nil => exact hperm.nil_eq
  | cons field fields ih =>
    cases fields' with
    | nil => cases hkeys
    | cons field' fields' =>
      obtain ⟨-, hrest⟩ := List.cons.inj hkeys
      rw [List.map_cons, List.nodup_cons] at hnodup
      rcases List.mem_cons.mp (hperm.subset List.mem_cons_self) with rfl | hlater
      · rw [ih hperm.cons_inv hrest hnodup.2]
      · exact absurd (hrest ▸ List.mem_map_of_mem hlater) hnodup.1

/-- The same dictionary, with its fields in another order. -/
def SameFields (j j' : Json) : Prop :=
  ∃ fields fields', j = .dict fields ∧ j' = .dict fields' ∧ fields.Perm fields' ∧
    (fields.map Prod.fst).Nodup

namespace SameFields

variable {j j' : Json}

lemma getItem (h : SameFields j j') (key : String) : j.getItem key = j'.getItem key := by
  obtain ⟨fields, fields', rfl, rfl, hperm, hnodup⟩ := h
  rw [Json.getItem, Json.getItem, lookup_perm hnodup hperm]

lemma kwarg (h : SameFields j j') (key : String) : j.kwarg key = j'.kwarg key := by
  rw [Json.kwarg, Json.kwarg, h.getItem]

lemma get (h : SameFields j j') (key : String) (default : Json) :
    j.get key default = j'.get key default := by
  obtain ⟨fields, fields', rfl, rfl, hperm, hnodup⟩ := h
  rw [Json.get, Json.get, lookup_perm hnodup hperm]

lemma checkKwargs (h : SameFields j j') (names : List String) :
    Json.checkKwargs names j = Json.checkKwargs names j' := by
  obtain ⟨fields, fields', rfl, rfl, hperm, -⟩ := h
  have hall : (fields.all fun field => decide (field.1 ∈ names))
      = fields'.all fun field => decide (field.1 ∈ names) := hperm.all_eq
  rw [Json.checkKwargs, Json.checkKwargs, hall]

lemma symm (h : SameFields j j') : SameFields j' j := by
  obtain ⟨fields, fields', rfl, rfl, hperm, hnodup⟩ := h
  exact ⟨fields', fields, rfl, rfl, hperm.symm, (hperm.map Prod.fst).nodup_iff.mp hnodup⟩

lemma trans {j'' : Json} (h : SameFields j j') (h' : SameFields j' j'') : SameFields j j'' := by
  obtain ⟨fields, fields', rfl, rfl, hperm, hnodup⟩ := h
  obtain ⟨_, fields'', heq, rfl, hperm', -⟩ := h'
  obtain rfl := Json.dict.inj heq
  exact ⟨fields, fields'', rfl, rfl, hperm.trans hperm', hnodup⟩

/-- The same fields in the same order of keys. -/
lemma eq_of_keys (h : SameFields j j') (hkeys : j.keys = j'.keys) : j = j' := by
  obtain ⟨fields, fields', rfl, rfl, hperm, hnodup⟩ := h
  rw [eq_of_perm_of_keys hperm hkeys hnodup]

end SameFields

end Json

namespace JsonEncoding

/-! ### Sorting -/

/-- Fields in the order of their keys. -/
def byKey (fields : List (String × Json)) : List (String × Json) :=
  fields.insertionSort fun field field' => field.1 ≤ field'.1

lemma byKey_perm (fields : List (String × Json)) : (byKey fields).Perm fields :=
  List.perm_insertionSort _ fields

mutual

/-- The document with all its dictionaries sorted. -/
def sortKeys : Json → Json
  | .null => .null
  | .bool b => .bool b
  | .int n => .int n
  | .float text => .float text
  | .str s => .str s
  | .list items => .list (sortItems items)
  | .dict fields => .dict (byKey (sortFields fields))

def sortItems : List Json → List Json
  | [] => []
  | item :: rest => sortKeys item :: sortItems rest

def sortFields : List (String × Json) → List (String × Json)
  | [] => []
  | (key, value) :: rest => (key, sortKeys value) :: sortFields rest

end

lemma sortItems_eq_map (items : List Json) : sortItems items = items.map sortKeys := by
  induction items with
  | nil => rfl
  | cons item items ih => rw [sortItems, ih, List.map_cons]

lemma sortFields_eq_map (fields : List (String × Json)) :
    sortFields fields = fields.map fun field => (field.1, sortKeys field.2) := by
  induction fields with
  | nil => rfl
  | cons field fields ih => rw [sortFields, ih, List.map_cons]

lemma map_fst_sortFields (fields : List (String × Json)) :
    (sortFields fields).map Prod.fst = fields.map Prod.fst := by
  rw [sortFields_eq_map, List.map_map]
  rfl

/-- Sorting keeps a document well formed. -/
lemma WellFormed.sortKeys {j : Json} (h : WellFormed j) : WellFormed (sortKeys j) := by
  induction h with
  | null => exact .null
  | bool b => exact .bool b
  | int n => exact .int n
  | float htext => exact .float htext
  | str s => exact .str s
  | @list items _ ih =>
    rw [JsonEncoding.sortKeys, sortItems_eq_map]
    exact .list (List.forall_mem_map.mpr ih)
  | @dict fields _ hnodup ih =>
    have hperm := byKey_perm (sortFields fields)
    rw [JsonEncoding.sortKeys]
    apply WellFormed.dict
    · intro field hfield
      rw [hperm.mem_iff, sortFields_eq_map] at hfield
      obtain ⟨field', hfield', rfl⟩ := List.mem_map.mp hfield
      exact ih field' hfield'
    · rw [(hperm.map Prod.fst).nodup_iff, map_fst_sortFields]
      exact hnodup

/-- A sorted dictionary without dictionaries inside is the same, up to the order of its fields. -/
lemma sameFields_sortKeys {fields : List (String × Json)}
    (hflat : ∀ field ∈ fields, sortKeys field.2 = field.2)
    (hnodup : (fields.map Prod.fst).Nodup) :
    Json.SameFields (sortKeys (.dict fields)) (.dict fields) := by
  have hfields : sortFields fields = fields := by
    rw [sortFields_eq_map]
    refine (List.map_congr_left fun field hfield => ?_).trans (List.map_id _)
    rw [hflat field hfield]
    rfl
  have hperm := byKey_perm fields
  rw [sortKeys, hfields]
  exact ⟨_, _, rfl, rfl, hperm, (hperm.map Prod.fst).nodup_iff.mpr hnodup⟩

/-- A sorted dictionary is the same as the one whose values alone are sorted. -/
lemma sameFields_sortFields {fields : List (String × Json)} (hnodup : (fields.map Prod.fst).Nodup) :
    Json.SameFields (sortKeys (.dict fields)) (.dict (sortFields fields)) := by
  have hperm := byKey_perm (sortFields fields)
  refine ⟨byKey (sortFields fields), sortFields fields, by rw [sortKeys], rfl, hperm, ?_⟩
  rw [(hperm.map Prod.fst).nodup_iff, map_fst_sortFields]
  exact hnodup

/-- Entries with different keys have one order. -/
lemma eq_of_perm_of_sorted {ν : Type*} {l l' : List (String × ν)} (h : l.Perm l')
    (hnodup : (l.map Prod.fst).Nodup) (hl : l.Pairwise fun e e' => e.1 ≤ e'.1)
    (hl' : l'.Pairwise fun e e' => e.1 ≤ e'.1) : l = l' := by
  refine List.Perm.eq_of_pairwise (fun e e' he he' hle hle' => ?_) hl hl' h
  exact List.inj_on_of_nodup_map hnodup he (h.mem_iff.mpr he') (le_antisymm hle hle')

/-- Sorting does not depend on the order that was there. -/
lemma insertionSort_eq_of_perm {ν : Type*} {l l' : List (String × ν)} (h : l.Perm l')
    (hnodup : (l.map Prod.fst).Nodup) :
    l.insertionSort (fun e e' => e.1 ≤ e'.1) = l'.insertionSort fun e e' => e.1 ≤ e'.1 := by
  have hsort := List.perm_insertionSort (fun e e' : String × ν => e.1 ≤ e'.1) l
  have hsort' := List.perm_insertionSort (fun e e' : String × ν => e.1 ≤ e'.1) l'
  apply eq_of_perm_of_sorted (hsort.trans (h.trans hsort'.symm))
  · exact (hsort.map Prod.fst).nodup_iff.mpr hnodup
  · exact List.pairwise_insertionSort _ l
  · exact List.pairwise_insertionSort _ l'

/-- A dictionary whose values are sorted is sorted by putting its fields in order. -/
lemma sortKeys_dict_eq {fields sorted : List (String × Json)} (hperm : (sortFields fields).Perm sorted)
    (hsorted : (sorted.map Prod.fst).Pairwise (· < ·)) : sortKeys (.dict fields) = .dict sorted := by
  have hlt := List.pairwise_map.mp hsorted
  have hle : sorted.Pairwise fun field field' => field.1 ≤ field'.1 := hlt.imp fun h => h.le
  have hnodup : (sorted.map Prod.fst).Nodup := hsorted.imp fun h => h.ne
  rw [sortKeys, byKey, insertionSort_eq_of_perm hperm ((hperm.map Prod.fst).nodup_iff.mpr hnodup),
    hle.insertionSort_eq]

lemma byKey_byKey (fields : List (String × Json)) : byKey (byKey fields) = byKey fields := by
  have hsorted := List.pairwise_insertionSort
    (fun field field' : String × Json => field.1 ≤ field'.1) fields
  exact hsorted.insertionSort_eq

lemma sortFields_byKey (fields : List (String × Json)) :
    sortFields (byKey fields) = byKey (sortFields fields) := by
  rw [sortFields_eq_map, sortFields_eq_map, byKey, byKey]
  exact List.map_insertionSort _ _ _ _ fun _ _ _ _ => Iff.rfl

/-- Sorting a second time changes nothing. -/
lemma sortKeys_sortKeys {j : Json} (h : WellFormed j) : sortKeys (sortKeys j) = sortKeys j := by
  induction h with
  | null | bool | int | float | str => rfl
  | @list items _ ih =>
    rw [sortKeys, sortKeys, sortItems_eq_map, sortItems_eq_map, List.map_map]
    exact congrArg Json.list (List.map_congr_left ih)
  | @dict fields _ _ ih =>
    have hvalues : sortFields (sortFields fields) = sortFields fields := by
      rw [sortFields_eq_map, sortFields_eq_map, List.map_map]
      exact List.map_congr_left fun field hfield => Prod.ext rfl (ih field hfield)
    rw [sortKeys, sortKeys, sortFields_byKey, hvalues, byKey_byKey]

/-- A dictionary written from entries: the entries in the order of their keys. -/
lemma byKey_sortFields_map {ν : Type*} (write : ν → Json) (entries : List (String × ν)) :
    byKey (sortFields (entries.map fun e => (e.1, write e.2)))
      = (entries.insertionSort fun e e' => e.1 ≤ e'.1).map fun e => (e.1, sortKeys (write e.2)) := by
  rw [sortFields_eq_map, List.map_map, byKey]
  symm
  apply List.map_insertionSort
  exact fun _ _ _ _ => Iff.rfl

/-- `json.dumps(j, sort_keys=True, separators=(",", ":")).encode("utf-8")`. -/
def sortedBytes (j : Json) : Bytes := documentBytes (sortKeys j)

theorem loadDocument_sortedBytes {j : Json} (h : WellFormed j) :
    loadDocument (sortedBytes j) = .ok (sortKeys j) :=
  loadDocument_documentBytes h.sortKeys

/-! ### Flat dictionaries -/

/-- A value that is not a collection. -/
inductive IsPlain : Json → Prop
  | null : IsPlain .null
  | int (n : Int) : IsPlain (.int n)
  | str (s : String) : IsPlain (.str s)

lemma IsPlain.ofOptStr (s : Option String) : IsPlain (.ofOptStr s) := by
  cases s with
  | none => exact .null
  | some s => exact .str s

lemma IsPlain.wellFormed {j : Json} (h : IsPlain j) : WellFormed j := by
  cases h with
  | null => exact .null
  | int n => exact .int n
  | str s => exact .str s

lemma IsPlain.sortKeys {j : Json} (h : IsPlain j) : sortKeys j = j := by
  cases h <;> rfl

/-- A dictionary of plain values under different keys. -/
inductive IsFlat : Json → Prop
  | dict {fields : List (String × Json)} : (∀ field ∈ fields, IsPlain field.2) →
      (fields.map Prod.fst).Nodup → IsFlat (.dict fields)

namespace IsFlat

variable {j j' : Json}

lemma wellFormed (h : IsFlat j) : WellFormed j := by
  obtain ⟨hplain, hnodup⟩ := h
  exact .dict (fun field hfield => (hplain field hfield).wellFormed) hnodup

lemma sameFields_sortKeys (h : IsFlat j) : Json.SameFields (sortKeys j) j := by
  obtain ⟨hplain, hnodup⟩ := h
  exact JsonEncoding.sameFields_sortKeys (fun field hfield => (hplain field hfield).sortKeys) hnodup

/-- The bytes of a flat dictionary determine it, up to the order of its fields. -/
theorem sameFields_of_sortedBytes_eq (h : IsFlat j) (h' : IsFlat j')
    (hbytes : sortedBytes j = sortedBytes j') : Json.SameFields j j' := by
  have hsort := documentBytes_inj h.wellFormed.sortKeys h'.wellFormed.sortKeys hbytes
  have hsame := h'.sameFields_sortKeys
  rw [← hsort] at hsame
  exact h.sameFields_sortKeys.symm.trans hsame

/-- Where the keys are in one order, there is nothing else to tell apart. -/
lemma eq_of_sortedBytes_eq (h : IsFlat j) (h' : IsFlat j') (hkeys : j.keys = j'.keys)
    (hbytes : sortedBytes j = sortedBytes j') : j = j' :=
  (h.sameFields_of_sortedBytes_eq h' hbytes).eq_of_keys hkeys

end IsFlat

end JsonEncoding

end PocketCash
