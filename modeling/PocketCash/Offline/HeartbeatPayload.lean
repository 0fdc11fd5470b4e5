import Mathlib.Data.List.GetD
import Mathlib.Data.String.Basic
import PocketCash.Library.Delimited
import PocketCash.Library.FloatRead
import PocketCash.Offline.Heartbeat

/-!
# What a heartbeat says

The signed text of a heartbeat is the key, the sorted ids and the time with `|` between them, and the
ids have `,` between them. The key and the time contain no `|`, so that the outer two are found
whatever stands in the ids, and ids that are not empty and contain no comma are read one by one.
-/

namespace PocketCash

/-- The characters of a number text. -/
lemma NumberText.mem_text {t : NumberText} {c : Char} (h : c ∈ t.text) :
    (∃ d : Digit, d.char = c) ∨ c ∈ ['.', 'e', '+', '-'] := by
  have hdigits : ∀ ds : List Digit, c ∈ Digit.text ds → ∃ d : Digit, d.char = c := by
    intro ds hmem
    obtain ⟨d, -, hd⟩ := List.mem_map.mp hmem
    exact ⟨d, hd⟩
  have hsign : ∀ negative, NumberText.sign negative ∈ ['.', 'e', '+', '-'] := by
    intro negative
    cases negative <;> decide
  cases t with
  | positional int frac =>
    rcases List.mem_append.mp h with hint | hrest
    · exact .inl (hdigits _ hint)
    · rcases List.mem_cons.mp hrest with rfl | hfrac
      · exact .inr (by simp [NumberText.mark])
      · exact .inl (hdigits _ hfrac)
  | scientific lead rest negative exponent =>
    rcases List.mem_append.mp h with hlead | hrest
    · exact .inl (hdigits _ hlead)
    · rcases List.mem_cons.mp hrest with rfl | htail
      · right
        rw [NumberText.mark]
        split_ifs <;> decide
      · rcases List.mem_append.mp htail with hfraction | hexponent
        · split_ifs at hfraction
          · cases hfraction
          · rcases List.mem_append.mp hfraction with hdigit | he
            · exact .inl (hdigits _ hdigit)
            · rw [List.mem_singleton.mp he]
              exact .inr (by decide)
        · rcases List.mem_cons.mp hexponent with rfl | hdigit
          · exact .inr (hsign negative)
          · exact .inl (hdigits _ hdigit)

lemma PyFloat.bar_notMem_text (x : PyFloat) : '|' ∉ x.text.toList := by
  have hnumber : ∀ t : NumberText, '|' ∉ t.text := by
    intro t hbar
    rcases NumberText.mem_text hbar with ⟨d, hd⟩ | hmark
    · revert d
      decide
    · revert hmark
      decide
  cases x with
  | zero negative => cases negative <;> decide
  | finite negative magnitude =>
    have hmagnitude := hnumber magnitude.printed
    cases negative
    · simpa [PyFloat.text, Decimal.text] using hmagnitude
    · simpa [PyFloat.text, Decimal.text] using hmagnitude

lemma Hex.bar_notMem_encode (bs : Bytes) : '|' ∉ (Hex.encode bs).toList := by
  have hdigit : ∀ n, Hex.digit n ≠ '|' := by
    intro n
    have hall : ∀ i : Fin 16, Hex.digit i ≠ '|' := by decide
    by_cases hn : n < 16
    · exact hall ⟨n, hn⟩
    · rw [Hex.digit, List.getD_eq_default _ _ (by simpa using hn)]
      decide
  rw [Hex.encode, String.toList_ofList, List.mem_flatMap]
  rintro ⟨b, -, hb⟩
  rcases List.mem_pair.mp hb with heq | heq
  · exact hdigit _ heq.symm
  · exact hdigit _ heq.symm

namespace Offline

/-- `repr` of a time is read in one way. -/
lemma Timestamp.text_injective : Function.Injective Timestamp.text := by
  have hread : ∀ (x : PyFloat) (s : String), x.text = s → PyFloat.read s = some x :=
    fun x _ h => h ▸ PyFloat.read_text x
  have hinf : PyFloat.read "inf" = none := by decide
  have hneg : PyFloat.read "-inf" = none := by decide
  have hnan : PyFloat.read "nan" = none := by decide
  have hspecial : ∀ (x : PyFloat) (t : Timestamp), x.text = t.text → number x = t := by
    intro x t h
    cases t with
    | number y => rw [Option.some.inj ((PyFloat.read_text x).symm.trans (hread y _ h.symm))]
    | infinity negative =>
      cases negative
      · cases (hread x _ h).symm.trans hinf
      · cases (hread x _ h).symm.trans hneg
    | nan => cases (hread x _ h).symm.trans hnan
  intro t t' h
  cases t with
  | number x => exact hspecial x t' h
  | infinity negative =>
    cases t' with
    | number y => exact (hspecial y _ h.symm).symm
    | infinity negative' => cases negative <;> cases negative' <;> simp_all [Timestamp.text]
    | nan => cases negative <;> simp [Timestamp.text] at h
  | nan =>
    cases t' with
    | number y => exact (hspecial y _ h.symm).symm
    | infinity negative' => cases negative' <;> simp [Timestamp.text] at h
    | nan => rfl

lemma Timestamp.bar_notMem_text (t : Timestamp) : '|' ∉ t.text.toList := by
  cases t with
  | number x => exact x.bar_notMem_text
  | infinity negative => cases negative <;> decide
  | nan => decide

/-- A token id as `mint_token` draws it: not empty, and without a comma. -/
def Listable (tokenId : String) : Prop := tokenId ≠ "" ∧ ',' ∉ tokenId.toList

/-- The joined ids determine the list of them. -/
lemma commaJoined_inj {ids ids' : List String} (hids : ∀ id ∈ ids, Listable id)
    (hids' : ∀ id ∈ ids', Listable id) (h : ",".intercalate ids = ",".intercalate ids') :
    ids = ids' := by
  have hfields : ∀ l : List String, (∀ id ∈ l, Listable id) →
      ∀ field ∈ l.map String.toList, field ≠ [] ∧ ',' ∉ field := by
    intro l hl
    refine List.forall_mem_map.mpr fun id hid => ⟨fun hempty => ?_, (hl id hid).2⟩
    exact (hl id hid).1 (String.toList_eq_nil_iff.mp hempty)
  have hlist := congrArg String.toList h
  rw [String.toList_intercalate, String.toList_intercalate] at hlist
  exact List.map_injective_iff.mpr (fun _ _ => String.toList_injective)
    (joined_inj (hfields ids hids) (hfields ids' hids') hlist)

/-- Two heartbeats are signed over the same bytes exactly if they have one key, one time, and the same
ids in any order. -/
theorem heartbeatPayload_eq_iff {walletPk walletPk' : Bytes} {ids ids' : List String}
    {timestamp timestamp' : Timestamp} (hids : ∀ id ∈ ids, Listable id)
    (hids' : ∀ id ∈ ids', Listable id) :
    heartbeatPayload walletPk ids timestamp = heartbeatPayload walletPk' ids' timestamp' ↔
      walletPk = walletPk' ∧ timestamp = timestamp' ∧ ids.Perm ids' := by
  have hsorted : ∀ {l : List String}, (∀ id ∈ l, Listable id) →
      ∀ id ∈ l.insertionSort (· ≤ ·), Listable id :=
    fun hl id hid => hl id ((List.mem_insertionSort _).mp hid)
  constructor
  · intro h
    have htext := congrArg String.toList (utf8_injective h)
    simp only [String.toList_append, List.append_assoc] at htext
    obtain ⟨hkey, hrest⟩ := firstField_inj (Hex.bar_notMem_encode walletPk)
      (Hex.bar_notMem_encode walletPk') htext
    obtain ⟨hjoined, htime⟩ := lastField_inj timestamp.bar_notMem_text timestamp'.bar_notMem_text
      hrest
    refine ⟨Hex.encode_injective (String.toList_injective hkey),
      Timestamp.text_injective (String.toList_injective htime), insertionSort_eq_iff.mp ?_⟩
    exact commaJoined_inj (hsorted hids) (hsorted hids') (String.toList_injective hjoined)
  · rintro ⟨rfl, rfl, hperm⟩
    rw [heartbeatPayload, heartbeatPayload, insertionSort_eq_iff.mpr hperm]

/-- An id with the outer separator in it does no harm. -/
theorem heartbeatPayload_eq_iff_reversed :
    heartbeatPayload [0xa1] ["t|1", "t2"] .nan = heartbeatPayload [0xa1] ["t2", "t|1"] .nan :=
  (heartbeatPayload_eq_iff (by simp [Listable]) (by simp [Listable])).mpr
    ⟨rfl, rfl, List.Perm.swap _ _ _⟩

end Offline

end PocketCash
